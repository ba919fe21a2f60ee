import Veriai.Attestation.Certificate
import Veriai.Receipt.Transparent

/-!
# Attestation documents and their certificate chain

`verify_attestation_doc`: the headers, the leaf, and the walk over the reversed
bundle up to the expected root, with the exact condition under which a document
is accepted.
-/

namespace Veriai

variable (env : Primitives) (lib : CertificateLibrary)

/-- `AttestationError::InvalidAttestationDocument(format!("{context}: {e}"))`. -/
def invalidDocument (context e : String) : AttestationError :=
  .invalidAttestationDocument (context ++ ": " ++ e)

/-- Parse the document's COSE structure and vet its headers. -/
def parseAttestationCose (docBytes : Bytes) : Except AttestationError CoseSign1 := do
  let attestationCose ← (env.coseFromSlice docBytes).mapError .invalidAttestationDocument
  refuseIf (attestationCose.protectedHeader.header.alg ≠ some .es384)
    (.invalidAttestationDocument "Attestation COSE protected header must declare ES384")
  refuseIf attestationCose.unprotected.alg.isSome
    (.invalidAttestationDocument
      "Attestation COSE algorithm must not be in the unprotected header")
  refuseIf (!attestationCose.protectedHeader.header.crit.isEmpty ||
      !attestationCose.unprotected.isEmpty)
    (.invalidAttestationDocument
      "Attestation COSE has unsupported critical or unprotected headers")
  return attestationCose

/-- The leaf's signature over the document. -/
def verifyLeaf (leafCert : Certificate) (attestationCose : CoseSign1) :
    Except AttestationError Unit := do
  let leafVerifyingKey ← (lib.keyFromSec1 leafCert.tbsCertificate.subjectPublicKey).mapError
    (invalidDocument "Invalid public key")
  let attestationSignature ← (lib.signatureFromSlice attestationCose.signature).mapError
    (invalidDocument "Invalid signature bytes")
  let attestationTbs := attestationCose.tbsData env []
  (lib.verifySignature leafVerifyingKey attestationTbs attestationSignature).mapError
    (invalidDocument "Signature validation failed")

/-- One pass of the chain loop up to the root comparison: the parent of the current certificate. -/
def verifyParent (now : SystemTime) (currentCert : Certificate) (subordinateCaCount : Nat)
    (certDer : Bytes) : Except AttestationError Certificate := do
  let parentCert ← (lib.fromDer certDer).mapError (invalidDocument "Invalid parent cert")
  validateCert lib parentCert false subordinateCaCount now
  refuseIf (currentCert.tbsCertificate.issuer ≠ parentCert.tbsCertificate.subject)
    (.validationError "Certificate issuer does not match parent subject")
  let parentVerifyingKey ← (lib.keyFromSec1 parentCert.tbsCertificate.subjectPublicKey).mapError
    (invalidDocument "Invalid parent public key")
  let currentTbs ← (lib.tbsToDer currentCert.tbsCertificate).mapError
    (invalidDocument "Failed to encode TBS")
  let currentSig ← (lib.signatureFromDer currentCert.signature).mapError
    (invalidDocument "Invalid signature DER")
  (lib.verifySignature parentVerifyingKey currentTbs currentSig).mapError
    (invalidDocument "Chain signature validation failed")
  return parentCert

/-- The chain loop over the rest of the reversed bundle: the last current
certificate, and whether the loop broke at the root. -/
def walkBundle (expectedRoot : Bytes) (now : SystemTime) :
    Certificate → Nat → List Bytes → Except AttestationError (Certificate × Bool)
  | currentCert, _, [] => .ok (currentCert, false)
  | currentCert, subordinateCaCount, certDer :: rest => do
    let parentCert ← verifyParent lib now currentCert subordinateCaCount certDer
    let parentDer ← (lib.toDer parentCert).mapError .invalidAttestationDocument
    if parentDer = expectedRoot then return (currentCert, true)
    else walkBundle expectedRoot now parentCert (subordinateCaCount + 1) rest

/-- Whether the walk ended at the root, with the comparison after the loop. -/
def reachesRoot (expectedRoot : Bytes) (currentCert : Certificate) (verified : Bool) :
    Except AttestationError Bool :=
  if verified then .ok true
  else do
    let currentDer ← (lib.toDer currentCert).mapError .invalidAttestationDocument
    return currentDer = expectedRoot

/-- `verify_attestation_doc`. -/
def verifyAttestationDoc (docBytes expectedRoot : Bytes) (now : SystemTime) :
    Except AttestationError AttestationDoc := do
  let attestationCose ← parseAttestationCose env docBytes
  let attestationPayload ← okOr attestationCose.payload
    (.invalidAttestationDocument "Missing payload")
  let doc ← (env.docFromBinary attestationPayload).mapError .invalidAttestationDocument
  let leafCert ← (lib.fromDer doc.certificate).mapError
    (invalidDocument "Failed to parse leaf certificate")
  validateCert lib leafCert true 0 now
  verifyLeaf env lib leafCert attestationCose
  let (currentCert, broke) ← walkBundle lib expectedRoot now leafCert 0 doc.cabundle.reverse
  let verified ← reachesRoot lib expectedRoot currentCert broke
  refuseIf (!verified) (.validationError "Certificate chain does not lead to a trusted root")
  return doc

/-- The document parses with the required headers, and its payload decodes. -/
structure DocumentParses (docBytes : Bytes) (cose : CoseSign1) (doc : AttestationDoc) : Prop where
  parses : env.coseFromSlice docBytes = .ok cose
  alg : cose.protectedHeader.header.alg = some .es384
  crit : cose.protectedHeader.header.crit = []
  unprotected : cose.unprotected = {}
  payload : ∃ payload, cose.payload = some payload ∧ env.docFromBinary payload = .ok doc

/-- The key of the leaf verifies the signature of the document. -/
def LeafSigned (leaf : Certificate) (cose : CoseSign1) : Prop :=
  ∃ key sig, lib.keyFromSec1 leaf.tbsCertificate.subjectPublicKey = .ok key ∧
    lib.signatureFromSlice cose.signature = .ok sig ∧
    lib.verifySignature key (cose.tbsData env []) sig = .ok ()

/-- The parent is named as the issuer of the child, and its key verifies the child's signature. -/
structure Issued (child parent : Certificate) : Prop where
  names : parent.tbsCertificate.subject = child.tbsCertificate.issuer
  signed : ∃ key tbs sig, lib.keyFromSec1 parent.tbsCertificate.subjectPublicKey = .ok key ∧
    lib.tbsToDer child.tbsCertificate = .ok tbs ∧
    lib.signatureFromDer child.signature = .ok sig ∧ lib.verifySignature key tbs sig = .ok ()

/-- A parsed certificate encodes. -/
def ReEncodes : Prop := ∀ der cert, lib.fromDer der = .ok cert → ∃ der', lib.toDer cert = .ok der'

/-- A trust path of length `k` from a certificate over a bundle read from the
leaf's side: `p i` is the certificate `i` steps up. -/
structure TrustPath (now : SystemTime) (expectedRoot : Bytes) (leaf : Certificate)
    (bundle : List Bytes) (k : Nat) (p : Nat → Certificate) : Prop where
  leaf : p 0 = leaf
  parses : ∀ i < k, ∃ der, bundle[i]? = some der ∧ lib.fromDer der = .ok (p (i + 1))
  rules : ∀ i < k, CaRules lib now i (p (i + 1))
  issued : ∀ i < k, Issued lib (p i) (p (i + 1))
  root : lib.toDer (p k) = .ok expectedRoot

variable {env lib} {now : SystemTime} {expectedRoot docBytes : Bytes}

theorem parseAttestationCose_eq_ok {cose : CoseSign1} :
    parseAttestationCose env docBytes = .ok cose ↔ env.coseFromSlice docBytes = .ok cose ∧
      cose.protectedHeader.header.alg = some .es384 ∧ cose.protectedHeader.header.crit = [] ∧
      cose.unprotected = {} := by
  simp only [parseAttestationCose, bind_eq_ok, mapError_eq_ok, refuseIf_eq_ok, ne_eq, not_not,
    pure, Except.pure, Except.ok.injEq, Bool.or_eq_true, Bool.not_eq_true', not_or,
    Bool.not_eq_false, List.isEmpty_iff, Header.isEmpty_iff]
  constructor
  · rintro ⟨_, hparse, _, halg, _, _, _, ⟨hcrit, hun⟩, rfl⟩
    exact ⟨hparse, halg, hcrit, hun⟩
  · rintro ⟨hparse, halg, hcrit, hun⟩
    exact ⟨cose, hparse, (), halg, (), by simp [hun], (), ⟨hcrit, hun⟩, rfl⟩

theorem verifyLeaf_eq_ok {leaf : Certificate} {cose : CoseSign1} :
    verifyLeaf env lib leaf cose = .ok () ↔ LeafSigned env lib leaf cose := by
  simp only [verifyLeaf, LeafSigned, bind_eq_ok, mapError_eq_ok]
  constructor
  · rintro ⟨key, hkey, sig, hsig, hverify⟩
    exact ⟨key, sig, hkey, hsig, hverify⟩
  · rintro ⟨key, sig, hkey, hsig, hverify⟩
    exact ⟨key, hkey, sig, hsig, hverify⟩

/-- One pass of the loop yields the parent exactly when every check of the pass succeeds. -/
theorem verifyParent_eq_ok {current parent : Certificate} {n : Nat} {der : Bytes} :
    verifyParent lib now current n der = .ok parent ↔
      lib.fromDer der = .ok parent ∧ CaRules lib now n parent ∧ Issued lib current parent := by
  simp only [verifyParent, bind_eq_ok, mapError_eq_ok, refuseIf_eq_ok, ne_eq, not_not,
    validateCert_ca, pure, Except.pure, Except.ok.injEq]
  constructor
  · rintro ⟨_, hder, _, hrules, _, hnames, key, hkey, tbs, htbs, sig, hsig, _, hverify, rfl⟩
    exact ⟨hder, hrules, hnames.symm, key, tbs, sig, hkey, htbs, hsig, hverify⟩
  · rintro ⟨hder, hrules, hissued⟩
    obtain ⟨key, tbs, sig, hkey, htbs, hsig, hverify⟩ := hissued.signed
    exact ⟨parent, hder, (), hrules, (), hissued.names.symm, key, hkey, tbs, htbs, sig, hsig, (),
      hverify, rfl⟩

/-- Some certificate above the current one, reached by valid steps, is the root. -/
inductive Anchored (lib : CertificateLibrary) (now : SystemTime) (expectedRoot : Bytes) :
    Certificate → Nat → List Bytes → Prop
  | root {current n der rest parent} : verifyParent lib now current n der = .ok parent →
      lib.toDer parent = .ok expectedRoot → Anchored lib now expectedRoot current n (der :: rest)
  | step {current n der rest parent} : verifyParent lib now current n der = .ok parent →
      Anchored lib now expectedRoot parent (n + 1) rest →
      Anchored lib now expectedRoot current n (der :: rest)

/-- The walk breaks at the root exactly when some certificate above is the root. -/
theorem walkBundle_broke (hencodes : ReEncodes lib) {current : Certificate} {n : Nat}
    {bundle : List Bytes} :
    (∃ last, walkBundle lib expectedRoot now current n bundle = .ok (last, true)) ↔
      Anchored lib now expectedRoot current n bundle := by
  induction bundle generalizing current n with
  | nil =>
    constructor
    · rintro ⟨last, h⟩
      cases h
    · intro h
      cases h
  | cons der rest ih =>
    simp only [walkBundle, bind_eq_ok, mapError_eq_ok]
    constructor
    · rintro ⟨last, parent, hparent, parentDer, hder, h⟩
      by_cases hroot : parentDer = expectedRoot
      · exact .root hparent (hroot ▸ hder)
      · rw [if_neg hroot] at h
        exact .step hparent (ih.mp ⟨last, h⟩)
    · intro h
      cases h with
      | root hparent hder =>
        exact ⟨current, _, hparent, expectedRoot, hder, by rw [if_pos rfl]; rfl⟩
      | @step _ _ _ _ parent hparent habove =>
        obtain ⟨parentDer, hder⟩ := hencodes der parent (verifyParent_eq_ok.mp hparent).1
        obtain ⟨last, h⟩ := ih.mpr habove
        by_cases hroot : parentDer = expectedRoot
        · exact ⟨current, parent, hparent, parentDer, hder, by rw [if_pos hroot]; rfl⟩
        · exact ⟨last, parent, hparent, parentDer, hder, by rw [if_neg hroot]; exact h⟩

/-- A walk that ends without breaking has compared its last certificate with the
root already, unless the bundle is empty. -/
theorem walkBundle_ended {current last : Certificate} {n : Nat} {bundle : List Bytes}
    (h : walkBundle lib expectedRoot now current n bundle = .ok (last, false)) :
    (bundle = [] ∧ last = current) ∨ lib.toDer last ≠ .ok expectedRoot := by
  induction bundle generalizing current n with
  | nil =>
    obtain ⟨rfl, _⟩ := Prod.mk.inj (Except.ok.inj h)
    exact Or.inl ⟨rfl, rfl⟩
  | cons der rest ih =>
    simp only [walkBundle, bind_eq_ok, mapError_eq_ok] at h
    obtain ⟨parent, _, parentDer, hder, h⟩ := h
    by_cases hroot : parentDer = expectedRoot
    · rw [if_pos hroot] at h
      cases h
    · rw [if_neg hroot] at h
      have hne : lib.toDer parent ≠ .ok expectedRoot := by
        intro heq
        exact hroot (Except.ok.inj (hder.symm.trans heq))
      rcases ih h with ⟨_, rfl⟩ | hlast
      · exact Or.inr hne
      · exact Or.inr hlast

/-- The walk and the comparison after it succeed exactly when some certificate
above the leaf is the root, or the bundle is empty and the leaf itself is. -/
theorem walk_reachesRoot (hencodes : ReEncodes lib) {leaf : Certificate} {bundle : List Bytes} :
    (∃ last broke, walkBundle lib expectedRoot now leaf 0 bundle = .ok (last, broke) ∧
        reachesRoot lib expectedRoot last broke = .ok true) ↔
      Anchored lib now expectedRoot leaf 0 bundle ∨
        bundle = [] ∧ lib.toDer leaf = .ok expectedRoot := by
  rw [← walkBundle_broke hencodes]
  constructor
  · rintro ⟨last, broke, hwalk, hreach⟩
    cases broke with
    | true => exact Or.inl ⟨last, hwalk⟩
    | false =>
      simp only [reachesRoot, Bool.false_eq_true, reduceIte, bind_eq_ok, mapError_eq_ok, pure,
        Except.pure, Except.ok.injEq, decide_eq_true_eq] at hreach
      obtain ⟨der, hder, rfl⟩ := hreach
      rcases walkBundle_ended hwalk with ⟨hnil, rfl⟩ | hne
      · exact Or.inr ⟨hnil, hder⟩
      · exact (hne hder).elim
  · rintro (⟨last, hwalk⟩ | ⟨rfl, hder⟩)
    · exact ⟨last, true, hwalk, rfl⟩
    · refine ⟨leaf, false, rfl, ?_⟩
      simp [reachesRoot, hder, Except.mapError, bind, Except.bind, pure, Except.pure]

/-- The path above a certificate, its CA depths counted from `n`. -/
structure PathFrom (lib : CertificateLibrary) (now : SystemTime) (expectedRoot : Bytes)
    (current : Certificate) (n : Nat) (bundle : List Bytes) (k : Nat) (p : Nat → Certificate) :
    Prop where
  start : p 0 = current
  steps : ∀ i < k, ∃ der, bundle[i]? = some der ∧
    verifyParent lib now (p i) (n + i) der = .ok (p (i + 1))
  root : lib.toDer (p k) = .ok expectedRoot

/-- Being anchored means having a nonempty path to the root. -/
theorem anchored_iff {current : Certificate} {n : Nat} {bundle : List Bytes} :
    Anchored lib now expectedRoot current n bundle ↔
      ∃ k p, 1 ≤ k ∧ PathFrom lib now expectedRoot current n bundle k p := by
  constructor
  · intro h
    induction h with
    | @root current n der rest parent hparent hroot =>
      refine ⟨1, fun i => if i = 0 then current else parent, le_rfl, rfl, ?_, hroot⟩
      intro i hi
      obtain rfl : i = 0 := by omega
      exact ⟨der, rfl, hparent⟩
    | @step current n der rest parent hparent _ ih =>
      obtain ⟨k, p, hk, hp⟩ := ih
      refine ⟨k + 1, fun i => i.casesOn current p, by omega, rfl, ?_, hp.root⟩
      intro i hi
      cases i with
      | zero =>
        refine ⟨der, rfl, ?_⟩
        rw [← hp.start] at hparent
        exact hparent
      | succ i =>
        obtain ⟨d, hd, hstep⟩ := hp.steps i (by omega)
        have hdepth : n + 1 + i = n + (i + 1) := by omega
        rw [hdepth] at hstep
        exact ⟨d, hd, hstep⟩
  · rintro ⟨k, p, hk, hp⟩
    induction k generalizing current n bundle p with
    | zero => omega
    | succ k ih =>
      obtain ⟨der, hder, hparent⟩ := hp.steps 0 (by omega)
      cases bundle with
      | nil => cases hder
      | cons d rest =>
        obtain rfl := Option.some.inj hder
        rw [hp.start] at hparent
        by_cases hk0 : k = 0
        · subst hk0
          exact .root hparent hp.root
        · refine .step hparent (ih (fun i => p (i + 1)) (by omega) ⟨rfl, ?_, hp.root⟩)
          intro i hi
          obtain ⟨d', hd', hstep⟩ := hp.steps (i + 1) (by omega)
          have hdepth : n + (i + 1) = n + 1 + i := by omega
          rw [hdepth] at hstep
          exact ⟨d', hd', hstep⟩

/-- A path with depths counted from the leaf is a trust path. -/
theorem pathFrom_zero_iff {leaf : Certificate} {bundle : List Bytes} {k : Nat}
    {p : Nat → Certificate} :
    PathFrom lib now expectedRoot leaf 0 bundle k p ↔
      TrustPath lib now expectedRoot leaf bundle k p := by
  constructor
  · intro h
    have hsteps : ∀ i < k, ∃ der, bundle[i]? = some der ∧ lib.fromDer der = .ok (p (i + 1)) ∧
        CaRules lib now i (p (i + 1)) ∧ Issued lib (p i) (p (i + 1)) := by
      intro i hi
      obtain ⟨der, hder, hstep⟩ := h.steps i hi
      rw [Nat.zero_add, verifyParent_eq_ok] at hstep
      exact ⟨der, hder, hstep⟩
    refine ⟨h.start, ?_, ?_, ?_, h.root⟩
    · intro i hi
      obtain ⟨der, hder, hparse, _⟩ := hsteps i hi
      exact ⟨der, hder, hparse⟩
    · intro i hi
      obtain ⟨_, _, _, hrules, _⟩ := hsteps i hi
      exact hrules
    · intro i hi
      obtain ⟨_, _, _, _, hissued⟩ := hsteps i hi
      exact hissued
  · intro h
    refine ⟨h.leaf, ?_, h.root⟩
    intro i hi
    obtain ⟨der, hder, hparse⟩ := h.parses i hi
    rw [Nat.zero_add]
    exact ⟨der, hder, verifyParent_eq_ok.mpr ⟨hparse, h.rules i hi, h.issued i hi⟩⟩

/-- Chain validation is exact: a document is accepted exactly when it parses with
its headers, its leaf obeys the rules and signed it, and a trust path over the
reversed bundle ends in the expected root, or, with no bundle, the leaf is that root. -/
theorem verifyAttestationDoc_eq_ok (hencodes : ReEncodes lib) {doc : AttestationDoc} :
    verifyAttestationDoc env lib docBytes expectedRoot now = .ok doc ↔
      ∃ cose leaf, DocumentParses env docBytes cose doc ∧
        lib.fromDer doc.certificate = .ok leaf ∧ LeafRules lib now leaf ∧
        LeafSigned env lib leaf cose ∧
        ((∃ k p, 1 ≤ k ∧ TrustPath lib now expectedRoot leaf doc.cabundle.reverse k p) ∨
          (doc.cabundle = [] ∧ lib.toDer leaf = .ok expectedRoot)) := by
  have hchain : ∀ leaf, (∃ last broke,
      walkBundle lib expectedRoot now leaf 0 doc.cabundle.reverse = .ok (last, broke) ∧
        reachesRoot lib expectedRoot last broke = .ok true) ↔
      (∃ k p, 1 ≤ k ∧ TrustPath lib now expectedRoot leaf doc.cabundle.reverse k p) ∨
        (doc.cabundle = [] ∧ lib.toDer leaf = .ok expectedRoot) := by
    intro leaf
    rw [walk_reachesRoot hencodes, anchored_iff]
    simp only [pathFrom_zero_iff, List.reverse_eq_nil_iff]
  simp only [verifyAttestationDoc, bind_eq_ok, parseAttestationCose_eq_ok, okOr_eq_ok,
    mapError_eq_ok, validateCert_leaf, refuseIf_eq_ok, Bool.not_eq_true', Bool.not_eq_false, pure,
    Except.pure, Except.ok.injEq]
  constructor
  · rintro ⟨cose, ⟨hparse, halg, hcrit, hun⟩, payload, hpay, d, hdoc, leaf, hleaf, _, hrules, _,
      hsigned, ⟨last, broke⟩, hwalk, verified, hreach, _, rfl, rfl⟩
    exact ⟨cose, leaf, ⟨hparse, halg, hcrit, hun, payload, hpay, hdoc⟩, hleaf, hrules,
      verifyLeaf_eq_ok.mp hsigned, (hchain leaf).mp ⟨last, broke, hwalk, hreach⟩⟩
  · rintro ⟨cose, leaf, hparses, hleaf, hrules, hsigned, hpath⟩
    obtain ⟨payload, hpay, hdoc⟩ := hparses.payload
    obtain ⟨last, broke, hwalk, hreach⟩ := (hchain leaf).mpr hpath
    exact ⟨cose, ⟨hparses.parses, hparses.alg, hparses.crit, hparses.unprotected⟩, payload, hpay,
      doc, hdoc, leaf, hleaf, (), hrules, (), verifyLeaf_eq_ok.mpr hsigned, (last, broke), hwalk,
      true, hreach, (), rfl, rfl⟩

namespace Transparent

/-- A certificate of three bytes: its subject and key, its issuer, and whether it is a CA. -/
def certificate (subject issuer ca : UInt8) : Certificate where
  tbsCertificate :=
    { notBefore := epoch, notAfter := epoch, issuer := [[([], [issuer])]],
      subject := [[([], [subject])]], subjectPublicKey := [subject],
      extensions := some [⟨basicConstraintsOid, true, [ca]⟩], rest := [] }
  signatureAlgorithm := []
  signature := [issuer]

/-- The library of the three-byte certificates; a signature is the key it verifies under. -/
def certificateLibrary : CertificateLibrary where
  fromDer
    | [subject, issuer, ca] => .ok (certificate subject issuer ca)
    | _ => .error "malformed"
  toDer cert :=
    match cert.tbsCertificate.subjectPublicKey, cert.signature, cert.extensionList with
    | [subject], [issuer], [⟨_, _, [ca]⟩] => .ok [subject, issuer, ca]
    | _, _, _ => .error "malformed"
  tbsToDer tbs := .ok tbs.subjectPublicKey
  basicConstraintsFromDer value := .ok ⟨value == [1], none⟩
  keyUsageFromDer _ := .error "malformed"
  keyFromSec1 bytes := .ok ⟨bytes⟩
  signatureFromSlice bytes := .ok ⟨bytes⟩
  signatureFromDer bytes := .ok ⟨bytes⟩
  verifySignature key _ sig := if sig.scalars = key.point then .ok () else .error "signature error"

theorem certificateLibrary_reEncodes : ReEncodes certificateLibrary := by
  intro der cert h
  simp only [certificateLibrary] at h
  split at h
  · obtain rfl := Except.ok.inj h
    exact ⟨_, rfl⟩
  · cases h

/-- A document under leaf 7, issued by intermediate 8, issued by root 9. -/
def chainedDoc : AttestationDoc :=
  { doc 7 with certificate := [7, 8, 0], cabundle := [[9, 9, 1], [8, 9, 1]] }

/-- The transparent primitives with that document as the payload. -/
def chainedPrimitives : Primitives := { primitives with docFromBinary := fun _ => .ok chainedDoc }

/-- The chained document is accepted, and has the trust path this stands for. -/
theorem verifyAttestationDoc_chained :
    ∃ cose leaf, DocumentParses chainedPrimitives [7] cose chainedDoc ∧
      certificateLibrary.fromDer chainedDoc.certificate = .ok leaf ∧
      LeafRules certificateLibrary epoch leaf ∧
      LeafSigned chainedPrimitives certificateLibrary leaf cose ∧
      ((∃ k p, 1 ≤ k ∧
          TrustPath certificateLibrary epoch [9, 9, 1] leaf chainedDoc.cabundle.reverse k p) ∨
        (chainedDoc.cabundle = [] ∧ certificateLibrary.toDer leaf = .ok [9, 9, 1])) :=
  (verifyAttestationDoc_eq_ok certificateLibrary_reEncodes).mp rfl

end Transparent

end Veriai
