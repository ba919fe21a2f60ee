import Veriai.Attestation.Providers
import Veriai.Receipt.Generate
import Veriai.Types.Document

/-!
# The mock provider

`MockAttestationProvider` signs documents with a leaf key and a certificate
chain kept with the repository, and verifies them as the hardware providers do.
A verifier loaded from the mock root accepts every receipt that a generator
makes with this provider, and never calls it hardware.
-/

namespace Veriai

/-- The dashes of a boundary line. -/
def dashes : List Char := "-----".toList

/-- `pem_to_der`; where the code panics this is an error. -/
def pemToDer (codec : PemCodec) (pem : String) : Except String Bytes :=
  codec.base64Decode (String.ofList
    (((linesFrom [] pem.toList).filter fun line => ¬ dashes <+: line).flatMap trim))

/-- The certificates and the key in `tests/fixtures`. They are constants, and they decode. -/
structure MockFixtures (codec : PemCodec) where
  rootPem : String
  intermediatePem : String
  leafPem : String
  leafKeyPem : String
  rootDer : Bytes
  intermediateDer : Bytes
  leafDer : Bytes
  rootDecodes : pemToDer codec rootPem = .ok rootDer
  intermediateDecodes : pemToDer codec intermediatePem = .ok intermediateDer
  leafDecodes : pemToDer codec leafPem = .ok leafDer

/-- The text is one certificate: its boundary lines with nothing but the body between them. -/
structure SingleBlock (pem : String) (body : List (List Char)) : Prop where
  lines : linesFrom [] pem.toList = beginCertificate :: (body ++ [endCertificate])
  body : ∀ line ∈ body, ¬ dashes <+: line ∧ trim line ≠ beginCertificate ∧
    trim line ≠ endCertificate

section Pem

variable {codec : PemCodec} {pem : String} {body : List (List Char)}

/-- The only block is decoded. -/
theorem SingleBlock.pemToDer (h : SingleBlock pem body) :
    pemToDer codec pem = codec.base64Decode (String.ofList (body.flatMap trim)) := by
  have hbody : body.filter (fun line => ¬ dashes <+: line) = body := by
    rw [List.filter_eq_self]
    intro line hline
    exact decide_eq_true (h.body line hline).1
  have hends : (beginCertificate :: (body ++ [endCertificate])).filter
      (fun line => ¬ dashes <+: line) = body := by
    rw [List.filter_cons_of_neg (by decide), List.filter_append, hbody,
      List.filter_cons_of_neg (by decide), List.filter_nil, List.append_nil]
  rw [Veriai.pemToDer, h.lines, hends]

/-- The loading parser collects the body of a block. -/
theorem foldlM_body {s : LoadingState} (hin : s.inCert = true)
    (hbody : ∀ line ∈ body, ¬ dashes <+: line ∧ trim line ≠ beginCertificate ∧
      trim line ≠ endCertificate) :
    (body.map trim).foldlM (LoadingState.line codec) s =
      .ok { s with base64Str := s.base64Str ++ body.flatMap trim } := by
  induction body generalizing s with
  | nil => simp [pure, Except.pure]
  | cons line rest ih =>
    obtain ⟨-, hbegin, hend⟩ := hbody line List.mem_cons_self
    have hline : s.line codec (trim line) =
        .ok { s with base64Str := s.base64Str ++ trim line } := by
      rw [LoadingState.line, if_neg hbegin, if_neg hend, if_pos hin]
    have hrest := @ih { s with base64Str := s.base64Str ++ trim line } hin
      fun line' hline' => hbody line' (List.mem_cons_of_mem _ hline')
    rw [List.map_cons, List.foldlM_cons, hline, ok_bind, hrest]
    simp

/-- On one certificate the loading parser and `pem_to_der` agree. -/
theorem SingleBlock.loads (h : SingleBlock pem body) {der : Bytes}
    (hder : Veriai.pemToDer codec pem = .ok der) :
    ∃ s, loadingScan codec pem = .ok s ∧ s.trustedRoots = [der] := by
  rw [h.pemToDer] at hder
  have hbegin : trim beginCertificate = beginCertificate := by decide
  have hend : trim endCertificate = endCertificate := by decide
  have hne : endCertificate ≠ beginCertificate := by decide
  refine ⟨{ trustedRoots := [der], base64Str := body.flatMap trim, inCert := false }, ?_, rfl⟩
  rw [loadingScan, trimmedLines, h.lines, List.map_cons, List.map_append, hbegin, List.map_cons,
    hend, List.map_nil, List.foldlM_cons]
  rw [LoadingState.line, if_pos rfl, ok_bind, List.foldlM_append,
    foldlM_body rfl h.body, ok_bind, List.foldlM_cons, LoadingState.line, if_neg hne, if_pos rfl,
    if_pos rfl, List.nil_append, hder]
  rfl

end Pem

/-- A P-384 signing key, by its scalar. -/
structure MockSigningKey where
  scalar : Bytes

/-- What the mock provider takes from `ciborium` and `p384` beyond the verifying side. -/
structure MockLibrary where
  /-- `AttestationDoc::to_binary`; an error is its display text. -/
  docToBinary : AttestationDoc → Except String Bytes
  /-- `SigningKey::from_pkcs8_pem`. -/
  fromPkcs8Pem : String → Except String MockSigningKey
  /-- `SigningKey::sign`. -/
  sign : MockSigningKey → Bytes → Signature

variable (env : Primitives) (lib : CertificateLibrary) (mock : MockLibrary) {codec : PemCodec}
  (fixtures : MockFixtures codec)

/-- A PCR of the mock. -/
def mockPcr : Bytes := List.replicate 48 0

/-- The PCRs of the mock: 0, 3 and 4. -/
def mockPcrs : Finmap fun _ : UInt32 => Bytes :=
  (((∅ : Finmap fun _ : UInt32 => Bytes).insert 0 mockPcr).insert 3 mockPcr).insert 4 mockPcr

/-- The document of the mock. -/
def mockDoc (nowMs : UInt64) (userData nonce publicKey : Option Bytes) : AttestationDoc where
  moduleId := "Mock-Hypervisor-Module"
  timestamp := nowMs
  digest := "SHA384"
  pcrs := mockPcrs
  certificate := fixtures.leafDer
  cabundle := [fixtures.rootDer, fixtures.intermediateDer]
  publicKey := publicKey
  userData := userData
  nonce := nonce

/-- The structure around a document, not yet signed. -/
def mockUnsigned (payload : Bytes) : CoseSign1 where
  protectedHeader := { header := { alg := some .es384 } }
  unprotected := {}
  payload := some payload
  signature := []

/-- `MockAttestationProvider::generate`, with the clock as it reads. -/
def mockGenerate (now : SystemTime) (userData nonce publicKey : Option Bytes) :
    Except AttestationError Bytes := do
  let nowMs ← okOr now.unixMillis (.validationError "second time provided was later than self")
  let payload ← (mock.docToBinary (mockDoc fixtures nowMs userData nonce publicKey)).mapError
    .validationError
  let signingKey ← (mock.fromPkcs8Pem fixtures.leafKeyPem).mapError
    fun e => .validationError ("Failed to parse signing key: " ++ e)
  let coseSign1 := mockUnsigned payload
  let signature := mock.sign signingKey (coseSign1.tbsData env [])
  (env.coseToVec { coseSign1 with signature := signature.scalars }).mapError
    fun e => .validationError ("Failed to serialize COSE_Sign1: " ++ e)

/-- `MockAttestationProvider`, with the clock of `generate` and the clock of `verify`. -/
def mockAttestationProvider (now : SystemTime) (clock : Bytes → SystemTime) :
    AttestationProvider where
  name := "mock-nitro"
  isHardwareBacked := false
  generate := mockGenerate env mock fixtures now
  verify := acceptsDocument env lib clock

/-- What the fixtures are good for at an instant: the leaf is issued by the intermediate, the
intermediate by the root, each obeys its rules, and the key is the leaf's. -/
structure MockChain (now : SystemTime) (leaf intermediate root : Certificate) : Prop where
  leafParses : lib.fromDer fixtures.leafDer = .ok leaf
  intermediateParses : lib.fromDer fixtures.intermediateDer = .ok intermediate
  rootParses : lib.fromDer fixtures.rootDer = .ok root
  rootEncodes : lib.toDer root = .ok fixtures.rootDer
  leafRules : LeafRules lib now leaf
  intermediateRules : CaRules lib now 0 intermediate
  rootRules : CaRules lib now 1 root
  leafIssued : Issued lib leaf intermediate
  intermediateIssued : Issued lib intermediate root
  signs : ∀ signingKey, mock.fromPkcs8Pem fixtures.leafKeyPem = .ok signingKey →
    ∃ key, lib.keyFromSec1 leaf.tbsCertificate.subjectPublicKey = .ok key ∧ ∀ message,
      lib.signatureFromSlice (mock.sign signingKey message).scalars =
        .ok (mock.sign signingKey message) ∧
      lib.verifySignature key message (mock.sign signingKey message) = .ok ()

/-- Decoding undoes the encoding of documents. -/
def DocRoundTrip : Prop :=
  ∀ doc bytes, mock.docToBinary doc = .ok bytes → env.docFromBinary bytes = .ok doc

/-- The certificates are good at an instant. -/
def Certified (now : SystemTime) : Prop :=
  ∃ leaf intermediate root, MockChain lib mock fixtures now leaf intermediate root

/-- What a mock build relies on. -/
structure MockBuild : Prop where
  lawful : env.Lawful
  documents : DocRoundTrip env mock
  reEncodes : ReEncodes lib
  root : ∃ body, SingleBlock fixtures.rootPem body

/-- The identity that all documents of the mock share. -/
def mockIdentity : Fingerprint :=
  computeIdentityFingerprint env (mockDoc fixtures 0 none none none)

variable {env lib mock fixtures}

/-- A document of the mock, as the verifying side reads it. -/
theorem mockGenerate_eq_ok (hlawful : env.Lawful) (hdoc : DocRoundTrip env mock) {now : SystemTime}
    {userData nonce publicKey : Option Bytes} {report : Bytes}
    (h : mockGenerate env mock fixtures now userData nonce publicKey = .ok report) :
    ∃ nowMs payload signingKey cose, now.unixMillis = some nowMs ∧
      mock.fromPkcs8Pem fixtures.leafKeyPem = .ok signingKey ∧
      env.coseFromSlice report = .ok cose ∧ cose.protectedHeader.header = { alg := some .es384 } ∧
      cose.unprotected = {} ∧ cose.payload = some payload ∧
      env.docFromBinary payload = .ok (mockDoc fixtures nowMs userData nonce publicKey) ∧
      cose.signature = (mock.sign signingKey (cose.tbsData env [])).scalars := by
  simp only [mockGenerate, bind_eq_ok, okOr_eq_ok, mapError_eq_ok] at h
  obtain ⟨nowMs, hnow, payload, hpayload, signingKey, hkey, hcose⟩ := h
  exact ⟨nowMs, payload, signingKey, _, hnow, hkey, hlawful.cose_roundTrip _ _ rfl hcose, rfl, rfl,
    rfl, hdoc _ _ hpayload, rfl⟩

/-- The walk from the leaf of the mock ends at its root. -/
theorem MockChain.walks {now : SystemTime} {leaf intermediate root : Certificate}
    (h : MockChain lib mock fixtures now leaf intermediate root) (hencodes : ReEncodes lib) :
    ∃ last, walkBundle lib fixtures.rootDer now leaf 0
      [fixtures.intermediateDer, fixtures.rootDer] = .ok (last, true) := by
  have hparent := verifyParent_eq_ok.mpr ⟨h.intermediateParses, h.intermediateRules, h.leafIssued⟩
  have hroot := verifyParent_eq_ok.mpr ⟨h.rootParses, h.rootRules, h.intermediateIssued⟩
  exact (walkBundle_broke hencodes).mpr (.step hparent (.root hroot h.rootEncodes))

/-- A document of the mock is accepted against the mock root while the certificates are good. -/
theorem Certified.accepts (hbuild : MockBuild env lib mock fixtures) {now verifyNow : SystemTime}
    (h : Certified lib mock fixtures verifyNow)
    {userData nonce publicKey : Option Bytes} {report : Bytes}
    (hreport : mockGenerate env mock fixtures now userData nonce publicKey = .ok report) :
    ∃ doc, verifyAttestationDoc env lib report fixtures.rootDer verifyNow = .ok doc := by
  obtain ⟨nowMs, payload, signingKey, cose, -, hkey, hparse, hheader, hunprotected, hpayload,
    hdecode, hsignature⟩ := mockGenerate_eq_ok hbuild.lawful hbuild.documents hreport
  obtain ⟨leaf, intermediate, root, h⟩ := h
  obtain ⟨key, hleafKey, hsigns⟩ := h.signs signingKey hkey
  obtain ⟨hscalars, hverify⟩ := hsigns (cose.tbsData env [])
  have hheaders : parseAttestationCose env report = .ok cose := by
    rw [parseAttestationCose_eq_ok, hheader]
    exact ⟨hparse, rfl, rfl, hunprotected⟩
  have hsigned : LeafSigned env lib leaf cose := by
    refine ⟨key, _, hleafKey, ?_, hverify⟩
    rw [hsignature]
    exact hscalars
  obtain ⟨last, hwalk⟩ := h.walks hbuild.reEncodes
  refine ⟨mockDoc fixtures nowMs userData nonce publicKey, ?_⟩
  simp only [verifyAttestationDoc, bind_eq_ok, okOr_eq_ok, mapError_eq_ok, refuseIf_eq_ok,
    validateCert_leaf]
  exact ⟨cose, hheaders, payload, hpayload, _, hdecode, leaf, h.leafParses, (), h.leafRules, (),
    verifyLeaf_eq_ok.mpr hsigned, (last, true), hwalk, true, rfl, (), by simp, rfl⟩

/-- The documents of the mock carry what they are asked for and the time, and a verifier that
trusts the mock root accepts them. -/
theorem Certified.vouches (hbuild : MockBuild env lib mock fixtures) {documentNow : SystemTime}
    {clock : Bytes → SystemTime} (h : Certified lib mock fixtures (clock fixtures.rootDer))
    {v : Verifier}
    (hprovider : v.provider.verify = acceptsDocument env lib clock)
    (htrusted : fixtures.rootDer ∈ v.trustedRoots) {userData nonce publicKey report : Bytes}
    (hreport : mockGenerate env mock fixtures documentNow (some userData) (some nonce)
      (some publicKey) = .ok report) :
    ∃ nowMs, documentNow.unixMillis = some nowMs ∧
      Vouches env v mockPcr userData nonce publicKey report
        (mockDoc fixtures nowMs (some userData) (some nonce) (some publicKey)) := by
  obtain ⟨nowMs, payload, signingKey, cose, hnow, -, hparse, -, -, hpayload, hdecode, -⟩ :=
    mockGenerate_eq_ok hbuild.lawful hbuild.documents hreport
  have haccepted := h.accepts hbuild hreport
  refine ⟨nowMs, hnow, ⟨cose, payload, hparse, hpayload, hdecode⟩, ⟨_, htrusted, ?_⟩, rfl, rfl, rfl,
    by simp [mockDoc, mockPcrs]⟩
  rw [hprovider]
  exact acceptsDocument_eq_true.mpr haccepted

/-- Who has no hardware verifies none. -/
theorem Verifier.verifiedHardware_of_not_backed {v : Verifier} {now : SystemTime}
    {receiptBytes : Bytes} {expected : Expected} {state : Option ReplayMutex}
    {result : VerificationResult} (hbacked : v.provider.isHardwareBacked = false)
    (h : (v.verify env now receiptBytes expected state).1 = .ok result) :
    result.verifiedHardware = false := by
  cases hhardware : result.verifiedHardware with
  | false => rfl
  | true =>
    obtain ⟨cose, claims, doc, hinspected⟩ := inspected_of_verifiedHardware h hhardware
    rw [verify_of_inspected hinspected] at h
    have hanswer : ∀ r, (v.accepted r).verifiedHardware = true → False := by
      intro r haccepted
      exact Bool.false_ne_true (hbacked.symm.trans haccepted)
    cases state with
    | none =>
      obtain rfl := Except.ok.inj h
      exact (hanswer _ hhardware).elim
    | some m =>
      simp only [checkSequence] at h
      split at h
      · cases h
      · split at h
        · obtain rfl := Except.ok.inj h
          cases hhardware
        · obtain rfl := Except.ok.inj h
          exact (hanswer _ hhardware).elim

/-- The clocks of one receipt: the document is made, then the receipt within five seconds, and
the verifier reads its clock no earlier and within five minutes of the document. -/
structure Punctual (documentNow now verifyNow : SystemTime) : Prop where
  ordered : ¬ now.before documentNow
  aligned : now.secs.toInt ≤ documentNow.secs.toInt + 5
  notBefore : now.secs.toInt ≤ verifyNow.secs.toInt
  soon : verifyNow.secs.toInt ≤ documentNow.secs.toInt + 300
  /-- The milliseconds of the document fit its timestamp. -/
  fits : documentNow.secs.toInt * 1000 + 1000 ≤ 2 ^ 64

/-- The document is read before its certificates expire. -/
theorem Punctual.readBefore {documentNow now verifyNow : SystemTime}
    (h : Punctual documentNow now verifyNow) {nowMs : UInt64}
    (hmillis : documentNow.unixMillis = some nowMs) {userData nonce publicKey : Option Bytes} :
    ReadBefore now (mockDoc fixtures nowMs userData nonce publicKey) :=
  ⟨documentNow, hmillis, h.ordered⟩

/-- The receipt is verified within all windows. -/
theorem Punctual.withinWindows {documentNow now verifyNow : SystemTime}
    (h : Punctual documentNow now verifyNow) {nowMs : UInt64}
    (hmillis : documentNow.unixMillis = some nowMs) {gen : ReceiptGenerator}
    {request : ReceiptRequest} {sequence : UInt64} {report : Bytes}
    {userData nonce publicKey : Option Bytes} :
    WithinWindows {} verifyNow (gen.claims env request sequence report now.secs)
      (mockDoc fixtures nowMs userData nonce publicKey) := by
  have hdoc := docSec_toInt (mockDoc fixtures nowMs userData nonce publicKey)
  have htimestamp : (mockDoc fixtures nowMs userData nonce publicKey).timestamp = nowMs := rfl
  have hnanos := documentNow.nanos.isLt
  obtain ⟨hordered, haligned, hbefore, hsoon, hfits⟩ := h
  have hlater : documentNow.secs.toInt ≤ now.secs.toInt := by
    have hlt := mt Or.inl hordered
    rw [Int64.lt_iff_toInt_lt] at hlt
    omega
  have hsecs : 0 ≤ documentNow.secs.toInt ∧
      nowMs.toNat = documentNow.secs.toInt.toNat * 1000 + documentNow.nanos.val / 1000000 := by
    unfold SystemTime.unixMillis at hmillis
    split at hmillis
    next => cases hmillis
    next hpos =>
      rw [Int64.lt_iff_toInt_lt, Int64.toInt_zero] at hpos
      refine ⟨by omega, ?_⟩
      rw [← Option.some.inj hmillis, UInt64.toNat_ofNat']
      exact Nat.mod_eq_of_lt (by omega)
  rw [htimestamp] at hdoc
  have hage : (300 : Int64).toInt = 300 := by decide
  constructor
  · show now.secs.toInt ≤ _
    omega
  · exact hbefore
  · show verifyNow.secs.toInt ≤ now.secs.toInt + (300 : Int64).toInt
    omega
  · show verifyNow.secs.toInt ≤ _ + (300 : Int64).toInt
    omega

/-- The verifier that is loaded from the mock root. -/
theorem mock_fromPem (hroot : ∃ body, SingleBlock fixtures.rootPem body)
    (provider : AttestationProvider) (stateful : Bool) :
    Verifier.fromPem codec provider fixtures.rootPem stateful =
      .ok (Verifier.newWithConfig provider [fixtures.rootDer] stateful {}) := by
  obtain ⟨body, hroot⟩ := hroot
  obtain ⟨s, hscan, hroots⟩ := hroot.loads fixtures.rootDecodes
  rw [Verifier.fromPem, Verifier.fromPemWithConfig, hscan, ok_bind, hroots, refuseIf,
    if_neg (List.cons_ne_nil _ _), ok_bind]
  rfl

/-- What a receipt says that a generator made with the mock provider. -/
theorem mock_receipt_content (hbuild : MockBuild env lib mock fixtures) {clock : Bytes → SystemTime}
    {documentNow now : SystemTime} {gen gen' : ReceiptGenerator} {request : ReceiptRequest}
    {receiptBytes : Bytes}
    (hgenerated : gen.generateReceipt env
      (mockAttestationProvider env lib mock fixtures documentNow clock) now request =
        (.ok receiptBytes, gen')) :
    ∃ report nowMs userData nonce publicKey, ReceiptContent env receiptBytes
      (gen.claims env request gen.sequenceNum report now.secs)
      (mockDoc fixtures nowMs userData nonce publicKey) := by
  rw [ReceiptGenerator.generateReceipt] at hgenerated
  cases hrequest : gen.requestAttestation env
      (mockAttestationProvider env lib mock fixtures documentNow clock) request with
  | error e =>
    rw [hrequest] at hgenerated
    cases (Prod.mk.inj hgenerated).1
  | ok report =>
    rw [hrequest] at hgenerated
    obtain ⟨nowMs, payload, signingKey, cose, -, -, hparse, -, -, hpayload, hdecode, -⟩ :=
      mockGenerate_eq_ok hbuild.lawful hbuild.documents (mapError_eq_ok.mp hrequest)
    obtain ⟨-, -, -, signed, hclaims, hcose⟩ := ReceiptGenerator.complete_eq_ok hgenerated
    exact ⟨report, nowMs, _, _, _, gen.received env signed, signed,
      hbuild.lawful.cose_roundTrip _ _ rfl hcose, rfl, hbuild.lawful.claims_roundTrip _ _ hclaims,
      cose, payload, hparse, hpayload, hdecode⟩

/-- A verifier loaded from the mock root accepts a receipt that a generator made with the mock
provider exactly for the values it was made for, while its replay state has no number of the mock
identity as large; and it never calls it hardware. -/
theorem mock_receipt_accepted_iff (hbuild : MockBuild env lib mock fixtures)
    {clock clock' : Bytes → SystemTime}
    (hchain : Certified lib mock fixtures (clock fixtures.rootDer))
    {t documentNow now verifyNow : SystemTime} (hpunctual : Punctual documentNow now verifyNow)
    {v : Verifier} {new : Option ReplayMutex} {stateful : Bool}
    (hfrom : Verifier.fromPem codec (mockAttestationProvider env lib mock fixtures t clock)
      fixtures.rootPem stateful = .ok (v, new))
    {gen gen' : ReceiptGenerator} {request : ReceiptRequest} {receiptBytes : Bytes}
    (hgenerated : gen.generateReceipt env
      (mockAttestationProvider env lib mock fixtures documentNow clock') now request =
        (.ok receiptBytes, gen'))
    (hsize : receiptBytes.length ≤ 64 * 1024) (expected : Expected) (replay : Option ReplayMutex) :
    (Verifier.Accepts (v.verify env verifyNow receiptBytes expected replay).1 ↔
        expected = request.expected mockPcr ∧ ∀ m, replay = some m → m.poisoned = false ∧
          Ledger.Fresh m.map (mockIdentity env fixtures) gen.sequenceNum) ∧
      ∀ result, (v.verify env verifyNow receiptBytes expected replay).1 = .ok result →
        result.verifiedHardware = false := by
  rw [mock_fromPem hbuild.root] at hfrom
  obtain rfl := (Prod.mk.inj (Except.ok.inj hfrom)).1
  -- the document of the receipt
  rw [ReceiptGenerator.generateReceipt] at hgenerated
  cases hrequest : gen.requestAttestation env
      (mockAttestationProvider env lib mock fixtures documentNow clock') request with
  | error e =>
    rw [hrequest] at hgenerated
    cases (Prod.mk.inj hgenerated).1
  | ok report =>
    rw [hrequest] at hgenerated
    have hreport := mapError_eq_ok.mp hrequest
    have htrusted : fixtures.rootDer ∈ (Verifier.newWithConfig
        (mockAttestationProvider env lib mock fixtures t clock) [fixtures.rootDer] stateful
        {}).1.trustedRoots := List.mem_singleton_self _
    obtain ⟨nowMs, hmillis, hvouches⟩ := hchain.vouches hbuild rfl htrusted hreport
    have hcontent := ReceiptGenerator.complete_content hbuild.lawful hvouches hgenerated
    obtain ⟨cose, hinspected⟩ := ReceiptGenerator.complete_inspected hbuild.lawful hvouches
      (hpunctual.readBefore hmillis) rfl hgenerated hsize (hpunctual.withinWindows hmillis)
    refine ⟨?_, fun result => Verifier.verifiedHardware_of_not_backed rfl⟩
    rw [Verifier.accepts_iff]
    constructor
    · rintro ⟨cose', claims, doc, hother, hfresh⟩
      obtain ⟨rfl, rfl⟩ := hother.content.unique hcontent
      refine ⟨?_, hfresh⟩
      obtain ⟨-, hnonce, hmodel, hinput, houtput⟩ := hother.payload
      have hpcr0 := Option.some.inj (hother.pcr0.symm.trans hvouches.pcr0)
      obtain ⟨modelHash, inputHash, outputHash, nonce, pcr0⟩ := expected
      simp only [ReceiptGenerator.claims] at hnonce hmodel hinput houtput
      subst hnonce hmodel hinput houtput hpcr0
      rfl
    · rintro ⟨rfl, hfresh⟩
      exact ⟨cose, _, _, hinspected, hfresh⟩

namespace Transparent

/-- A codec in which a certificate is one letter. -/
def letterCodec : PemCodec where
  base64Decode text :=
    match text with
    | "r" => .ok [9, 9, 1]
    | "i" => .ok [8, 9, 1]
    | "l" => .ok [7, 8, 0]
    | _ => .error "malformed"
  sha256 _ := fill 32 0

/-- Leaf 7 under intermediate 8 under root 9. -/
def letterFixtures : MockFixtures letterCodec where
  rootPem := "-----BEGIN CERTIFICATE-----\nr\n-----END CERTIFICATE-----\n"
  intermediatePem := "-----BEGIN CERTIFICATE-----\ni\n-----END CERTIFICATE-----\n"
  leafPem := "-----BEGIN CERTIFICATE-----\nl\n-----END CERTIFICATE-----\n"
  leafKeyPem := ""
  rootDer := [9, 9, 1]
  intermediateDer := [8, 9, 1]
  leafDer := [7, 8, 0]
  rootDecodes := rfl
  intermediateDecodes := rfl
  leafDecodes := rfl

/-- The root is one block. -/
theorem letterFixtures_root : SingleBlock letterFixtures.rootPem [['r']] where
  lines := rfl
  body line hline := by
    obtain rfl := List.mem_singleton.mp hline
    decide

/-- The document for the generator with key byte 7. -/
def mockDocument : AttestationDoc :=
  mockDoc letterFixtures 0 (some (fill 64 0).toList) (some (fill 32 4).toList)
    (some (fill 32 7).toList)

/-- A signature is the key of the leaf. -/
def letterMock : MockLibrary where
  docToBinary doc := if doc = mockDocument then .ok [7] else .error "malformed"
  fromPkcs8Pem _ := .ok ⟨[7]⟩
  sign signingKey _ := ⟨signingKey.scalar⟩

/-- The attestation as the mock provider signs it. -/
def mockSigned : CoseSign1 := { mockUnsigned [7] with signature := [7] }

/-- The transparent primitives with that document and that attestation; a digest repeats the first
byte. -/
def mockPrimitives : Primitives :=
  { primitives with
    sha256 := fun bytes => fill 32 (bytes.headD 1)
    coseToVec := fun cose => if cose = mockSigned then .ok [7] else primitives.coseToVec cose
    docFromBinary := fun bytes => if bytes = [7] then .ok mockDocument else .error "malformed" }

/-- The primitives are lawful. -/
theorem mockPrimitives_lawful : mockPrimitives.Lawful where
  claims_roundTrip := lawful.claims_roundTrip
  cose_roundTrip cose bytes horiginal h := by
    simp only [mockPrimitives] at h ⊢
    split at h
    next heq =>
      obtain rfl := Except.ok.inj h
      rw [heq]
      rfl
    next => exact lawful.cose_roundTrip cose bytes horiginal h
  keyValid := lawful.keyValid
  sign_verifies := lawful.sign_verifies

/-- The letter that a document is written as is read as the document. -/
theorem letterMock_roundTrip : DocRoundTrip mockPrimitives letterMock := by
  intro doc bytes h
  simp only [letterMock] at h
  split at h
  next heq =>
    obtain rfl := Except.ok.inj h
    rw [heq]
    rfl
  next => cases h

/-- The three certificates are a chain at the epoch. -/
theorem letterChain : MockChain certificateLibrary letterMock letterFixtures epoch
    (certificate 7 8 0) (certificate 8 9 1) (certificate 9 9 1) where
  leafParses := rfl
  intermediateParses := rfl
  rootParses := rfl
  rootEncodes := rfl
  leafRules := validateCert_leaf.mp (rfl : validateCert _ _ true 0 _ = .ok ())
  intermediateRules := validateCert_ca.mp rfl
  rootRules := validateCert_ca.mp rfl
  leafIssued := ⟨rfl, _, _, _, rfl, rfl, rfl, rfl⟩
  intermediateIssued := ⟨rfl, _, _, _, rfl, rfl, rfl, rfl⟩
  signs signingKey hkey := by
    obtain rfl := Except.ok.inj hkey
    exact ⟨_, rfl, fun message => ⟨rfl, rfl⟩⟩

/-- The mock provider of these fixtures at the epoch. -/
def letterProvider : AttestationProvider :=
  mockAttestationProvider mockPrimitives certificateLibrary letterMock letterFixtures epoch
    fun _ => epoch

/-- So the certificates are good at the epoch. -/
theorem letterCertified : Certified certificateLibrary letterMock letterFixtures
    ((fun _ => epoch : Bytes → SystemTime) letterFixtures.rootDer) := ⟨_, _, _, letterChain⟩

/-- At the epoch everything is punctual. -/
theorem punctual_epoch : Punctual epoch epoch epoch := by
  constructor <;> decide

/-- The provider lets the generator return its first receipt. -/
theorem letterProvider_generates : (generator 7).generateReceipt mockPrimitives letterProvider epoch
    request = (.ok [1, 0, 7], { generator 7 with sequenceNum := 1 }) := rfl

/-- The build relies on what holds of these parts. -/
theorem letterBuild : MockBuild mockPrimitives certificateLibrary letterMock letterFixtures where
  lawful := mockPrimitives_lawful
  documents := letterMock_roundTrip
  reEncodes := certificateLibrary_reEncodes
  root := ⟨_, letterFixtures_root⟩

/-- The first receipt of the mock deployment is accepted for what it was made for. -/
theorem mock_receipt_accepted_first : ∃ (v : Verifier) (replay : Option ReplayMutex),
    Verifier.fromPem letterCodec letterProvider letterFixtures.rootPem true = .ok (v, replay) ∧
      Verifier.Accepts
        (v.verify mockPrimitives epoch [1, 0, 7] (request.expected mockPcr) replay).1 := by
  have hfrom := mock_fromPem letterBuild.root letterProvider true
  have haccepted := (mock_receipt_accepted_iff letterBuild letterCertified punctual_epoch hfrom
    letterProvider_generates (by decide) (request.expected mockPcr) (some (.new ∅))).1
  refine ⟨_, _, hfrom, haccepted.mpr ⟨rfl, ?_⟩⟩
  rintro m ⟨⟩
  exact ⟨rfl, by simp [Ledger.Fresh, ReplayMutex.new]⟩

end Transparent

end Veriai
