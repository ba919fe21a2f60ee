import Veriai.Core.Checklist
import Veriai.Types.Error
import Veriai.Types.Schema

/-!
# Certificates and the rules they must satisfy

`validate_cert` of the attestation crate, and the leaf and CA rules it decides.
-/

namespace Veriai

/-- An object identifier by its arcs. -/
abbrev ObjectIdentifier := List Nat

/-- An X.509 extension. -/
structure Extension where
  extnId : ObjectIdentifier
  critical : Bool
  extnValue : Bytes
  deriving DecidableEq, Repr

/-- A distinguished name: relative names of typed attributes, the values kept encoded. -/
abbrev Name := List (List (ObjectIdentifier × Bytes))

/-- `TbsCertificate`. The validity bounds are as `to_system_time` reads them, the
public key as `raw_bytes` does; the fields the program never reads are kept encoded. -/
structure TbsCertificate where
  notBefore : SystemTime
  notAfter : SystemTime
  issuer : Name
  subject : Name
  subjectPublicKey : Bytes
  extensions : Option (List Extension)
  rest : Bytes
  deriving DecidableEq, Repr

/-- `x509_cert::Certificate`; the signature is its `raw_bytes`. -/
structure Certificate where
  tbsCertificate : TbsCertificate
  signatureAlgorithm : Bytes
  signature : Bytes
  deriving DecidableEq, Repr

/-- `BasicConstraints`. -/
structure BasicConstraints where
  ca : Bool
  pathLenConstraint : Option UInt8
  deriving DecidableEq, Repr

/-- The two bits of `KeyUsage` the program reads. -/
structure KeyUsage where
  digitalSignature : Bool
  keyCertSign : Bool
  deriving DecidableEq, Repr

/-- A P-384 public key, by the bytes of its point. -/
structure VerifyingKey where
  point : Bytes
  deriving DecidableEq, Repr

/-- A P-384 signature, by its two scalars in sequence. -/
structure Signature where
  scalars : Bytes
  deriving DecidableEq, Repr

/-- What the attestation crate takes from `x509_cert` and `p384`. -/
structure CertificateLibrary where
  /-- `Certificate::from_der`; an error is its display text. -/
  fromDer : Bytes → Except String Certificate
  /-- `Certificate::to_der`. -/
  toDer : Certificate → Except String Bytes
  /-- `TbsCertificate::to_der`. -/
  tbsToDer : TbsCertificate → Except String Bytes
  /-- `BasicConstraints::from_der`. -/
  basicConstraintsFromDer : Bytes → Except String BasicConstraints
  /-- `KeyUsage::from_der`. -/
  keyUsageFromDer : Bytes → Except String KeyUsage
  /-- `VerifyingKey::from_sec1_bytes`. -/
  keyFromSec1 : Bytes → Except String VerifyingKey
  /-- `Signature::from_slice`. -/
  signatureFromSlice : Bytes → Except String Signature
  /-- `Signature::from_der`. -/
  signatureFromDer : Bytes → Except String Signature
  /-- `VerifyingKey::verify`. -/
  verifySignature : VerifyingKey → Bytes → Signature → Except String Unit

/-- `BASIC_CONSTRAINTS_OID`. -/
def basicConstraintsOid : ObjectIdentifier := [2, 5, 29, 19]

/-- `KEY_USAGE_OID`. -/
def keyUsageOid : ObjectIdentifier := [2, 5, 29, 15]

variable (lib : CertificateLibrary)

/-- The constraints and usage found so far while the extensions are scanned. -/
structure ExtensionScan where
  basicConstraints : Option BasicConstraints := none
  keyUsage : Option KeyUsage := none

/-- One pass of the extension loop; a later extension of the same kind replaces an earlier one. -/
def ExtensionScan.read (scan : ExtensionScan) (extension : Extension) :
    Except AttestationError ExtensionScan :=
  if extension.extnId = basicConstraintsOid then do
    let constraints ← (lib.basicConstraintsFromDer extension.extnValue).mapError
      fun _ => .validationError "Invalid basicConstraints extension"
    return { scan with basicConstraints := some constraints }
  else if extension.extnId = keyUsageOid then do
    let usage ← (lib.keyUsageFromDer extension.extnValue).mapError
      fun _ => .validationError "Invalid keyUsage extension"
    return { scan with keyUsage := some usage }
  else if extension.critical then
    .error (.validationError "Certificate has an unsupported critical extension")
  else .ok scan

/-- The leaf half of `validate_cert`. -/
def checkLeaf (scan : ExtensionScan) : Except AttestationError Unit := do
  refuseIf (scan.basicConstraints.any (·.ca))
    (.validationError "Attestation leaf certificate must not be a CA")
  refuseIf (scan.keyUsage.any (!·.digitalSignature))
    (.validationError "Attestation leaf keyUsage lacks digitalSignature")

/-- The CA half of `validate_cert`. -/
def checkCa (scan : ExtensionScan) (subordinateCaCount : Nat) : Except AttestationError Unit := do
  let constraints ← okOr scan.basicConstraints
    (.validationError "Non-leaf certificate lacks CA:true constraint")
  refuseIf (!constraints.ca) (.validationError "Non-leaf certificate lacks CA:true constraint")
  refuseIf (scan.keyUsage.any (!·.keyCertSign))
    (.validationError "CA certificate keyUsage lacks keyCertSign")
  refuseIf (constraints.pathLenConstraint.any (subordinateCaCount > ·.toNat))
    (.validationError "CA certificate pathLenConstraint exceeded")

/-- `validate_cert`. -/
def validateCert (cert : Certificate) (isLeaf : Bool) (subordinateCaCount : Nat)
    (now : SystemTime) : Except AttestationError Unit := do
  refuseIf (now.before cert.tbsCertificate.notBefore ∨ cert.tbsCertificate.notAfter.before now)
    (.validationError "Certificate is outside its validity period")
  let scan ← (cert.tbsCertificate.extensions.getD []).foldlM (ExtensionScan.read lib) {}
  if isLeaf then checkLeaf scan else checkCa scan subordinateCaCount

/-- The extensions of a certificate, none when the field is absent. -/
def Certificate.extensionList (cert : Certificate) : List Extension :=
  cert.tbsCertificate.extensions.getD []

/-- The value of the last extension with a given identifier. -/
def lastValue (oid : ObjectIdentifier) (extensions : List Extension) : Option Bytes :=
  ((extensions.filter fun e => e.extnId = oid).getLast?).map (·.extnValue)

/-- The constraints of a certificate's basicConstraints extension, if it has one. -/
def HasConstraints (cert : Certificate) (constraints : BasicConstraints) : Prop :=
  ∃ value, lastValue basicConstraintsOid cert.extensionList = some value ∧
    lib.basicConstraintsFromDer value = .ok constraints

/-- The usage of a certificate's keyUsage extension, if it has one. -/
def HasUsage (cert : Certificate) (usage : KeyUsage) : Prop :=
  ∃ value, lastValue keyUsageOid cert.extensionList = some value ∧
    lib.keyUsageFromDer value = .ok usage

/-- An extension of a known kind decodes; one of an unknown kind is not critical. -/
structure ExtensionPasses (e : Extension) : Prop where
  constraintsDecode : e.extnId = basicConstraintsOid →
    ∃ constraints, lib.basicConstraintsFromDer e.extnValue = .ok constraints
  usageDecodes : e.extnId = keyUsageOid → ∃ usage, lib.keyUsageFromDer e.extnValue = .ok usage
  noUnknownCritical : e.extnId ≠ basicConstraintsOid → e.extnId ≠ keyUsageOid → e.critical = false

/-- What every certificate must satisfy at `now`. -/
structure CommonRules (now : SystemTime) (cert : Certificate) : Prop where
  notEarly : ¬ now.before cert.tbsCertificate.notBefore
  notExpired : ¬ cert.tbsCertificate.notAfter.before now
  extensions : ∀ e ∈ cert.extensionList, ExtensionPasses lib e

/-- The rules of a leaf certificate. -/
structure LeafRules (now : SystemTime) (cert : Certificate) : Prop where
  common : CommonRules lib now cert
  notCa : ∀ constraints, HasConstraints lib cert constraints → constraints.ca = false
  digitalSignature : ∀ usage, HasUsage lib cert usage → usage.digitalSignature = true

/-- The rules of a CA certificate with a number of CA certificates under it. -/
structure CaRules (now : SystemTime) (subordinateCaCount : Nat) (cert : Certificate) : Prop where
  common : CommonRules lib now cert
  ca : ∃ constraints, HasConstraints lib cert constraints ∧ constraints.ca = true ∧
    ∀ limit, constraints.pathLenConstraint = some limit → subordinateCaCount ≤ limit.toNat
  keyCertSign : ∀ usage, HasUsage lib cert usage → usage.keyCertSign = true

section Scan

variable {lib}

/-- What the scan holds after a value, if any, has been read over an older one. -/
def decoded {α : Type} (decode : Bytes → Except String α) (old : Option α) :
    Option Bytes → Option α
  | some value => (decode value).toOption
  | none => old

theorem decoded_decoded {α : Type} {decode : Bytes → Except String α} {old : Option α}
    {first second : Option Bytes} :
    decoded decode (decoded decode old first) second = decoded decode old (second.or first) := by
  cases second <;> rfl

theorem lastValue_cons {oid : ObjectIdentifier} {e : Extension} {es : List Extension} :
    lastValue oid (e :: es) = (lastValue oid es).or (lastValue oid [e]) := by
  unfold lastValue
  by_cases he : e.extnId = oid
  · cases hes : es.filter (fun e => decide (e.extnId = oid)) with
    | nil => simp [he, hes]
    | cons a l => simp [he, hes, List.getLast?_cons]
  · simp [he]

/-- The scan after the given extensions. -/
def ExtensionScan.after (lib : CertificateLibrary) (scan : ExtensionScan)
    (extensions : List Extension) : ExtensionScan where
  basicConstraints := decoded lib.basicConstraintsFromDer scan.basicConstraints
    (lastValue basicConstraintsOid extensions)
  keyUsage := decoded lib.keyUsageFromDer scan.keyUsage (lastValue keyUsageOid extensions)

theorem ExtensionScan.after_cons {scan : ExtensionScan} {e : Extension} {es : List Extension} :
    scan.after lib (e :: es) = (scan.after lib [e]).after lib es := by
  unfold after
  simp only [decoded_decoded]
  rw [@lastValue_cons basicConstraintsOid, @lastValue_cons keyUsageOid]

/-- Reading one extension. -/
theorem ExtensionScan.read_eq_ok {scan scan' : ExtensionScan} {e : Extension} :
    scan.read lib e = .ok scan' ↔ ExtensionPasses lib e ∧ scan' = scan.after lib [e] := by
  have hne : keyUsageOid ≠ basicConstraintsOid := by decide
  unfold read
  by_cases hb : e.extnId = basicConstraintsOid
  · have hk : e.extnId ≠ keyUsageOid := fun hk => hne (hk.symm.trans hb)
    have hafter : ∀ c, lib.basicConstraintsFromDer e.extnValue = .ok c →
        scan.after lib [e] = { scan with basicConstraints := some c } := by
      intro c hc
      simp [after, lastValue, hb, hne.symm, decoded, hc, Except.toOption]
    simp only [hb, reduceIte, bind_eq_ok, mapError_eq_ok]
    constructor
    · rintro ⟨c, hc, hs⟩
      refine ⟨⟨fun _ => ⟨c, hc⟩, fun h => (hk h).elim, fun h => (h hb).elim⟩, ?_⟩
      exact (Except.ok.inj hs).symm.trans (hafter c hc).symm
    · rintro ⟨hpass, hs⟩
      obtain ⟨c, hc⟩ := hpass.constraintsDecode hb
      exact ⟨c, hc, by rw [hs, hafter c hc]; rfl⟩
  · by_cases hk : e.extnId = keyUsageOid
    · have hafter : ∀ u, lib.keyUsageFromDer e.extnValue = .ok u →
          scan.after lib [e] = { scan with keyUsage := some u } := by
        intro u hu
        simp [after, lastValue, hk, hne, decoded, hu, Except.toOption]
      rw [if_neg hb, if_pos hk]
      simp only [bind_eq_ok, mapError_eq_ok]
      constructor
      · rintro ⟨u, hu, hs⟩
        refine ⟨⟨fun h => (hb h).elim, fun _ => ⟨u, hu⟩, fun _ h => (h hk).elim⟩, ?_⟩
        exact (Except.ok.inj hs).symm.trans (hafter u hu).symm
      · rintro ⟨hpass, hs⟩
        obtain ⟨u, hu⟩ := hpass.usageDecodes hk
        exact ⟨u, hu, by rw [hs, hafter u hu]; rfl⟩
    · have hafter : scan.after lib [e] = scan := by
        simp [after, lastValue, hb, hk, decoded]
      rw [if_neg hb, if_neg hk, hafter]
      cases hc : e.critical with
      | true =>
        simp only [reduceIte, reduceCtorEq, false_iff, not_and]
        intro hpass
        exact (Bool.false_ne_true ((hpass.noUnknownCritical hb hk).symm.trans hc)).elim
      | false =>
        simp only [Bool.false_eq_true, reduceIte, Except.ok.injEq]
        constructor
        · intro hs
          exact ⟨⟨fun h => (hb h).elim, fun h => (hk h).elim, fun _ _ => hc⟩, hs.symm⟩
        · intro h
          exact h.2.symm

/-- The whole extension loop. -/
theorem ExtensionScan.foldlM_eq_ok {extensions : List Extension} {scan scan' : ExtensionScan} :
    extensions.foldlM (read lib) scan = .ok scan' ↔
      (∀ e ∈ extensions, ExtensionPasses lib e) ∧ scan' = scan.after lib extensions := by
  induction extensions generalizing scan with
  | nil =>
    have hafter : scan.after lib [] = scan := rfl
    rw [hafter]
    simp [List.foldlM_nil, pure, Except.pure, eq_comm]
  | cons e es ih =>
    simp only [List.foldlM_cons, bind_eq_ok, read_eq_ok, ih, List.forall_mem_cons]
    constructor
    · rintro ⟨_, ⟨he, rfl⟩, hes, hs⟩
      exact ⟨⟨he, hes⟩, hs.trans after_cons.symm⟩
    · rintro ⟨⟨he, hes⟩, hs⟩
      exact ⟨_, ⟨he, rfl⟩, hes, hs.trans after_cons⟩

/-- The scan of a certificate holds exactly its constraints. -/
theorem scan_basicConstraints {cert : Certificate} {constraints : BasicConstraints} :
    (ExtensionScan.after lib {} cert.extensionList).basicConstraints = some constraints ↔
      HasConstraints lib cert constraints := by
  unfold HasConstraints ExtensionScan.after
  cases lastValue basicConstraintsOid cert.extensionList with
  | none => simp [decoded]
  | some value => simp [decoded, toOption_eq_some]

/-- The scan of a certificate holds exactly its usage. -/
theorem scan_keyUsage {cert : Certificate} {usage : KeyUsage} :
    (ExtensionScan.after lib {} cert.extensionList).keyUsage = some usage ↔
      HasUsage lib cert usage := by
  unfold HasUsage ExtensionScan.after
  cases lastValue keyUsageOid cert.extensionList with
  | none => simp [decoded]
  | some value => simp [decoded, toOption_eq_some]

end Scan

variable {lib} {cert : Certificate} {now : SystemTime} {n : Nat}

/-- `validate_cert` reaches its second half exactly under the common rules. -/
theorem validateCert_eq_ok {isLeaf : Bool} {u : Unit} :
    validateCert lib cert isLeaf n now = .ok u ↔ CommonRules lib now cert ∧
      (if isLeaf then checkLeaf (ExtensionScan.after lib {} cert.extensionList)
        else checkCa (ExtensionScan.after lib {} cert.extensionList) n) = .ok u := by
  simp only [validateCert, bind_eq_ok, refuseIf_eq_ok, not_or]
  constructor
  · rintro ⟨_, ⟨hb, ha⟩, scan, hscan, hrest⟩
    obtain ⟨hext, rfl⟩ := ExtensionScan.foldlM_eq_ok.mp hscan
    exact ⟨⟨hb, ha, hext⟩, hrest⟩
  · rintro ⟨⟨hb, ha, hext⟩, hrest⟩
    exact ⟨(), ⟨hb, ha⟩, _, ExtensionScan.foldlM_eq_ok.mpr ⟨hext, rfl⟩, hrest⟩

/-- `validate_cert` decides the leaf rules. -/
theorem validateCert_leaf {u : Unit} :
    validateCert lib cert true n now = .ok u ↔ LeafRules lib now cert := by
  rw [validateCert_eq_ok]
  simp only [reduceIte, checkLeaf, bind_eq_ok, refuseIf_eq_ok, Option.any_eq_true, not_exists,
    not_and, Bool.not_eq_true, scan_basicConstraints, scan_keyUsage, Bool.not_eq_true',
    Bool.not_eq_false]
  constructor
  · rintro ⟨hcommon, _, hca, hds⟩
    exact ⟨hcommon, hca, hds⟩
  · rintro ⟨hcommon, hca, hds⟩
    exact ⟨hcommon, (), hca, hds⟩

/-- `validate_cert` decides the CA rules. -/
theorem validateCert_ca {u : Unit} :
    validateCert lib cert false n now = .ok u ↔ CaRules lib now n cert := by
  rw [validateCert_eq_ok]
  simp only [Bool.false_eq_true, reduceIte, checkCa, bind_eq_ok, refuseIf_eq_ok, okOr_eq_ok,
    Option.any_eq_true, not_exists, not_and, Bool.not_eq_true, scan_basicConstraints,
    scan_keyUsage, Bool.not_eq_true', Bool.not_eq_false, decide_eq_false_iff_not, not_lt,
    gt_iff_lt]
  constructor
  · rintro ⟨hcommon, c, hc, _, hca, _, hks, hlen⟩
    exact ⟨hcommon, ⟨c, hc, hca, hlen⟩, hks⟩
  · rintro ⟨hcommon, ⟨c, hc, hca, hlen⟩, hks⟩
    exact ⟨hcommon, c, hc, (), hca, (), hks, hlen⟩

end Veriai
