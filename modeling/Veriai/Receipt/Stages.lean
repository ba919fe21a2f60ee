import Veriai.Receipt.Verify

/-!
# What the stages of the verifier require

One inversion lemma for each stage of `Verifier::verify`, and from them what the
whole inspection requires of a receipt, its claims and its attestation document.
-/

namespace Veriai

open Checked

section Blocks

variable {α : Type} {r r' : Report}

/-- A pass goes on with the check added to the report. -/
@[simp] theorem yields_pass {name : String} {u : Unit} :
    Yields (pass name) r u r' ↔ r' = r.passed name := by
  simp only [Yields, pass, StateT.run_modify]
  constructor
  · intro h
    injection h with h
    exact (congrArg Prod.snd h).symm
  · rintro rfl
    rfl

/-- A failed check goes on with nothing. -/
@[simp] theorem yields_fail {v : Verifier} {name : String} {details : Option String}
    {error : VerifyError} {a : α} : ¬ Yields (v.fail name details error) r a r' := by
  intro h
  cases h

/-- A rejection goes on with nothing. -/
@[simp] theorem yields_reject {error : VerifyError} {a : α} :
    ¬ Yields (reject error) r a r' := by
  intro h
  cases h

/-- A value is taken where there is one. -/
@[simp] theorem yields_orReject {value : Option α} {error : VerifyError} {a : α} :
    Yields (orReject value error) r a r' ↔ value = some a ∧ r' = r := by
  cases value with
  | none => simp [orReject]
  | some b => simp [orReject, yields_pure, eq_comm]

/-- What is rejected under a condition goes on where the condition is false. -/
@[simp] theorem yields_rejectIf {condition : Prop} [Decidable condition] {error : VerifyError}
    {u : Unit} : Yields (rejectIf condition error) r u r' ↔ ¬ condition ∧ r' = r := by
  by_cases h : condition <;> simp [rejectIf, h, yields_pure]

/-- A check goes on where it holds, and is then reported as passed. -/
@[simp] theorem yields_check {v : Verifier} {name details : String} {ok : Bool}
    {error : VerifyError} {u : Unit} :
    Yields (v.check name ok details error) r u r' ↔ ok = true ∧ r' = r.passed name := by
  cases ok <;> simp [Verifier.check]

end Blocks

namespace Verifier

variable {env : Primitives} {v : Verifier} {r r' : Report} {u : Unit}

/-- The receipt is not too large, and the expected PCR0 has 48 bytes. -/
theorem yields_checkSizes {receiptBytes : Bytes} {expected : Expected} :
    Yields (v.checkSizes receiptBytes expected) r u r' ↔
      (receiptBytes.length ≤ v.config.maxReceiptSize ∧ expected.pcr0.length = 48) ∧ r' = r := by
  simp only [checkSizes, yields_bind, yields_rejectIf, not_lt, not_not, ne_eq, gt_iff_lt]
  constructor
  · rintro ⟨_, _, ⟨hs, rfl⟩, hp, rfl⟩
    exact ⟨⟨hs, hp⟩, rfl⟩
  · rintro ⟨⟨hs, hp⟩, rfl⟩
    exact ⟨(), r', ⟨hs, rfl⟩, hp, rfl⟩

/-- The content type is the protected one, and there is no other. -/
theorem yields_checkContentType {prot unprot : Option ContentType} :
    Yields (checkContentType prot unprot) r u r' ↔
      (prot = some (.text "application/cwt") ∧ unprot = none) ∧ r' = r := by
  unfold checkContentType
  split
  · simp
  · rename_i hne
    simp only [yields_reject, false_iff]
    rintro ⟨⟨hp, hu⟩, _⟩
    exact hne _ hp hu

/-- The header conditions on a parsed receipt. -/
structure ReceiptHeaders (c : CoseSign1) : Prop where
  alg : c.protectedHeader.header.alg = some .edDSA
  crit : c.protectedHeader.header.crit = []
  contentType : c.protectedHeader.header.contentType = some (.text "application/cwt")
  unprotected : c.unprotected = {}

/-- The receipt parses, and its headers are the ones of a receipt. -/
theorem yields_parseReceipt {receiptBytes : Bytes} {cose : CoseSign1} :
    Yields (v.parseReceipt env receiptBytes) r cose r' ↔
      (env.coseFromSlice receiptBytes = .ok cose ∧ ReceiptHeaders cose) ∧
        r' = r.passed "Receipt Format" := by
  unfold parseReceipt
  cases hc : env.coseFromSlice receiptBytes with
  | error e => simp
  | ok c =>
    simp only [yields_bind, yields_orReject, yields_rejectIf, yields_checkContentType,
      yields_pass, yields_pure, Except.ok.injEq, and_assoc, exists_and_left, exists_eq_left,
      exists_const]
    constructor
    · rintro ⟨alg, halg, hed, hunalg, hcrit, hun, hct, hunct, rfl, rfl⟩
      simp only [ne_eq, not_not] at hed
      simp only [Bool.or_eq_true, Bool.not_eq_true', not_or, Bool.not_eq_false,
        List.isEmpty_iff] at hcrit
      simp only [Bool.not_eq_true', Bool.not_eq_false, Header.isEmpty_iff] at hun
      exact ⟨rfl, ⟨by rw [halg, hed], hcrit.1, hct, hun⟩, rfl⟩
    · rintro ⟨rfl, h, rfl⟩
      refine ⟨.edDSA, h.alg, by simp, by simp [h.unprotected], by simp [h.crit, h.unprotected], ?_,
        h.contentType, by simp [h.unprotected], rfl, rfl⟩
      rw [(Header.isEmpty_iff _).mpr h.unprotected]
      decide

/-- The receipt has a payload. -/
theorem yields_receiptPayload {cose : CoseSign1} {payload : Bytes} :
    Yields (v.receiptPayload cose) r payload r' ↔ cose.payload = some payload ∧ r' = r := by
  unfold receiptPayload
  cases hp : cose.payload <;> simp [yields_pure, eq_comm]

/-- The report once the claims are known. -/
def withClaims (r : Report) (claims : VeriClaims) : Report :=
  Report.passed { r with receiptInfo := some (receiptInfo claims) } "Claims Parsing"

/-- The payload decodes to claims, whose values the report takes over. -/
theorem yields_parseClaims {payload : Bytes} {claims : VeriClaims} :
    Yields (v.parseClaims env payload) r claims r' ↔
      env.claimsFromBinary payload = .ok claims ∧ r' = withClaims r claims := by
  unfold parseClaims
  cases hc : env.claimsFromBinary payload with
  | error e => simp
  | ok c =>
    simp only [yields_bind, yields_pass, yields_pure, Except.ok.injEq]
    constructor
    · rintro ⟨_, r₁, hm, _, _, rfl, rfl, rfl⟩
      injection hm with hm
      injection hm with _ hm
      exact ⟨rfl, by rw [← hm]; rfl⟩
    · rintro ⟨rfl, rfl⟩
      exact ⟨(), _, rfl, (), _, rfl, rfl, rfl⟩

/-- The attestation type is the one of AWS Nitro. -/
theorem yields_checkAttestationType {claims : VeriClaims} :
    Yields (v.checkAttestationType claims) r u r' ↔
      claims.attestationType = 3 ∧ r' = r.passed "Attestation Type" := by
  simp [checkAttestationType]

/-- The signature verifies under a valid claimed key, over the receipt's own signed bytes. -/
structure ReceiptSigned (env : Primitives) (cose : CoseSign1) (claims : VeriClaims) : Prop where
  keyValid : env.ed25519KeyValid claims.enclavePubkey = true
  verifies : ∃ sig : ByteArr 64, cose.signature = sig.toList ∧
    env.ed25519Verify claims.enclavePubkey (cose.tbsData env []) sig = true

/-- Key, length and signature decide whether the receipt counts as signed. -/
theorem receiptSigVerified_iff {cose : CoseSign1} {claims : VeriClaims} :
    receiptSigVerified env cose claims = true ↔ ReceiptSigned env cose claims := by
  unfold receiptSigVerified
  constructor
  · intro h
    split at h
    · rename_i hkey
      split at h
      · rename_i sig hsig
        exact ⟨hkey, sig, ByteArr.ofBytes?_eq_some.mp hsig, h⟩
      · cases h
    · cases h
  · rintro ⟨hkey, sig, hsig, h⟩
    simp only [hkey, reduceIte, ByteArr.ofBytes?_eq_some.mpr hsig, h]

/-- The receipt is signed with the key in its claims. -/
theorem yields_checkReceiptSignature {cose : CoseSign1} {claims : VeriClaims} :
    Yields (v.checkReceiptSignature env cose claims) r u r' ↔
      ReceiptSigned env cose claims ∧ r' = r.passed "Receipt Signature" := by
  simp [checkReceiptSignature, receiptSigVerified_iff]

/-- The claims carry a COSE attestation whose payload decodes to the document. -/
def AttestationParses (env : Primitives) (claims : VeriClaims) (doc : AttestationDoc) : Prop :=
  ∃ attestation payload, env.coseFromSlice claims.attestationReport = .ok attestation ∧
    attestation.payload = some payload ∧ env.docFromBinary payload = .ok doc

/-- The attestation report parses and has a document in it. -/
theorem yields_parseAttestation {claims : VeriClaims} {doc : AttestationDoc} :
    Yields (v.parseAttestation env claims) r doc r' ↔
      AttestationParses env claims doc ∧ r' = r := by
  unfold parseAttestation AttestationParses
  cases hc : env.coseFromSlice claims.attestationReport with
  | error e => simp
  | ok attestation =>
    cases hp : attestation.payload with
    | none => simp [hp]
    | some payload =>
      cases hd : env.docFromBinary payload with
      | error e => simp [hp, hd]
      | ok d => simp [hp, hd, yields_pure, eq_comm]

/-- A provider that returns an error does not accept a root. -/
theorem rootAccepts_iff {report root : Bytes} :
    v.rootAccepts report root = true ↔ v.provider.verify report root = .ok true := by
  unfold rootAccepts
  split <;> simp_all

/-- The provider accepts the report under one of the trusted roots. -/
theorem yields_checkChain {claims : VeriClaims} :
    Yields (v.checkChain claims) r u r' ↔
      (∃ root ∈ v.trustedRoots, v.provider.verify claims.attestationReport root = .ok true) ∧
        r' = r.passed "Attestation Signature & Chain" := by
  simp [checkChain, List.any_eq_true, rootAccepts_iff]

/-- The clock gives a time since the epoch, as seconds of 64 bits. -/
theorem yields_nowSec {now : SystemTime} {s : Int64} :
    Yields (nowSec now) r s r' ↔ (∃ t, now.unixSeconds = some t ∧ s = t.toInt64) ∧ r' = r := by
  simp only [nowSec, yields_bind, yields_orReject, yields_pure]
  constructor
  · rintro ⟨t, _, ⟨ht, rfl⟩, rfl, rfl⟩
    exact ⟨⟨t, ht, rfl⟩, rfl⟩
  · rintro ⟨⟨t, ht, rfl⟩, rfl⟩
    exact ⟨t, r', ⟨ht, rfl⟩, rfl, rfl⟩

/-- The document's time is within the permitted skew of the clock. -/
def SkewPasses (config : VerifierConfig) (now : Int64) (doc : AttestationDoc) : Prop :=
  ∃ skew, checkedSub now (docSec doc) = some skew ∧ skew.abs ≤ config.maxClockSkew

/-- The document's time does not deviate too far from the clock. -/
theorem yields_checkSkew {now : Int64} {doc : AttestationDoc} :
    Yields (v.checkSkew now doc) r u r' ↔
      SkewPasses v.config now doc ∧ r' = r.passed "Attestation Timestamp Skew" := by
  simp only [checkSkew, SkewPasses, yields_bind, yields_orReject, yields_check,
    decide_eq_true_eq]
  constructor
  · rintro ⟨skew, _, ⟨hs, rfl⟩, hle, rfl⟩
    exact ⟨⟨skew, hs, hle⟩, rfl⟩
  · rintro ⟨⟨skew, hs, hle⟩, rfl⟩
    exact ⟨skew, r, ⟨hs, rfl⟩, hle, rfl⟩

/-- The claimed time is not in the future and not too old. -/
def AgePasses (config : VerifierConfig) (now : Int64) (claims : VeriClaims) : Prop :=
  ∃ age, checkedSub now claims.attestationTimestamp = some age ∧
    ¬ (age < 0 ∨ age > config.maxReceiptAge)

/-- The receipt is neither too old nor from the future. -/
theorem yields_checkAge {now : Int64} {claims : VeriClaims} :
    Yields (v.checkAge now claims) r u r' ↔
      AgePasses v.config now claims ∧ r' = r.passed "Receipt Timestamp Skew" := by
  simp only [checkAge, AgePasses, yields_bind, yields_orReject, yields_rejectIf, yields_pass]
  constructor
  · rintro ⟨age, _, ⟨ha, rfl⟩, _, _, ⟨hle, rfl⟩, rfl⟩
    exact ⟨⟨age, ha, hle⟩, rfl⟩
  · rintro ⟨⟨age, ha, hle⟩, rfl⟩
    exact ⟨age, r, ⟨ha, rfl⟩, (), r, ⟨hle, rfl⟩, rfl⟩

/-- The document's time and the claimed one are within five seconds. -/
def AlignmentPasses (claims : VeriClaims) (doc : AttestationDoc) : Prop :=
  ∃ alignment, checkedSub (docSec doc) claims.attestationTimestamp = some alignment ∧
    alignment.abs ≤ 5

/-- The claimed time is close to the one of the document. -/
theorem yields_checkAlignment {claims : VeriClaims} {doc : AttestationDoc} :
    Yields (v.checkAlignment claims doc) r u r' ↔
      AlignmentPasses claims doc ∧ r' = r.passed "Timestamp Alignment" := by
  simp only [checkAlignment, AlignmentPasses, yields_bind, yields_orReject, yields_check,
    decide_eq_true_eq]
  constructor
  · rintro ⟨a, _, ⟨ha, rfl⟩, hle, rfl⟩
    exact ⟨⟨a, ha, hle⟩, rfl⟩
  · rintro ⟨⟨a, ha, hle⟩, rfl⟩
    exact ⟨a, r, ⟨ha, rfl⟩, hle, rfl⟩

/-- All three timestamp checks pass on one reading of the clock. -/
structure TimestampsPass (config : VerifierConfig) (now : SystemTime) (claims : VeriClaims)
    (doc : AttestationDoc) : Prop where
  passes : ∃ t, now.unixSeconds = some t ∧ SkewPasses config t.toInt64 doc ∧
    AgePasses config t.toInt64 claims ∧ AlignmentPasses claims doc

/-- The report after the three timestamp checks. -/
def timedReport (r : Report) : Report :=
  ((r.passed "Attestation Timestamp Skew").passed "Receipt Timestamp Skew").passed
    "Timestamp Alignment"

/-- All three times pass, by one reading of the clock. -/
theorem yields_checkTimestamps {now : SystemTime} {claims : VeriClaims} {doc : AttestationDoc} :
    Yields (v.checkTimestamps now claims doc) r u r' ↔
      TimestampsPass v.config now claims doc ∧ r' = timedReport r := by
  simp only [checkTimestamps, yields_bind, yields_nowSec, yields_checkSkew, yields_checkAge,
    yields_checkAlignment, and_assoc, exists_and_left, exists_eq_left, exists_const]
  constructor
  · rintro ⟨now', ⟨t, ht, rfl⟩, hs, ha, hal, rfl⟩
    exact ⟨⟨t, ht, hs, ha, hal⟩, rfl⟩
  · rintro ⟨⟨t, ht, hs, ha, hal⟩, rfl⟩
    exact ⟨_, ⟨t, ht, rfl⟩, hs, ha, hal, rfl⟩

/-- The document has the expected PCR0. -/
theorem yields_checkPcr0 {doc : AttestationDoc} {expected : Expected} :
    Yields (v.checkPcr0 doc expected) r u r' ↔
      doc.pcrs.lookup 0 = some expected.pcr0 ∧ r' = r.passed "PCR0 Check" := by
  unfold checkPcr0
  cases hp : doc.pcrs.lookup 0 <;> simp

/-- The document certifies the key in the claims. -/
theorem yields_checkPubkey {claims : VeriClaims} {doc : AttestationDoc} :
    Yields (v.checkPubkey claims doc) r u r' ↔
      doc.publicKey = some claims.enclavePubkey.toList ∧ r' = r.passed "Pubkey Binding" := by
  unfold checkPubkey
  cases hp : doc.publicKey <;> simp

/-- The user data of the document bind the key in the claims. -/
theorem yields_checkReportData {claims : VeriClaims} {doc : AttestationDoc} :
    Yields (v.checkReportData env claims doc) r u r' ↔
      doc.userData = some (expectedReportData env claims.enclavePubkey).toList ∧
        r' = r.passed "REPORTDATA Binding" := by
  unfold checkReportData
  cases hp : doc.userData <;> simp

/-- The nonce stands in both documents and the hashes are the expected ones. -/
structure PayloadMatches (claims : VeriClaims) (doc : AttestationDoc) (expected : Expected) :
    Prop where
  docNonce : doc.nonce = some expected.nonce.toList
  clientNonce : claims.clientNonce = expected.nonce
  modelHash : claims.modelHash = expected.modelHash
  inputHash : claims.inputHash = expected.inputHash
  outputHash : claims.outputHash = expected.outputHash

/-- The report after the payload checks. -/
def payloadReport (r : Report) : Report :=
  (((r.passed "Nonce Matching").passed "Model Hash").passed "Input Hash").passed "Output Hash"

/-- The claims are the expected values, and the document has the nonce in them. -/
theorem yields_checkPayload {claims : VeriClaims} {doc : AttestationDoc} {expected : Expected} :
    Yields (v.checkPayload claims doc expected) r u r' ↔
      PayloadMatches claims doc expected ∧ r' = payloadReport r := by
  simp only [checkPayload, yields_bind, yields_check, Bool.and_eq_true, beq_iff_eq, and_assoc,
    exists_and_left, exists_eq_left, exists_const]
  constructor
  · rintro ⟨hd, hc, hm, hi, ho, rfl⟩
    exact ⟨⟨hd, hc, hm, hi, ho⟩, rfl⟩
  · rintro ⟨⟨hd, hc, hm, hi, ho⟩, rfl⟩
    exact ⟨hd, hc, hm, hi, ho, rfl⟩

/-- Everything `verify` requires of a receipt, its claims and its attestation
document before the replay state is consulted. -/
structure Inspected (env : Primitives) (v : Verifier) (now : SystemTime) (receiptBytes : Bytes)
    (expected : Expected) (cose : CoseSign1) (claims : VeriClaims) (doc : AttestationDoc) :
    Prop where
  receiptSize : receiptBytes.length ≤ v.config.maxReceiptSize
  pcr0Size : expected.pcr0.length = 48
  receiptParses : env.coseFromSlice receiptBytes = .ok cose
  headers : ReceiptHeaders cose
  claimsDecode : ∃ payload, cose.payload = some payload ∧ env.claimsFromBinary payload = .ok claims
  nitro : claims.attestationType = 3
  signed : ReceiptSigned env cose claims
  attestation : AttestationParses env claims doc
  chain : ∃ root ∈ v.trustedRoots, v.provider.verify claims.attestationReport root = .ok true
  timestamps : TimestampsPass v.config now claims doc
  pcr0 : doc.pcrs.lookup 0 = some expected.pcr0
  pubkey : doc.publicKey = some claims.enclavePubkey.toList
  reportData : doc.userData = some (expectedReportData env claims.enclavePubkey).toList
  payload : PayloadMatches claims doc expected

/-- The report of a completed inspection. -/
def inspectedReport (claims : VeriClaims) : Report :=
  payloadReport ((((timedReport ((((withClaims (Report.passed {} "Receipt Format") claims).passed
    "Attestation Type").passed "Receipt Signature").passed
    "Attestation Signature & Chain")).passed "PCR0 Check").passed "Pubkey Binding").passed
    "REPORTDATA Binding")

/-- The inspection completes exactly for the receipts that satisfy every requirement. -/
theorem yields_inspect {now : SystemTime} {receiptBytes : Bytes} {expected : Expected}
    {claims : VeriClaims} {doc : AttestationDoc} :
    Yields (v.inspect env now receiptBytes expected) {} (claims, doc) r' ↔
      (∃ cose, Inspected env v now receiptBytes expected cose claims doc) ∧
        r' = inspectedReport claims := by
  simp only [inspect, yields_bind, yields_checkSizes, yields_parseReceipt, yields_receiptPayload,
    yields_parseClaims, yields_checkAttestationType, yields_checkReceiptSignature,
    yields_parseAttestation, yields_checkChain, yields_checkTimestamps, yields_checkPcr0,
    yields_checkPubkey, yields_checkReportData, yields_checkPayload, yields_pure, and_assoc,
    exists_and_left, exists_eq_left, exists_const]
  constructor
  · rintro ⟨hsize, hpcr, cose, hparse, hhead, payload, hpay, c, hclaims, htype, hsig, d, hatt,
      hchain, htime, hp0, hkey, hrd, hpm, heq, rfl⟩
    injection heq with hc hd
    subst hc hd
    exact ⟨⟨cose, hsize, hpcr, hparse, hhead, ⟨payload, hpay, hclaims⟩, htype, hsig, hatt, hchain,
      htime, hp0, hkey, hrd, hpm⟩, rfl⟩
  · rintro ⟨⟨cose, h⟩, rfl⟩
    obtain ⟨payload, hpay, hclaims⟩ := h.claimsDecode
    exact ⟨h.receiptSize, h.pcr0Size, cose, h.receiptParses, h.headers, payload, hpay, claims,
      hclaims, h.nitro, h.signed, doc, h.attestation, h.chain, h.timestamps, h.pcr0, h.pubkey,
      h.reportData, h.payload, rfl, rfl⟩
end Verifier

end Veriai
