import Veriai.Receipt.Timing
import Veriai.Receipt.Transparent

/-!
# The receipt generator

`ReceiptGenerator::generate_receipt`, and what the verifier finds in a receipt
it returns: the header set, the claims, the signature and the bindings of both
sides agree, so within the time windows the inspection completes.
-/

namespace Veriai

/-- The four values a receipt is asked to attest. -/
structure ReceiptRequest where
  modelHash : ByteArr 32
  inputHash : ByteArr 32
  outputHash : ByteArr 32
  clientNonce : ByteArr 32

/-- The same values as a verifier expects them, with a PCR0. -/
def ReceiptRequest.expected (request : ReceiptRequest) (pcr0 : Bytes) : Expected where
  modelHash := request.modelHash
  inputHash := request.inputHash
  outputHash := request.outputHash
  nonce := request.clientNonce
  pcr0 := pcr0

/-- `ReceiptGenerator`, apart from its provider and its lock. -/
structure ReceiptGenerator where
  signingKey : ByteArr 32
  sequenceNum : UInt64 := 0

/-- `env!("CARGO_PKG_VERSION")`. -/
def cargoPkgVersion : String := "0.1.0"

/-- The protected header of a receipt. -/
def receiptHeader : Header :=
  { alg := some .edDSA, contentType := some (.text "application/cwt") }

namespace ReceiptGenerator

variable (env : Primitives) (gen : ReceiptGenerator)

/-- `public_key_bytes`. -/
def publicKeyBytes : ByteArr 32 := env.ed25519Public gen.signingKey

/-- `compute_report_data`. -/
def computeReportData : ByteArr 64 :=
  env.sha512 ([0x01] ++ utf8Bytes "VeriAI-KeyBind-v1" ++ (gen.publicKeyBytes env).toList)

/-- Step 1: the attestation document binding the key. -/
def requestAttestation (provider : AttestationProvider) (request : ReceiptRequest) :
    Except VerifyError Bytes :=
  (provider.generate (some (gen.computeReportData env).toList)
    (some request.clientNonce.toList) (some (gen.publicKeyBytes env).toList)).mapError
    fun e => .attestation e.toString

/-- `fetch_update` of the counter with `checked_add(1)`: the number before, if it can grow. -/
def allocateSequence : Option (UInt64 × ReceiptGenerator) :=
  if gen.sequenceNum.toNat + 1 < 2 ^ 64 then
    some (gen.sequenceNum, { gen with sequenceNum := gen.sequenceNum + 1 })
  else none

/-- The claims of a receipt. -/
def claims (request : ReceiptRequest) (sequence : UInt64) (attestationReport : Bytes)
    (nowSec : Int64) : VeriClaims where
  modelHash := request.modelHash
  inputHash := request.inputHash
  outputHash := request.outputHash
  clientNonce := request.clientNonce
  sequenceNum := sequence
  attestationReport := attestationReport
  attestationType := 3
  attestationTimestamp := nowSec
  sdkVersion := cargoPkgVersion
  enclavePubkey := gen.publicKeyBytes env

/-- Step 3: the structure to be signed. -/
def unsigned (payload : Bytes) : CoseSign1 where
  protectedHeader := { header := receiptHeader }
  unprotected := {}
  payload := some payload
  signature := []

/-- Steps 3 and 4: the signed structure. -/
def sign (payload : Bytes) : CoseSign1 :=
  { unsigned payload with
    signature := (env.ed25519Sign gen.signingKey ((unsigned payload).tbsData env [])).toList }

/-- Steps 2 to 4 for an allocated number. -/
def buildReceipt (now : SystemTime) (request : ReceiptRequest) (sequence : UInt64)
    (attestationReport : Bytes) : Except VerifyError Bytes := do
  let nowSec ← okOr now.unixSeconds
    (.invalidAttestationDocument "second time provided was later than self")
  let payload ← (env.claimsToBinary
    (gen.claims env request sequence attestationReport nowSec.toInt64)).mapError
    fun _ => .malformedReceipt
  (env.coseToVec (gen.sign env payload)).mapError fun _ => .malformedReceipt

/-- Everything after the provider has answered: allocate a number, then build the
receipt. An allocated number stays allocated when the rest fails. -/
def complete (now : SystemTime) (request : ReceiptRequest) (attestationReport : Bytes) :
    Except VerifyError Bytes × ReceiptGenerator :=
  match gen.allocateSequence with
  | none => (.error .sequenceNumberExhausted, gen)
  | some (sequence, gen') => (gen.buildReceipt env now request sequence attestationReport, gen')

/-- `generate_receipt` under the generation lock. -/
def generateReceipt (provider : AttestationProvider) (now : SystemTime)
    (request : ReceiptRequest) : Except VerifyError Bytes × ReceiptGenerator :=
  match gen.requestAttestation env provider request with
  | .error e => (.error e, gen)
  | .ok attestationReport => gen.complete env now request attestationReport

end ReceiptGenerator

section Returned

variable {env : Primitives} {gen gen' : ReceiptGenerator} {now : SystemTime}
  {request : ReceiptRequest} {report receiptBytes : Bytes}

/-- A returned receipt is the encoding of the signed claims with the number before the call. -/
theorem ReceiptGenerator.complete_eq_ok
    (h : gen.complete env now request report = (.ok receiptBytes, gen')) :
    0 ≤ now.secs.toInt ∧ gen.sequenceNum.toNat + 1 < 2 ^ 64 ∧
      gen' = { gen with sequenceNum := gen.sequenceNum + 1 } ∧
      ∃ payload,
        env.claimsToBinary (gen.claims env request gen.sequenceNum report now.secs) = .ok payload ∧
        env.coseToVec (gen.sign env payload) = .ok receiptBytes := by
  unfold complete allocateSequence at h
  by_cases hroom : gen.sequenceNum.toNat + 1 < 2 ^ 64
  · rw [if_pos hroom] at h
    obtain ⟨hbuild, hgen⟩ := Prod.mk.inj h
    simp only [buildReceipt, bind_eq_ok, okOr_eq_ok, mapError_eq_ok] at hbuild
    obtain ⟨nowSec, hnow, payload, hclaims, hcose⟩ := hbuild
    obtain ⟨hpos, hsecs⟩ := unixSeconds_eq_some.mp hnow
    rw [hsecs] at hclaims
    exact ⟨hpos, hroom, hgen.symm, payload, hclaims, hcose⟩
  · rw [if_neg hroom] at h
    cases (Prod.mk.inj h).1

/-- The structure a verifier parses from a returned receipt: the protected header
remembers the bytes that were signed. -/
def ReceiptGenerator.received (env : Primitives) (gen : ReceiptGenerator) (payload : Bytes) :
    CoseSign1 :=
  { gen.sign env payload with
    protectedHeader := ⟨some (env.encodeHeader receiptHeader), receiptHeader⟩ }

/-- What was signed is what the verifier reconstructs. -/
theorem ReceiptGenerator.tbsData_received (payload : Bytes) :
    (gen.received env payload).tbsData env [] = (unsigned payload).tbsData env [] := rfl

theorem ReceiptGenerator.receiptHeaders (payload : Bytes) :
    Verifier.ReceiptHeaders (gen.received env payload) := ⟨rfl, rfl, rfl, rfl⟩

/-- The receipt's own signature verifies. -/
theorem ReceiptGenerator.receiptSigned (hlawful : env.Lawful) {claims : VeriClaims}
    (hkey : claims.enclavePubkey = gen.publicKeyBytes env) (payload : Bytes) :
    Verifier.ReceiptSigned env (gen.received env payload) claims := by
  refine ⟨?_, env.ed25519Sign gen.signingKey ((unsigned payload).tbsData env []), rfl, ?_⟩
  · rw [hkey]
    exact hlawful.keyValid gen.signingKey
  · rw [hkey, tbsData_received]
    exact hlawful.sign_verifies gen.signingKey _

/-- A document carries what was passed to the provider and a PCR0, and some trusted
root accepts its report. -/
structure Vouches (env : Primitives) (v : Verifier) (pcr0 userData nonce publicKey report : Bytes)
    (doc : AttestationDoc) : Prop where
  parses : ∃ attestation payload, env.coseFromSlice report = .ok attestation ∧
    attestation.payload = some payload ∧ env.docFromBinary payload = .ok doc
  trusted : ∃ root ∈ v.trustedRoots, v.provider.verify report root = .ok true
  userData : doc.userData = some userData
  nonce : doc.nonce = some nonce
  publicKey : doc.publicKey = some publicKey
  pcr0 : doc.pcrs.lookup 0 = some pcr0

/-- The document's time was read from the clock before the given instant. -/
def ReadBefore (now : SystemTime) (doc : AttestationDoc) : Prop :=
  ∃ t : SystemTime, t.unixMillis = some doc.timestamp ∧ ¬ now.before t

/-- The provider returns documents with their arguments, the PCR0 and the time of the call. -/
def HonestProvider (env : Primitives) (v : Verifier) (provider : AttestationProvider) (pcr0 : Bytes)
    (now : SystemTime) : Prop :=
  ∀ userData nonce publicKey report,
    provider.generate (some userData) (some nonce) (some publicKey) = .ok report →
      ∃ doc, Vouches env v pcr0 userData nonce publicKey report doc ∧ ReadBefore now doc

/-- A document read before an instant is not later in whole seconds. -/
theorem ReadBefore.docSec_le {doc : AttestationDoc} (h : ReadBefore now doc) :
    (Verifier.docSec doc).toInt ≤ now.secs.toInt := by
  obtain ⟨t, hmillis, hbefore⟩ := h
  have hsecs : t.secs.toInt ≤ now.secs.toInt := by
    have hlt := mt Or.inl hbefore
    rw [Int64.lt_iff_toInt_lt] at hlt
    omega
  have hdoc : doc.timestamp.toNat ≤ t.secs.toInt.toNat * 1000 + t.nanos.val / 1000000 := by
    unfold SystemTime.unixMillis at hmillis
    split at hmillis
    · cases hmillis
    · rw [← Option.some.inj hmillis, UInt64.toNat_ofNat']
      exact Nat.mod_le _ _
  have hnanos := t.nanos.isLt
  have hnonneg : 0 ≤ t.secs.toInt := by
    unfold SystemTime.unixMillis at hmillis
    split at hmillis
    · cases hmillis
    · rename_i hneg
      rw [Int64.lt_iff_toInt_lt, Int64.toInt_zero] at hneg
      omega
  rw [docSec_toInt]
  omega

/-- The verifier's clock is within the windows of the claims and the document. -/
structure WithinWindows (config : VerifierConfig) (now : SystemTime) (claims : VeriClaims)
    (doc : AttestationDoc) : Prop where
  aligned : claims.attestationTimestamp.toInt ≤ (Verifier.docSec doc).toInt + 5
  notBefore : claims.attestationTimestamp.toInt ≤ now.secs.toInt
  age : now.secs.toInt ≤ claims.attestationTimestamp.toInt + config.maxReceiptAge.toInt
  skew : now.secs.toInt ≤ (Verifier.docSec doc).toInt + config.maxClockSkew.toInt

/-- Within the windows the timestamp stage passes for a document not later than the claims. -/
theorem WithinWindows.timestampsPass {config : VerifierConfig} {claims : VeriClaims}
    {doc : AttestationDoc} (h : WithinWindows config now claims doc)
    (hdoc : (Verifier.docSec doc).toInt ≤ claims.attestationTimestamp.toInt) :
    Verifier.TimestampsPass config now claims doc := by
  have hpos := docSec_toInt doc
  have haligned := h.aligned
  have hbefore := h.notBefore
  have hage := h.age
  have hskew := h.skew
  rw [Verifier.timestampsPass_iff, Int.abs_eq_natAbs, Int.abs_eq_natAbs]
  omega

/-- A returned receipt carries the signed claims and the vouching document. -/
theorem ReceiptGenerator.complete_content (hlawful : env.Lawful) {v : Verifier}
    {pcr0 userData nonce publicKey : Bytes} {doc : AttestationDoc}
    (hdoc : Vouches env v pcr0 userData nonce publicKey report doc)
    (h : gen.complete env now request report = (.ok receiptBytes, gen')) :
    ReceiptContent env receiptBytes
      (gen.claims env request gen.sequenceNum report now.secs) doc := by
  obtain ⟨_, _, _, payload, hclaims, hcose⟩ := complete_eq_ok h
  exact ⟨gen.received env payload, payload, hlawful.cose_roundTrip _ _ rfl hcose, rfl,
    hlawful.claims_roundTrip _ _ hclaims, hdoc.parses⟩

/-- The inspection of a returned receipt completes within the windows. -/
theorem ReceiptGenerator.complete_inspected (hlawful : env.Lawful) {v : Verifier} {pcr0 : Bytes}
    {doc : AttestationDoc} {verifyNow : SystemTime}
    (hdoc : Vouches env v pcr0 (gen.computeReportData env).toList request.clientNonce.toList
      (gen.publicKeyBytes env).toList report doc)
    (hread : ReadBefore now doc) (hpcr0 : pcr0.length = 48)
    (h : gen.complete env now request report = (.ok receiptBytes, gen'))
    (hsize : receiptBytes.length ≤ v.config.maxReceiptSize)
    (hwindows : WithinWindows v.config verifyNow
      (gen.claims env request gen.sequenceNum report now.secs) doc) :
    ∃ cose, Verifier.Inspected env v verifyNow receiptBytes (request.expected pcr0) cose
      (gen.claims env request gen.sequenceNum report now.secs) doc := by
  obtain ⟨_, _, _, payload, hclaims, hcose⟩ := complete_eq_ok h
  refine ⟨gen.received env payload, ?_⟩
  exact {
    receiptSize := hsize
    pcr0Size := hpcr0
    receiptParses := hlawful.cose_roundTrip _ _ rfl hcose
    headers := receiptHeaders payload
    claimsDecode := ⟨payload, rfl, hlawful.claims_roundTrip _ _ hclaims⟩
    nitro := rfl
    signed := receiptSigned hlawful rfl payload
    attestation := hdoc.parses
    chain := hdoc.trusted
    timestamps := hwindows.timestampsPass hread.docSec_le
    pcr0 := hdoc.pcr0
    pubkey := hdoc.publicKey
    reportData := hdoc.userData
    payload := ⟨hdoc.nonce, rfl, rfl, rfl, rfl⟩ }

/-- Every receipt a generator returns is answered valid by a stateless verifier, at
every time within the windows of its claims and its document. -/
theorem generated_receipt_accepted (hlawful : env.Lawful) {v : Verifier}
    {provider : AttestationProvider} {pcr0 : Bytes} {verifyNow : SystemTime}
    (hprovider : HonestProvider env v provider pcr0 now) (hpcr0 : pcr0.length = 48)
    (hgen : gen.generateReceipt env provider now request = (.ok receiptBytes, gen'))
    (hsize : receiptBytes.length ≤ v.config.maxReceiptSize)
    (hwindows : ∀ claims doc, ReceiptContent env receiptBytes claims doc →
      WithinWindows v.config verifyNow claims doc) :
    Verifier.Accepts (v.verify env verifyNow receiptBytes (request.expected pcr0) none).1 := by
  unfold ReceiptGenerator.generateReceipt at hgen
  cases hrequest : gen.requestAttestation env provider request with
  | error e =>
    rw [hrequest] at hgen
    cases (Prod.mk.inj hgen).1
  | ok report =>
    rw [hrequest] at hgen
    have hreport := mapError_eq_ok.mp hrequest
    obtain ⟨doc, hdoc, hread⟩ := hprovider _ _ _ _ hreport
    have hcontent := ReceiptGenerator.complete_content hlawful hdoc hgen
    obtain ⟨cose, hinspected⟩ := ReceiptGenerator.complete_inspected hlawful hdoc hread hpcr0 hgen
      hsize (hwindows _ _ hcontent)
    rw [Verifier.accepts_iff]
    refine ⟨cose, _, doc, hinspected, ?_⟩
    intro m hm
    cases hm

end Returned

namespace Transparent

/-- The values of the transparent receipts, as a request. -/
def request : ReceiptRequest := ⟨fill 32 1, fill 32 2, fill 32 3, fill 32 4⟩

/-- The generator with a given key byte. -/
def generator (key : UInt8) : ReceiptGenerator := { signingKey := fill 32 key }

theorem vouches (key : UInt8) :
    Vouches primitives verifier (List.replicate 48 0) (fill 64 0).toList (fill 32 4).toList
      (fill 32 key).toList [key] (doc key) where
  parses := ⟨attestation [key], [key], rfl, rfl, rfl⟩
  trusted := ⟨[], List.mem_singleton_self _, rfl⟩
  userData := rfl
  nonce := rfl
  publicKey := rfl
  pcr0 := Finmap.lookup_insert _

theorem readBefore (key : UInt8) : ReadBefore epoch (doc key) := ⟨epoch, rfl, by decide⟩

theorem honestProvider :
    HonestProvider primitives verifier provider (List.replicate 48 0) epoch := by
  intro userData nonce publicKey report h
  simp only [provider] at h
  split at h
  · rename_i key rest hkey
    obtain rfl := Option.some.inj hkey
    split at h
    · rename_i hfits
      obtain rfl := Except.ok.inj h
      obtain ⟨hud, hnonce, hpk⟩ := hfits
      obtain rfl := Option.some.inj hud
      obtain rfl := Option.some.inj hnonce
      rw [Option.some.inj hpk]
      exact ⟨doc key, vouches key, readBefore key⟩
    · cases h
  · cases h

/-- The first receipt of the generator with key 7 is accepted at the epoch. -/
theorem generated_receipt_accepted_first :
    Verifier.Accepts (verifier.verify primitives epoch [1, 0, 7]
      (request.expected (List.replicate 48 0)) none).1 := by
  have hgen : (generator 7).generateReceipt primitives provider epoch request =
      (.ok [1, 0, 7], { generator 7 with sequenceNum := 1 }) := rfl
  refine generated_receipt_accepted lawful honestProvider rfl hgen (by decide) ?_
  intro claims' doc' hcontent
  have hfirst : ReceiptContent primitives [1, 0, 7] (claims 0 7) (doc 7) :=
    ⟨_, _, rfl, rfl, rfl, _, _, rfl, rfl, rfl⟩
  obtain ⟨rfl, rfl⟩ := hcontent.unique hfirst
  constructor <;> decide

end Transparent

end Veriai
