import Veriai.Core.Checklist
import Veriai.Core.Ledger
import Veriai.Types.Cose

/-!
# The receipt verifier

`Verifier::verify`, stage by stage in the order of the source. Everything up to
the replay check is a checked computation over the report built so far; the
final lock-check-insert section acts on the replay map.
-/

namespace Veriai

/-- An attestation provider as it answers during the call considered: `verify`
may read the clock, so its answers are those of that call. -/
structure AttestationProvider where
  name : String := "custom"
  isHardwareBacked : Bool := false
  generate : Option Bytes → Option Bytes → Option Bytes → Except AttestationError Bytes
  verify : Bytes → Bytes → Except AttestationError Bool

/-- `VerifierConfig`, with its defaults. -/
structure VerifierConfig where
  maxReceiptSize : Nat := 64 * 1024
  maxClockSkew : Int64 := 300
  maxReceiptAge : Int64 := 300

/-- The identity fingerprint a sequence number belongs to. -/
abbrev Fingerprint := ByteArr 32

/-- The last sequence number accepted for each identity. -/
abbrev ReplayMap := Ledger Fingerprint UInt64

/-- `Mutex<HashMap<[u8; 32], u64>>`; a poisoned mutex can no longer be locked. -/
structure ReplayMutex where
  map : ReplayMap
  poisoned : Bool := false

/-- `Mutex::new`. -/
def ReplayMutex.new (map : ReplayMap) : ReplayMutex := { map }

/-- Record a number in the locked map. -/
def ReplayMutex.insert (m : ReplayMutex) (fingerprint : Fingerprint) (sequence : UInt64) :
    ReplayMutex := { m with map := m.map.insert fingerprint sequence }

/-- `Verifier`, apart from its replay state, which calls pass along explicitly. -/
structure Verifier where
  provider : AttestationProvider
  trustedRoots : List Bytes
  config : VerifierConfig := {}

/-- The values a caller expects a receipt to attest. -/
structure Expected where
  modelHash : ByteArr 32
  inputHash : ByteArr 32
  outputHash : ByteArr 32
  nonce : ByteArr 32
  pcr0 : Bytes

/-- The report under construction: the checks made and the receipt summary. -/
structure Report where
  checks : List VerificationCheck := []
  receiptInfo : Option ReceiptInfo := none

/-- How `verify` leaves early: with `Err`, or with `Ok` of a failed result. -/
inductive Exit where
  | err (error : VerifyError)
  | failed (result : VerificationResult)

/-- A stage of verification. -/
abbrev VerifyM (α : Type) := Checked Report Exit α

/-- The report after `add_check!(name, "passed", None)`. -/
def Report.passed (r : Report) (name : String) : Report :=
  { r with checks := r.checks ++ [⟨name, .passed, none⟩] }

/-- `add_check!(name, "failed", details)` followed by `fail_result!(error, checks)`. -/
def Report.failResult (r : Report) (provider : AttestationProvider) (name : String)
    (details : Option String) (error : VerifyError) : VerificationResult where
  valid := false
  receipt := r.receiptInfo
  checks := r.checks ++ [⟨name, .failed, details⟩]
  attestationProvider := provider.name
  verifiedHardware := false
  error := some error.toString

/-- Record a passed check. -/
def pass (name : String) : VerifyM Unit := modify (·.passed name)

/-- Record a failed check and return the failed result. -/
def Verifier.fail {α : Type} (v : Verifier) (name : String) (details : Option String)
    (error : VerifyError) : VerifyM α := do
  let r ← get
  throw (.failed (r.failResult v.provider name details error))

/-- Return `Err`. -/
def reject {α : Type} (error : VerifyError) : VerifyM α := throw (.err error)

/-- `if condition { return Err(error); }`. -/
def rejectIf (condition : Prop) [Decidable condition] (error : VerifyError) : VerifyM Unit :=
  if condition then reject error else pure ()

/-- `?` on an absent value. -/
def orReject {α : Type} (value : Option α) (error : VerifyError) : VerifyM α :=
  match value with
  | some a => pure a
  | none => reject error

/-- A test that records its outcome and stops the verification when it fails. -/
def Verifier.check (v : Verifier) (name : String) (ok : Bool) (details : String)
    (error : VerifyError) : VerifyM Unit :=
  if ok then pass name else v.fail name (some details) error

/-- `i64::checked_sub`. -/
def checkedSub (a b : Int64) : Option Int64 :=
  let d := a.toInt - b.toInt
  if -2 ^ 63 ≤ d ∧ d < 2 ^ 63 then some (Int64.ofInt d) else none

/-- `claims_version_str`: the text after the last slash, `"1"` without one. -/
def claimsVersionStr (sdkVersion : String) : String :=
  if '/' ∈ sdkVersion.toList then
    String.ofList (sdkVersion.toList.reverse.takeWhile (· ≠ '/')).reverse
  else "1"

/-- `compute_identity_fingerprint`. -/
def computeIdentityFingerprint (env : Primitives) (doc : AttestationDoc) : Fingerprint :=
  let certFingerprint := env.sha256 (doc.certificate ++ doc.cabundle.flatten)
  env.sha256 ((doc.pcrs.lookup 0).getD [] ++ (doc.pcrs.lookup 3).getD [] ++
    (doc.pcrs.lookup 4).getD [] ++ utf8Bytes doc.moduleId ++ certFingerprint.toList)

/-- The REPORTDATA value the verifier recomputes for a claimed public key. -/
def expectedReportData (env : Primitives) (enclavePubkey : ByteArr 32) : ByteArr 64 :=
  env.sha512 ([0x01] ++ utf8Bytes "VeriAI-KeyBind-v1" ++ enclavePubkey.toList)

namespace Verifier

variable (env : Primitives) (v : Verifier)

/-- Check 0: size limits. -/
def checkSizes (receiptBytes : Bytes) (expected : Expected) : VerifyM Unit := do
  rejectIf (receiptBytes.length > v.config.maxReceiptSize) .receiptTooLarge
  rejectIf (expected.pcr0.length ≠ 48) .invalidPcrLength

/-- The content type must be the protected text `application/cwt` and nothing else. -/
def checkContentType : Option ContentType → Option ContentType → VerifyM Unit
  | some (.text value), none => rejectIf (value ≠ "application/cwt") .invalidContentType
  | _, _ => reject .invalidContentType

/-- Checks 1 and 0B: parse the receipt and vet its headers. -/
def parseReceipt (receiptBytes : Bytes) : VerifyM CoseSign1 := do
  match env.coseFromSlice receiptBytes with
  | .error e => v.fail "Receipt Format" (some e) .malformedReceipt
  | .ok c =>
    let protectedAlg ← orReject c.protectedHeader.header.alg .invalidProtectedHeader
    rejectIf (protectedAlg ≠ .edDSA) .unsupportedAlgorithm
    rejectIf c.unprotected.alg.isSome .algorithmInUnprotectedHeader
    rejectIf (!c.protectedHeader.header.crit.isEmpty || !c.unprotected.crit.isEmpty)
      .invalidProtectedHeader
    rejectIf (!c.unprotected.isEmpty) .invalidProtectedHeader
    checkContentType c.protectedHeader.header.contentType c.unprotected.contentType
    pass "Receipt Format"
    return c

/-- The receipt's payload. -/
def receiptPayload (cose : CoseSign1) : VerifyM Bytes :=
  match cose.payload with
  | some p => pure p
  | none => v.fail "Receipt Payload" (some "Missing payload") .malformedReceipt

/-- The summary of a receipt's claims. -/
def receiptInfo (c : VeriClaims) : ReceiptInfo where
  version := claimsVersionStr c.sdkVersion
  modelHash := hexEncode c.modelHash.toList
  inputHash := hexEncode c.inputHash.toList
  outputHash := hexEncode c.outputHash.toList
  sequenceNum := c.sequenceNum
  timestamp := c.attestationTimestamp

/-- Decode the claims; from here on a result carries the receipt summary. -/
def parseClaims (payload : Bytes) : VerifyM VeriClaims := do
  match env.claimsFromBinary payload with
  | .error e => v.fail "Claims Parsing" (some e) .malformedReceipt
  | .ok c =>
    modify fun r => { r with receiptInfo := some (receiptInfo c) }
    pass "Claims Parsing"
    return c

def checkAttestationType (claims : VeriClaims) : VerifyM Unit :=
  v.check "Attestation Type" (claims.attestationType == 3)
    ("Expected Nitro attestation type 3, got " ++ toString claims.attestationType)
    .unsupportedAttestationType

/-- Whether the receipt's own signature verifies under the claimed key. -/
def receiptSigVerified (cose : CoseSign1) (claims : VeriClaims) : Bool :=
  if env.ed25519KeyValid claims.enclavePubkey then
    match ByteArr.ofBytes? 64 cose.signature with
    | some sig => env.ed25519Verify claims.enclavePubkey (cose.tbsData env []) sig
    | none => false
  else false

/-- Check 2: the receipt's Ed25519 signature. -/
def checkReceiptSignature (cose : CoseSign1) (claims : VeriClaims) : VerifyM Unit :=
  v.check "Receipt Signature" (receiptSigVerified env cose claims) "Ed25519 validation failed"
    .invalidCoseSignature

/-- Check 3, first half: parse the attestation document carried by the claims. -/
def parseAttestation (claims : VeriClaims) : VerifyM AttestationDoc := do
  match env.coseFromSlice claims.attestationReport with
  | .error e => v.fail "Attestation Format" (some e) (.invalidAttestationDocument e)
  | .ok attestation =>
    match attestation.payload with
    | none =>
      v.fail "Attestation Payload" (some "Missing payload")
        (.invalidAttestationDocument "Missing payload")
    | some payload =>
      match env.docFromBinary payload with
      | .error e => v.fail "Attestation Doc Parsing" (some e) (.invalidAttestationDocument e)
      | .ok doc => return doc

/-- Whether `provider.verify` accepts the report under a root. -/
def rootAccepts (report root : Bytes) : Bool :=
  match v.provider.verify report root with
  | .ok true => true
  | _ => false

/-- Check 3, second half: some trusted root accepts the report; the loop stops at the first. -/
def checkChain (claims : VeriClaims) : VerifyM Unit :=
  v.check "Attestation Signature & Chain"
    (v.trustedRoots.any (v.rootAccepts claims.attestationReport))
    "Signature or chain verification failed" (.invalidAttestationDocument "Verification failed")

/-- The verifier's clock in seconds. -/
def nowSec (now : SystemTime) : VerifyM Int64 := do
  let s ← orReject now.unixSeconds (.invalidAttestationDocument "Clock error")
  return s.toInt64

/-- `(doc.timestamp / 1000) as i64`. -/
def docSec (doc : AttestationDoc) : Int64 := (doc.timestamp / 1000).toInt64

/-- Skew of the attestation document against the clock. -/
def checkSkew (now : Int64) (doc : AttestationDoc) : VerifyM Unit := do
  let skew ← orReject (checkedSub now (docSec doc)) .invalidTimestamp
  v.check "Attestation Timestamp Skew" (skew.abs ≤ v.config.maxClockSkew)
    ("Skew is " ++ toString skew.abs ++ "s") .timestampSkewExceeded

/-- Age of the receipt. A failure records the check, but returns `Err`. -/
def checkAge (now : Int64) (claims : VeriClaims) : VerifyM Unit := do
  let receiptAge ← orReject (checkedSub now claims.attestationTimestamp) .invalidTimestamp
  rejectIf (receiptAge < 0 ∨ receiptAge > v.config.maxReceiptAge) .expiredReceipt
  pass "Receipt Timestamp Skew"

/-- Alignment of the document's time with the claimed one. -/
def checkAlignment (claims : VeriClaims) (doc : AttestationDoc) : VerifyM Unit := do
  let alignment ← orReject (checkedSub (docSec doc) claims.attestationTimestamp) .invalidTimestamp
  v.check "Timestamp Alignment" (alignment.abs ≤ 5)
    ("Mismatch between doc and claims is " ++ toString alignment.abs ++ "s")
    .attestationDocTimestampMismatch

/-- The three timestamp checks, on one reading of the clock. -/
def checkTimestamps (now : SystemTime) (claims : VeriClaims) (doc : AttestationDoc) :
    VerifyM Unit := do
  let now ← nowSec now
  v.checkSkew now doc
  v.checkAge now claims
  v.checkAlignment claims doc

/-- Check 4: PCR0. -/
def checkPcr0 (doc : AttestationDoc) (expected : Expected) : VerifyM Unit :=
  match doc.pcrs.lookup 0 with
  | none => v.fail "PCR0 Check" (some "PCR0 missing in document") .pcrMismatch
  | some docPcr0 =>
    v.check "PCR0 Check" (docPcr0 == expected.pcr0)
      ("Expected: " ++ hexEncode expected.pcr0 ++ ", Got: " ++ hexEncode docPcr0) .pcrMismatch

/-- Check 5: the document names the claimed key. -/
def checkPubkey (claims : VeriClaims) (doc : AttestationDoc) : VerifyM Unit :=
  match doc.publicKey with
  | none =>
    v.fail "Pubkey Binding" (some "Public key missing in document") .pubkeyBindingMismatch
  | some docPubkey =>
    v.check "Pubkey Binding" (docPubkey == claims.enclavePubkey.toList) "Public key mismatch"
      .pubkeyBindingMismatch

/-- Check 6: the document's user data is the hash of the claimed key. -/
def checkReportData (claims : VeriClaims) (doc : AttestationDoc) : VerifyM Unit :=
  match doc.userData with
  | none => v.fail "REPORTDATA Binding" (some "User data missing in document") .reportDataMismatch
  | some docUserData =>
    v.check "REPORTDATA Binding"
      (docUserData == (expectedReportData env claims.enclavePubkey).toList)
      "REPORTDATA hash mismatch" .reportDataMismatch

/-- Check 7: nonce, in both documents, and the three hashes. -/
def checkPayload (claims : VeriClaims) (doc : AttestationDoc) (expected : Expected) :
    VerifyM Unit := do
  v.check "Nonce Matching"
    (doc.nonce == some expected.nonce.toList && claims.clientNonce == expected.nonce)
    "Nonce mismatch" .nonceMismatch
  v.check "Model Hash" (claims.modelHash == expected.modelHash) "Model Merkle root mismatch"
    .modelHashMismatch
  v.check "Input Hash" (claims.inputHash == expected.inputHash) "Input hash mismatch"
    .inputHashMismatch
  v.check "Output Hash" (claims.outputHash == expected.outputHash) "Output hash mismatch"
    .outputHashMismatch

/-- Everything `verify` does before it touches the replay state. -/
def inspect (now : SystemTime) (receiptBytes : Bytes) (expected : Expected) :
    VerifyM (VeriClaims × AttestationDoc) := do
  v.checkSizes receiptBytes expected
  let cose ← v.parseReceipt env receiptBytes
  let payload ← v.receiptPayload cose
  let claims ← v.parseClaims env payload
  v.checkAttestationType claims
  v.checkReceiptSignature env cose claims
  let doc ← v.parseAttestation env claims
  v.checkChain claims
  v.checkTimestamps now claims doc
  v.checkPcr0 doc expected
  v.checkPubkey claims doc
  v.checkReportData env claims doc
  v.checkPayload claims doc expected
  return (claims, doc)

/-- The result of a successful verification. -/
def accepted (r : Report) : VerificationResult where
  valid := true
  receipt := r.receiptInfo
  checks := r.checks
  attestationProvider := v.provider.name
  verifiedHardware := v.provider.isHardwareBacked
  error := none

/-- The stateful sequence check, one critical section of the replay mutex, and the result. -/
def checkSequence (claims : VeriClaims) (doc : AttestationDoc) (r : Report) :
    Option ReplayMutex → Except VerifyError VerificationResult × Option ReplayMutex
  | none => (.ok (v.accepted r), none)
  | some state =>
    if state.poisoned then (.error .replayStateUnavailable, some state)
    else
      let identityFingerprint := computeIdentityFingerprint env doc
      match (state.map.lookup identityFingerprint).filter (claims.sequenceNum ≤ ·) with
      | some lastSeq =>
        (.ok (r.failResult v.provider "Sequence Check"
          (some ("Sequence " ++ toString claims.sequenceNum ++ " is out of order (last was " ++
            toString lastSeq ++ ")")) .sequenceNumberOutOfOrder), some state)
      | none =>
        (.ok (v.accepted (r.passed "Sequence Check")),
          some (state.insert identityFingerprint claims.sequenceNum))

/-- `Verifier::verify`: the answer and the replay state it leaves. -/
def verify (now : SystemTime) (receiptBytes : Bytes) (expected : Expected)
    (state : Option ReplayMutex) : Except VerifyError VerificationResult × Option ReplayMutex :=
  match (v.inspect env now receiptBytes expected).run {} with
  | .error (.err e) => (.error e, state)
  | .error (.failed result) => (.ok result, state)
  | .ok ((claims, doc), r) => v.checkSequence env claims doc r state

end Verifier

/-- `Verifier::get_state`. -/
def getState : Option ReplayMutex → Except VerifyError (Option ReplayMap)
  | none => .ok none
  | some state => if state.poisoned then .error .replayStateUnavailable else .ok (some state.map)

/-- `Verifier::set_state`. -/
def setState (newState : ReplayMap) :
    Option ReplayMutex → Except VerifyError Unit × Option ReplayMutex
  | none => (.ok (), none)
  | some state =>
    if state.poisoned then (.error .replayStateUnavailable, some state)
    else (.ok (), some { state with map := newState })

end Veriai
