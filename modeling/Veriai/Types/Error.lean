import Veriai.Core.Bytes

/-!
# Error values

The two error enumerations shared by the crates, with their display texts.
-/

namespace Veriai

/-- `AttestationError`. -/
inductive AttestationError where
  | hardwareUnavailable (message : String)
  | invalidAttestationDocument (message : String)
  | validationError (message : String)
  deriving DecidableEq, Repr

/-- The display text of an `AttestationError`. -/
def AttestationError.toString : AttestationError → String
  | .hardwareUnavailable m => "NSM driver hardware unavailable: " ++ m
  | .invalidAttestationDocument m => "Invalid attestation report signature or structure: " ++ m
  | .validationError m => "Attestation document validation failed: " ++ m

/-- `VerifyError`. -/
inductive VerifyError where
  | invalidCoseSignature
  | invalidAttestationDocument (message : String)
  | attestationDocTimestampMismatch
  | pcrMismatch
  | pubkeyBindingMismatch
  | reportDataMismatch
  | timestampSkewExceeded
  | modelHashMismatch
  | inputHashMismatch
  | outputHashMismatch
  | nonceMismatch
  | sequenceNumberExhausted
  | sequenceNumberOutOfOrder
  | enclaveIdentityChanged
  | malformedReceipt
  | receiptTooLarge
  | expiredReceipt
  | unsupportedAlgorithm
  | unsupportedAttestationType
  | invalidProtectedHeader
  | invalidContentType
  | algorithmInUnprotectedHeader
  | invalidTimestamp
  | invalidPcrLength
  | replayStateUnavailable
  | attestation (message : String)
  deriving DecidableEq, Repr

/-- The display text of a `VerifyError`. -/
def VerifyError.toString : VerifyError → String
  | .invalidCoseSignature => "Invalid COSE signature"
  | .invalidAttestationDocument m => "Invalid attestation document: " ++ m
  | .attestationDocTimestampMismatch =>
    "Attestation document timestamp mismatch with payload timestamp"
  | .pcrMismatch => "PCR0 value does not match expected value"
  | .pubkeyBindingMismatch => "Enclave ephemeral public key does not match claim 6012"
  | .reportDataMismatch =>
    "REPORTDATA (user_data) does not match SHA-512 binding hash of public key"
  | .timestampSkewExceeded => "Timestamp skew exceeds 5-minute skew tolerance"
  | .modelHashMismatch => "Model hash does not match expected value"
  | .inputHashMismatch => "Input hash does not match expected value"
  | .outputHashMismatch => "Output hash does not match expected value"
  | .nonceMismatch => "Client nonce does not match Nitro document nonce"
  | .sequenceNumberExhausted => "Receipt sequence number is exhausted"
  | .sequenceNumberOutOfOrder => "Sequence number is out of order (not monotonic)"
  | .enclaveIdentityChanged => "Enclave identity fingerprint changed on stateful verifier"
  | .malformedReceipt => "Malformed receipt structure"
  | .receiptTooLarge => "Receipt payload size exceeds limits"
  | .expiredReceipt => "Receipt signature has expired"
  | .unsupportedAlgorithm =>
    "COSE protected header specifies an unsupported signature algorithm"
  | .unsupportedAttestationType => "Unsupported attestation type"
  | .invalidProtectedHeader => "COSE protected header is missing or invalid"
  | .invalidContentType =>
    "COSE content type must be application/cwt when present and must be protected"
  | .algorithmInUnprotectedHeader =>
    "Security violation: signature algorithm declared in unprotected header"
  | .invalidTimestamp => "Timestamp calculation underflow or overflow"
  | .invalidPcrLength => "Expected PCR0 must be exactly 48 bytes"
  | .replayStateUnavailable => "Replay state is unavailable"
  | .attestation m => "Attestation error: " ++ m

end Veriai
