import Veriai.Attestation.Providers

/-!
# The verifier in the browser

`verify` of the WASM module: one receipt, no replay state, and trusted roots
that come with the request.
-/

namespace Veriai.Wasm

/-- `VerifyRequest`. -/
structure VerifyRequest where
  receipt : String
  modelHash : String
  inputHash : String
  outputHash : String
  nonce : String
  expectedPcr0 : String
  trustedRootPem : String

variable (codec : PemCodec) (displayHexError : FromHexError → String)

/-- `decode_receipt`. -/
def decodeReceipt (value : String) : Except String Bytes :=
  match hexDecode value with
  | .ok bytes => .ok bytes
  | .error _ => (codec.base64Decode value).mapError fun _ => "receipt must be hex or base64"

/-- `decode_hex_32`. -/
def decodeHex32 (name value : String) : Except String (ByteArr 32) := do
  let bytes ← (hexDecode value).mapError fun error =>
    name ++ " is not valid hex: " ++ displayHexError error
  okOr (ByteArr.ofBytes? 32 bytes) (name ++ " must be 32 bytes, got " ++ toString bytes.length)

/-- The values the receipt is expected to attest. -/
def decodeExpected (request : VerifyRequest) : Except String Expected := do
  let modelHash ← decodeHex32 displayHexError "model_hash" request.modelHash
  let inputHash ← decodeHex32 displayHexError "input_hash" request.inputHash
  let outputHash ← decodeHex32 displayHexError "output_hash" request.outputHash
  let nonce ← decodeHex32 displayHexError "nonce" request.nonce
  let expectedPcr0 ← (hexDecode request.expectedPcr0).mapError fun error =>
    "expected_pcr0 is not valid hex: " ++ displayHexError error
  refuseIf (expectedPcr0.length ≠ 48)
    ("expected_pcr0 must be 48 bytes, got " ++ toString expectedPcr0.length)
  return ⟨modelHash, inputHash, outputHash, nonce, expectedPcr0⟩

variable (env : Primitives) (lib : CertificateLibrary)

/-- `verify`, with the clock as it reads when a root is tried, and for the timestamps. -/
def verify (clock : Bytes → SystemTime) (now : SystemTime) (request : VerifyRequest) :
    Except String VerificationResult := do
  let receipt ← decodeReceipt codec request.receipt
  let expected ← decodeExpected displayHexError request
  let (verifier, replay) ← Verifier.fromPem codec (offlineNitroProvider env lib clock)
    request.trustedRootPem false
  (verifier.verify env now receipt expected replay).1.mapError VerifyError.toString

variable {codec displayHexError env lib}

/-- Hexadecimal text of a receipt is decoded. -/
@[simp] theorem decodeReceipt_hexEncode (bytes : Bytes) :
    decodeReceipt codec (hexEncode bytes) = .ok bytes := by
  rw [decodeReceipt, hexDecode_hexEncode]

/-- Hexadecimal text of an expected value is decoded. -/
@[simp] theorem decodeHex32_hexEncode (name : String) (value : ByteArr 32) :
    decodeHex32 displayHexError name (hexEncode value.toList) = .ok value := by
  simp [decodeHex32, bind_eq_ok]

/-- A result that verifies hardware rests on a certificate of the request. -/
theorem verify_acceptedFrom {clock : Bytes → SystemTime} {now : SystemTime}
    {request : VerifyRequest} {result : VerificationResult}
    (h : verify codec displayHexError env lib clock now request = .ok result)
    (hhardware : result.verifiedHardware = true) :
    ∃ receiptBytes, decodeReceipt codec request.receipt = .ok receiptBytes ∧
      AcceptedFrom env lib codec request.trustedRootPem receiptBytes := by
  simp only [verify, bind_eq_ok, mapError_eq_ok] at h
  obtain ⟨receiptBytes, hreceipt, expected, -, ⟨v, replay⟩, hfrom, hverify⟩ := h
  refine ⟨receiptBytes, hreceipt, ?_⟩
  exact Verifier.acceptedFrom_of_verifiedHardware hfrom
    (offlineNitroProvider_verifiesDocuments clock) hverify hhardware

end Veriai.Wasm
