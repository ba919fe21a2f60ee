import Mathlib.Data.Rat.Defs
import Veriai.Core.Text
import Veriai.Receipt.Shared

/-!
# The chat completions handler

`chat_completions_handler` of the chat demo: its request checks, the errors it
answers with, and the response it builds. JSON and base64 coding stay
parameters of the application.
-/

namespace Veriai.Chat

/-- `Message`. -/
structure Message where
  role : String
  content : String
  deriving DecidableEq, Repr

/-- The values of an `f32` that a JSON number can give. -/
inductive F32 where
  | finite (value : Rat)
  | infinite (negative : Bool)
  deriving DecidableEq, Repr

/-- `ChatCompletionRequest`. -/
structure ChatCompletionRequest where
  model : String
  messages : List Message
  temperature : Option F32
  deriving DecidableEq, Repr

/-- `InferenceRequest`. -/
structure InferenceRequest where
  model : String
  messages : List Message
  temperature : Option F32
  deriving DecidableEq, Repr

/-- `InferenceResult`. -/
structure InferenceResult where
  content : String
  tokensGenerated : UInt32
  deriving DecidableEq, Repr

/-- `Choice`. -/
structure Choice where
  index : UInt32
  message : Message
  finishReason : String
  deriving DecidableEq, Repr

/-- `Usage`. -/
structure Usage where
  promptTokens : UInt32
  completionTokens : UInt32
  totalTokens : UInt32
  deriving DecidableEq, Repr

/-- `ChatCompletionResponse`. -/
structure ChatCompletionResponse where
  id : String
  object : String
  created : UInt64
  model : String
  choices : List Choice
  usage : Usage
  receipt : Option String
  verification : Option VerificationResult
  deriving DecidableEq, Repr

/-- An error answer: its status, and the `code` and `message` of its body. -/
structure ApiError where
  status : Nat
  code : String
  message : String
  deriving DecidableEq, Repr

/-- What a call of the handler answers. -/
abbrev Answer := Except ApiError ChatCompletionResponse

/-- `AppState`, apart from its generator, its slots and the replay state of its verifier. -/
structure App where
  verifier : Option Verifier
  modelHash : ByteArr 32
  modelId : String
  expectedPcr0 : Option Bytes
  /-- `VERIAI_MAX_CONCURRENT_INFERENCES`. -/
  maxConcurrentInferences : Nat
  /-- `cfg!(feature = "real-hardware")`. -/
  realHardware : Bool
  /-- `serde_json::to_vec` of a request. -/
  toJson : InferenceRequest → Except String Bytes
  /-- `Base64::encode_string`. -/
  base64Encode : Bytes → String

/-- A request as the handler receives it: the decoded body, the `x-veriai-nonce` header (`none`
inside for a value that is no text), and the nonce drawn when there is none. -/
structure ChatCall where
  payload : Except String ChatCompletionRequest
  nonceHeader : Option (Option String)
  drawnNonce : ByteArr 32

/-- `canonical_bytes`. -/
def InferenceRequest.canonicalBytes (app : App) (request : InferenceRequest) :
    Except String Bytes :=
  app.toJson request

/-- The answer to a nonce that is not 64 hexadecimal characters. -/
def invalidNonce : ApiError :=
  ⟨400, "invalid_nonce", "X-VeriAI-Nonce must contain 64 hexadecimal characters"⟩

/-- `request_nonce_with_policy`. -/
def requestNonceWithPolicy (call : ChatCall) (requireClientNonce : Bool) :
    Except ApiError (ByteArr 32) :=
  match call.nonceHeader with
  | none =>
    if requireClientNonce then
      .error ⟨400, "missing_nonce", "X-VeriAI-Nonce is required in real-hardware mode"⟩
    else .ok call.drawnNonce
  | some value => do
    let value ← okOr value invalidNonce
    let bytes ← (hexDecode value).mapError fun _ => invalidNonce
    okOr (ByteArr.ofBytes? 32 bytes) invalidNonce

/-- `request_nonce`. -/
def requestNonce (app : App) (call : ChatCall) : Except ApiError (ByteArr 32) :=
  requestNonceWithPolicy call app.realHardware

/-- The handler up to the inference: the request, its canonical bytes and the nonce. -/
def prepare (app : App) (call : ChatCall) :
    Except ApiError (InferenceRequest × Bytes × ByteArr 32) := do
  let payload ← call.payload.mapError fun error => ⟨400, "invalid_json", error⟩
  refuseIf (trim payload.model.toList = [] ∨ payload.messages = [])
    ⟨400, "invalid_request", "model and at least one message are required"⟩
  let inferenceReq : InferenceRequest :=
    { model := payload.model, messages := payload.messages, temperature := payload.temperature }
  let canonicalInput ← (inferenceReq.canonicalBytes app).mapError fun error =>
    ⟨500, "serialization_error", error⟩
  let clientNonce ← requestNonce app call
  return (inferenceReq, canonicalInput, clientNonce)

/-- The answer when no inference slot is free. -/
def inferenceBusy : ApiError :=
  ⟨429, "inference_busy", "the configured inference capacity is busy"⟩

/-- What the handler keeps of an inference: the canonical input, the result and the values the
receipt is asked to attest. -/
structure Work where
  canonicalInput : Bytes
  result : InferenceResult
  request : ReceiptRequest

/-- The hashes of input and output, with the model hash and the nonce. -/
def work (env : Primitives) (app : App) (canonicalInput : Bytes) (clientNonce : ByteArr 32)
    (result : InferenceResult) : Work where
  canonicalInput := canonicalInput
  result := result
  request :=
    { modelHash := app.modelHash
      inputHash := env.sha256 canonicalInput
      outputHash := env.sha256 (utf8Bytes result.content)
      clientNonce := clientNonce }

/-- The response, with the clock as it reads at the end. -/
def response (app : App) (work : Work) (receiptBytes : Bytes)
    (verification : Option VerificationResult) (clock : SystemTime) : ChatCompletionResponse :=
  let created := clock.unixSeconds.getD 0
  let promptTokens : UInt32 := .ofNat ((work.canonicalInput.length + 3) / 4)
  let completionTokens := work.result.tokensGenerated
  { id := "chatcmpl-veriai-" ++ toString created
    object := "chat.completion"
    created
    model := app.modelId
    choices :=
      [{ index := 0, message := ⟨"assistant", work.result.content⟩, finishReason := "stop" }]
    usage := ⟨promptTokens, completionTokens, promptTokens + completionTokens⟩
    receipt := some (app.base64Encode receiptBytes)
    verification }

/-- The answer when the receipt was not generated. -/
def receiptGenerationError (error : VerifyError) : ApiError :=
  ⟨500, "receipt_generation_error", error.toString⟩

/-- The answer when the inline verifier returned `Err`. -/
def verificationError (error : VerifyError) : ApiError :=
  ⟨500, "verification_error", error.toString⟩

/-- The answer once the inline verifier has answered. -/
def verifiedAnswer (app : App) (work : Work) (receiptBytes : Bytes) (clock : SystemTime)
    (result : Except VerifyError VerificationResult) : Answer :=
  match result with
  | .error error => .error (verificationError error)
  | .ok verification => .ok (response app work receiptBytes (some verification) clock)

end Veriai.Chat
