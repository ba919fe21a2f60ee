import Veriai.Chat.Handler
import Veriai.Core.Search

/-!
# The llama.cpp runtime

`LlamaCppRuntime`: the prompt a request is rendered to, the command line of one
inference, and the completion cut out of what the command prints. The process
itself is what the host answers to a command line.
-/

namespace Veriai.Runtime

open Chat

/-- `RuntimeError`. -/
inductive RuntimeError where
  | modelLoadFailed (message : String)
  | inferenceFailed (message : String)
  | outOfMemory
  | invalidContext (message : String)
  | notImplemented (message : String)
  | processFailed (message : String)
  deriving DecidableEq, Repr

/-- `LlamaCppRuntime`, with the values `new` gives. -/
structure LlamaCppRuntime where
  binaryPath : String := "llama-cli"
  modelPath : String
  maxTokens : UInt32 := 256
  contextSize : UInt32 := 4096

/-- The prompt with one more turn. -/
def pushTurn (prompt : String) (message : Message) : String :=
  prompt ++ "<|im_start|>" ++ message.role ++ "\n" ++ message.content ++ "<|im_end|>\n"

/-- One turn of the loop of `prompt`. -/
def pushMessage (prompt : String) (message : Message) : Except RuntimeError String :=
  if trim message.role.toList = [] then
    .error (.invalidContext "message roles must not be empty")
  else .ok (pushTurn prompt message)

/-- `LlamaCppRuntime::prompt`. -/
def prompt (request : InferenceRequest) : Except RuntimeError String :=
  if request.messages = [] then .error (.invalidContext "at least one message is required")
  else do
    let prompt ← request.messages.foldlM pushMessage ""
    return prompt ++ "<|im_start|>assistant\n"

/-- The `f32` literal `0.7`. -/
def defaultTemperature : F32 := .finite (11744051 / 16777216)

/-- `clamp(0.0, 2.0)`. -/
def clampTemperature : F32 → F32
  | .finite value => if value < 0 then .finite 0 else if 2 < value then .finite 2 else .finite value
  | .infinite negative => if negative then .finite 0 else .finite 2

/-- `request.temperature.unwrap_or(0.7).clamp(0.0, 2.0)`. -/
def effectiveTemperature (request : InferenceRequest) : F32 :=
  clampTemperature (request.temperature.getD defaultTemperature)

/-- The arguments of the command. -/
def LlamaCppRuntime.args (runtime : LlamaCppRuntime) (prompt temperature : String) : List String :=
  ["-m", runtime.modelPath, "-p", prompt, "-n", toString runtime.maxTokens,
    "--ctx-size", toString runtime.contextSize, "--temp", temperature,
    "--no-conversation", "--single-turn", "--simple-io", "--no-display-prompt",
    "--no-show-timings"]

/-- What llama-cli prints in front of an echoed prompt. -/
def promptMarker : List Char := ['\n', '>', ' ']

/-- The blank line behind an echoed prompt. -/
def blankLine : List Char := ['\n', '\n']

/-- What the timing line begins with. -/
def timingMarker : List Char :=
  ['\n', '\n', '[', ' ', 'P', 'r', 'o', 'm', 'p', 't', ':']

/-- The farewell. -/
def exitMarker : List Char :=
  ['\n', '\n', 'E', 'x', 'i', 't', 'i', 'n', 'g', '.', '.', '.']

/-- Skip what stands before the generated text when the prompt is echoed. -/
def skipPrompt (output : List Char) : List Char :=
  match Search.rfind promptMarker output with
  | some promptStart =>
    let output := output.drop (promptStart + 3)
    match Search.find blankLine output with
    | some completionStart => output.drop (completionStart + 2)
    | none => output
  | none => output

/-- The text before the first occurrence of a marker. -/
def cutAt (marker output : List Char) : List Char :=
  match Search.find marker output with
  | some start => output.take start
  | none => output

/-- `extract_completion`, on the characters of the text. -/
def extractCompletion (rawOutput : List Char) : List Char :=
  trim (cutAt exitMarker (cutAt timingMarker (skipPrompt rawOutput)))

/-- A finished process: whether and how it exited, what `String::from_utf8` makes of its standard
output, and its standard error. -/
structure ProcessOutput where
  success : Bool
  status : String
  stdout : Except String String
  stderr : String

/-- What the runtime is run on. -/
structure Host where
  isFile : String → Bool
  /-- The decimal text of a temperature. -/
  showTemperature : F32 → String
  /-- Starting a binary with arguments; an error is its display text. -/
  run : String → List String → Except String ProcessOutput

/-- `split_whitespace().count()`. -/
def countWords : List Char → Nat
  | [] => 0
  | c :: rest =>
    if isWhitespace c then countWords rest
    else match rest with
      | [] => 1
      | d :: _ => if isWhitespace d then 1 + countWords rest else countWords rest

/-- `LlamaCppRuntime::generate`. -/
def LlamaCppRuntime.generate (host : Host) (runtime : LlamaCppRuntime)
    (request : InferenceRequest) : Except RuntimeError InferenceResult := do
  refuseIf (host.isFile runtime.modelPath = false)
    (.modelLoadFailed ("model file does not exist: " ++ runtime.modelPath))
  let prompt ← prompt request
  let temperature := host.showTemperature (effectiveTemperature request)
  let output ← (host.run runtime.binaryPath (runtime.args prompt temperature)).mapError fun e =>
    .processFailed ("failed to start llama-cli: " ++ e)
  refuseIf (output.success = false)
    (.inferenceFailed ("llama-cli exited with " ++ output.status ++ ": " ++
      String.ofList (trim output.stderr.toList)))
  let rawOutput ← output.stdout.mapError fun e =>
    .inferenceFailed ("llama-cli returned invalid UTF-8: " ++ e)
  let content := extractCompletion rawOutput.toList
  refuseIf (content = []) (.inferenceFailed "llama-cli returned an empty completion")
  return { tokensGenerated := .ofNat (countWords content), content := String.ofList content }

end Veriai.Runtime
