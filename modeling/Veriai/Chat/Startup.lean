import Veriai.Chat.Calls
import Veriai.Hashing.ModelHash
import Veriai.Service.Startup

/-!
# The chat demo with real hardware

`build_state` of the chat demo in a build with the feature `real-hardware`, and
the inline verification of one call. The roots are pinned as they are in the
service, so a response that verifies hardware rests on an approved root.
-/

namespace Veriai.Chat

/-- What `build_state` and the handler take from their surroundings. -/
structure Surroundings extends Environment where
  /-- `File::open`. -/
  openFile : String → Except IoError File
  /-- `Path::file_stem`, where there is one that is UTF-8. -/
  fileStem : String → Option String
  /-- The display text of the error of `str::parse::<usize>`. -/
  displayParseIntError : String → String
  displayHexError : FromHexError → String
  toJson : InferenceRequest → Except String Bytes
  base64Encode : Bytes → String

variable (codec : PemCodec) (env : Primitives)

section BuildState

variable (surroundings : Surroundings)

/-- `configured_runtime`: the model hash and the model's name. -/
def configuredRuntime : Except String (ByteArr 32 × String) :=
  let runtimeName := (surroundings.var "VERIAI_RUNTIME").getD "llama_cpp"
  if runtimeName = "mock" then
    .ok (List.Vector.replicate 32 0x55, (surroundings.var "VERIAI_MODEL_ID").getD "veriai-mock")
  else if runtimeName ≠ "llama_cpp" then .error ("unsupported VERIAI_RUNTIME: " ++ runtimeName)
  else do
    let modelPath ← okOr (surroundings.var "VERIAI_MODEL_PATH")
      "VERIAI_MODEL_PATH is required for llama_cpp runtime"
    let modelHash ← (computeModelHash env.sha256 (surroundings.openFile modelPath)).mapError
      ("failed to hash model: " ++ ·)
    return (modelHash, (surroundings.var "VERIAI_MODEL_ID").getD
      ((surroundings.fileStem modelPath).getD "local-model"))

/-- The text the trusted roots come from. -/
def rootPemText : Except String String :=
  match surroundings.var "TRUSTED_ROOT_CERT_PEM" with
  | some pem => .ok pem
  | none => do
    let path ← okOr (surroundings.var "TRUSTED_ROOT_CERT_PATH")
      "TRUSTED_ROOT_CERT_PATH or TRUSTED_ROOT_CERT_PEM is required"
    (surroundings.readToString path).mapError ("failed to read trusted root certificate: " ++ ·)

/-- `configured_root_pem`. -/
def configuredRootPem : Except String String := do
  let pem ← rootPemText surroundings
  validateAwsNitroRootPem codec pem
  return pem

/-- `configured_pcr0`. -/
def configuredPcr0 : Except String Bytes := do
  let value ← okOr (surroundings.var "EXPECTED_PCR0") "EXPECTED_PCR0 is required for real hardware"
  let pcr0 ← (hexDecode value).mapError fun e =>
    "invalid EXPECTED_PCR0: " ++ surroundings.displayHexError e
  refuseIf (pcr0.length ≠ 48) ("EXPECTED_PCR0 must be 48 bytes, got " ++ toString pcr0.length)
  return pcr0

/-- The inline verifier and its expected PCR0. -/
def configuredVerifier (provider : AttestationProvider) (stateful : Bool) :
    Except String (Option (Verifier × Option ReplayMutex × Bytes)) :=
  if ((surroundings.var "VERIAI_INLINE_VERIFY").map isTrue).getD false then do
    let rootPem ← configuredRootPem codec surroundings
    let expectedPcr0 ← configuredPcr0 surroundings
    let (verifier, replay) ← (Verifier.fromPem codec provider rootPem stateful).mapError
      ("invalid trusted root: " ++ ·)
    return some (verifier, replay, expectedPcr0)
  else return none

/-- `build_state`, with the provider of `configured_provider`. -/
def buildState (provider : AttestationProvider) : Except String (App × Option ReplayMutex) := do
  let (modelHash, modelId) ← configuredRuntime env surroundings
  let stateful := ((surroundings.var "STATEFUL_VERIFICATION").map isTrue).getD false
  let slots := (surroundings.var "VERIAI_MAX_CONCURRENT_INFERENCES").getD "1"
  let maxConcurrentInferences ← okOr (parseU64 slots.toList)
    ("invalid VERIAI_MAX_CONCURRENT_INFERENCES: " ++ surroundings.displayParseIntError slots)
  refuseIf (maxConcurrentInferences = 0)
    "VERIAI_MAX_CONCURRENT_INFERENCES must be greater than zero"
  let configured ← configuredVerifier codec surroundings provider stateful
  return (
    { verifier := configured.map fun c => c.1
      modelHash
      modelId
      expectedPcr0 := configured.map fun c => c.2.2
      maxConcurrentInferences := maxConcurrentInferences.toNat
      realHardware := true
      toJson := surroundings.toJson
      base64Encode := surroundings.base64Encode }, configured.bind fun c => c.2.1)

end BuildState

variable {codec env}

/-- The demo's inline verifier trusts approved roots only. -/
theorem buildState_eq_ok {surroundings : Surroundings} {provider : AttestationProvider} {app : App}
    {replay : Option ReplayMutex}
    (h : buildState codec env surroundings provider = .ok (app, replay)) {v : Verifier}
    (hv : app.verifier = some v) : ∀ root ∈ v.trustedRoots, Approved codec root := by
  simp only [buildState, bind_eq_ok] at h
  obtain ⟨⟨modelHash, modelId⟩, -, slots, -, -, -, configured, hconfigured, heq⟩ := h
  obtain ⟨rfl, -⟩ := Prod.mk.inj (Except.ok.inj heq)
  cases configured with
  | none => cases hv
  | some c =>
    obtain ⟨v', replay', pcr0⟩ := c
    obtain rfl := Option.some.inj hv
    unfold configuredVerifier at hconfigured
    split at hconfigured
    · simp only [configuredRootPem, bind_eq_ok, mapError_eq_ok] at hconfigured
      obtain ⟨pem, ⟨text, -, _, hpinned, htext⟩, pcr0', -, ⟨v, replay⟩, hfrom, hpair⟩ := hconfigured
      obtain rfl := Except.ok.inj htext
      obtain ⟨rfl, -⟩ := Prod.mk.inj (Option.some.inj (Except.ok.inj hpair))
      exact Verifier.fromPem_approved hpinned hfrom
    · cases hconfigured

/-- The handler from the generated receipt on: the inline verification, with the provider and the
replay state as the call finds them, and the answer. -/
def verifyInline (env : Primitives) (app : App) (provider : AttestationProvider) (now : SystemTime)
    (replay : Option ReplayMutex) (work : Work) (receiptBytes : Bytes) (clock : SystemTime) :
    Answer :=
  match app.verifier, app.expectedPcr0 with
  | some verifier, some expectedPcr0 =>
    verifiedAnswer app work receiptBytes clock
      (Verifier.verify env { verifier with provider } now receiptBytes
        (work.request.expected expectedPcr0) replay).1
  | _, _ => .ok (response app work receiptBytes none clock)

/-- The answer of the inline verifier rests on its roots. -/
theorem verifyInline_restsOn {lib : CertificateLibrary} {app : App}
    {provider : AttestationProvider} {now clock : SystemTime} {replay : Option ReplayMutex}
    {work : Work} {receiptBytes : Bytes} {response : ChatCompletionResponse}
    {result : VerificationResult} (hprovider : VerifiesDocuments env lib provider)
    (h : verifyInline env app provider now replay work receiptBytes clock = .ok response)
    (hresult : response.verification = some result) (hhardware : result.verifiedHardware = true) :
    ∃ v, app.verifier = some v ∧ AcceptedAgainst env lib (· ∈ v.trustedRoots) receiptBytes := by
  unfold verifyInline at h
  split at h
  next v pcr0 hv hpcr0 =>
    unfold verifiedAnswer at h
    split at h
    next e _ => cases h
    next verification hverify =>
      obtain rfl := Except.ok.inj h
      obtain rfl := Option.some.inj hresult
      have haccepted := Verifier.acceptedAgainst_of_verifiedHardware (v := { v with provider })
        hprovider hverify hhardware
      exact ⟨v, hv, haccepted⟩
  next =>
    obtain rfl := Except.ok.inj h
    cases hresult

end Veriai.Chat
