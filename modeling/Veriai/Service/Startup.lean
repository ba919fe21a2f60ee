import Veriai.Attestation.Providers
import Veriai.Core.Alone
import Veriai.Service.System

/-!
# The service with real hardware

What `main` makes of its environment in a build with the feature
`real-hardware`. The trusted roots are pinned before the service starts, so an
answer that verifies hardware rests on an approved root.
-/

namespace Veriai

/-- The environment a process starts in. -/
structure Environment where
  /-- `std::env::var`, where the variable is set to Unicode text. -/
  var : String → Option String
  /-- `std::fs::read_to_string`; an error is its display text. -/
  readToString : String → Except String String

/-- `1`, or `true` in any case of its letters. -/
def isTrue (value : String) : Bool := value == "1" || value.toLower == "true"

namespace Service

open Machine

variable (codec : PemCodec) (displayHexError : FromHexError → String)

section Main

variable (environment : Environment)

/-- `validate_configured_roots`. -/
def validateConfiguredRoots (pem : String) : Except String Unit := validateAwsNitroRootPem codec pem

/-- The text the trusted roots come from. -/
def trustedRootText : Except String String :=
  match (environment.var "TRUSTED_ROOT_CERT_PEM").filter
      fun pem => "BEGIN CERTIFICATE".toList <:+: pem.toList with
  | some pem => .ok pem
  | none => do
    let path ← okOr (environment.var "TRUSTED_ROOT_CERT_PATH")
      "set TRUSTED_ROOT_CERT_PEM or TRUSTED_ROOT_CERT_PATH"
    (environment.readToString path).mapError ("failed to read trusted root: " ++ ·)

/-- `load_trusted_root`. -/
def loadTrustedRoot : Except String String := do
  let pem ← trustedRootText environment
  validateConfiguredRoots codec pem
  return pem

/-- `load_expected_pcr0`. -/
def loadExpectedPcr0 : Except String Bytes := do
  let value ← okOr (environment.var "EXPECTED_PCR0")
    "set EXPECTED_PCR0 to the 48-byte PCR0 hex value"
  let pcr0 ← (hexDecode value).mapError fun e => "PCR0 is not valid hex: " ++ displayHexError e
  refuseIf (pcr0.length ≠ 48) ("PCR0 must be 48 bytes, got " ++ toString pcr0.length)
  return pcr0

/-- `main` up to the restored replay state, with the provider of `configured_provider` and
`STATE_FILE_PATH`; an error is the message of the panic. -/
def start (provider : AttestationProvider) (replayStatePath : Option StatePath) :
    Except String (AppState × Option ReplayMutex) := do
  let trustedRootPem ← (loadTrustedRoot codec environment).mapError
    ("Trusted root configuration is invalid: " ++ ·)
  let expectedPcr0 ← (loadExpectedPcr0 displayHexError environment).mapError
    ("Expected PCR0 configuration is invalid: " ++ ·)
  let stateful := replayStatePath.isSome ||
    ((environment.var "STATEFUL_VERIFICATION").map isTrue).getD false
  let (verifier, replay) ← (Verifier.fromPem codec provider trustedRootPem stateful).mapError
    ("Trusted root configuration is invalid: " ++ ·)
  return (⟨expectedPcr0, verifier, replayStatePath, true⟩, replay)

end Main

variable {codec displayHexError}

/-- A service that starts trusts approved roots only, and requires issued challenges. -/
theorem start_eq_ok {environment : Environment} {provider : AttestationProvider}
    {replayStatePath : Option StatePath} {state : AppState} {replay : Option ReplayMutex}
    (h : start codec displayHexError environment provider replayStatePath = .ok (state, replay)) :
    (∀ root ∈ state.verifier.trustedRoots, Approved codec root) ∧
      state.requireIssuedChallenge = true := by
  simp only [start, loadTrustedRoot, validateConfiguredRoots, bind_eq_ok, mapError_eq_ok] at h
  obtain ⟨pem, ⟨text, -, _, hpinned, htext⟩, pcr0, -, ⟨v, replay'⟩, hfrom, heq⟩ := h
  obtain rfl := Except.ok.inj htext
  obtain ⟨rfl, -⟩ := Prod.mk.inj (Except.ok.inj heq)
  exact ⟨Verifier.fromPem_approved hpinned hfrom, rfl⟩

variable {Text : Type} (formats : Formats Text) (env : Primitives) (lib : CertificateLibrary)

/-- The results that operations can have with real hardware: `verify` finds the Nitro provider,
and its locked section answers as it does on some replay state. -/
def RealHardware : (o : Op Text) → Res Text o → Prop
  | .observe, found => ∃ nsm clock, found.1 = nitroAttestationProvider env lib nsm clock
  | .checkSequence v claims doc report, answer =>
      ∃ replay, answer = (v.checkSequence env claims doc report replay).1
  | _, _ => True

variable {formats env lib}

section Leads

variable {receiptBytes : Bytes}

/-- An answer that verifies hardware rests on one of the roots. -/
def RestsOn {ε : Type} (env : Primitives) (lib : CertificateLibrary) (roots : Bytes → Prop)
    (receiptBytes : Bytes) (answer : Except ε VerificationResult) : Prop :=
  ∀ result, answer = .ok result → result.verifiedHardware = true →
    AcceptedAgainst env lib roots receiptBytes

theorem RestsOn.error {ε : Type} {roots : Bytes → Prop} (e : ε) :
    RestsOn env lib roots receiptBytes (.error e : Except ε VerificationResult) := by
  intro result h
  cases h

/-- The answer of `verify` rests on the roots of the verifier. -/
theorem verify_restsOn {v : Verifier} {expected : Expected} :
    (oracle (RealHardware env lib)).Leads ()
      (verify env v receiptBytes expected : ServiceM Text VerifyError VerificationResult) ()
      fun answer _ =>
        RestsOn env lib (· ∈ v.trustedRoots) receiptBytes answer := by
  refine Leads.call_bind ?_
  rintro ⟨provider, now⟩ _ ⟨nsm, clock, rfl⟩
  dsimp only
  split
  next e hrun => exact Leads.throw (RestsOn.error e)
  next result hrun =>
    refine Leads.pure ?_
    intro result' heq hhardware
    obtain rfl := Except.ok.inj heq
    have hfalse := (Verifier.reported_of_exits hrun).leaves.not_verifiedHardware
    rw [hfalse] at hhardware
    cases hhardware
  next claims doc report hrun =>
    obtain ⟨⟨cose, hinspected⟩, -⟩ := Verifier.yields_inspect.mp hrun
    have haccepted := hinspected.acceptedAgainst
      (nitroAttestationProvider_verifiesDocuments nsm clock)
    exact Leads.call_bind fun _ _ _ => Leads.ensure fun _ _ _ => haccepted

/-- Under the locks nothing but `verify` makes the result. -/
theorem verifyLocked_restsOn {state : AppState} {pid : Nat} {expected : Expected} :
    (oracle (RealHardware env lib)).Leads ()
      (verifyLocked formats env state pid receiptBytes expected) () fun answer _ =>
        RestsOn env lib (· ∈ state.verifier.trustedRoots) receiptBytes answer := by
  refine Leads.bind_any (fun _ _ => ?_) fun e _ => .error e
  refine Leads.bind_any (fun reservation _ => ?_) fun e _ => .error e
  refine Leads.bind_any (fun previous _ => ?_) fun e _ => .error e
  refine Leads.bind (Leads.mapError (verify_restsOn.mono ?_))
  intro answer _ hrests
  cases answer with
  | error e => exact .error _
  | ok result =>
    have hresult : RestsOn env lib (· ∈ state.verifier.trustedRoots) receiptBytes
        (.ok result : Except ApiError VerificationResult) := by
      intro result' heq
      exact hrests result' (congrArg Except.ok (Except.ok.inj heq))
    dsimp only [Except.mapError]
    split
    · refine Leads.bind_any (fun _ _ => ?_) fun e _ => .error e
      refine Leads.bind_any (fun _ _ => ?_) fun e _ => .error e
      refine Leads.bind_any (fun _ _ => ?_) fun e _ => .error e
      exact Leads.pure hresult
    · refine Leads.bind_any (fun _ _ => ?_) fun e _ => .error e
      refine Leads.bind_any (fun _ _ => ?_) fun e _ => .error e
      refine Leads.bind_any (fun _ _ => ?_) fun e _ => .error e
      refine Leads.bind_any (fun _ _ => ?_) fun e _ => .error e
      exact Leads.pure hresult

/-- The answer of `verify_handler` rests on the roots of the service. -/
theorem verifyHandler_restsOn {state : AppState} {pid : Nat} {payload : VerifyRequest} :
    (oracle (RealHardware env lib)).Leads ()
      (verifyHandler formats env state pid payload) () fun answer _ =>
        ∀ result, answer = .ok result → result.verifiedHardware = true →
          ∃ receiptBytes, decodeReceipt formats payload.receipt = .ok receiptBytes ∧
            AcceptedAgainst env lib (· ∈ state.verifier.trustedRoots) receiptBytes := by
  have herror : ∀ e : ApiError, ∀ result, (.error e : Except ApiError VerificationResult) =
      .ok result → result.verifiedHardware = true → ∃ receiptBytes,
        decodeReceipt formats payload.receipt = .ok receiptBytes ∧
          AcceptedAgainst env lib (· ∈ state.verifier.trustedRoots) receiptBytes := by
    intro e result h
    cases h
  refine Leads.ensure_bind ?_ fun e _ => herror e
  rintro ⟨receiptBytes, expected⟩ hdecode
  refine Leads.bind_any (fun _ _ => ?_) fun e _ => herror e
  refine Leads.leaving_any ?_ fun e _ => herror e
  refine Leads.bind_any (fun _ _ => ?_) fun e _ => herror e
  refine Leads.leaving_any (verifyLocked_restsOn.mono ?_) fun e _ => herror e
  intro answer _ hrests result heq hhardware
  exact ⟨receiptBytes, decodeRequest_receipt hdecode, hrests result heq hhardware⟩

end Leads

end Service

end Veriai
