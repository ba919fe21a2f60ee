import Veriai.Attestation.Providers
import Veriai.Hashing.ModelHash
import Veriai.Service.StateFile

/-!
# The command line verifier

`veriai verify` in a build with the feature `real-hardware`: the files and
arguments it reads, the session it may carry on, and its report. The trusted
roots come from a file that the caller names.
-/

namespace Veriai.Cli

open Service (Members MemberOrder encodeMembers)

/-- The arguments of `Commands::Verify`; files are paths. -/
structure VerifyArgs where
  receipt : String
  model : String
  inputFile : Option String
  outputFile : Option String
  nonce : String
  expectedPcr0 : String
  rootCert : String
  stateful : Option String

/-- What the command finds; errors are display texts. -/
structure Surroundings where
  /-- `std::fs::read`. -/
  read : String → Except IoError Bytes
  /-- `File::open`. -/
  openFile : String → Except IoError File
  /-- `std::fs::read_to_string`. -/
  readToString : String → Except IoError String
  /-- What standard input holds. -/
  stdin : Except IoError Bytes
  /-- `Path::exists`. -/
  pathExists : String → Bool
  /-- `serde_json::from_reader` of the opened file, in the order in which the map is iterated. -/
  readSession : String → Except String MemberOrder
  displayHexError : FromHexError → String

section Parts

variable (surroundings : Surroundings)

/-- `read_bytes_or_stdin`, and what it leaves on standard input. -/
def readBytesOrStdin (path : Option String) (stdin : Except IoError Bytes) :
    Except IoError (Bytes × Except IoError Bytes) :=
  match path with
  | some p => do return (← surroundings.read p, stdin)
  | none => do return (← stdin, .ok [])

/-- `parse_hex_any`. -/
def parseHexAny (s : String) : Except String Bytes :=
  (hexDecode s).mapError fun e => "Invalid hex: " ++ surroundings.displayHexError e

/-- `parse_hex_32`. -/
def parseHex32 (s : String) : Except String (ByteArr 32) := do
  let bytes ← parseHexAny surroundings s
  okOr (ByteArr.ofBytes? 32 bytes) ("Expected 32 bytes, got " ++ toString bytes.length)

@[simp] theorem parseHexAny_hexEncode (bytes : Bytes) :
    parseHexAny surroundings (hexEncode bytes) = .ok bytes := by
  simp [parseHexAny]

@[simp] theorem parseHex32_hexEncode (value : ByteArr 32) :
    parseHex32 surroundings (hexEncode value.toList) = .ok value := by
  simp [parseHex32, bind_eq_ok]

/-- The loop over the members of the session file: a key that is not of 32 bytes is passed over. -/
def decodeSession (savedState : MemberOrder) : Except String ReplayMap :=
  savedState.entries.foldlM (fun decodedState member => do
    let bytes ← (hexDecode member.1).mapError surroundings.displayHexError
    match ByteArr.ofBytes? 32 bytes with
    | some fp => return decodedState.insert fp member.2
    | none => return decodedState) ∅

/-- The replay state with the saved one in it, if there is a session file. -/
def loadSession (stateful : Option String) (replay : Option ReplayMutex) :
    Except String (Option ReplayMutex) :=
  match stateful.filter surroundings.pathExists with
  | some sessionPath => do
    let savedState ← surroundings.readSession sessionPath
    let decodedState ← decodeSession surroundings savedState
    (setState decodedState replay).1.mapError VerifyError.toString
    return (setState decodedState replay).2
  | none => return replay

/-- The line printed for a check. -/
def checkLine (check : VerificationCheck) : String :=
  let statusSymbol :=
    match check.status with
    | .passed => "✓"
    | .failed => "✗"
  match check.details with
  | some details => statusSymbol ++ " " ++ check.name ++ " (" ++ details ++ ")"
  | none => statusSymbol ++ " " ++ check.name

/-- What is printed about a result. -/
def report (result : VerificationResult) : List String :=
  result.checks.map checkLine ++
    ["\nResult: " ++ if result.valid then "VERIFIED" else "FAILED"] ++
    if result.valid then [] else (result.error.map ("Reason: " ++ ·)).toList

end Parts

/-- How the command ends with a result: what it prints about it, its exit code, and what it
writes to the session file. -/
structure VerifyOutcome where
  result : VerificationResult
  report : List String
  exitCode : Nat
  session : Option (String × Members)

variable (codec : PemCodec) (env : Primitives)

/-- `Commands::Verify`, with the provider of `configured_provider` and the clock. -/
def verify (surroundings : Surroundings) (provider : AttestationProvider) (now : SystemTime)
    (args : VerifyArgs) : Except String VerifyOutcome := do
  let receiptBytes ← surroundings.read args.receipt
  let modelHash ← computeModelHash env.sha256 (surroundings.openFile args.model)
  let (inputBytes, stdin) ← readBytesOrStdin surroundings args.inputFile surroundings.stdin
  let (outputBytes, _) ← readBytesOrStdin surroundings args.outputFile stdin
  let inputHash := env.sha256 inputBytes
  let outputHash := env.sha256 outputBytes
  let nonceBytes ← parseHex32 surroundings args.nonce
  let pcr0Bytes ← parseHexAny surroundings args.expectedPcr0
  let rootPem ← surroundings.readToString args.rootCert
  let (verifier, replay) ← Verifier.fromPem codec provider rootPem args.stateful.isSome
  let replay ← loadSession surroundings args.stateful replay
  let verified := verifier.verify env now receiptBytes
    ⟨modelHash, inputHash, outputHash, nonceBytes, pcr0Bytes⟩ replay
  let result ← verified.1.mapError VerifyError.toString
  if !result.valid then return ⟨result, report result, 1, none⟩
  else do
    let state ← (getState verified.2).mapError VerifyError.toString
    return ⟨result, report result, 0, args.stateful.bind fun sessionPath =>
      state.map fun stateMap => (sessionPath, encodeMembers stateMap)⟩

variable {codec env} {lib : CertificateLibrary}

/-- A result that verifies hardware rests on a certificate of the file that the caller names. -/
theorem verify_acceptedFrom {surroundings : Surroundings} {provider : AttestationProvider}
    {now : SystemTime} {args : VerifyArgs} {outcome : VerifyOutcome}
    (hprovider : VerifiesDocuments env lib provider)
    (h : verify codec env surroundings provider now args = .ok outcome)
    (hhardware : outcome.result.verifiedHardware = true) :
    ∃ receiptBytes pem, surroundings.read args.receipt = .ok receiptBytes ∧
      surroundings.readToString args.rootCert = .ok pem ∧
      AcceptedFrom env lib codec pem receiptBytes := by
  simp only [verify, bind_eq_ok, mapError_eq_ok] at h
  obtain ⟨receiptBytes, hreceipt, modelHash, -, ⟨inputBytes, stdin⟩, -, ⟨outputBytes, _⟩, -,
    nonceBytes, -, pcr0Bytes, -, pem, hpem, ⟨v, replay⟩, hfrom, replay', -, result, hverify,
    hend⟩ := h
  obtain rfl : outcome.result = result := by
    split at hend
    · rw [← Except.ok.inj hend]
    · simp only [bind_eq_ok] at hend
      obtain ⟨state, -, heq⟩ := hend
      rw [← Except.ok.inj heq]
  exact ⟨receiptBytes, pem, hreceipt, hpem,
    Verifier.acceptedFrom_of_verifiedHardware hfrom hprovider hverify hhardware⟩

end Veriai.Cli
