import Veriai.Core.Text
import Veriai.Service.StateFile

/-!
# The handlers of the verifier service

`verify_handler` and `challenge_handler` with the functions they call, as
programs over the operations of the service. A lock guard lives in a scope that
is left through `leaving`: on an early return the guards are dropped in the
reverse order of their declaration.
-/

namespace Veriai.Service

variable {Text : Type}

/-- A function of the service that returns `Result<α, ε>`. -/
abbrev ServiceM (Text ε α : Type) := Handler (Res Text) ε α

open Handler (ensure outcome leaving)

/-- Perform one operation. -/
def perform {ε : Type} (o : Op Text) : ServiceM Text ε (Res Text o) := Handler.call o

def badRequest (code error : String) : ApiError := ⟨400, code, error⟩

/-- `api_replay_error`. -/
def apiReplayError (message : String) : ApiError := ⟨500, "replay_state_error", message⟩

/-- `replay_state_http_error`: the error itself is only logged. -/
def replayStateHttpError {ε : Type} (_ : ε) : ApiError :=
  apiReplayError "Replay state is unavailable"

variable (formats : Formats Text)

/-- The receipt's bytes: hexadecimal if it can be, else Base64. -/
def decodeReceipt (receipt : String) : Except ApiError Bytes :=
  match hexDecode receipt with
  | .ok bytes => .ok bytes
  | .error _ => (formats.base64Decode receipt).mapError fun e =>
      badRequest "invalid_encoding" ("Invalid receipt encoding (must be hex or base64): " ++ e)

/-- A parameter of 32 bytes. -/
def decodeParameter (name value : String) : Except ApiError (ByteArr 32) :=
  (decodeHex32 formats value).mapError fun e =>
    badRequest ("invalid_" ++ name) ("Invalid " ++ name ++ ": " ++ e)

/-- The receipt and the values it is expected to attest. -/
def decodeRequest (state : AppState) (payload : VerifyRequest) :
    Except ApiError (Bytes × Expected) := do
  let receiptBytes ← decodeReceipt formats payload.receipt
  let modelHash ← decodeParameter formats "model_hash" payload.modelHash
  let inputHash ← decodeParameter formats "input_hash" payload.inputHash
  let outputHash ← decodeParameter formats "output_hash" payload.outputHash
  let nonce ← decodeParameter formats "nonce" payload.nonce
  return (receiptBytes, ⟨modelHash, inputHash, outputHash, nonce, state.expectedPcr0⟩)

/-- Hexadecimal text of a receipt is decoded. -/
@[simp] theorem decodeReceipt_hexEncode {formats : Formats Text} (bytes : Bytes) :
    decodeReceipt formats (hexEncode bytes) = .ok bytes := by
  rw [decodeReceipt, hexDecode_hexEncode]

/-- Hexadecimal text of a parameter is decoded. -/
@[simp] theorem decodeParameter_hexEncode {formats : Formats Text} (name : String)
    (value : ByteArr 32) : decodeParameter formats name (hexEncode value.toList) = .ok value := by
  rw [decodeParameter, decodeHex32_hexEncode]
  rfl

theorem decodeRequest_nonce {formats : Formats Text} {state : AppState} {payload : VerifyRequest}
    {receiptBytes : Bytes} {expected : Expected}
    (h : decodeRequest formats state payload = .ok (receiptBytes, expected)) :
    decodeParameter formats "nonce" payload.nonce = .ok expected.nonce := by
  simp only [decodeRequest, bind_eq_ok] at h
  obtain ⟨bytes, -, modelHash, -, inputHash, -, outputHash, -, nonce, hnonce, heq⟩ := h
  obtain ⟨-, rfl⟩ := Prod.mk.inj (Except.ok.inj heq)
  exact hnonce

theorem decodeRequest_receipt {formats : Formats Text} {state : AppState} {payload : VerifyRequest}
    {receiptBytes : Bytes} {expected : Expected}
    (h : decodeRequest formats state payload = .ok (receiptBytes, expected)) :
    decodeReceipt formats payload.receipt = .ok receiptBytes := by
  simp only [decodeRequest, bind_eq_ok] at h
  obtain ⟨bytes, hbytes, modelHash, -, inputHash, -, outputHash, -, nonce, -, heq⟩ := h
  obtain ⟨rfl, -⟩ := Prod.mk.inj (Except.ok.inj heq)
  exact hbytes

def missingFileName : String := "state file path must end in a file name"

/-- `replay_lock_path` and `challenge_directory`: what matters is whether there is a file name. -/
def siblingPath (path : StatePath) : Except ApiError String :=
  okOr path.fileName (apiReplayError missingFileName)

/-- `load_replay_state`. -/
def loadReplayState : ServiceM Text String ReplayMap := do
  let bytes ← ensure ((← perform .readState).mapError ("failed to read state file: " ++ ·))
  let saved ← ensure ((formats.fromSlice bytes).mapError ("invalid state JSON: " ++ ·))
  ensure (collectReplayMap formats (← perform (.intoIter saved)))

/-- The block that fills the temporary file and renames it. -/
def writeState (name : TempName) (bytes : Text) : ServiceM Text String Unit := do
  ensure ((← perform (.setTemporaryPermissions name)).mapError
    ("failed to set replay state permissions: " ++ ·))
  ensure ((← perform (.writeTemporary name bytes)).mapError ("failed to write replay state: " ++ ·))
  ensure ((← perform (.syncTemporary name)).mapError ("failed to sync replay state: " ++ ·))
  ensure ((← perform (.renameTemporary name)).mapError ("failed to replace replay state: " ++ ·))
  ensure ((← perform .syncParent).mapError ("failed to sync replay state directory: " ++ ·))

/-- `persist_replay_state`, in process `pid`. -/
def persistReplayState (pid : Nat) (path : StatePath) : ServiceM Text String Unit := do
  let state ← ensure ((← perform .getState).mapError VerifyError.toString)
  let state ← ensure (okOr state "stateful verification is disabled")
  let order ← perform (.intoIter (encodeMembers state))
  let bytes ← ensure ((formats.toVecPretty order).mapError
    ("failed to encode replay state: " ++ ·))
  let _ ← ensure (okOr path.fileName missingFileName)
  let counter ← perform .nextTempFile
  let name : TempName := ⟨pid, counter⟩
  ensure ((← perform (.createTemporary name)).mapError
    ("failed to create replay state temporary file: " ++ ·))
  match ← outcome (writeState name bytes) with
  | .ok () => return ()
  | .error e => do
    let _ ← perform (.removeTemporary name)
    throw e

/-- `persist_replay_state_or_rollback`. -/
def persistReplayStateOrRollback (pid : Nat) (path : StatePath) (previousState : ReplayMap) :
    ServiceM Text String Unit := do
  let persisted : ServiceM Text String (Except String Unit) :=
    outcome (persistReplayState formats pid path)
  match ← persisted with
  | .ok () => return ()
  | .error persistError => do
    ensure ((← perform (.setState previousState)).mapError fun rollbackError =>
      persistError ++ "; replay state rollback also failed: " ++ rollbackError.toString)
    throw persistError

/-- `reserve_challenge`, in process `pid`. -/
def reserveChallenge (pid : Nat) (path : StatePath) (nonce : ByteArr 32) :
    ServiceM Text String ReservedName := do
  let _ ← ensure ((siblingPath path).mapError ApiError.error)
  let text ← ensure ((← perform (.readRecord nonce)).mapError fun _ =>
    "challenge was not issued or was already consumed")
  let expiresAt ← ensure (okOr (parseU64 (trim text.toList)) "challenge record is invalid")
  let now ← ensure (← perform .unixSeconds)
  if now > expiresAt then do
    let _ ← perform (.removeAvailable nonce)
    throw "challenge has expired"
  else do
    let counter ← perform .nextTempFile
    let name : ReservedName := ⟨nonce, pid, counter⟩
    ensure ((← perform (.reserveRecord name)).mapError fun _ =>
      "challenge was concurrently consumed")
    ensure (← perform .syncChallengeDir)
    return name

/-- `ChallengeReservation::restore`. -/
def restore (name : ReservedName) : ServiceM Text String Unit := do
  ensure ((← perform (.restoreRecord name)).mapError ("failed to restore challenge: " ++ ·))
  ensure (← perform .syncChallengeDir)

/-- `ChallengeReservation::consume`. -/
def consume (name : ReservedName) : ServiceM Text String Unit := do
  ensure ((← perform (.consumeRecord name)).mapError ("failed to consume challenge: " ++ ·))
  ensure (← perform .syncChallengeDir)

/-- `if let Some(reservation) = challenge_reservation`, with the error mapped. -/
def withReservation (reservation : Option ReservedName)
    (f : ReservedName → ServiceM Text String Unit) : ServiceM Text ApiError Unit :=
  match reservation with
  | some name => (f name).mapError replayStateHttpError
  | none => return ()

variable (env : Primitives)

/-- `Verifier::verify`: the inspection without the replay state, then the locked section. -/
def verify (v : Verifier) (receiptBytes : Bytes) (expected : Expected) :
    ServiceM Text VerifyError VerificationResult := do
  let (provider, now) ← perform .observe
  let v := { v with provider }
  match (v.inspect env now receiptBytes expected).run {} with
  | .error (.err e) => throw e
  | .error (.failed result) => return result
  | .ok ((claims, doc), report) => ensure (← perform (.checkSequence v claims doc report))

/-- Take the two locks of the transaction, where there is a state file. -/
def acquireFileLock (state : AppState) : ServiceM Text ApiError Unit :=
  match state.replayStatePath with
  | some path => do
    let _ ← ensure (siblingPath path)
    ensure ((← perform .acquireReplayLock).mapError replayStateHttpError)
  | none => return ()

def acquireGuard (state : AppState) : ServiceM Text ApiError Unit :=
  match state.replayStatePath with
  | some _ => perform .lockReplayGuard
  | none => return ()

/-- A different process may have committed while this process waited. -/
def reload (state : AppState) : ServiceM Text ApiError Unit :=
  match state.replayStatePath with
  | some _ => do
    if ← perform .pathExists then do
      let saved ← (loadReplayState formats).mapError replayStateHttpError
      ensure ((← perform (.setState saved)).mapError replayStateHttpError)
    else return ()
  | none => return ()

/-- The reservation of the challenge, where challenges are required. -/
def reserveIssued (state : AppState) (pid : Nat) (nonce : ByteArr 32) :
    ServiceM Text ApiError (Option ReservedName) := do
  if state.requireIssuedChallenge then do
    let path ← ensure (okOr state.replayStatePath
      (apiReplayError "STATE_FILE_PATH is required in real-hardware mode"))
    let name ← (reserveChallenge pid path nonce).mapError (badRequest "invalid_challenge")
    return some name
  else return none

/-- The replay state before the receipt is verified. -/
def snapshot (state : AppState) : ServiceM Text ApiError (Option ReplayMap) :=
  match state.replayStatePath with
  | some _ => do
    ensure ((← perform .getState).mapError fun _ => apiReplayError "Replay state is unavailable")
  | none => return none

/-- Make an acceptance durable, or take it back. -/
def persist (state : AppState) (pid : Nat) (previous : Option ReplayMap)
    (reservation : Option ReservedName) : ServiceM Text ApiError Unit :=
  match state.replayStatePath with
  | some path => do
    match ← outcome (persistReplayStateOrRollback formats pid path (previous.getD ∅)) with
    | .ok () => return ()
    | .error _ => do
      withReservation reservation restore
      throw (apiReplayError "Verification succeeded but replay state could not be persisted")
  | none => return ()

/-- The part of `verify_handler` under the locks. -/
def verifyLocked (state : AppState) (pid : Nat) (receiptBytes : Bytes) (expected : Expected) :
    ServiceM Text ApiError VerificationResult := do
  reload formats state
  let reservation ← reserveIssued state pid expected.nonce
  let previous ← snapshot state
  let result ← (verify env state.verifier receiptBytes expected).mapError fun e =>
    ⟨500, "verification_error", "Infrastructure error: " ++ formats.debugVerifyError e⟩
  if !result.valid then do
    withReservation reservation restore
    perform .dropReplayLock
    perform .dropReplayGuard
    return result
  else do
    persist formats state pid previous reservation
    withReservation reservation consume
    perform .dropReplayGuard
    perform .dropReplayLock
    return result

/-- `verify_handler`, in process `pid`. -/
def verifyHandler (state : AppState) (pid : Nat) (payload : VerifyRequest) :
    ServiceM Text ApiError VerificationResult := do
  let (receiptBytes, expected) ← ensure (decodeRequest formats state payload)
  acquireGuard state
  leaving .dropReplayGuard do
    acquireFileLock state
    leaving .dropReplayLock (verifyLocked formats env state pid receiptBytes expected)

/-- `CHALLENGE_TTL_SECONDS`. -/
def challengeTtlSeconds : UInt64 := 300

/-- `u64::checked_add`. -/
def checkedAdd (a b : UInt64) : Option UInt64 :=
  if a.toNat + b.toNat < 2 ^ 64 then some (a + b) else none

/-- `writeln!(file, "\x7bexpires_at\x7d")`, character by character. -/
def writeExpiry (nonce : ByteArr 32) : List Char → ServiceM Text ApiError Unit
  | [] => return ()
  | c :: rest => do
    ensure ((← perform (.writeRecord nonce c)).mapError replayStateHttpError)
    writeExpiry nonce rest

/-- Fill the record just created. -/
def fillRecord (nonce : ByteArr 32) (expiresAt : UInt64) :
    ServiceM Text ApiError ChallengeResponse := do
  ensure ((← perform (.setRecordPermissions nonce)).mapError replayStateHttpError)
  writeExpiry nonce (decimal expiresAt ++ ['\n'])
  ensure ((← perform (.syncRecord nonce)).mapError replayStateHttpError)
  ensure ((← perform .syncChallengeDir).mapError replayStateHttpError)
  return ⟨hexEncode nonce.toList, expiresAt⟩

/-- The loop of `challenge_handler`, with so many attempts left. -/
def issueChallenge (expiresAt : UInt64) : Nat → ServiceM Text ApiError ChallengeResponse
  | 0 => throw (apiReplayError "failed to allocate a unique challenge")
  | attempts + 1 => do
    let nonce ← perform .fillBytes
    match ← perform (.createRecord nonce expiresAt) with
    | .ok () => fillRecord nonce expiresAt
    | .error .alreadyExists => issueChallenge expiresAt attempts
    | .error (.other e) => throw (replayStateHttpError e)

/-- `challenge_handler`. -/
def challengeHandler (state : AppState) : ServiceM Text ApiError ChallengeResponse := do
  let path ← ensure (okOr state.replayStatePath
    (apiReplayError "STATE_FILE_PATH is required for issued challenges"))
  let now ← ensure ((← perform .unixSeconds).mapError replayStateHttpError)
  let expiresAt ← ensure (okOr (checkedAdd now challengeTtlSeconds)
    (apiReplayError "challenge expiry overflow"))
  let _ ← ensure (siblingPath path)
  ensure ((← perform .createChallengeDir).mapError replayStateHttpError)
  ensure ((← perform .setChallengeDirPermissions).mapError replayStateHttpError)
  issueChallenge expiresAt 8

end Veriai.Service
