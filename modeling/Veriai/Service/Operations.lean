import Mathlib.Data.Finmap
import Mathlib.Logic.Function.Basic
import Veriai.Core.Program
import Veriai.Receipt.Replay

/-!
# The verifier service and what it does to its surroundings

Service processes share one state file, its sibling lock file and a directory
of issued challenges. A handler acts on them, and on the memory of its own
process, through the operations of this module; each is one atomic step whose
effect is stated by `exec`. Every file operation may fail where errors are
among the hazards considered.
-/

namespace Veriai.Service

/-- The path of the state file: the file name, if the path ends in one that is UTF-8. -/
structure StatePath where
  fileName : Option String

/-- `AppState`, apart from the parts of it that calls change. -/
structure AppState where
  expectedPcr0 : Bytes
  verifier : Verifier
  replayStatePath : Option StatePath
  requireIssuedChallenge : Bool

/-- `VerifyRequest`. -/
structure VerifyRequest where
  receipt : String
  modelHash : String
  inputHash : String
  outputHash : String
  nonce : String

/-- `ChallengeResponse`. -/
structure ChallengeResponse where
  nonce : String
  expiresAt : UInt64

/-- A status code with the body of an `ErrorResponse`. -/
structure ApiError where
  status : Nat
  code : String
  error : String

/-- `HashMap<String, u64>`: the members of the state file. -/
abbrev Members := Finmap fun _ : String => UInt64

/-- The members in the order in which the map happens to be iterated. -/
abbrev MemberOrder := AList fun _ : String => UInt64

/-- What the service takes from `base64ct`, `serde_json` and the derived debug formats. -/
structure Formats (Text : Type) where
  /-- `Base64::decode_vec`; an error is its debug text. -/
  base64Decode : String → Except String Bytes
  debugHexError : FromHexError → String
  debugVerifyError : VerifyError → String
  /-- `serde_json::from_slice`; an error is its display text. -/
  fromSlice : Text → Except String Members
  /-- `serde_json::to_vec_pretty` of the members in this order. -/
  toVecPretty : MemberOrder → Except String Text

/-- A call: the process that serves it and a number of its own. -/
structure CallId where
  pid : Nat
  number : Nat
  deriving DecidableEq

/-- `.{file_name}.{pid}.{counter}.tmp`. -/
structure TempName where
  pid : Nat
  counter : Nat
  deriving DecidableEq

/-- `.{nonce}.{pid}.{counter}.reserved`; its available name is the nonce. -/
structure ReservedName where
  nonce : ByteArr 32
  pid : Nat
  counter : Nat
  deriving DecidableEq

/-- The errors of `create_new` that the service tells apart. -/
inductive CreateError where
  | alreadyExists
  | other (error : String)

/-- One step of a handler. -/
inductive Op (Text : Type) where
  /-- `replay_write_lock.lock().await`. -/
  | lockReplayGuard
  | dropReplayGuard
  /-- `acquire_replay_lock` by `spawn_blocking`. -/
  | acquireReplayLock
  | dropReplayLock
  | pathExists
  | readState
  /-- Iterate over a `HashMap`. -/
  | intoIter (members : Members)
  | getState
  | setState (state : ReplayMap)
  /-- The provider and the clock as `verify` finds them. -/
  | observe
  /-- The locked section of `verify`. -/
  | checkSequence (v : Verifier) (claims : VeriClaims) (doc : AttestationDoc) (report : Report)
  /-- `TEMP_FILE_COUNTER.fetch_add(1)`. -/
  | nextTempFile
  | createTemporary (name : TempName)
  | setTemporaryPermissions (name : TempName)
  | writeTemporary (name : TempName) (text : Text)
  | syncTemporary (name : TempName)
  | renameTemporary (name : TempName)
  | syncParent
  | removeTemporary (name : TempName)
  | unixSeconds
  | createChallengeDir
  | setChallengeDirPermissions
  | fillBytes
  /-- Create the record that is to hold this expiry. -/
  | createRecord (nonce : ByteArr 32) (expiresAt : UInt64)
  | setRecordPermissions (nonce : ByteArr 32)
  /-- One more character through the handle of the record just created. -/
  | writeRecord (nonce : ByteArr 32) (c : Char)
  | syncRecord (nonce : ByteArr 32)
  | syncChallengeDir
  | readRecord (nonce : ByteArr 32)
  | removeAvailable (nonce : ByteArr 32)
  | reserveRecord (name : ReservedName)
  | restoreRecord (name : ReservedName)
  | consumeRecord (name : ReservedName)

/-- The result of an operation; file errors are display texts. -/
@[reducible] def Res (Text : Type) : Op Text → Type
  | .lockReplayGuard | .dropReplayGuard | .dropReplayLock => Unit
  | .pathExists => Bool
  | .readState => Except String Text
  | .intoIter _ => MemberOrder
  | .getState => Except VerifyError (Option ReplayMap)
  | .setState _ => Except VerifyError Unit
  | .observe => AttestationProvider × SystemTime
  | .checkSequence .. => Except VerifyError VerificationResult
  | .nextTempFile => Nat
  | .unixSeconds => Except String UInt64
  | .fillBytes => ByteArr 32
  | .createRecord .. => Except CreateError Unit
  | .readRecord _ => Except String String
  | _ => Except String Unit

/-- The memory of a running process: `TEMP_FILE_COUNTER`, the verifier's replay state, and the call
that holds `replay_write_lock`. The counter is an `AtomicU64`; a process is assumed to draw fewer
than `2 ^ 64` names in its life, so that it never wraps. -/
structure Process where
  counter : Nat
  verifier : Option ReplayMutex
  guard : Option CallId

/-- A replacement of the state file: who renamed, and the identity `verify` had accepted. -/
structure Commit where
  call : CallId
  fingerprint : Fingerprint
  sequence : UInt64

/-- Processes and files. The last nine fields record the past and steer nothing. -/
structure World (Text : Type) where
  procs : Nat → Option Process
  /-- The call that holds the lock on the sibling lock file. -/
  fileLock : Option CallId
  file : Option Text
  temps : TempName → Option Text
  /-- The records under their nonce, and under the names they are reserved by. -/
  available : ByteArr 32 → Bool
  reserved : ReservedName → Bool
  record : ByteArr 32 → List Char
  /-- How often the state file was replaced. -/
  version : Nat
  /-- The version a call looked at last. -/
  base : CallId → Nat
  /-- The identity accepted for a call. -/
  pending : CallId → Option (Fingerprint × UInt64)
  /-- The call a temporary name was drawn for. -/
  slots : TempName → Option CallId
  commits : List Commit
  /-- The call that issued a nonce, with the expiry of its record. -/
  issued : ByteArr 32 → Option (CallId × UInt64)
  /-- The clock as a call read it last. -/
  clock : CallId → Option UInt64
  /-- The records reserved, with the reading of the clock. -/
  reservations : List (CallId × ByteArr 32 × Option UInt64)
  /-- The call that consumed the record of a nonce. -/
  consumed : ByteArr 32 → Option CallId

/-- What may go wrong in the runs considered. -/
structure Hazards where
  fileErrors : Bool
  crashes : Bool
  drops : Bool

namespace World

variable {Text : Type} (w : World Text)

def setProc (pid : Nat) (p : Option Process) : World Text :=
  { w with procs := Function.update w.procs pid p }

/-- Release `replay_write_lock` if the call holds it. -/
def dropGuard (t : CallId) : World Text :=
  match w.procs t.pid with
  | some p => if p.guard = some t then w.setProc t.pid (some { p with guard := none }) else w
  | none => w

/-- Release the file lock if the call holds it. -/
def dropLock (t : CallId) : World Text :=
  if w.fileLock = some t then { w with fileLock := none } else w

/-- The call has looked at the state file. -/
def looked (t : CallId) : World Text := { w with base := Function.update w.base t w.version }

def setTemp (name : TempName) (text : Option Text) : World Text :=
  { w with temps := Function.update w.temps name text }

/-- The temporary file becomes the state file. -/
def replace (t : CallId) (name : TempName) (text : Text) : World Text :=
  { w.setTemp name none with
    file := some text
    version := w.version + 1
    commits := w.commits ++ ((w.pending t).map fun e => ⟨t, e.1, e.2⟩).toList }

@[simp] theorem dropGuard_commits (t : CallId) : (w.dropGuard t).commits = w.commits := by
  unfold dropGuard
  split
  · split <;> rfl
  · rfl

@[simp] theorem dropGuard_file (t : CallId) : (w.dropGuard t).file = w.file := by
  unfold dropGuard
  split
  · split <;> rfl
  · rfl

@[simp] theorem dropLock_commits (t : CallId) : (w.dropLock t).commits = w.commits := by
  unfold dropLock
  split <;> rfl

@[simp] theorem dropLock_file (t : CallId) : (w.dropLock t).file = w.file := by
  unfold dropLock
  split <;> rfl

end World

section Exec

variable {Text : Type} (env : Primitives) (hz : Hazards)

/-- A file operation fails without an effect. -/
def Fails {α : Type} (r : Except String α) (w w' : World Text) : Prop :=
  hz.fileErrors = true ∧ (∃ e, r = .error e) ∧ w' = w

/-- A file operation without an effect on what is modelled. -/
def Plain (r : Except String Unit) (w w' : World Text) : Prop :=
  r = .ok () ∧ w' = w ∨ Fails hz r w w'

/-- The identity accepted for a call after an answer of the locked section. -/
def acceptedIdentity (claims : VeriClaims) (doc : AttestationDoc)
    (answer : Except VerifyError VerificationResult) (before : Option (Fingerprint × UInt64)) :
    Option (Fingerprint × UInt64) :=
  match answer with
  | .ok result =>
    if result.valid then some (computeIdentityFingerprint env doc, claims.sequenceNum) else before
  | .error _ => before

/-- Call `t` performs an operation with this result. A text whose `write_all` and `sync_all` both
succeed is in the file: that `tokio` reports a failed write by one of the two is assumed. -/
def exec (t : CallId) : (o : Op Text) → Res Text o → World Text → World Text → Prop
  | .lockReplayGuard, _, w, w' => ∃ p, w.procs t.pid = some p ∧ p.guard = none ∧
      w' = w.setProc t.pid (some { p with guard := some t })
  | .dropReplayGuard, _, w, w' => w' = w.dropGuard t
  | .acquireReplayLock, r, w, w' =>
      r = .ok () ∧ w.fileLock = none ∧ w' = { w with fileLock := some t } ∨ Fails hz r w w'
  | .dropReplayLock, _, w, w' => w' = w.dropLock t
  | .pathExists, r, w, w' => r = w.file.isSome ∧ w' = w.looked t
  | .readState, r, w, w' => (∃ text, w.file = some text ∧ r = .ok text ∧ w' = w.looked t) ∨
      w.file = none ∧ (∃ e, r = .error e) ∧ w' = w ∨ Fails hz r w w'
  | .intoIter members, r, w, w' => r.toFinmap = members ∧ w' = w
  | .getState, r, w, w' => ∃ p, w.procs t.pid = some p ∧ r = getState p.verifier ∧ w' = w
  | .setState state, r, w, w' => ∃ p, w.procs t.pid = some p ∧ r = (setState state p.verifier).1 ∧
      w' = w.setProc t.pid (some { p with verifier := (setState state p.verifier).2 })
  | .observe, _, w, w' => w' = w
  | .checkSequence v claims doc report, r, w, w' => ∃ p, w.procs t.pid = some p ∧
      r = (v.checkSequence env claims doc report p.verifier).1 ∧
      w' = { w.setProc t.pid (some { p with
          verifier := (v.checkSequence env claims doc report p.verifier).2 }) with
        pending := Function.update w.pending t
          (acceptedIdentity env claims doc r (w.pending t)) }
  | .nextTempFile, r, w, w' => ∃ p, w.procs t.pid = some p ∧ r = p.counter ∧
      w' = { w.setProc t.pid (some { p with counter := p.counter + 1 }) with
        slots := Function.update w.slots ⟨t.pid, p.counter⟩ (some t) }
  | .createTemporary name, r, w, w' =>
      r = .ok () ∧ w.temps name = none ∧ (∃ text, w' = w.setTemp name (some text)) ∨
      (∃ e, r = .error e) ∧ w.temps name ≠ none ∧ w' = w ∨ Fails hz r w w'
  | .setTemporaryPermissions _, r, w, w' => Plain hz r w w'
  | .writeTemporary name text, r, w, w' => w.temps name ≠ none ∧
      (r = .ok () ∧ w' = w.setTemp name (some text) ∨
        hz.fileErrors = true ∧ (∃ e, r = .error e) ∧ ∃ part, w' = w.setTemp name (some part))
  | .syncTemporary _, r, w, w' => Plain hz r w w'
  | .renameTemporary name, r, w, w' =>
      (∃ text, w.temps name = some text ∧ r = .ok () ∧ w' = w.replace t name text) ∨
      w.temps name = none ∧ (∃ e, r = .error e) ∧ w' = w ∨ Fails hz r w w'
  | .syncParent, r, w, w' => Plain hz r w w'
  | .removeTemporary name, r, w, w' =>
      w.temps name ≠ none ∧ r = .ok () ∧ w' = w.setTemp name none ∨
      w.temps name = none ∧ (∃ e, r = .error e) ∧ w' = w ∨ Fails hz r w w'
  | .unixSeconds, r, w, w' =>
      (∃ now, r = .ok now ∧ w' = { w with clock := Function.update w.clock t (some now) }) ∨
      (∃ e, r = .error e) ∧ w' = w
  | .createChallengeDir, r, w, w' => Plain hz r w w'
  | .setChallengeDirPermissions, r, w, w' => Plain hz r w w'
  | .fillBytes, _, w, w' => w' = w
  | .createRecord nonce expiresAt, r, w, w' =>
      -- a nonce is drawn at most once among those issued
      r = .ok () ∧ w.available nonce = false ∧ w.issued nonce = none ∧
        w' = { w with
          available := Function.update w.available nonce true
          record := Function.update w.record nonce []
          issued := Function.update w.issued nonce (some (t, expiresAt)) } ∨
      r = .error .alreadyExists ∧ w.available nonce = true ∧ w' = w ∨
      hz.fileErrors = true ∧ (∃ e, r = .error (.other e)) ∧ w' = w
  | .setRecordPermissions _, r, w, w' => Plain hz r w w'
  | .writeRecord nonce c, r, w, w' =>
      r = .ok () ∧
        w' = { w with record := Function.update w.record nonce (w.record nonce ++ [c]) } ∨
      Fails hz r w w'
  | .syncRecord _, r, w, w' => Plain hz r w w'
  | .syncChallengeDir, r, w, w' => Plain hz r w w'
  | .readRecord nonce, r, w, w' =>
      w.available nonce = true ∧ r = .ok (String.ofList (w.record nonce)) ∧ w' = w ∨
      w.available nonce = false ∧ (∃ e, r = .error e) ∧ w' = w ∨ Fails hz r w w'
  | .removeAvailable nonce, r, w, w' =>
      w.available nonce = true ∧ r = .ok () ∧
        w' = { w with available := Function.update w.available nonce false } ∨
      w.available nonce = false ∧ (∃ e, r = .error e) ∧ w' = w ∨ Fails hz r w w'
  | .reserveRecord name, r, w, w' =>
      w.available name.nonce = true ∧ r = .ok () ∧
        w' = { w with
          available := Function.update w.available name.nonce false
          reserved := Function.update w.reserved name true
          reservations := w.reservations ++ [(t, name.nonce, w.clock t)] } ∨
      w.available name.nonce = false ∧ (∃ e, r = .error e) ∧ w' = w ∨ Fails hz r w w'
  | .restoreRecord name, r, w, w' =>
      w.reserved name = true ∧ r = .ok () ∧
        w' = { w with
          available := Function.update w.available name.nonce true
          reserved := Function.update w.reserved name false } ∨
      w.reserved name = false ∧ (∃ e, r = .error e) ∧ w' = w ∨ Fails hz r w w'
  | .consumeRecord name, r, w, w' =>
      w.reserved name = true ∧ r = .ok () ∧
        w' = { w with
          reserved := Function.update w.reserved name false
          consumed := Function.update w.consumed name.nonce (some t) } ∨
      w.reserved name = false ∧ (∃ e, r = .error e) ∧ w' = w ∨ Fails hz r w w'

end Exec

/-- A call may be dropped at this operation: it is awaited. -/
def Awaits {Text : Type} : Op Text → Prop
  | .lockReplayGuard | .acquireReplayLock | .observe | .createTemporary _
  | .setTemporaryPermissions _ | .writeTemporary .. | .syncTemporary _ | .renameTemporary _
  | .removeTemporary _ => True
  | _ => False

/-- The operation is one of `tokio::fs`. -/
def OfTokioFs {Text : Type} : Op Text → Prop
  | .createTemporary _ | .setTemporaryPermissions _ | .writeTemporary .. | .syncTemporary _
  | .renameTemporary _ | .removeTemporary _ => True
  | _ => False

/-- The operation runs on the blocking pool: once handed to it, it goes on without its call. -/
def UsesPool {Text : Type} : Op Text → Prop
  | .acquireReplayLock => True
  | o => OfTokioFs o

/-- What goes on of an operation whose call was dropped. An attempt to lock still takes the lock
when it can; nobody receives the file then, and closing it releases the lock. -/
def leftover {Text : Type} : Op Text → Prog (Res Text) Unit
  | .acquireReplayLock => .op .acquireReplayLock fun r =>
    match r with
    | .ok _ => .op .dropReplayLock fun _ => .ret ()
    | .error _ => .ret ()
  | o => .op o fun _ => .ret ()

end Veriai.Service
