import Veriai.Core.Alone
import Veriai.Service.System

/-!
# Operations that spare the records

Most of what the handlers do concerns no record of a challenge. The operations
that leave the records as they are, and the parts of the handlers that perform
no others, are collected here.
-/

namespace Veriai.Service

open Machine

variable {Text : Type}

/-- The replay mutex of the call's process is poisoned. -/
def World.poisoned (w : World Text) (t : CallId) : Bool :=
  ((w.procs t.pid).bind Process.verifier).any ReplayMutex.poisoned

/-- The operation concerns no record of a challenge, but perhaps reads one. -/
def SparesRecords : Op Text → Prop
  | .unixSeconds | .createRecord .. | .writeRecord .. | .removeAvailable _ | .reserveRecord _
  | .restoreRecord _ | .consumeRecord _ => False
  | _ => True

/-- The records and what is recorded about them are as they were. -/
structure SameRecords (w w' : World Text) : Prop where
  available : w'.available = w.available
  reserved : w'.reserved = w.reserved
  record : w'.record = w.record
  issued : w'.issued = w.issued
  clock : w'.clock = w.clock
  reservations : w'.reservations = w.reservations
  consumed : w'.consumed = w.consumed

/-- Call `t` spares the records. It may draw a number for a temporary file. -/
structure Spares (t : CallId) (w w' : World Text) : Prop extends SameRecords w w' where
  poisoned : w'.poisoned t = w.poisoned t
  procs : ∀ pid p, w.procs pid = some p → ∃ p', w'.procs pid = some p' ∧ p.counter ≤ p'.counter
  slots : w'.slots = w.slots ∨ ∃ p p', w.procs t.pid = some p ∧ w'.procs t.pid = some p' ∧
    p.counter < p'.counter ∧ w'.slots = Function.update w.slots ⟨t.pid, p.counter⟩ (some t)

variable {env : Primitives} {hz : Hazards} {t : CallId} {w w' : World Text}

theorem SameRecords.refl (w : World Text) : SameRecords w w := ⟨rfl, rfl, rfl, rfl, rfl, rfl, rfl⟩

/-- Processes and names are as they were as well. -/
theorem SameRecords.spares (h : SameRecords w w') (hprocs : w'.procs = w.procs)
    (hslots : w'.slots = w.slots) : Spares t w w' where
  toSameRecords := h
  poisoned := by rw [World.poisoned, World.poisoned, hprocs]
  procs pid p hp := ⟨p, by rw [hprocs, hp], le_rfl⟩
  slots := Or.inl hslots

theorem Spares.refl (w : World Text) : Spares t w w := (SameRecords.refl w).spares rfl rfl

/-- A change of the process that keeps the health of its mutex spares the records. -/
theorem Spares.setProc {p p' : Process} (hp : w.procs t.pid = some p)
    (hcounter : p.counter ≤ p'.counter)
    (hflag : p'.verifier.any ReplayMutex.poisoned = p.verifier.any ReplayMutex.poisoned) :
    Spares t w (w.setProc t.pid (some p')) where
  toSameRecords := ⟨rfl, rfl, rfl, rfl, rfl, rfl, rfl⟩
  poisoned := by
    have hp' : (w.setProc t.pid (some p')).procs t.pid = some p' := Function.update_self _ _ _
    rw [World.poisoned, World.poisoned, hp, hp']
    exact hflag
  procs := by
    intro pid q hq
    by_cases hpid : pid = t.pid
    · rw [hpid, hp] at hq
      obtain rfl := Option.some.inj hq
      exact ⟨p', by rw [hpid]; exact Function.update_self .., hcounter⟩
    · exact ⟨q, (Function.update_of_ne hpid _ _).trans hq, le_rfl⟩
  slots := Or.inl rfl

/-- So does giving the guard back. -/
theorem Spares.dropGuard (w : World Text) : Spares t w (w.dropGuard t) := by
  unfold World.dropGuard
  split
  next p hp =>
    split
    · exact .setProc hp le_rfl rfl
    · exact .refl w
  next => exact .refl w

/-- So does giving the file lock back. -/
theorem Spares.dropLock (w : World Text) : Spares t w (w.dropLock t) := by
  unfold World.dropLock
  split
  · exact SameRecords.spares ⟨rfl, rfl, rfl, rfl, rfl, rfl, rfl⟩ rfl rfl
  · exact .refl w

/-- A plain operation spares the records. -/
theorem Spares.of_plain {r : Except String Unit} (h : Plain hz r w w') : Spares t w w' := by
  rcases h with ⟨-, rfl⟩ | ⟨-, -, rfl⟩
  · exact .refl _
  · exact .refl _

/-- `set_state` does not poison the mutex. -/
theorem setState_poisoned (state : ReplayMap) (replay : Option ReplayMutex) :
    (setState state replay).2.any ReplayMutex.poisoned = replay.any ReplayMutex.poisoned := by
  cases replay with
  | none => rfl
  | some m => cases hpoisoned : m.poisoned <;> simp [setState, hpoisoned]

/-- The locked section does not poison the mutex. -/
theorem checkSequence_poisoned (v : Verifier) (claims : VeriClaims) (doc : AttestationDoc)
    (report : Report) (replay : Option ReplayMutex) :
    (v.checkSequence env claims doc report replay).2.any ReplayMutex.poisoned =
      replay.any ReplayMutex.poisoned := by
  cases replay with
  | none => rfl
  | some m =>
    cases hpoisoned : m.poisoned with
    | true => simp [Verifier.checkSequence, hpoisoned]
    | false =>
      simp only [Verifier.checkSequence, hpoisoned, Bool.false_eq_true, ite_false]
      split
      · rfl
      · rfl

/-- A file other than a record changes, or what is known of one. -/
theorem Spares.elsewhere (temps : TempName → Option Text) (file : Option Text)
    (fileLock : Option CallId) (version : Nat) (base : CallId → Nat) (commits : List Commit) :
    Spares t w { w with temps, file, fileLock, version, base, commits } :=
  SameRecords.spares ⟨rfl, rfl, rfl, rfl, rfl, rfl, rfl⟩ rfl rfl

/-- Waiting for the file lock changes its holder only. -/
theorem spares_acquireReplayLock {r : Except String Unit}
    (h : exec env hz t (.acquireReplayLock : Op Text) r w w') : Spares t w w' := by
  rcases h with ⟨-, -, rfl⟩ | ⟨-, -, rfl⟩
  · exact .elsewhere ..
  · exact .refl _

/-- Reading the state file changes only what is noted of the call's look at it. -/
theorem spares_readState {r : Except String Text}
    (h : exec env hz t .readState r w w') : Spares t w w' := by
  rcases h with ⟨_, -, -, rfl⟩ | ⟨-, -, rfl⟩ | ⟨-, -, rfl⟩
  · exact .elsewhere ..
  · exact .refl _
  · exact .refl _

/-- The locked section of `verify` changes the memory of its process, and never poisons it. -/
theorem spares_checkSequence {v : Verifier} {claims : VeriClaims} {doc : AttestationDoc}
    {report : Report} {r : Except VerifyError VerificationResult}
    (h : exec env hz t (.checkSequence v claims doc report : Op Text) r w w') :
    Spares t w w' := by
  obtain ⟨p, hp, -, rfl⟩ := h
  have hset : Spares t w (w.setProc t.pid
      (some { p with verifier := (v.checkSequence env claims doc report p.verifier).2 })) :=
    .setProc hp le_rfl (checkSequence_poisoned v claims doc report p.verifier)
  exact ⟨⟨rfl, rfl, rfl, rfl, rfl, rfl, rfl⟩, hset.poisoned, hset.procs, hset.slots⟩

/-- Drawing a number advances the counter and gives the call the name with that number. -/
theorem spares_nextTempFile {r : Nat}
    (h : exec env hz t (.nextTempFile : Op Text) r w w') : Spares t w w' := by
  obtain ⟨p, hp, -, rfl⟩ := h
  have hset : Spares t w (w.setProc t.pid (some { p with counter := p.counter + 1 })) :=
    .setProc hp (Nat.le_succ _) rfl
  exact ⟨⟨rfl, rfl, rfl, rfl, rfl, rfl, rfl⟩, hset.poisoned, hset.procs,
    Or.inr ⟨p, _, hp, Function.update_self .., Nat.lt_succ_self _, rfl⟩⟩

/-- Creating a temporary file changes that file at most. -/
theorem spares_createTemporary {name : TempName} {r : Except String Unit}
    (h : exec env hz t (.createTemporary name : Op Text) r w w') : Spares t w w' := by
  rcases h with ⟨-, -, _, rfl⟩ | ⟨-, -, rfl⟩ | ⟨-, -, rfl⟩
  · exact .elsewhere ..
  · exact .refl _
  · exact .refl _

/-- Writing a temporary file changes that file, be it only in part. -/
theorem spares_writeTemporary {name : TempName} {text : Text} {r : Except String Unit}
    (h : exec env hz t (.writeTemporary name text) r w w') : Spares t w w' := by
  obtain ⟨-, ⟨-, rfl⟩ | ⟨-, -, _, rfl⟩⟩ := h
  · exact .elsewhere ..
  · exact .elsewhere ..

/-- The rename replaces the state file at most. -/
theorem spares_renameTemporary {name : TempName} {r : Except String Unit}
    (h : exec env hz t (.renameTemporary name : Op Text) r w w') : Spares t w w' := by
  rcases h with ⟨_, -, -, rfl⟩ | ⟨-, -, rfl⟩ | ⟨-, -, rfl⟩
  · exact .elsewhere ..
  · exact .refl _
  · exact .refl _

/-- Removing a temporary file changes that file at most. -/
theorem spares_removeTemporary {name : TempName} {r : Except String Unit}
    (h : exec env hz t (.removeTemporary name : Op Text) r w w') : Spares t w w' := by
  rcases h with ⟨-, -, rfl⟩ | ⟨-, -, rfl⟩ | ⟨-, -, rfl⟩
  · exact .elsewhere ..
  · exact .refl _
  · exact .refl _

/-- Reading the record of a nonce changes nothing. -/
theorem spares_readRecord {nonce : ByteArr 32} {r : Except String String}
    (h : exec env hz t (.readRecord nonce : Op Text) r w w') : Spares t w w' := by
  rcases h with ⟨-, -, rfl⟩ | ⟨-, -, rfl⟩ | ⟨-, -, rfl⟩
  · exact .refl _
  · exact .refl _
  · exact .refl _

/-- An operation that spares the records does so whatever comes of it. -/
theorem exec_spares {o : Op Text} {r : Res Text o} (ho : SparesRecords o)
    (h : exec env hz t o r w w') : Spares t w w' := by
  cases o with
  | lockReplayGuard =>
    obtain ⟨p, hp, -, rfl⟩ := h
    exact .setProc hp le_rfl rfl
  | dropReplayGuard =>
    obtain rfl := h
    exact .dropGuard w
  | dropReplayLock =>
    obtain rfl := h
    exact .dropLock w
  | pathExists =>
    obtain ⟨-, rfl⟩ := h
    exact .elsewhere ..
  | setState state =>
    obtain ⟨p, hp, -, rfl⟩ := h
    exact .setProc hp le_rfl (setState_poisoned state p.verifier)
  | intoIter members =>
    obtain ⟨-, rfl⟩ := h
    exact .refl _
  | getState =>
    obtain ⟨_, -, -, rfl⟩ := h
    exact .refl _
  | observe =>
    obtain rfl := h
    exact .refl _
  | fillBytes =>
    obtain rfl := h
    exact .refl _
  | acquireReplayLock => exact spares_acquireReplayLock h
  | readState => exact spares_readState h
  | checkSequence v claims doc report => exact spares_checkSequence h
  | nextTempFile => exact spares_nextTempFile h
  | createTemporary name => exact spares_createTemporary h
  | writeTemporary name text => exact spares_writeTemporary h
  | renameTemporary name => exact spares_renameTemporary h
  | removeTemporary name => exact spares_removeTemporary h
  | readRecord nonce => exact spares_readRecord h
  | setTemporaryPermissions name => exact .of_plain h
  | syncTemporary name => exact .of_plain h
  | syncParent => exact .of_plain h
  | createChallengeDir => exact .of_plain h
  | setChallengeDirPermissions => exact .of_plain h
  | setRecordPermissions nonce => exact .of_plain h
  | syncRecord nonce => exact .of_plain h
  | syncChallengeDir => exact .of_plain h
  | unixSeconds => exact ho.elim
  | createRecord nonce expiresAt => exact ho.elim
  | writeRecord nonce c => exact ho.elim
  | removeAvailable nonce => exact ho.elim
  | reserveRecord name => exact ho.elim
  | restoreRecord name => exact ho.elim
  | consumeRecord name => exact ho.elim

section Parts

variable {formats : Formats Text}

/-- Loading the state file spares the records. -/
theorem loadReplayState_spares :
    Handler.All SparesRecords (loadReplayState formats : ServiceM Text String ReplayMap) :=
  .bind (.call trivial) fun _ => .bind (.ensure _) fun _ => .bind (.ensure _) fun _ =>
    .bind (.call trivial) fun _ => .ensure _

/-- Reloading the memory spares the records. -/
theorem reload_spares (state : AppState) :
    Handler.All SparesRecords (reload formats state : ServiceM Text ApiError Unit) := by
  unfold reload
  split
  · refine .bind (.call trivial) fun found => ?_
    split
    · exact .bind (.mapError loadReplayState_spares) fun _ =>
        .bind (.call trivial) fun _ => .ensure _
    · exact .pure _
  · exact .pure _

/-- Taking the memory down spares the records. -/
theorem snapshot_spares (state : AppState) :
    Handler.All SparesRecords (snapshot state : ServiceM Text ApiError (Option ReplayMap)) := by
  unfold snapshot
  split
  · exact .bind (.call trivial) fun _ => .ensure _
  · exact .pure _

/-- Taking the guard spares the records. -/
theorem acquireGuard_spares (state : AppState) :
    Handler.All SparesRecords (acquireGuard state : ServiceM Text ApiError Unit) := by
  unfold acquireGuard
  split
  · exact .call trivial
  · exact .pure _

/-- Taking the file lock spares the records. -/
theorem acquireFileLock_spares (state : AppState) :
    Handler.All SparesRecords (acquireFileLock state : ServiceM Text ApiError Unit) := by
  unfold acquireFileLock
  split
  · exact .bind (.ensure _) fun _ => .bind (.call trivial) fun _ => .ensure _
  · exact .pure _

/-- `Verifier::verify` spares the records. -/
theorem verify_spares (v : Verifier) (receiptBytes : Bytes) (expected : Expected) :
    Handler.All SparesRecords
      (verify env v receiptBytes expected : ServiceM Text VerifyError VerificationResult) := by
  refine .bind (.call trivial) fun found => ?_
  dsimp only
  split
  · exact .throw _
  · exact .pure _
  · exact .bind (.call trivial) fun _ => .ensure _

/-- Filling and renaming the temporary file spares the records. -/
theorem writeState_spares (name : TempName) (text : Text) :
    Handler.All SparesRecords (writeState name text : ServiceM Text String Unit) :=
  .bind (.call trivial) fun _ => .bind (.ensure _) fun _ => .bind (.call trivial) fun _ =>
    .bind (.ensure _) fun _ => .bind (.call trivial) fun _ => .bind (.ensure _) fun _ =>
      .bind (.call trivial) fun _ => .bind (.ensure _) fun _ => .bind (.call trivial) fun _ =>
        .ensure _

/-- Persisting spares the records. -/
theorem persistReplayState_spares (pid : Nat) (path : StatePath) :
    Handler.All SparesRecords
      (persistReplayState formats pid path : ServiceM Text String Unit) := by
  refine .bind (.call trivial) fun _ => .bind (.ensure _) fun _ => .bind (.ensure _) fun _ =>
    .bind (.call trivial) fun _ => .bind (.ensure _) fun _ => .bind (.ensure _) fun _ =>
      .bind (.call trivial) fun counter => .bind (.call trivial) fun _ => .bind (.ensure _) fun _ =>
        .bind (.outcome (writeState_spares _ _)) fun x => ?_
  cases x with
  | ok u => exact .pure _
  | error e => exact .bind (.call trivial) fun _ => .throw _

/-- Persisting spares the records with its rollback as well. -/
theorem persistReplayStateOrRollback_spares (pid : Nat) (path : StatePath) (previous : ReplayMap) :
    Handler.All SparesRecords (persistReplayStateOrRollback formats pid path previous) := by
  refine .bind (.outcome (persistReplayState_spares pid path)) fun x => ?_
  cases x with
  | ok u => exact .pure _
  | error e => exact .bind (.call trivial) fun _ => .bind (.ensure _) fun _ => .throw _

end Parts

end Veriai.Service
