import Veriai.Service.Surroundings

/-!
# Operations with one outcome

Where nothing disturbs the service and the surroundings are given, most
operations can end in one way only, once the part of the world they look at is
known.
-/

namespace Veriai.Service

open Machine

variable {Text : Type} {formats : Formats Text} {env : Primitives} {config : Config}
variable {s : Surroundings} {t : CallId} {w : World Text}
variable {p : Process} {nonce : ByteArr 32} {name : ReservedName}

/-- No file operation fails where nothing disturbs the service. -/
theorem not_fails {α : Type} {r : Except String α} {w' : World Text} :
    ¬ Fails undisturbed r w w' := nofun

/-- A plain operation succeeds where nothing fails. -/
theorem Plain.succeeds {r : Except String Unit} {w' : World Text} (h : Plain undisturbed r w w') :
    r = .ok () ∧ w' = w := h.resolve_right not_fails

/-- A file operation succeeds that finds its file. -/
theorem succeeds_of_found {α : Type} {r r₀ : Except String α} {found : Bool} {w₁ w' : World Text}
    (hfound : found = true)
    (h : found = true ∧ r = r₀ ∧ w' = w₁ ∨ found = false ∧ (∃ e, r = .error e) ∧ w' = w ∨
      Fails undisturbed r w w') : r = r₀ ∧ w' = w₁ := by
  rcases h with ⟨-, houtcome⟩ | ⟨hmissing, -⟩ | hfails
  · exact houtcome
  · cases hmissing.symm.trans hfound
  · exact (not_fails hfails).elim

/-- An operation of a process acts on what the process is. -/
theorem outcome_of_process {α : Type} {r : α} {result : Process → α} {w' : World Text}
    {after : Process → World Text} (hp : w.procs t.pid = some p)
    (h : ∃ q, w.procs t.pid = some q ∧ r = result q ∧ w' = after q) :
    r = result p ∧ w' = after p := by
  obtain ⟨q, hq, houtcome⟩ := h
  obtain rfl := Option.some.inj (hq.symm.trans hp)
  exact houtcome

/-- A free guard is taken. -/
theorem only_lockReplayGuard (hp : w.procs t.pid = some p) (hfree : p.guard = none) :
    (s.service formats env config).Only t .lockReplayGuard w ()
      (w.setProc t.pid (some { p with guard := some t })) := by
  refine ⟨⟨⟨p, hp, hfree, rfl⟩, trivial⟩, ?_⟩
  rintro r w' ⟨⟨q, hq, -, rfl⟩, -⟩
  obtain rfl := Option.some.inj (hq.symm.trans hp)
  exact ⟨rfl, rfl⟩

/-- A free file lock is taken. -/
theorem only_acquireReplayLock (hfree : w.fileLock = none) :
    (s.service formats env config).Only t .acquireReplayLock w (.ok ())
      { w with fileLock := some t } := by
  refine ⟨⟨Or.inl ⟨rfl, hfree, rfl⟩, trivial⟩, ?_⟩
  rintro r w' ⟨⟨rfl, -, rfl⟩ | ⟨hfails, -⟩, -⟩
  · exact ⟨rfl, rfl⟩
  · cases hfails

/-- The file lock is given back. -/
theorem only_dropReplayLock :
    (s.service formats env config).Only t .dropReplayLock w () (w.dropLock t) :=
  ⟨⟨rfl, trivial⟩, fun _ _ he => ⟨rfl, he.1⟩⟩

/-- The guard is given back. -/
theorem only_dropReplayGuard :
    (s.service formats env config).Only t .dropReplayGuard w () (w.dropGuard t) :=
  ⟨⟨rfl, trivial⟩, fun _ _ he => ⟨rfl, he.1⟩⟩

/-- The file is found where there is one, and the look at it is noted. -/
theorem only_pathExists :
    (s.service formats env config).Only t .pathExists w w.file.isSome (w.looked t) :=
  ⟨⟨⟨rfl, rfl⟩, trivial⟩, fun _ _ he => he.1⟩

/-- A file that is there is read. -/
theorem only_readState {text : Text} (hfile : w.file = some text) :
    (s.service formats env config).Only t .readState w (.ok text) (w.looked t) := by
  refine ⟨⟨Or.inl ⟨text, hfile, rfl, rfl⟩, trivial⟩, ?_⟩
  rintro r w' ⟨⟨text', htext', rfl, rfl⟩ | ⟨hnone, -, -⟩ | ⟨hfails, -, -⟩, -⟩
  · obtain rfl := Option.some.inj (htext'.symm.trans hfile)
    exact ⟨rfl, rfl⟩
  · cases hnone.symm.trans hfile
  · cases hfails

/-- The memory of the process is read. -/
theorem only_getState (hp : w.procs t.pid = some p) :
    (s.service formats env config).Only t .getState w (getState p.verifier) w :=
  ⟨⟨⟨p, hp, rfl, rfl⟩, trivial⟩, fun _ _ he => outcome_of_process hp he.1⟩

/-- The memory of the process is written. -/
theorem only_setState (hp : w.procs t.pid = some p) (state : ReplayMap) :
    (s.service formats env config).Only t (.setState state) w (setState state p.verifier).1
      (w.setProc t.pid (some { p with verifier := (setState state p.verifier).2 })) :=
  ⟨⟨⟨p, hp, rfl, rfl⟩, trivial⟩, fun _ _ he => outcome_of_process hp he.1⟩

/-- The provider and the clock are those of the surroundings. -/
theorem only_observe :
    (s.service formats env config).Only t .observe w (s.provider, s.now) w :=
  ⟨⟨rfl, rfl⟩, fun _ _ he => ⟨he.2, he.1⟩⟩

/-- The clock is that of the surroundings, and the reading is noted. -/
theorem only_unixSeconds :
    (s.service formats env config).Only t .unixSeconds w (.ok s.clock)
      { w with clock := Function.update w.clock t (some s.clock) } := by
  refine ⟨⟨Or.inl ⟨s.clock, rfl, rfl⟩, rfl⟩, ?_⟩
  rintro r w' ⟨⟨now, rfl, rfl⟩ | ⟨⟨e, rfl⟩, -⟩, hclock⟩
  · obtain rfl := Except.ok.inj hclock
    exact ⟨rfl, rfl⟩
  · cases hclock

/-- The locked section of `verify` runs on the memory of the process. -/
theorem only_checkSequence (hp : w.procs t.pid = some p) (v : Verifier) (claims : VeriClaims)
    (doc : AttestationDoc) (report : Report) :
    (s.service formats env config).Only t (.checkSequence v claims doc report) w
      (v.checkSequence env claims doc report p.verifier).1
      { w.setProc t.pid (some { p with
          verifier := (v.checkSequence env claims doc report p.verifier).2 }) with
        pending := Function.update w.pending t (acceptedIdentity env claims doc
          (v.checkSequence env claims doc report p.verifier).1 (w.pending t)) } := by
  refine ⟨⟨⟨p, hp, rfl, rfl⟩, trivial⟩, ?_⟩
  intro r w' he
  obtain ⟨rfl, rfl⟩ := outcome_of_process hp he.1
  exact ⟨rfl, rfl⟩

/-- The number of the counter is drawn. -/
theorem only_nextTempFile (hp : w.procs t.pid = some p) :
    (s.service formats env config).Only t .nextTempFile w p.counter
      { w.setProc t.pid (some { p with counter := p.counter + 1 }) with
        slots := Function.update w.slots ⟨t.pid, p.counter⟩ (some t) } :=
  ⟨⟨⟨p, hp, rfl, rfl⟩, trivial⟩, fun _ _ he => outcome_of_process hp he.1⟩

/-- A temporary file that is there takes the text. -/
theorem only_writeTemporary {name : TempName} (htemp : w.temps name ≠ none) (text : Text) :
    (s.service formats env config).Only t (.writeTemporary name text) w (.ok ())
      (w.setTemp name (some text)) := by
  refine ⟨⟨⟨htemp, Or.inl ⟨rfl, rfl⟩⟩, trivial⟩, ?_⟩
  rintro r w' ⟨⟨-, ⟨rfl, rfl⟩ | ⟨hfails, -, -⟩⟩, -⟩
  · exact ⟨rfl, rfl⟩
  · cases hfails

/-- A temporary file that is there becomes the state file. -/
theorem only_renameTemporary {name : TempName} {text : Text} (htemp : w.temps name = some text) :
    (s.service formats env config).Only t (.renameTemporary name) w (.ok ())
      (w.replace t name text) := by
  refine ⟨⟨Or.inl ⟨text, htemp, rfl, rfl⟩, trivial⟩, ?_⟩
  rintro r w' ⟨⟨text', htext', rfl, rfl⟩ | ⟨hnone, -, -⟩ | ⟨hfails, -, -⟩, -⟩
  · obtain rfl := Option.some.inj (htext'.symm.trans htemp)
    exact ⟨rfl, rfl⟩
  · cases hnone.symm.trans htemp
  · cases hfails

/-- An available record is read. -/
theorem only_readRecord (havailable : w.available nonce = true) :
    (s.service formats env config).Only t (.readRecord nonce) w
      (.ok (String.ofList (w.record nonce))) w :=
  ⟨⟨Or.inl ⟨havailable, rfl, rfl⟩, trivial⟩, fun _ _ he => succeeds_of_found havailable he.1⟩

/-- An available record is removed. -/
theorem only_removeAvailable (havailable : w.available nonce = true) :
    (s.service formats env config).Only t (.removeAvailable nonce) w (.ok ())
      { w with available := Function.update w.available nonce false } :=
  ⟨⟨Or.inl ⟨havailable, rfl, rfl⟩, trivial⟩, fun _ _ he => succeeds_of_found havailable he.1⟩

variable (name) in
/-- An available record is reserved, at the clock that was read. -/
theorem only_reserveRecord (havailable : w.available name.nonce = true) :
    (s.service formats env config).Only t (.reserveRecord name) w (.ok ())
      { w with
        available := Function.update w.available name.nonce false
        reserved := Function.update w.reserved name true
        reservations := w.reservations ++ [(t, name.nonce, w.clock t)] } :=
  ⟨⟨Or.inl ⟨havailable, rfl, rfl⟩, trivial⟩, fun _ _ he => succeeds_of_found havailable he.1⟩

/-- A reserved record is made available again. -/
theorem only_restoreRecord (hreserved : w.reserved name = true) :
    (s.service formats env config).Only t (.restoreRecord name) w (.ok ())
      { w with
        available := Function.update w.available name.nonce true
        reserved := Function.update w.reserved name false } :=
  ⟨⟨Or.inl ⟨hreserved, rfl, rfl⟩, trivial⟩, fun _ _ he => succeeds_of_found hreserved he.1⟩

/-- A reserved record is consumed. -/
theorem only_consumeRecord (hreserved : w.reserved name = true) :
    (s.service formats env config).Only t (.consumeRecord name) w (.ok ())
      { w with
        reserved := Function.update w.reserved name false
        consumed := Function.update w.consumed name.nonce (some t) } :=
  ⟨⟨Or.inl ⟨hreserved, rfl, rfl⟩, trivial⟩, fun _ _ he => succeeds_of_found hreserved he.1⟩

/-- The challenge directory is synchronised without an effect. -/
theorem only_syncChallengeDir :
    (s.service formats env config).Only t .syncChallengeDir w (.ok ()) w :=
  ⟨⟨Or.inl ⟨rfl, rfl⟩, trivial⟩, fun _ _ he => Plain.succeeds he.1⟩

/-- Permissions are set without an effect. -/
theorem only_setTemporaryPermissions {name : TempName} :
    (s.service formats env config).Only t (.setTemporaryPermissions name) w (.ok ()) w :=
  ⟨⟨Or.inl ⟨rfl, rfl⟩, trivial⟩, fun _ _ he => Plain.succeeds he.1⟩

/-- The temporary file is synchronised without an effect. -/
theorem only_syncTemporary {name : TempName} :
    (s.service formats env config).Only t (.syncTemporary name) w (.ok ()) w :=
  ⟨⟨Or.inl ⟨rfl, rfl⟩, trivial⟩, fun _ _ he => Plain.succeeds he.1⟩

/-- The directory is synchronised without an effect. -/
theorem only_syncParent : (s.service formats env config).Only t .syncParent w (.ok ()) w :=
  ⟨⟨Or.inl ⟨rfl, rfl⟩, trivial⟩, fun _ _ he => Plain.succeeds he.1⟩
end Veriai.Service
