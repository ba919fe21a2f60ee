import Veriai.Service.Locks

/-!
# The transaction gives back what it takes

A call that has taken the guard and the file lock keeps both through the
transaction of the verify handler, whatever fails in it, and gives them back on
its way out: before an answer, or with the scope of the guards on an early return.
-/

namespace Veriai.Service

open Handler Protocol

section Rules

variable {Text : Type} {formats : Formats Text} {env : Primitives} {hz : Hazards} {config : Config}
variable {t : CallId}

/-- The call holds no lock. -/
def HoldsNone (t : CallId) (w : World Text) : Prop := ¬ HoldsGuard t w ∧ ¬ HoldsLock t w

/-- The call holds the guard only. -/
def HoldsFirst (t : CallId) (w : World Text) : Prop := HoldsGuard t w ∧ ¬ HoldsLock t w

/-- The call holds both locks. -/
def HoldsBoth (t : CallId) (w : World Text) : Prop := HoldsGuard t w ∧ HoldsLock t w

/-- The call holds both locks and has drawn the name. -/
def HasDrawn (t : CallId) (name : TempName) (w : World Text) : Prop :=
  HoldsBoth t w ∧ w.slots name = some t

/-- There is a temporary file under the name drawn. -/
def HasCreated (t : CallId) (name : TempName) (w : World Text) : Prop :=
  HasDrawn t name w ∧ w.temps name ≠ none

section Stable

variable {w w' : World Text}

/-- A call without locks is given none by the others. -/
theorem HoldsNone.rely (h : LocksRely t w w') (hn : HoldsNone t w) : HoldsNone t w' :=
  ⟨mt h.guard.mp hn.1, mt h.lock.mp hn.2⟩

/-- The others leave a call its guard. -/
theorem HoldsFirst.rely (h : LocksRely t w w') (hf : HoldsFirst t w) : HoldsFirst t w' :=
  ⟨h.guard.mpr hf.1, mt h.lock.mp hf.2⟩

/-- The others leave a call its locks. -/
theorem HoldsBoth.rely (h : LocksRely t w w') (hb : HoldsBoth t w) : HoldsBoth t w' :=
  ⟨h.guard.mpr hb.1, h.lock.mpr hb.2⟩

/-- The others leave a drawn name to the call that drew it. -/
theorem HasDrawn.rely {name : TempName} (h : LocksRely t w w') (hd : HasDrawn t name w) :
    HasDrawn t name w' := ⟨hd.1.rely h, (h.temps name hd.2).1⟩

/-- The others leave a temporary file where it is. -/
theorem HasCreated.rely {name : TempName} (h : LocksRely t w w') (hc : HasCreated t name w) :
    HasCreated t name w' := by
  refine ⟨hc.1.rely h, ?_⟩
  rw [(h.temps name hc.1.2).2]
  exact hc.2

end Stable

variable (formats env hz config) in
/-- A part of a handler with no thought of locks keeps what the call holds. -/
theorem spec_unconcerned {ε α : Type} {m : ServiceM Text ε α} {A : World Text → Prop}
    (hm : Handler.All Unconcerned m) (hA : (locksProtocol formats env hz config).Stable t A) :
    (locksProtocol formats env hz config).Spec t A m (fun _ => A) fun _ => A := by
  refine Spec.of_all hm hA ?_ ?_
  · intro o w ho
    cases o with
    | lockReplayGuard => exact (ho.elim (fun h => h.elim) fun h => by cases h)
    | acquireReplayLock => exact (ho.elim (fun h => h.elim) fun h => by cases h)
    | createTemporary name => exact (ho.elim (fun h => h.elim) fun h => by cases h)
    | writeTemporary name text => exact (ho.elim (fun h => h.elim) fun h => by cases h)
    | renameTemporary name => exact (ho.elim (fun h => h.elim) fun h => by cases h)
    | removeTemporary name => exact (ho.elim (fun h => h.elim) fun h => by cases h)
    | _ => trivial
  · exact fun o r w w' ho hw h => (exec_unconcerned ho hw h fun _ => True).rely t trivial

/-- What is neutral for the replay state does not concern the locks. -/
theorem unconcerned_of_neutral {ε α : Type} {m : ServiceM Text ε α} (hm : Handler.All Neutral m) :
    Handler.All Unconcerned m := hm.mono Neutral.unconcerned

/-- Loading the state file does not concern the locks. -/
theorem loadReplayState_unconcerned :
    Handler.All Unconcerned (loadReplayState formats : ServiceM Text String ReplayMap) :=
  .bind (.call trivial) fun _ => .bind (.ensure _) fun _ => .bind (.ensure _) fun _ =>
    .bind (.call (.inl trivial)) fun _ => .ensure _

/-- Reloading the memory does not concern the locks. -/
theorem reload_unconcerned (state : AppState) :
    Handler.All Unconcerned (reload formats state) := by
  unfold reload
  split
  · refine .bind (.call trivial) fun found => ?_
    cases found with
    | false => exact .pure _
    | true =>
      exact .bind (.mapError loadReplayState_unconcerned) fun _ =>
        .bind (.call trivial) fun _ => .ensure _
  · exact .pure _

/-- `Verifier::verify` does not concern the locks. -/
theorem verify_unconcerned (v : Verifier) (receiptBytes : Bytes) (expected : Expected) :
    Handler.All Unconcerned
      (verify env v receiptBytes expected : ServiceM Text VerifyError VerificationResult) := by
  refine .bind (.call (.inl trivial)) fun seen => ?_
  obtain ⟨provider, now⟩ := seen
  dsimp only
  split
  · exact .throw _
  · exact .pure _
  · exact .bind (.call trivial) fun _ => .ensure _

/-- Whether it fails or not, writing the state file takes and returns no lock. -/
theorem writeState_locks {name : TempName} {text : Text} :
    (locksProtocol formats env hz config).Spec t (HasCreated t name) (writeState name text)
      (fun _ => HoldsBoth t) fun _ => HasDrawn t name := by
  have hstable : (locksProtocol formats env hz config).Stable t (HasCreated t name) :=
    fun _ _ _ _ h hc => hc.rely h
  refine Spec.attempt_bind (o := Op.setTemporaryPermissions name)
    (Q := fun _ => HasCreated t name) rfl hstable (fun _ _ _ => trivial) ?_ fun _ => ?_
  · rintro r w w' _ _ hc (⟨rfl, rfl⟩ | ⟨_, ⟨e, rfl⟩, rfl⟩)
    · exact hc
    · exact hc.1
  refine Spec.attempt_bind (o := Op.writeTemporary name text)
    (Q := fun _ => HasCreated t name) rfl hstable (fun _ _ hc => ⟨hc.1.2, hc.2⟩) ?_ fun _ => ?_
  · rintro r w w' _ _ hc ⟨_, ⟨rfl, rfl⟩ | ⟨_, ⟨e, rfl⟩, part, rfl⟩⟩
    · exact ⟨hc.1, by simp [World.setTemp]⟩
    · exact hc.1
  refine Spec.attempt_bind (o := Op.syncTemporary name)
    (Q := fun _ => HasCreated t name) rfl hstable (fun _ _ _ => trivial) ?_ fun _ => ?_
  · rintro r w w' _ _ hc (⟨rfl, rfl⟩ | ⟨_, ⟨e, rfl⟩, rfl⟩)
    · exact hc
    · exact hc.1
  refine Spec.attempt_bind (o := Op.renameTemporary name) (Q := fun _ => HasDrawn t name) rfl
    hstable (fun _ _ hc => hc.1.2) ?_ fun _ => ?_
  · rintro r w w' _ _ hc (⟨text', _, rfl, rfl⟩ | ⟨_, ⟨e, rfl⟩, rfl⟩ | ⟨_, ⟨e, rfl⟩, rfl⟩)
    · exact hc.1
    · exact hc.1
    · exact hc.1
  refine Spec.attempt (o := Op.syncParent) rfl (fun _ _ _ _ h hd => HasDrawn.rely h hd)
    (fun _ _ _ => trivial) ?_
  rintro r w w' _ _ hd (⟨rfl, rfl⟩ | ⟨_, ⟨e, rfl⟩, rfl⟩)
  · exact hd.1
  · exact hd

variable (formats env hz config) in
/-- A part with no thought of locks leaves the call with both. -/
theorem spec_holdsBoth {ε α : Type} {m : ServiceM Text ε α} (hm : Handler.All Unconcerned m) :
    (locksProtocol formats env hz config).Spec t (HoldsBoth t) m (fun _ => HoldsBoth t)
      fun _ => HoldsBoth t :=
  spec_unconcerned formats env hz config hm fun _ _ _ _ h hb => HoldsBoth.rely h hb

/-- Persisting works on the temporary file of the call, under both locks. -/
theorem persistReplayState_locks {path : StatePath} :
    (locksProtocol formats env hz config).Spec t (HoldsBoth t)
      (persistReplayState formats t.pid path) (fun _ => HoldsBoth t) fun _ => HoldsBoth t := by
  have hboth : (locksProtocol formats env hz config).Stable t (HoldsBoth t) :=
    fun _ _ _ _ h hb => hb.rely h
  have hneutral : ∀ {ε α : Type} {m : ServiceM Text ε α}, Handler.All Neutral m →
      (locksProtocol formats env hz config).Spec t (HoldsBoth t) m (fun _ => HoldsBoth t)
        fun _ => HoldsBoth t :=
    fun hm => spec_holdsBoth formats env hz config (unconcerned_of_neutral hm)
  refine Spec.bind (hneutral (.call (.inl trivial))) fun _ => ?_
  refine Spec.bind (hneutral (.ensure _)) fun _ => ?_
  refine Spec.bind (hneutral (.ensure _)) fun _ => ?_
  refine Spec.bind (hneutral (.call (.inl trivial))) fun _ => ?_
  refine Spec.bind (hneutral (.ensure _)) fun text => ?_
  refine Spec.bind (hneutral (.ensure _)) fun _ => ?_
  refine Spec.bind (Q := fun counter => HasDrawn t ⟨t.pid, counter⟩) ?_ fun counter => ?_
  · refine Spec.call hboth (fun _ _ _ => trivial) ?_
    rintro counter w w' hw _ hb h
    change exec env hz t Op.nextTempFile counter w w' at h
    have hdraws : Unconcerned (Op.nextTempFile : Op Text) := Or.inr rfl
    have hkeeps := exec_unconcerned hdraws hw h fun _ => True
    obtain ⟨p, _, rfl, rfl⟩ := h
    exact ⟨hb.rely (hkeeps.rely t trivial), Function.update_self ..⟩
  refine Spec.attempt_bind (o := Op.createTemporary ⟨t.pid, counter⟩)
    (Q := fun _ => HasCreated t ⟨t.pid, counter⟩) rfl (fun _ _ _ _ h hd => HasDrawn.rely h hd)
    (fun _ _ hd => ⟨hd.2, ⟨text⟩⟩) ?_ fun _ => ?_
  · rintro r w w' _ _ hd (⟨rfl, _, text, rfl⟩ | ⟨⟨e, rfl⟩, _, rfl⟩ | ⟨_, ⟨e, rfl⟩, rfl⟩)
    · exact ⟨hd, by simp [World.setTemp]⟩
    · exact hd.1
    · exact hd.1
  refine Spec.bind (Spec.outcome writeState_locks) ?_
  rintro (e | u)
  · refine Spec.bind (Q := fun _ => HoldsBoth t) ?_ fun _ => Spec.throw fun _ _ h => h
    refine Spec.call (fun _ _ _ _ h hd => HasDrawn.rely h hd) (fun _ _ hd => hd.2) ?_
    rintro r w w' _ _ hd (⟨_, _, rfl⟩ | ⟨_, _, rfl⟩ | ⟨_, _, rfl⟩) <;> exact hd.1
  · exact Spec.pure fun _ _ h => h

/-- The rollback is made under both locks as well. -/
theorem persistReplayStateOrRollback_locks {path : StatePath} {previous : ReplayMap} :
    (locksProtocol formats env hz config).Spec t (HoldsBoth t)
      (persistReplayStateOrRollback formats t.pid path previous) (fun _ => HoldsBoth t)
      fun _ => HoldsBoth t := by
  refine Spec.bind (Spec.outcome persistReplayState_locks) ?_
  rintro (e | u)
  · exact Spec.bind (spec_holdsBoth formats env hz config (.call trivial)) fun _ =>
      Spec.bind (spec_holdsBoth formats env hz config (.ensure _)) fun _ =>
        spec_holdsBoth formats env hz config (.throw _)
  · exact Spec.pure fun _ _ h => h

/-- The challenge is given back under both locks as well. -/
theorem persist_locks {state : AppState} {previous : Option ReplayMap}
    {reservation : Option ReservedName} :
    (locksProtocol formats env hz config).Spec t (HoldsBoth t)
      (persist formats state t.pid previous reservation) (fun _ => HoldsBoth t)
      fun _ => HoldsBoth t := by
  unfold persist
  split
  · refine Spec.bind (Spec.outcome persistReplayStateOrRollback_locks) ?_
    rintro (e | u)
    · exact Spec.bind (spec_holdsBoth formats env hz config
        (unconcerned_of_neutral (withReservation_neutral restore_neutral))) fun _ =>
          spec_holdsBoth formats env hz config (.throw _)
    · exact Spec.pure fun _ _ h => h
  · exact spec_holdsBoth formats env hz config (.pure _)

/-- Giving back the file lock. -/
theorem dropReplayLock_locks {ε : Type} {A B : World Text → Prop}
    (hA : (locksProtocol formats env hz config).Stable t A)
    (hB : ∀ w, A w → B (w.dropLock t)) :
    (locksProtocol formats env hz config).Spec (ε := ε) t A (perform .dropReplayLock)
      (fun _ => B) fun _ => HoldsBoth t := by
  refine Spec.call hA (fun _ _ _ => trivial) ?_
  rintro r w w' _ _ ha rfl
  exact hB w ha

/-- Giving back the guard. -/
theorem dropReplayGuard_locks {ε : Type} {A B : World Text → Prop}
    (hA : (locksProtocol formats env hz config).Stable t A)
    (hB : ∀ w, A w → B (w.dropGuard t)) :
    (locksProtocol formats env hz config).Spec (ε := ε) t A (perform .dropReplayGuard)
      (fun _ => B) fun _ => HoldsBoth t := by
  refine Spec.call hA (fun _ _ _ => trivial) ?_
  rintro r w w' _ _ ha rfl
  exact hB w ha

/-- A call that gives the guard back does not hold it. -/
theorem not_holdsGuard_dropGuard (w : World Text) : ¬ HoldsGuard t (w.dropGuard t) := by
  rintro ⟨p, hp, hheld⟩
  unfold World.dropGuard at hp
  split at hp
  · rename_i q hq
    split at hp
    · simp only [World.setProc, Function.update_self, Option.some.injEq] at hp
      rw [← hp] at hheld
      cases hheld
    · rename_i hother
      obtain rfl := Option.some.inj (hq.symm.trans hp)
      exact hother hheld
  · rename_i hnone
    rw [hnone] at hp
    cases hp

/-- Giving the file lock back moves no guard. -/
theorem holdsGuard_dropLock {t' : CallId} {w : World Text} :
    HoldsGuard t' (w.dropLock t) ↔ HoldsGuard t' w := by
  unfold World.dropLock
  split <;> exact Iff.rfl

/-- Under the locks: both are given back before an answer, neither on an early return. -/
theorem verifyLocked_locks {state : AppState} {receiptBytes : Bytes} {expected : Expected} :
    (locksProtocol formats env hz config).Spec t (HoldsBoth t)
      (verifyLocked formats env state t.pid receiptBytes expected) (fun _ => HoldsNone t)
      fun _ => HoldsBoth t := by
  have hkept : ∀ {ε α : Type} {m : ServiceM Text ε α}, Handler.All Unconcerned m →
      (locksProtocol formats env hz config).Spec t (HoldsBoth t) m (fun _ => HoldsBoth t)
        fun _ => HoldsBoth t := fun hm => spec_holdsBoth formats env hz config hm
  refine Spec.bind (hkept (reload_unconcerned state)) fun _ => ?_
  refine Spec.bind (hkept (unconcerned_of_neutral (reserveIssued_neutral ..))) fun reservation => ?_
  refine Spec.bind (hkept (unconcerned_of_neutral (snapshot_neutral _))) fun previous => ?_
  refine Spec.bind (hkept (.mapError (verify_unconcerned ..))) fun result => ?_
  split
  · refine Spec.bind (hkept (unconcerned_of_neutral (withReservation_neutral restore_neutral)))
      fun _ => ?_
    refine Spec.bind (Q := fun _ => HoldsFirst t) ?_ fun _ => ?_
    · refine dropReplayLock_locks (fun _ _ _ _ h hb => HoldsBoth.rely h hb) ?_
      exact fun w hb => ⟨holdsGuard_dropLock.mpr hb.1, not_holdsLock_dropLock w⟩
    refine Spec.bind (Q := fun _ => HoldsNone t) ?_ fun _ => Spec.pure fun _ _ h => h
    refine dropReplayGuard_locks (fun _ _ _ _ h hf => HoldsFirst.rely h hf) ?_
    exact fun w hf => ⟨not_holdsGuard_dropGuard w, mt holdsLock_dropGuard.mp hf.2⟩
  · refine Spec.bind persist_locks fun _ => ?_
    refine Spec.bind (hkept (unconcerned_of_neutral (withReservation_neutral consume_neutral)))
      fun _ => ?_
    refine Spec.bind (Q := fun _ w => ¬ HoldsGuard t w ∧ HoldsLock t w) ?_ fun _ => ?_
    · refine dropReplayGuard_locks (fun _ _ _ _ h hb => HoldsBoth.rely h hb) ?_
      exact fun w hb => ⟨not_holdsGuard_dropGuard w, holdsLock_dropGuard.mpr hb.2⟩
    refine Spec.bind (Q := fun _ => HoldsNone t) ?_ fun _ => Spec.pure fun _ _ h => h
    refine dropReplayLock_locks ?_ ?_
    · exact fun w w' _ _ h hl => ⟨mt h.guard.mp hl.1, h.lock.mpr hl.2⟩
    · exact fun w hl => ⟨mt holdsGuard_dropLock.mp hl.1, not_holdsLock_dropLock w⟩

/-- Leaving the scopes of the guards gives back what an early return still holds. -/
theorem verifyHandler_locks {path : StatePath}
    (hstate : (config.state t.pid).replayStatePath = some path) (payload : VerifyRequest) :
    (locksProtocol formats env hz config).Spec t (HoldsNone t)
      (verifyHandler formats env (config.state t.pid) t.pid payload) (fun _ => HoldsNone t)
      fun _ => HoldsNone t := by
  have hnone : (locksProtocol formats env hz config).Stable t (HoldsNone t) :=
    fun _ _ _ _ h hn => hn.rely h
  have hfirst : (locksProtocol formats env hz config).Stable t (HoldsFirst t) :=
    fun _ _ _ _ h hf => hf.rely h
  refine Spec.bind (spec_unconcerned formats env hz config (.ensure _) hnone) ?_
  rintro ⟨receiptBytes, expected⟩
  refine Spec.bind (Q := fun _ => HoldsFirst t) ?_ fun _ => ?_
  · simp only [acquireGuard, hstate]
    refine Spec.call hnone (fun _ _ hn => hn) ?_
    rintro r w w' _ _ hn ⟨p, hp, _, rfl⟩
    exact ⟨⟨_, Function.update_self .., rfl⟩, hn.2⟩
  refine Spec.leaving (E := fun _ => HoldsFirst t) ?_ (fun _ => hfirst) (fun _ _ _ _ => trivial) ?_
  · refine Spec.bind (Q := fun _ => HoldsBoth t) ?_ fun _ => ?_
    · simp only [acquireFileLock, hstate]
      refine Spec.bind (spec_unconcerned formats env hz config (.ensure _) hfirst) fun _ => ?_
      refine Spec.attempt (o := Op.acquireReplayLock) rfl hfirst (fun _ _ hf => hf.2) ?_
      rintro r w w' _ _ hf (⟨rfl, _, rfl⟩ | ⟨_, ⟨e, rfl⟩, rfl⟩)
      · exact ⟨hf.1, rfl⟩
      · exact hf
    refine Spec.leaving verifyLocked_locks (fun _ _ _ _ _ h hb => HoldsBoth.rely h hb)
      (fun _ _ _ _ => trivial) ?_
    rintro e r w w' _ _ hb rfl
    exact ⟨holdsGuard_dropLock.mpr hb.1, not_holdsLock_dropLock w⟩
  · rintro e r w w' _ _ hf rfl
    exact ⟨not_holdsGuard_dropGuard w, mt holdsLock_dropGuard.mp hf.2⟩

end Rules

end Veriai.Service
