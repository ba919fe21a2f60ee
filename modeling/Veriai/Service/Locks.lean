import Veriai.Service.Runs

/-!
# The locks of the service

A call takes the guard of its process first and the file lock second, takes
neither twice, and writes temporary files under names drawn for it. Every
operation that keeps to these rules leaves the other calls what they hold, and so
do the ends of calls, of processes, and what goes on of a dropped call.
-/

namespace Veriai.Service

open Handler Protocol

section Rules

variable {Text : Type} {formats : Formats Text} {env : Primitives} {hz : Hazards} {config : Config}
variable {t : CallId}

/-- The call holds `replay_write_lock` of its process. -/
def HoldsGuard (t : CallId) (w : World Text) : Prop :=
  ∃ p, w.procs t.pid = some p ∧ p.guard = some t

/-- The call holds the lock on the sibling lock file. -/
def HoldsLock (t : CallId) (w : World Text) : Prop := w.fileLock = some t

/-- When a call may perform an operation: the guard comes before the file lock, nothing is taken
twice, and a temporary file is written under a name drawn for it. -/
def mayTake (t : CallId) : Op Text → World Text → Prop
  | .lockReplayGuard, w => ¬ HoldsGuard t w ∧ ¬ HoldsLock t w
  | .acquireReplayLock, w => ¬ HoldsLock t w
  | .createTemporary name, w => w.slots name = some t ∧ Nonempty Text
  | .writeTemporary name _, w => w.slots name = some t ∧ w.temps name ≠ none
  | .renameTemporary name, w => w.slots name = some t
  | .removeTemporary name, w => w.slots name = some t
  | _, _ => True

/-- What holds between all operations. -/
structure LocksInv (w : World Text) : Prop where
  slots : w.NamesDrawn
  /-- The guard of a process is held by calls of that process. -/
  housed : ∀ pid p t, w.procs pid = some p → p.guard = some t → t.pid = pid

/-- What a call can count on while the others act. -/
structure LocksRely (t : CallId) (w w' : World Text) : Prop where
  guard : HoldsGuard t w' ↔ HoldsGuard t w
  lock : HoldsLock t w' ↔ HoldsLock t w
  temps : ∀ name, w.slots name = some t → w'.slots name = some t ∧ w'.temps name = w.temps name

theorem LocksRely.refl (t : CallId) (w : World Text) : LocksRely t w w :=
  ⟨Iff.rfl, Iff.rfl, fun _ hs => ⟨hs, rfl⟩⟩

/-- What can be counted on over two steps. -/
theorem LocksRely.trans {w w₁ w' : World Text} (h : LocksRely t w w₁) (h' : LocksRely t w₁ w') :
    LocksRely t w w' where
  guard := h'.guard.trans h.guard
  lock := h'.lock.trans h.lock
  temps := by
    intro name hs
    obtain ⟨hs₁, ht₁⟩ := h.temps name hs
    obtain ⟨hs', ht'⟩ := h'.temps name hs₁
    exact ⟨hs', ht'.trans ht₁⟩

/-- The rules of the locks. -/
def locksContract : Contract CallId (World Text) (Op Text) where
  inv := LocksInv
  rely := LocksRely
  permit := mayTake
  later _ _ := True

section Keeps

variable {w w₁ w' : World Text}

/-- Two steps that keep the rules keep them together. -/
theorem locks_keeps_trans {spared : CallId → Prop} (h : locksContract.Keeps spared w w₁)
    (h' : locksContract.Keeps spared w₁ w') : locksContract.Keeps spared w w' :=
  ⟨h'.inv, trivial, fun t ht => (h.rely t ht).trans (h'.rely t ht)⟩

/-- The change leaves the locks and the files under drawn names. -/
structure SameLocks (w w' : World Text) : Prop where
  procs : w'.procs = w.procs
  fileLock : w'.fileLock = w.fileLock
  temps : w'.temps = w.temps
  slots : w'.slots = w.slots

/-- A step that moves no lock keeps the rules. -/
theorem SameLocks.keeps (h : SameLocks w w') (hw : LocksInv w) (spared : CallId → Prop) :
    locksContract.Keeps spared w w' where
  inv :=
    { slots := by
        unfold World.NamesDrawn
        rw [h.slots, h.procs]
        exact hw.slots
      housed := by
        rw [h.procs]
        exact hw.housed }
  later := trivial
  rely t _ :=
    { guard := by simp only [HoldsGuard, h.procs]
      lock := by simp only [HoldsLock, h.fileLock]
      temps := fun name hs => ⟨by rw [h.slots, hs], by rw [h.temps]⟩ }

/-- A quiet step keeps the rules of the locks. -/
theorem Quiet.locks_keeps (h : Quiet w w') (hw : LocksInv w) (spared : CallId → Prop) :
    locksContract.Keeps spared w w' :=
  SameLocks.keeps ⟨h.procs, h.fileLock, h.temps, h.slots⟩ hw spared

/-- So does a look at the state file. -/
theorem locks_keeps_looked (hw : LocksInv w) (spared : CallId → Prop) :
    locksContract.Keeps spared w (w.looked t) := by
  have hsame : SameLocks w (w.looked t) := ⟨rfl, rfl, rfl, rfl⟩
  exact hsame.keeps hw spared

/-- A process changes, but who holds its guard only by the spared calls' leave. -/
theorem locks_keeps_setProc {pid : Nat} {p p' : Process} {spared : CallId → Prop}
    (hw : LocksInv w) (hp : w.procs pid = some p) (hcounter : p.counter ≤ p'.counter)
    (hhoused : ∀ t, p'.guard = some t → t.pid = pid)
    (hguard : ∀ t, spared t → (p'.guard = some t ↔ p.guard = some t)) :
    locksContract.Keeps spared w (w.setProc pid (some p')) where
  inv :=
    { slots := hw.slots.setProc hp hcounter
      housed := by
        intro pid' q t hq hheld
        by_cases hpid : pid' = pid
        · subst hpid
          have hset : (w.setProc pid' (some p')).procs pid' = some p' := Function.update_self ..
          obtain rfl := Option.some.inj (hset.symm.trans hq)
          exact hhoused t hheld
        · exact hw.housed pid' q t ((Function.update_of_ne hpid _ _).symm.trans hq) hheld }
  later := trivial
  rely t ht :=
    { guard := by
        by_cases hpid : t.pid = pid
        · subst hpid
          have hset : (w.setProc t.pid (some p')).procs t.pid = some p' := Function.update_self ..
          simp only [HoldsGuard, hset, hp, Option.some.injEq, exists_eq_left', hguard t ht]
        · have hset : (w.setProc pid (some p')).procs t.pid = w.procs t.pid :=
            Function.update_of_ne hpid _ _
          simp only [HoldsGuard, hset]
      lock := Iff.rfl
      temps := fun _ hs => ⟨hs, rfl⟩ }

/-- The guard is given back by the call that holds it. -/
theorem locks_keeps_dropGuard (hw : LocksInv w) :
    locksContract.Keeps (· ≠ t) w (w.dropGuard t) := by
  unfold World.dropGuard
  split
  · rename_i p hp
    split
    · rename_i hheld
      refine locks_keeps_setProc hw hp le_rfl ?_ ?_
      · intro t' ht'
        cases ht'
      · intro t' ht'
        constructor
        · intro hnone
          cases hnone
        · intro hheld'
          exact (ht' (Option.some.inj (hheld'.symm.trans hheld))).elim
    · exact (Quiet.refl w).locks_keeps hw _
  · exact (Quiet.refl w).locks_keeps hw _

/-- The file lock changes hands between nobody and one call. -/
theorem locks_keeps_fileLock {holder : Option CallId} (hw : LocksInv w)
    (hbefore : ∀ t', w.fileLock = some t' → t' = t) (hafter : ∀ t', holder = some t' → t' = t) :
    locksContract.Keeps (· ≠ t) w { w with fileLock := holder } where
  inv := ⟨hw.slots, hw.housed⟩
  later := trivial
  rely t' ht' :=
    { guard := Iff.rfl
      lock := ⟨fun h => (ht' (hafter t' h)).elim, fun h => (ht' (hbefore t' h)).elim⟩
      temps := fun _ hs => ⟨hs, rfl⟩ }

/-- So does giving the file lock back. -/
theorem locks_keeps_dropLock (hw : LocksInv w) : locksContract.Keeps (· ≠ t) w (w.dropLock t) := by
  unfold World.dropLock
  split
  · rename_i hheld
    refine locks_keeps_fileLock hw ?_ ?_
    · exact fun t' h => Option.some.inj (h.symm.trans hheld)
    · intro t' h
      cases h
  · exact (Quiet.refl w).locks_keeps hw _

/-- A temporary file changes under a name drawn for the call. -/
theorem locks_keeps_setTemp {name : TempName} {text : Option Text} (hw : LocksInv w)
    (hslot : w.slots name = some t) : locksContract.Keeps (· ≠ t) w (w.setTemp name text) where
  inv := ⟨hw.slots, hw.housed⟩
  later := trivial
  rely t' ht' :=
    { guard := Iff.rfl
      lock := Iff.rfl
      temps := by
        intro name' hs
        have hname : name' ≠ name := by
          rintro rfl
          exact ht' (Option.some.inj (hs.symm.trans hslot))
        exact ⟨hs, Function.update_of_ne hname _ _⟩ }

/-- The next number of a process gives a name nobody has drawn. -/
theorem locks_keeps_nextTempFile {p : Process} {spared : CallId → Prop} (hw : LocksInv w)
    (hp : w.procs t.pid = some p) :
    locksContract.Keeps spared w
      { w.setProc t.pid (some { p with counter := p.counter + 1 }) with
        slots := Function.update w.slots ⟨t.pid, p.counter⟩ (some t) } := by
  have hset : locksContract.Keeps spared w
      (w.setProc t.pid (some { p with counter := p.counter + 1 })) :=
    locks_keeps_setProc hw hp (Nat.le_succ _) (fun t' => hw.housed t.pid p t' hp)
      fun _ _ => Iff.rfl
  have hfree := hw.slots.next_free hp
  refine locks_keeps_trans hset ⟨⟨?_, hset.inv.housed⟩, trivial, ?_⟩
  · intro name t' hs
    by_cases he : name = ⟨t.pid, p.counter⟩
    · subst he
      obtain rfl : t = t' := by simpa using hs
      exact ⟨rfl, _, Function.update_self .., Nat.lt_succ_self _⟩
    · exact hset.inv.slots name t' ((Function.update_of_ne he _ _).symm.trans hs)
  · intro t' _
    refine ⟨Iff.rfl, Iff.rfl, ?_⟩
    intro name hs
    have he : name ≠ ⟨t.pid, p.counter⟩ := by
      rintro rfl
      rw [show (w.setProc t.pid _).slots = w.slots from rfl, hfree] at hs
      cases hs
    exact ⟨(Function.update_of_ne he _ _).trans hs, rfl⟩

/-- What a call may do with no thought of locks and temporary files. -/
def Unconcerned : Op Text → Prop
  | .pathExists | .readState | .setState _ | .checkSequence .. => True
  | o => Neutral o

/-- What is neutral for the replay state does not concern the locks. -/
theorem Neutral.unconcerned (o : Op Text) (ho : Neutral o) : Unconcerned o := by
  cases o with
  | pathExists => trivial
  | readState => trivial
  | setState state => trivial
  | checkSequence v claims doc report => trivial
  | _ => exact ho

/-- Such an operation concerns nobody, the call itself included. -/
theorem exec_unconcerned {o : Op Text} {r : Res Text o} (ho : Unconcerned o) (hw : LocksInv w)
    (h : exec env hz t o r w w') (spared : CallId → Prop) : locksContract.Keeps spared w w' := by
  have hset : ∀ {p p' : Process}, w.procs t.pid = some p → p'.counter = p.counter →
      p'.guard = p.guard → locksContract.Keeps spared w (w.setProc t.pid (some p')) := by
    intro p p' hp hcounter hguard
    refine locks_keeps_setProc hw hp hcounter.ge ?_ fun _ _ => by rw [hguard]
    intro t' ht'
    exact hw.housed t.pid p t' hp (hguard.symm.trans ht')
  have hneutral : Neutral o → locksContract.Keeps spared w w' := by
    rintro (hlooks | rfl)
    · exact (exec_quiet hlooks h).locks_keeps hw _
    · obtain ⟨p, hp, _, rfl⟩ := h
      exact locks_keeps_nextTempFile hw hp
  cases o with
  | pathExists =>
    obtain ⟨_, rfl⟩ := h
    exact locks_keeps_looked hw _
  | readState =>
    rcases h with ⟨_, _, _, rfl⟩ | ⟨_, _, rfl⟩ | ⟨_, _, rfl⟩
    · exact locks_keeps_looked hw _
    · exact (Quiet.refl _).locks_keeps hw _
    · exact (Quiet.refl _).locks_keeps hw _
  | setState state =>
    obtain ⟨p, hp, _, rfl⟩ := h
    exact hset hp rfl rfl
  | checkSequence v claims doc report =>
    obtain ⟨p, hp, _, rfl⟩ := h
    have hk := @hset p { p with
      verifier := (v.checkSequence env claims doc report p.verifier).2 } hp rfl rfl
    refine locks_keeps_trans hk (SameLocks.keeps ?_ hk.inv spared)
    exact ⟨rfl, rfl, rfl, rfl⟩
  | _ => exact hneutral ho

/-- Every permitted operation keeps the rules of the locks. -/
theorem locks_exec_keeps {o : Op Text} {r : Res Text o} (hw : LocksInv w) (hp : mayTake t o w)
    (h : exec env hz t o r w w') : locksContract.Keeps (· ≠ t) w w' := by
  have hquiet : locksContract.Keeps (· ≠ t) w w := (Quiet.refl w).locks_keeps hw _
  have hunconcerned : Unconcerned o → locksContract.Keeps (· ≠ t) w w' :=
    fun ho => exec_unconcerned ho hw h _
  cases o with
  | lockReplayGuard =>
    obtain ⟨p, hproc, hfree, rfl⟩ := h
    refine locks_keeps_setProc hw hproc le_rfl ?_ ?_
    · intro t' ht'
      rw [← Option.some.inj ht']
    · intro t' ht'
      rw [hfree]
      constructor
      · intro heq
        exact (ht' (Option.some.inj heq).symm).elim
      · intro hnone
        cases hnone
  | dropReplayGuard =>
    obtain rfl := h
    exact locks_keeps_dropGuard hw
  | acquireReplayLock =>
    rcases h with ⟨_, hfree, rfl⟩ | ⟨_, _, rfl⟩
    · refine locks_keeps_fileLock hw ?_ fun t' h => (Option.some.inj h).symm
      intro t' hl
      rw [hfree] at hl
      cases hl
    · exact hquiet
  | dropReplayLock =>
    obtain rfl := h
    exact locks_keeps_dropLock hw
  | createTemporary name =>
    rcases h with ⟨_, _, _, rfl⟩ | ⟨_, _, rfl⟩ | ⟨_, _, rfl⟩
    · exact locks_keeps_setTemp hw hp.1
    · exact hquiet
    · exact hquiet
  | writeTemporary name text =>
    rcases h with ⟨_, ⟨_, rfl⟩ | ⟨_, _, _, rfl⟩⟩ <;> exact locks_keeps_setTemp hw hp.1
  | renameTemporary name =>
    rcases h with ⟨text, _, _, rfl⟩ | ⟨_, _, rfl⟩ | ⟨_, _, rfl⟩
    · have hk : locksContract.Keeps (· ≠ t) w (w.setTemp name none) := locks_keeps_setTemp hw hp
      refine locks_keeps_trans hk (SameLocks.keeps ?_ hk.inv _)
      exact ⟨rfl, rfl, rfl, rfl⟩
    · exact hquiet
    · exact hquiet
  | removeTemporary name =>
    rcases h with ⟨_, _, rfl⟩ | ⟨_, _, rfl⟩ | ⟨_, _, rfl⟩
    · exact locks_keeps_setTemp hw hp
    · exact hquiet
    · exact hquiet
  | pathExists => exact hunconcerned trivial
  | readState => exact hunconcerned trivial
  | setState state => exact hunconcerned trivial
  | checkSequence v claims doc report => exact hunconcerned trivial
  | nextTempFile => exact hunconcerned (Or.inr rfl)
  | _ => exact hunconcerned (Or.inl trivial)

/-- A crash ends the calls of its process and spares the others. -/
theorem locks_keeps_crash {pid : Nat} (hw : LocksInv w) :
    locksContract.Keeps (fun t => (t.pid == pid) = false) w (w.crash pid) where
  inv :=
    { slots := hw.slots.crash pid
      housed := by
        intro pid' p t hp hheld
        have hpid : pid' ≠ pid := by
          rintro rfl
          simp [World.crash, World.setProc] at hp
        exact hw.housed pid' p t ((Function.update_of_ne hpid _ _).symm.trans hp) hheld }
  later := trivial
  rely t ht := by
    have hpid : t.pid ≠ pid := by simpa using ht
    have hproc : (w.crash pid).procs t.pid = w.procs t.pid := Function.update_of_ne hpid _ _
    refine ⟨by simp only [HoldsGuard, hproc], ?_, ?_⟩
    · simp [HoldsLock, World.crash, hpid]
    · exact fun name hs => ⟨hw.slots.slots_crash hpid hs, rfl⟩

/-- A process starts with its guard free. -/
theorem locks_keeps_boot {pid : Nat} {replay : Option ReplayMutex} (hw : LocksInv w)
    (hfree : w.procs pid = none) (spared : CallId → Prop) :
    locksContract.Keeps spared w (w.setProc pid (some ⟨0, replay, none⟩)) where
  inv :=
    { slots := hw.slots.boot hfree _
      housed := by
        intro pid' p t hp hheld
        by_cases hpid : pid' = pid
        · subst hpid
          have hset : (w.setProc pid' (some ⟨0, replay, none⟩)).procs pid' =
            some ⟨0, replay, none⟩ := Function.update_self ..
          obtain rfl := Option.some.inj (hset.symm.trans hp)
          cases hheld
        · exact hw.housed pid' p t ((Function.update_of_ne hpid _ _).symm.trans hp) hheld }
  later := trivial
  rely t _ := by
    refine ⟨?_, Iff.rfl, fun _ hs => ⟨hs, rfl⟩⟩
    by_cases hpid : t.pid = pid
    · subst hpid
      simp [HoldsGuard, World.setProc, hfree]
    · have hproc : (w.setProc pid (some ⟨0, replay, none⟩)).procs t.pid = w.procs t.pid :=
        Function.update_of_ne hpid _ _
      simp only [HoldsGuard, hproc]

/-- Dropping a call gives back what it holds. -/
theorem locks_keeps_abandon (hw : LocksInv w) :
    locksContract.Keeps (· ≠ t) w ((w.dropLock t).dropGuard t) := by
  have hlock : locksContract.Keeps (· ≠ t) w (w.dropLock t) := locks_keeps_dropLock hw
  exact locks_keeps_trans hlock (locks_keeps_dropGuard hlock.inv)

/-- What giving back leaves: the call does not hold the file lock. -/
theorem not_holdsLock_dropLock (w : World Text) : ¬ HoldsLock t (w.dropLock t) := by
  unfold HoldsLock World.dropLock
  split
  · simp
  · assumption

/-- Who holds the file lock does not depend on who gives back a guard. -/
theorem holdsLock_dropGuard {t' : CallId} {w : World Text} :
    HoldsLock t' (w.dropGuard t) ↔ HoldsLock t' w := by
  unfold HoldsLock World.dropGuard
  split
  · split <;> rfl
  · rfl

/-- An operation on the blocking pool stays permitted while the others act. -/
theorem mayTake_rely {o : Op Text} (hpool : UsesPool o) (h : LocksRely t w w₁)
    (hp : mayTake t o w) : mayTake t o w₁ := by
  cases o with
  | acquireReplayLock => exact mt h.lock.mp hp
  | createTemporary name => exact ⟨(h.temps name hp.1).1, hp.2⟩
  | writeTemporary name text =>
    obtain ⟨hs, ht⟩ := h.temps name hp.1
    exact ⟨hs, by rw [ht]; exact hp.2⟩
  | renameTemporary name => exact (h.temps name hp).1
  | removeTemporary name => exact (h.temps name hp).1
  | setTemporaryPermissions name => trivial
  | syncTemporary name => trivial
  | _ => exact hpool.elim

/-- It stays permitted when its call is dropped. -/
theorem mayTake_released {o : Op Text} (hpool : UsesPool o) (hp : mayTake t o w) :
    mayTake t o ((w.dropLock t).dropGuard t) := by
  obtain ⟨hslots, htemps, -⟩ := w.released t
  cases o with
  | acquireReplayLock => exact fun hl => not_holdsLock_dropLock w (holdsLock_dropGuard.mp hl)
  | createTemporary name => exact ⟨by rw [hslots, hp.1], hp.2⟩
  | writeTemporary name text => exact ⟨by rw [hslots, hp.1], by rw [htemps]; exact hp.2⟩
  | renameTemporary name => exact (congrFun hslots name).trans hp
  | removeTemporary name => exact (congrFun hslots name).trans hp
  | setTemporaryPermissions name => trivial
  | syncTemporary name => trivial
  | _ => exact hpool.elim

end Keeps

variable (formats env hz config) in
/-- The rules of the locks are a protocol of the service. -/
def locksProtocol : Protocol (service formats env hz config) where
  toContract := locksContract
  rely_refl := LocksRely.refl
  rely_trans _ _ _ _ := LocksRely.trans
  later_refl _ := trivial
  later_trans _ _ _ _ _ := trivial
  exec_keeps _ _ _ _ _ hw hp h := locks_exec_keeps hw hp h
  start_keeps := by
    rintro t c w w' hw ⟨_, rfl⟩
    exact (Quiet.refl _).locks_keeps hw _
  abandon_keeps := by
    rintro t o goesOn w w' hw hp ⟨_, _, hpool, rfl⟩
    refine ⟨locks_keeps_abandon hw, ?_⟩
    intro hgoesOn
    refine wp_leftover ?_ fun _ _ => trivial
    exact fun w₁ _ hrely => mayTake_rely (hpool hgoesOn) hrely (mayTake_released (hpool hgoesOn) hp)
  ambient_keeps := by
    rintro ended w w' hw h
    cases h with
    | boot hfree _ => exact locks_keeps_boot hw hfree _
    | crash _ _ => exact locks_keeps_crash hw

end Rules

end Veriai.Service
