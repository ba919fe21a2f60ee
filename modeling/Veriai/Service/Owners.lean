import Veriai.Core.Progress
import Veriai.Service.Cancellation
import Veriai.Service.Holding

/-!
# Who holds the locks of a running service

A call gives back its locks when it answers, returns early, is dropped or
crashes. An attempt to lock the file whose call was dropped may still take the
lock; then nothing is left of it but giving the lock back. So a guard is held by
a call under way, and the file lock by a call under way or by such an attempt.
-/

namespace Veriai.Service

open Handler Protocol

section Rules

variable {Text : Type} {formats : Formats Text} {env : Primitives} {hz : Hazards} {config : Config}
variable {t : CallId}

/-- What a call holds: one lock or the other. -/
def HoldsSome (t : CallId) (w : World Text) : Prop := HoldsGuard t w ∨ HoldsLock t w

theorem not_holdsSome {w : World Text} : ¬ HoldsSome t w ↔ HoldsNone t w := not_or

section Lent

variable {w w' : World Text} {t' : CallId}

theorem holdsGuard_of_setProc {pid : Nat} {p' : Process}
    (h : p'.guard = some t' → ∃ p, w.procs pid = some p ∧ p.guard = some t')
    (hheld : HoldsGuard t' (w.setProc pid (some p'))) : HoldsGuard t' w := by
  obtain ⟨q, hq, hguard⟩ := hheld
  by_cases hpid : t'.pid = pid
  · subst hpid
    have hset : (w.setProc t'.pid (some p')).procs t'.pid = some p' := Function.update_self ..
    obtain rfl := Option.some.inj (hset.symm.trans hq)
    exact h hguard
  · exact ⟨q, (Function.update_of_ne hpid _ _).symm.trans hq, hguard⟩

theorem holdsGuard_of_dropGuard (hheld : HoldsGuard t' (w.dropGuard t)) : HoldsGuard t' w := by
  unfold World.dropGuard at hheld
  split at hheld
  · split at hheld
    · refine holdsGuard_of_setProc ?_ hheld
      intro hnone
      cases hnone
    · exact hheld
  · exact hheld

theorem holdsLock_of_dropLock (hheld : HoldsLock t' (w.dropLock t)) : HoldsLock t' w := by
  unfold HoldsLock World.dropLock at hheld
  split at hheld
  · cases hheld
  · exact hheld

/-- The operations of `tokio::fs` take no lock. -/
theorem exec_pool {o : Op Text} {r : Res Text o} (ho : OfTokioFs o) (h : exec env hz t o r w w') :
    w'.procs = w.procs ∧ w'.fileLock = w.fileLock := by
  cases o with
  | createTemporary name =>
    rcases h with ⟨_, _, _, rfl⟩ | ⟨_, _, rfl⟩ | ⟨_, _, rfl⟩ <;> exact ⟨rfl, rfl⟩
  | setTemporaryPermissions name => exact ⟨(Plain.quiet h).procs, (Plain.quiet h).fileLock⟩
  | writeTemporary name text =>
    rcases h with ⟨_, ⟨_, rfl⟩ | ⟨_, _, _, rfl⟩⟩ <;> exact ⟨rfl, rfl⟩
  | syncTemporary name => exact ⟨(Plain.quiet h).procs, (Plain.quiet h).fileLock⟩
  | renameTemporary name =>
    rcases h with ⟨_, _, _, rfl⟩ | ⟨_, _, rfl⟩ | ⟨_, _, rfl⟩ <;> exact ⟨rfl, rfl⟩
  | removeTemporary name =>
    rcases h with ⟨_, _, rfl⟩ | ⟨_, _, rfl⟩ | ⟨_, _, rfl⟩ <;> exact ⟨rfl, rfl⟩
  | _ => exact ho.elim

/-- An operation gives no lock to anybody but the call that performs it. -/
theorem exec_holds {o : Op Text} {r : Res Text o} (h : exec env hz t o r w w') (ht : t' ≠ t)
    (hheld : HoldsSome t' w') : HoldsSome t' w := by
  have hsame : w'.procs = w.procs ∧ w'.fileLock = w.fileLock → HoldsSome t' w := by
    rintro ⟨hprocs, hlock⟩
    unfold HoldsSome HoldsGuard HoldsLock at hheld ⊢
    rwa [hprocs, hlock] at hheld
  have hquiet : OnlyLooks o → HoldsSome t' w :=
    fun ho => hsame ⟨(exec_quiet ho h).procs, (exec_quiet ho h).fileLock⟩
  have hpool : OfTokioFs o → HoldsSome t' w := fun ho => hsame (exec_pool ho h)
  cases o with
  | lockReplayGuard =>
    obtain ⟨p, hp, _, rfl⟩ := h
    refine hheld.imp (holdsGuard_of_setProc ?_) id
    intro hguard
    exact (ht (Option.some.inj hguard).symm).elim
  | dropReplayGuard =>
    obtain rfl := h
    exact hheld.imp holdsGuard_of_dropGuard holdsLock_dropGuard.mp
  | acquireReplayLock =>
    rcases h with ⟨_, _, rfl⟩ | ⟨_, _, rfl⟩
    · exact hheld.imp id fun hl => (ht (Option.some.inj hl).symm).elim
    · exact hheld
  | dropReplayLock =>
    obtain rfl := h
    exact hheld.imp holdsGuard_dropLock.mp holdsLock_of_dropLock
  | pathExists =>
    obtain ⟨_, rfl⟩ := h
    exact hheld
  | readState =>
    rcases h with ⟨_, _, _, rfl⟩ | ⟨_, _, rfl⟩ | ⟨_, _, rfl⟩ <;> exact hheld
  | setState state =>
    obtain ⟨p, hp, _, rfl⟩ := h
    refine hheld.imp (holdsGuard_of_setProc ?_) id
    exact fun hguard => ⟨p, hp, hguard⟩
  | checkSequence v claims doc report =>
    obtain ⟨p, hp, _, rfl⟩ := h
    refine hheld.imp (holdsGuard_of_setProc ?_) id
    exact fun hguard => ⟨p, hp, hguard⟩
  | nextTempFile =>
    obtain ⟨p, hp, _, rfl⟩ := h
    refine hheld.imp (holdsGuard_of_setProc ?_) id
    exact fun hguard => ⟨p, hp, hguard⟩
  | createTemporary name => exact hpool trivial
  | writeTemporary name text => exact hpool trivial
  | renameTemporary name => exact hpool trivial
  | removeTemporary name => exact hpool trivial
  | _ => exact hquiet trivial

end Lent

variable (formats env hz config) in
/-- The locks are lent: only operations of a call take them for it, and its end gives them back. -/
theorem locksLent : (service formats env hz config).Lends HoldsSome where
  exec t o r w w' h t' ht := exec_holds h ht
  start := by
    rintro t c w w' ⟨_, rfl⟩ t' hheld
    exact hheld
  abandon := by
    rintro t o goesOn w w' ⟨_, _, _, rfl⟩ t' hheld
    refine ⟨?_, ?_⟩
    · refine hheld.imp (fun hg => ?_) fun hl => ?_
      · exact holdsGuard_dropLock.mp (holdsGuard_of_dropGuard hg)
      · exact holdsLock_of_dropLock (holdsLock_dropGuard.mp hl)
    · rintro rfl
      rcases hheld with hg | hl
      · exact not_holdsGuard_dropGuard _ hg
      · exact not_holdsLock_dropLock w (holdsLock_dropGuard.mp hl)
  ambient := by
    rintro ended w w' h t hheld
    cases h with
    | @boot w pid replay hfree _ =>
      refine ⟨hheld.imp (holdsGuard_of_setProc ?_) id, rfl⟩
      intro hnone
      cases hnone
    | @crash w pid _ _ =>
      rcases hheld with ⟨p, hp, hguard⟩ | hl
      · have hpid : t.pid ≠ pid := by
          rintro rfl
          simp [World.crash, World.setProc] at hp
        exact ⟨.inl ⟨p, (Function.update_of_ne hpid _ _).symm.trans hp, hguard⟩,
          by simpa using hpid⟩
      · obtain ⟨hl, hpid⟩ := Option.filter_eq_some_iff.mp hl
        exact ⟨.inr hl, by simpa using hpid⟩

/-- Where a dropped call stands that goes on: it holds no guard, and the file lock only when giving
that back is all that is left to do. -/
inductive LeftOf (t : CallId) (w : World Text) : Prog (Res Text) Unit → Prop
  | file {o : Op Text} : OfTokioFs o → mayTake t o w → HoldsNone t w →
      LeftOf t w (.op o fun _ => .ret ())
  | attempt : HoldsNone t w → LeftOf t w (leftover .acquireReplayLock)
  | giveBack : ¬ HoldsGuard t w → LeftOf t w (.op .dropReplayLock fun _ => .ret ())
  | ended : HoldsNone t w → LeftOf t w (.ret ())

/-- A call that is dropped goes on from where it stood. -/
theorem LeftOf.of_dropped {w : World Text} {o : Op Text} (hpool : UsesPool o)
    (hp : mayTake t o w) : LeftOf t ((w.dropLock t).dropGuard t) (leftover o) := by
  have hmay := mayTake_released hpool hp
  have hnone : HoldsNone t ((w.dropLock t).dropGuard t) :=
    ⟨not_holdsGuard_dropGuard _, mt holdsLock_dropGuard.mp (not_holdsLock_dropLock w)⟩
  cases o with
  | acquireReplayLock => exact .attempt hnone
  | createTemporary name => exact .file trivial hmay hnone
  | setTemporaryPermissions name => exact .file trivial hmay hnone
  | writeTemporary name text => exact .file trivial hmay hnone
  | syncTemporary name => exact .file trivial hmay hnone
  | renameTemporary name => exact .file trivial hmay hnone
  | removeTemporary name => exact .file trivial hmay hnone
  | _ => exact hpool.elim

/-- The others do not move it. -/
theorem LeftOf.rely {w w' : World Text} {p : Prog (Res Text) Unit} (h : LocksRely t w w')
    (hp : LeftOf t w p) : LeftOf t w' p := by
  cases hp with
  | @file o hfile hmay hnone =>
    have hpool : UsesPool o := by cases o <;> trivial
    exact .file hfile (mayTake_rely hpool h hmay) (hnone.rely h)
  | attempt hnone => exact .attempt (hnone.rely h)
  | giveBack hguard => exact .giveBack (mt h.guard.mp hguard)
  | ended hnone => exact .ended (hnone.rely h)

/-- What goes on may perform its next operation. -/
theorem LeftOf.permit {w : World Text} {o : Op Text} {k : Res Text o → Prog (Res Text) Unit}
    (hp : LeftOf t w (.op o k)) : mayTake t o w := by
  cases hp with
  | file _ hmay _ => exact hmay
  | attempt hnone => exact hnone.2
  | giveBack _ => trivial

/-- The next operation takes it on: a lock that was taken is given back next. -/
theorem LeftOf.goesOn {w w' : World Text} {o : Op Text} {k : Res Text o → Prog (Res Text) Unit}
    {r : Res Text o} (hp : LeftOf t w (.op o k)) (h : exec env hz t o r w w') :
    LeftOf t w' (k r) := by
  cases hp with
  | file hfile _ hnone =>
    obtain ⟨hprocs, hlock⟩ := exec_pool hfile h
    refine .ended ?_
    unfold HoldsNone HoldsGuard HoldsLock at hnone ⊢
    rwa [hprocs, hlock]
  | attempt hnone =>
    rcases h with ⟨rfl, -, rfl⟩ | ⟨-, ⟨e, rfl⟩, rfl⟩
    · exact .giveBack hnone.1
    · exact .ended hnone
  | giveBack hguard =>
    obtain rfl := h
    exact .ended ⟨mt holdsGuard_dropLock.mp hguard, not_holdsLock_dropLock w⟩

variable (formats env hz config) in
/-- What goes on of dropped calls keeps to the rules of the locks and ends with none. -/
theorem locksLeaving :
    (locksProtocol formats env hz config).Leaving (fun t p w => LeftOf t w p) HoldsSome where
  rely t p w w' _ _ hrely hp := hp.rely hrely
  begins := by
    rintro t o w w' _ hmay ⟨_, _, hpool, rfl⟩ _
    exact .of_dropped (hpool rfl) hmay
  permit t o k w _ hp := hp.permit
  goesOn t o k r w w' _ hp h _ := hp.goesOn h
  ends := by
    rintro t a w _ ⟨⟩
    next hnone => exact not_holdsSome.mpr hnone

/-- Every call keeps to the rules of the locks and answers with none. -/
theorem locksAbiding {path : StatePath}
    (hpath : ∀ pid, (config.state pid).replayStatePath = some path) :
    (locksProtocol formats env hz config).Abiding (fun t _ _ => HoldsNone t)
      (fun t p w => LeftOf t w p) HoldsSome where
  toLeaving := locksLeaving formats env hz config
  lends := locksLent formats env hz config
  post_rely t c a := fun _ _ _ _ h hn => HoldsNone.rely h hn
  programs := by
    rintro t c w w' _ _ hw' hnone
    have hfree := not_holdsSome.mp hnone
    cases c with
    | verify payload =>
      refine Triple.bind (verifyHandler_locks (hpath t.pid) payload) ?_ w' hw' hfree
      exact fun x => Triple.ret fun _ _ h => by cases x <;> exact h
    | challenge =>
      have hspec := spec_unconcerned formats env hz config (t := t) (A := HoldsNone t)
        (unconcerned_of_neutral (challengeHandler_neutral (config.state t.pid)))
        fun _ _ _ _ h hn => hn.rely h
      refine Triple.bind hspec ?_ w' hw' hfree
      exact fun x => Triple.ret fun _ _ h => by cases x <;> exact h
  answers t c a w _ hn := not_holdsSome.mpr hn

/-- At rest the rules of the locks hold. -/
theorem World.AtRest.locksInv {w : World Text} (h : w.AtRest) : LocksInv w where
  slots := by
    intro name t hs
    rw [h.slots name] at hs
    cases hs
  housed := by
    intro pid p t hp
    rw [h.procs pid] at hp
    cases hp

/-- At rest nobody holds a lock. -/
theorem World.AtRest.holdsNone {w : World Text} (h : w.AtRest) (t : CallId) : ¬ HoldsSome t w := by
  rintro (⟨p, hp, _⟩ | hl)
  · rw [h.procs t.pid] at hp
    cases hp
  · rw [HoldsLock, h.fileLock] at hl
    cases hl

section Runs

variable {s : MachineState CallId Request Response (World Text) (Res Text)}

/-- The call is under way. -/
def UnderWay (s : MachineState CallId Request Response (World Text) (Res Text)) (t : CallId) :
    Prop := ∃ c rest, s.threads t = some (.running c rest)

/-- The call is about to perform the operation. -/
def AboutTo (s : MachineState CallId Request Response (World Text) (Res Text)) (t : CallId)
    (o : Op Text) : Prop := ∃ c k, s.threads t = some (.running c (.op o k))

/-- An attempt to lock the file whose call was dropped has taken the lock, and gives it back. -/
def GivesBack (s : MachineState CallId Request Response (World Text) (Res Text)) (t : CallId) :
    Prop := s.threads t = some (.detached (.op .dropReplayLock fun _ => .ret ()))

/-- Locks are held by calls under way, and taken in their order; only the attempt of a dropped
call to lock the file may hold that lock as well, to give it back next. -/
structure LocksOwned (s : MachineState CallId Request Response (World Text) (Res Text)) :
    Prop where
  guard : ∀ pid p t, s.world.procs pid = some p → p.guard = some t → t.pid = pid ∧ UnderWay s t
  fileLock : ∀ t, s.world.fileLock = some t → UnderWay s t ∨ GivesBack s t
  /-- Who waits for a guard holds nothing. -/
  guardFirst : ∀ t, AboutTo s t .lockReplayGuard → HoldsNone t s.world
  /-- Who waits for the file lock does not hold it. -/
  lockOnce : ∀ t, AboutTo s t .acquireReplayLock → ¬ HoldsLock t s.world

/-- Calls under way and what goes on of dropped ones, by the rules of the locks. -/
abbrev LocksUnderway (formats : Formats Text) (env : Primitives) (hz : Hazards) (config : Config)
    (s : MachineState CallId Request Response (World Text) (Res Text)) : Prop :=
  (locksProtocol formats env hz config).Underway (fun t _ _ => HoldsNone t)
    (fun t p w => LeftOf t w p) HoldsSome s

/-- In every reachable state the calls under way keep to the rules of the locks. -/
theorem locks_underway {path : StatePath}
    (hpath : ∀ pid, (config.state pid).replayStatePath = some path) {w : World Text}
    (hw : w.AtRest) (h : (service formats env hz config).Reachable w s) :
    LocksUnderway formats env hz config s :=
  (locksAbiding hpath).reachable hw.locksInv hw.holdsNone h

/-- The guard is held by calls under way only. -/
theorem underWay_of_holdsGuard (h : LocksUnderway formats env hz config s)
    (hheld : HoldsGuard t s.world) : UnderWay s t := by
  obtain ⟨th, ht⟩ := Option.ne_none_iff_exists'.mp (h.owned t (.inl hheld))
  cases th with
  | running c p => exact ⟨c, p, ht⟩
  | detached p =>
    have hleft : LeftOf t s.world p := (h.threads t _ ht).1
    cases hleft with
    | file _ _ hnone => exact (hnone.1 hheld).elim
    | attempt hnone => exact (hnone.1 hheld).elim
    | giveBack hguard => exact (hguard hheld).elim
    | ended hnone => exact (hnone.1 hheld).elim

/-- The file lock is held by calls under way and by attempts about to give it back. -/
theorem underWay_or_givesBack (h : LocksUnderway formats env hz config s)
    (hheld : HoldsLock t s.world) : UnderWay s t ∨ GivesBack s t := by
  obtain ⟨th, ht⟩ := Option.ne_none_iff_exists'.mp (h.owned t (.inr hheld))
  cases th with
  | running c p => exact .inl ⟨c, p, ht⟩
  | detached p =>
    have hleft : LeftOf t s.world p := (h.threads t _ ht).1
    cases hleft with
    | file _ _ hnone => exact (hnone.2 hheld).elim
    | attempt hnone => exact (hnone.2 hheld).elim
    | giveBack _ => exact .inr ht
    | ended hnone => exact (hnone.2 hheld).elim

/-- In every run, whatever fails, crashes or is dropped, a guard is held by a call under way, and
the file lock by one or by the attempt of a dropped call that gives it back next; nobody waits for
a lock out of order. -/
theorem service_locksOwned {path : StatePath}
    (hpath : ∀ pid, (config.state pid).replayStatePath = some path) {w : World Text}
    (hw : w.AtRest) (h : (service formats env hz config).Reachable w s) : LocksOwned s := by
  have hunderway := locks_underway hpath hw h
  refine ⟨?_, ?_, ?_, ?_⟩
  · intro pid p t hp hheld
    obtain rfl := hunderway.inv.housed pid p t hp hheld
    exact ⟨rfl, underWay_of_holdsGuard hunderway ⟨p, hp, hheld⟩⟩
  · exact fun t hl => underWay_or_givesBack hunderway hl
  · rintro t ⟨c, k, ht⟩
    exact hunderway.permit ht
  · rintro t ⟨c, k, ht⟩
    exact hunderway.permit ht

end Runs

end Rules

namespace Transparent

open Veriai.Transparent Machine

/-- Everything may go wrong. -/
def hostile : Hazards := ⟨true, true, true⟩

/-- The call has taken the guard of process 0 and stands before the file lock. -/
def atLock (w : World MemberOrder) (t : CallId) : World MemberOrder :=
  w.setProc 0 (some { process with guard := some t })

/-- The first call has been dropped there. -/
def droppedAtLock : World MemberOrder :=
  ((atLock booted ⟨0, 0⟩).dropLock ⟨0, 0⟩).dropGuard ⟨0, 0⟩

/-- A first call is dropped where it waits for the file lock, and a second one waits there with the
guard: the attempt of the first one takes the lock, and has it to give back. -/
theorem service_locksOwned_attempt :
    ∃ s, (service formats primitives hostile config).Reachable (World.initial none) s ∧
      HoldsLock ⟨0, 0⟩ s.world ∧ GivesBack s ⟨0, 0⟩ ∧ HoldsGuard ⟨0, 1⟩ s.world ∧
      AboutTo s ⟨0, 1⟩ .acquireReplayLock ∧ LocksOwned s := by
  have hany : ∀ w w' : World MemberOrder, w'.commits = w.commits → True := fun _ _ _ => trivial
  obtain ⟨k, hfirst⟩ := reaches_lock hostile hany (presentable 0 1) (w := booted) (t := ⟨0, 0⟩)
    (p := process) rfl rfl
  obtain ⟨k', hsecond⟩ := reaches_lock hostile hany (presentable 0 2) (w := droppedAtLock)
    (t := ⟨0, 1⟩) (p := process) rfl rfl
  have hstart (w : World MemberOrder) (t : CallId) (seq : UInt8) (hp : w.procs t.pid ≠ none) :
      ((service formats primitives hostile config).under fun _ _ => True).start t
        (.verify (payload seq)) w w := ⟨⟨hp, rfl⟩, trivial⟩
  have harrives := hfirst.arrives (hstart booted ⟨0, 0⟩ 1 (Option.some_ne_none _)) (fun _ => none)
    List.not_mem_nil []
  have habandon : ((service formats primitives hostile config).under fun _ _ => True).abandon
      ⟨0, 0⟩ .acquireReplayLock true (atLock booted ⟨0, 0⟩) droppedAtLock :=
    ⟨⟨rfl, trivial, fun _ => trivial, rfl⟩, trivial⟩
  have hdropped := harrives.tail (Step.abandoned habandon (fun _ => none) [⟨0, 0⟩] [])
  have hwaits := hdropped.trans (hsecond.arrives
    (hstart droppedAtLock ⟨0, 1⟩ 2 (Option.some_ne_none _))
    (Function.update (fun _ => none) ⟨0, 0⟩ (some (.detached (leftover .acquireReplayLock))))
    (by decide) [])
  have hland : (service formats primitives hostile config).exec ⟨0, 0⟩ .acquireReplayLock (.ok ())
      (atLock droppedAtLock ⟨0, 1⟩) { atLock droppedAtLock ⟨0, 1⟩ with fileLock := some ⟨0, 0⟩ } :=
    .inl ⟨rfl, rfl, rfl⟩
  have hreach := (Steps.of_under (hwaits.head (boots hostile trivial))).tail
    (Step.land (t := ⟨0, 0⟩) rfl hland)
  exact ⟨_, hreach, rfl, rfl, ⟨_, rfl, rfl⟩, ⟨_, _, rfl⟩,
    service_locksOwned (fun _ => rfl) (World.atRest_initial none) hreach⟩

end Transparent

end Veriai.Service
