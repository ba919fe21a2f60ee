import Veriai.Service.Runs
import Veriai.Service.Transparent

/-!
# The state file when calls are dropped

A dropped call releases its locks while its rename may still be about to take
effect. The state file moves forward in every run in which each replacement is
timely: nobody replaced the file since the replacing call looked at it. A late
rename can be overtaken, and then it takes the file back.
-/

namespace Veriai.Service

open Machine Protocol

section Runs

variable {Text : Type} {formats : Formats Text} {env : Primitives} {hz : Hazards} {config : Config}

/-- In every run of timely replacements the state file moves forward, whatever fails, crashes or
is dropped, if the file that was there first gives each fingerprint one number. -/
theorem file_forward_of_timely (hlawful : formats.Lawful) {path : StatePath}
    (hpath : ∀ pid, (config.state pid).replayStatePath = some path) {w : World Text}
    (hw : w.AtRest) (hone : OneNumber formats w.file)
    {s s' : MachineState CallId Request Response (World Text) (Res Text)}
    (h : ((service formats env hz config).under Timely).Reachable w s)
    (h' : ((service formats env hz config).under Timely).Steps s s') :
    Forward formats s.world.file s'.world.file := by
  have hdisciplined : ∀ w w' : World Text, Timely w w' → Disciplined hz w w' :=
    fun _ _ ht _ => ht
  have hkeeping : (replayProtocol formats env hz config).Keeping (Promised formats env config) :=
    replayKeeping hlawful hpath
  obtain ⟨hsafe, hlater⟩ :=
    (Safe.initial hw.replayInv).steps hkeeping (Steps.weaken hdisciplined h)
  obtain ⟨-, hlater'⟩ := hsafe.steps hkeeping (Steps.weaken hdisciplined h')
  obtain ⟨hone', -⟩ := hlater.file hone
  exact (hlater'.file hone').2

end Runs

namespace Transparent

open Veriai.Transparent

/-- Calls may be dropped; nothing else goes wrong. -/
def dropping : Hazards := ⟨false, false, true⟩

/-- What a state of these runs consists of. -/
abbrev State := MachineState CallId Request Response (World MemberOrder) (Res MemberOrder)

/-- A second call is dropped at its rename, which lands before anybody else's: the file moves from
number 1 to number 2. -/
theorem file_forward_of_timely_landed : ∃ s s' : State,
    ((service formats primitives dropping config).under Timely).Reachable (World.initial none) s ∧
      ((service formats primitives dropping config).under Timely).Steps s s' ∧
      s.threads ⟨1, 0⟩ = some (.detached (leftover (.renameTemporary ⟨1, 0⟩))) ∧
      Records formats s.world.file (fill 32 0) 1 ∧ Records formats s'.world.file (fill 32 0) 2 ∧
      Forward formats s.world.file s'.world.file := by
  obtain ⟨text, htext⟩ := exists_order (encodeMembers ledgerOne)
  obtain ⟨text', htext'⟩ := exists_order (encodeMembers ledgerTwo)
  have hcond : ∀ w w' : World MemberOrder, w'.commits = w.commits → Timely w w' :=
    fun _ _ => timely_of_commits
  obtain ⟨result, -, hfirst⟩ := steps_first dropping hcond (fun _ _ _ _ => timely_replace) htext
    fun _ => none
  have hjoined := steps_joined dropping hcond htext (Function.update (fun _ => none) ⟨0, 0⟩ none)
    [⟨0, 0⟩] [(⟨0, 0⟩, .verify (payload 1), .verified (.ok result))]
  have hdropped := steps_dropped dropping hcond rfl (presentable 1 2) (idle_joined_one htext 0)
    fresh_second htext' rfl (Function.update (fun _ => none) ⟨0, 0⟩ none) [⟨0, 0⟩] (by decide)
    [(⟨0, 0⟩, .verify (payload 1), .verified (.ok result))]
  have hreach := ((hfirst.head (boots dropping (hcond _ _ rfl))).tail hjoined).trans hdropped
  have hland : ((service formats primitives dropping config).under Timely).exec ⟨1, 0⟩
      (.renameTemporary ⟨1, 0⟩) (.ok ())
      ((joined text).droppedAt ⟨1, 0⟩ processOne (.new ledgerOne) (fill 32 0) 2 text')
      (((joined text).droppedAt ⟨1, 0⟩ processOne (.new ledgerOne) (fill 32 0) 2 text').replace
        ⟨1, 0⟩ ⟨1, 0⟩ text') :=
    ⟨Or.inl ⟨text', rfl, rfl, rfl⟩, timely_replace rfl⟩
  have hlanded := Step.landed hland (k := fun _ => .ret ())
    (Function.update (fun _ => none) ⟨0, 0⟩ none) [⟨0, 0⟩, ⟨1, 0⟩]
    [(⟨0, 0⟩, .verify (payload 1), .verified (.ok result))]
  have hsteps := Relation.ReflTransGen.single hlanded
  have hone : Saved formats (some text) ledgerOne := congrArg Except.ok htext
  have htwo : Saved formats (some text') ledgerTwo := congrArg Except.ok htext'
  exact ⟨_, _, hreach, hsteps, rfl, hone.contents.records.mpr (Finmap.lookup_insert _),
    htwo.contents.records.mpr (Finmap.lookup_insert _),
    file_forward_of_timely lawful (fun _ => rfl) (World.atRest_initial none) oneNumber_none hreach
      hsteps⟩

/-- The memory after number 1 was accepted. -/
def afterFirst : ReplayMutex := .new ledgerOne

/-- The process that has drawn one number. -/
def drawnOnce : Process := ⟨1, some afterFirst, none⟩

/-- The first call has been dropped at its rename. -/
def dropped (text : MemberOrder) : World MemberOrder :=
  booted.droppedAt ⟨0, 0⟩ process (.new ∅) (fill 32 0) 1 text

/-- The second call has replaced the state file in the meantime and released its locks. -/
def overtaken (text text' : MemberOrder) : World MemberOrder :=
  (dropped text).answered ⟨0, 1⟩ drawnOnce afterFirst (fill 32 0) 2 text'

/-- The process serves its next call, though the file of the first one is not there yet. -/
theorem idle_dropped (text : MemberOrder) :
    Idle formats ⟨0, 1⟩ drawnOnce afterFirst (dropped text) where
  proc := rfl
  guard := rfl
  verifier := rfl
  healthy := rfl
  fileLock := rfl
  file := Or.inl rfl
  temps := by
    intro counter (hle : 1 ≤ counter)
    have hne : (⟨0, counter⟩ : TempName) ≠ ⟨0, 0⟩ := by
      intro he
      have hzero : counter = 0 := congrArg TempName.counter he
      omega
    exact Function.update_of_ne hne _ _

/-- A late rename takes the file back: a call is dropped while its rename waits, another call
commits number 2, and then the file with number 1 replaces it. -/
theorem file_goes_back : ∃ s s' : State,
    (service formats primitives dropping config).Reachable (World.initial none) s ∧
      (service formats primitives dropping config).Steps s s' ∧
      Records formats s.world.file (fill 32 0) 2 ∧ Records formats s'.world.file (fill 32 0) 1 ∧
      ¬ Forward formats s.world.file s'.world.file := by
  obtain ⟨text, htext⟩ := exists_order (encodeMembers ledgerOne)
  obtain ⟨text', htext'⟩ := exists_order (encodeMembers ledgerTwo)
  have hany : ∀ w w' : World MemberOrder, w'.commits = w.commits → True := fun _ _ _ => trivial
  have hdropped := steps_dropped dropping hany rfl (presentable 0 1) (idle_booted 0)
    (fresh_empty 1 7) htext rfl (fun _ => none) [] List.not_mem_nil []
  obtain ⟨result, -, hanswered⟩ := steps_verify dropping hany (presentable 0 2) (idle_dropped text)
    fresh_second htext' rfl (fun _ _ => trivial) (Function.update (fun _ => none) ⟨0, 0⟩
      (some (.detached (leftover (.renameTemporary ⟨0, 0⟩))))) [⟨0, 0⟩] (by decide) []
  have hreach := Steps.of_under ((hdropped.head (boots dropping trivial)).trans hanswered)
  have hland : (service formats primitives dropping config).exec ⟨0, 0⟩
      (.renameTemporary ⟨0, 0⟩) (.ok ()) (overtaken text text')
      ((overtaken text text').replace ⟨0, 0⟩ ⟨0, 0⟩ text) :=
    Or.inl ⟨text, rfl, rfl, rfl⟩
  have hone : Saved formats (some text) ledgerOne := congrArg Except.ok htext
  have htwo : Saved formats (some text') ledgerTwo := congrArg Except.ok htext'
  have hrecords : Records formats (some text') (fill 32 0) 2 :=
    htwo.contents.records.mpr (Finmap.lookup_insert _)
  have hrecords' : Records formats (some text) (fill 32 0) 1 :=
    hone.contents.records.mpr (Finmap.lookup_insert _)
  refine ⟨_, _, hreach, .single (Step.land (t := ⟨0, 0⟩) rfl hland), hrecords, hrecords', ?_⟩
  intro hforward
  exact absurd ((hforward _ _ hrecords).2 1 hrecords') (by decide)

end Transparent

end Veriai.Service
