import Veriai.Clients.SessionProtocol
import Veriai.Service.Transparent

/-!
# Runs by themselves on a transparent session file

The file has one piece, the list of its members. A run that finds no file reports
its receipt and saves; a run that finds the receipt recorded reports nothing.
-/

namespace Veriai.Session.Transparent

open Machine Veriai.Transparent
open Service (MemberOrder encodeMembers)

/-- A file whose one piece is the list of members. -/
def format : SessionFormat MemberOrder where
  fromReader
    | [order] => .ok order.toFinmap
    | _ => .error "EOF while parsing a value"
  toWriterPretty order := [order]
  hole := ∅

theorem lawful : format.Lawful := ⟨fun _ => rfl⟩

/-- What a receipt with the number is recorded as. -/
def recorded (n : UInt64) : ReplayMap := (∅ : ReplayMap).insert (fill 32 0) n

/-- The members of the session file then, in the only order. -/
def recordedOrder (n : UInt64) : MemberOrder :=
  AList.singleton (hexEncode (fill 32 0).toList) n

/-- The file after the save of a run. -/
def saved (w : Shared MemberOrder) (t : RunId) (order : MemberOrder) : Shared MemberOrder :=
  ((w.reported t).truncate t).put t ∅ order

section Verify

variable {codec : PemCodec} {env : Primitives} {input : Inputs} {n : UInt64}

variable (codec env input n) in
/-- The receipt is recorded where no session file is found, and refused where it was recorded. -/
structure Presented : Prop where
  first : ∃ outcome : Cli.VerifyOutcome,
    Cli.verify codec env (input.finding none) input.provider input.now input.args = .ok outcome ∧
      outcome.result.valid = true ∧
      outcome.session = some ("session", encodeMembers (recorded n))
  second : ∃ outcome : Cli.VerifyOutcome,
    Cli.verify codec env (input.finding (some (.ok (recordedOrder n)))) input.provider input.now
        input.args = .ok outcome ∧
      outcome.result.valid = false ∧ outcome.session = none

/-- It is enough to know the results. -/
theorem Presented.of_results (hpath : input.args.stateful = some "session")
    (hidentity : input.identity env = some (fill 32 0, n))
    (hresults : ∀ found ∈ [none, some (.ok (recordedOrder n))],
      ((Cli.verify codec env (input.finding found) input.provider input.now
        input.args).toOption.map (·.result.valid)) = some found.isNone) :
    Presented codec env input n := by
  constructor
  · have hresult := hresults none List.mem_cons_self
    simp only [Option.map_eq_some_iff, toOption_eq_some] at hresult
    obtain ⟨outcome, hverify, hvalid⟩ := hresult
    obtain ⟨state, hstate, ⟨hinvalid, -⟩ | ⟨f, n', -, hidentity', -, hsession⟩⟩ :=
      verify_stateful hpath hverify
    · cases hvalid.symm.trans hinvalid
    · obtain ⟨rfl, rfl⟩ := Prod.mk.inj (Option.some.inj (hidentity.symm.trans hidentity'))
      obtain rfl : state = ∅ := hstate
      exact ⟨outcome, hverify, hvalid, hsession⟩
  · have hresult := hresults (some (.ok (recordedOrder n)))
      (List.mem_cons_of_mem _ (List.mem_singleton_self _))
    simp only [Option.map_eq_some_iff, toOption_eq_some] at hresult
    obtain ⟨outcome, hverify, hinvalid⟩ := hresult
    obtain ⟨state, -, ⟨-, hsession⟩ | ⟨f, n', hvalid, -⟩⟩ := verify_stateful hpath hverify
    · exact ⟨outcome, hverify, hinvalid, hsession⟩
    · cases hvalid.symm.trans hinvalid

end Verify

/-- The end of a run begins no other. -/
theorem underWay_of_exit {t : RunId} {w : Shared MemberOrder} (t' : RunId)
    (h : (w.setUnderWay t false).underWay t' = true) : w.underWay t' = true := by
  by_cases hne : t' = t
  · rw [hne, Shared.setUnderWay_self] at h
    cases h
  · rwa [Shared.setUnderWay_of_ne _ false hne] at h

section Steps

variable {codec : PemCodec} {env : Primitives} {input : Inputs} {n : UInt64}
variable {M : Machine RunId Unit (Except String Unit) (Shared MemberOrder) (FileRes MemberOrder)}
variable {t : RunId} {w w' : Shared MemberOrder} {x : Except String Unit}
variable {outcome : Cli.VerifyOutcome}

/-- A run looks for the file in vain. -/
theorem runs_look (hlook : M.exec t .pathExists false w (w.setUnderWay t true)) :
    M.Runs t (main format codec env input) w
      ((conclude format codec env input none).run >>= exiting) (w.setUnderWay t true) := by
  have hload : M.Ends (ε := String) t (loadSession format) w (.ok none) (w.setUnderWay t true) :=
    Ends.bind (Ends.call hlook) (Ends.pure none)
  exact Runs.bind exiting (Runs.bind _ hload)

/-- A run that has found no file reports, and comes to the save. -/
theorem ends_conclude (hverify : Cli.verify codec env (input.finding none) input.provider input.now
      input.args = .ok outcome)
    (hsession : outcome.session = some ("session", encodeMembers (recorded n)))
    (hreport : M.exec t (.report outcome.result) () w (w.reported t))
    (hsave : M.Ends t (saveSession format (encodeMembers (recorded n))) (w.reported t) x w') :
    M.Ends t (conclude format codec env input none) w x w' := by
  apply Ends.bind (Ends.ensure hverify)
  apply Ends.bind (Ends.call hreport)
  rw [hsession]
  exact hsave

/-- Where the steps of a run by itself are possible, a run that has found no file reports, saves
and ends. -/
theorem runs_conclude (hexec : ∀ o r w w', exec format t o r w w' → Untorn o r →
      (∀ t', w'.underWay t' = true → w.underWay t' = true) → M.exec t o r w w')
    (h : Presented codec env input n) :
    M.Runs t ((conclude format codec env input none).run >>= exiting) w (.ret (.ok ()))
      ((saved w t (recordedOrder n)).setUnderWay t false) := by
  obtain ⟨outcome, hverify, hvalid, hsession⟩ := h.first
  have hsave : M.Ends t (saveSession format (encodeMembers (recorded n))) (w.reported t) (.ok ())
      (saved w t (recordedOrder n)) := by
    apply Ends.bind (a := recordedOrder n)
    · exact Ends.call (hexec _ _ _ _ ⟨rfl, rfl⟩ trivial fun _ h => h)
    apply Ends.bind (a := Except.ok ())
    · exact Ends.call (hexec _ _ _ _ (Or.inl ⟨rfl, rfl⟩) trivial fun _ h => h)
    apply Ends.bind (Ends.ensure rfl)
    apply Ends.bind (a := Except.ok ())
    · exact Ends.call (hexec _ _ _ _ (Or.inl ⟨rfl, rfl⟩) rfl fun _ h => h)
    exact Ends.bind (Ends.ensure rfl) (Ends.pure ())
  have hreport : exec format t (.report outcome.result) () w (w.reported t) := by
    rw [exec, if_pos hvalid]
  refine Runs.trans (Runs.bind exiting (ends_conclude hverify hsession
    (hexec _ _ _ _ hreport trivial fun _ h => h) hsave)) ?_
  exact .op (hexec .exit () _ _ rfl trivial underWay_of_exit) (.refl _ _)

end Steps

section Separate

variable {codec : PemCodec} {env : Primitives} {input : Inputs} {n : UInt64}

variable (codec env input) in
/-- Runs with one receipt, each by itself. -/
def separateRuns : Machine RunId Unit (Except String Unit) (Shared MemberOrder)
    (FileRes MemberOrder) := carefulRuns format codec env fun _ => input

/-- A step that begins no run may be taken by a run by itself. -/
theorem separate_exec {t : RunId} {o : FileOp MemberOrder} {r : FileRes MemberOrder o}
    {w w' : Shared MemberOrder} (hexec : exec format t o r w w') (huntorn : Untorn o r)
    (hunder : ∀ t', w'.underWay t' = true → w.underWay t' = true) :
    (separateRuns codec env input).exec t o r w w' :=
  ⟨⟨hexec, huntorn⟩, fun t' ht' => Or.inl (hunder t' ht')⟩

/-- A run by itself that finds the receipt recorded reports nothing and saves nothing. -/
theorem runs_replayed (h : Presented codec env input n) {t : RunId} {w : Shared MemberOrder}
    (hfile : w.file = some [recordedOrder n]) (hidle : ∀ t', w.underWay t' = false) :
    (separateRuns codec env input).Runs t ((separateRuns codec env input).program t ()) w
      (.ret (.ok ())) ((w.setUnderWay t true).setUnderWay t false) := by
  obtain ⟨outcome, hverify, hinvalid, hsession⟩ := h.second
  have hlook : (separateRuns codec env input).exec t .pathExists true w (w.setUnderWay t true) :=
    ⟨⟨⟨by rw [hfile]; rfl, rfl⟩, trivial⟩, fun _ _ => Or.inr hidle⟩
  have hload : (separateRuns codec env input).Ends (ε := String) t (loadSession format) w
      (.ok (some (.ok (recordedOrder n)))) (w.setUnderWay t true) := by
    apply Ends.bind (Ends.call hlook)
    apply Ends.bind (a := .ok [recordedOrder n])
    · exact Ends.call (separate_exec ⟨Or.inl ⟨_, hfile, rfl⟩, rfl⟩ trivial fun _ h => h)
    apply Ends.bind (a := recordedOrder n)
    · exact Ends.call (separate_exec ⟨rfl, rfl⟩ trivial fun _ h => h)
    exact Ends.pure _
  have hconclude : (separateRuns codec env input).Ends t
      (conclude format codec env input (some (.ok (recordedOrder n)))) (w.setUnderWay t true)
      (.ok ()) (w.setUnderWay t true) := by
    apply Ends.bind (Ends.ensure hverify)
    apply Ends.bind (a := ())
    · refine Ends.call (separate_exec ?_ trivial fun _ h => h)
      rw [exec, hinvalid]
      rfl
    rw [hsession]
    exact Ends.pure ()
  refine Runs.trans (Runs.bind exiting (Ends.bind hload hconclude)) ?_
  exact .op (r := ()) (separate_exec (o := .exit) rfl trivial underWay_of_exit) (.refl _ _)

variable (n) in
/-- The first run has recorded the receipt. -/
def firstDone : Shared MemberOrder :=
  (saved ((Shared.initial none).setUnderWay 0 true) 0 (recordedOrder n)).setUnderWay 0 false

/-- Then no run is under way. -/
theorem underWay_firstDone (t : RunId) : (firstDone n).underWay t = false := by
  by_cases ht : t = 0
  · rw [ht]
    exact Shared.setUnderWay_self _ 0 false
  · rw [firstDone, Shared.setUnderWay_of_ne _ false ht]
    exact Shared.setUnderWay_of_ne _ true ht

/-- Two runs, one after the other: the first one reports the receipt and saves, and the second one
finds it recorded. -/
theorem reaches_replayed (h : Presented codec env input n) : ∃ s,
    (separateRuns codec env input).Reachable (Shared.initial none) s ∧
      s.answers = [(0, (), .ok ()), (1, (), .ok ())] ∧ s.world.verified = [0] ∧
      s.world.failures = [] := by
  have hfirst : (separateRuns codec env input).Runs 0 ((separateRuns codec env input).program 0 ())
      (Shared.initial none) (.ret (.ok ())) (firstDone n) := by
    refine Runs.trans (runs_look ⟨⟨⟨rfl, rfl⟩, trivial⟩, ?_⟩)
      (runs_conclude (fun _ _ _ _ => separate_exec) h)
    exact fun _ _ => Or.inr fun _ => rfl
  have hanswered := hfirst.answered (M := separateRuns codec env input) (c := ())
    ⟨⟨rfl, rfl⟩, fun _ h => Or.inl h⟩ (fun _ => none) List.not_mem_nil []
  have hother : (1 : RunId) ∉ ([0] : List RunId) := by decide
  have hreach := hanswered.trans ((runs_replayed h rfl underWay_firstDone).answered
    (M := separateRuns codec env input) (c := ())
    ⟨⟨underWay_firstDone 1, rfl⟩, fun _ h => Or.inl h⟩ (Function.update (fun _ => none) 0 none)
    hother [(0, (), .ok ())])
  exact ⟨_, hreach, rfl, rfl, rfl⟩

end Separate

end Veriai.Session.Transparent
