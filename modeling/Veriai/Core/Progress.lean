import Mathlib.Logic.Hydra
import Veriai.Core.Protocol

/-!
# Progress of machines

A call goes on by steps of its own until it answers. Programs are finite trees,
so the calls under way come to a standstill however their steps are interleaved.
What the machine lends to a call is given back with the answer, or when the call
ends in another way; what goes on of an abandoned call may borrow again, and gives
back at its own end. Nothing stays lent to a call of which nothing is left.
-/

namespace Veriai

variable {Tid Call Answer W Op : Type} {Res : Op → Type}

/-- What a step of its own leaves of a thread. -/
inductive Thread.Shrinks :
    Option (Thread Call Answer Res) → Option (Thread Call Answer Res) → Prop
  | run {c : Call} {o : Op} {k : Res o → Prog Res Answer} (r : Res o) :
      Shrinks (some (.running c (k r))) (some (.running c (.op o k)))
  | answer {c : Call} {a : Answer} : Shrinks none (some (.running c (.ret a)))
  | land {o : Op} {k : Res o → Prog Res Unit} (r : Res o) :
      Shrinks (Thread.remaining (k r)) (some (.detached (.op o k)))

/-- No thread goes on forever: its program is a finite tree. -/
theorem Thread.shrinks_wellFounded :
    WellFounded (@Shrinks Call Answer Op Res) := by
  have hnone : Acc (@Shrinks Call Answer Op Res) none := by
    constructor
    intro th h
    cases h
  constructor
  intro th
  match th with
  | none => exact hnone
  | some (.detached p) =>
    induction p with
    | ret a =>
      constructor
      intro th h
      cases h
    | op o k ih =>
      constructor
      intro th h
      cases h with
      | land r =>
        have hr := ih r
        cases hk : k r with
        | ret a => exact hnone
        | op o' k' =>
          rw [hk] at hr
          exact hr
  | some (.running c p) =>
    induction p with
    | ret a =>
      constructor
      intro th h
      cases h
      exact hnone
    | op o k ih =>
      constructor
      intro th h
      cases h with
      | run r => exact ih r

namespace Machine

variable {M : Machine Tid Call Answer W Res} [DecidableEq Tid]

variable (M) in
/-- One step of a call under way, or of what goes on after its call was abandoned. -/
inductive Advances :
    MachineState Tid Call Answer W Res → MachineState Tid Call Answer W Res → Prop
  | run {s : MachineState Tid Call Answer W Res} {t : Tid} {c : Call} {o : Op}
      {k : Res o → Prog Res Answer} {r : Res o} {w : W} :
      s.threads t = some (.running c (.op o k)) → M.exec t o r s.world w →
      Advances s ⟨w, Function.update s.threads t (some (.running c (k r))), s.started, s.answers⟩
  | answer {s : MachineState Tid Call Answer W Res} {t : Tid} {c : Call} {a : Answer} :
      s.threads t = some (.running c (.ret a)) →
      Advances s ⟨s.world, Function.update s.threads t none, s.started, s.answers ++ [(t, c, a)]⟩
  | land {s : MachineState Tid Call Answer W Res} {t : Tid} {o : Op} {k : Res o → Prog Res Unit}
      {r : Res o} {w : W} :
      s.threads t = some (.detached (.op o k)) → M.exec t o r s.world w →
      Advances s ⟨w, Function.update s.threads t (Thread.remaining (k r)), s.started, s.answers⟩

variable (M) in
/-- The calls under way go on, in any order. -/
def Advancing :
    MachineState Tid Call Answer W Res → MachineState Tid Call Answer W Res → Prop :=
  Relation.ReflTransGen M.Advances

variable (M) in
/-- No call under way can take a step. -/
def Standstill (s : MachineState Tid Call Answer W Res) : Prop := ∀ s', ¬ M.Advances s s'

section Steps

variable {w : W} {s s' : MachineState Tid Call Answer W Res}

theorem Advances.step (h : M.Advances s s') : M.Step s s' := by
  cases h with
  | run ht he => exact .run ht he
  | answer ht => exact .answer ht
  | land ht he => exact .land ht he

theorem Advancing.steps (h : M.Advancing s s') : M.Steps s s' :=
  Relation.ReflTransGen.mono (fun _ _ hstep => hstep.step) _ _ h

/-- The threads of the calls started so far. -/
def load (s : MachineState Tid Call Answer W Res) : Multiset (Option (Thread Call Answer Res)) :=
  s.started.toFinset.val.map s.threads

/-- A change of one thread among those counted. -/
theorem map_update_add {α β : Type} [DecidableEq α] {F : Finset α} {a : α} (ha : a ∈ F)
    (f : α → β) (b : β) :
    F.val.map (Function.update f a b) + {f a} = F.val.map f + {b} := by
  have hrest : (F.val.erase a).map (Function.update f a b) = (F.val.erase a).map f := by
    refine Multiset.map_congr rfl ?_
    intro x hx
    have hne : x ≠ a := by
      rintro rfl
      exact F.nodup.notMem_erase hx
    exact Function.update_of_ne hne _ _
  have hsplit : F.val = a ::ₘ F.val.erase a := (Multiset.cons_erase ha).symm
  rw [hsplit, Multiset.map_cons, Multiset.map_cons, Function.update_self, hrest,
    ← Multiset.singleton_add, ← Multiset.singleton_add, add_right_comm, add_assoc, add_comm]

/-- Every step makes one of the threads smaller. -/
theorem Advances.load (hs : Accounted s) (h : M.Advances s s') :
    Relation.CutExpand Thread.Shrinks (load s') (load s) := by
  have hupdate : ∀ {t : Tid} {th : Option (Thread Call Answer Res)} {w : W}
      {answers : List (Tid × Call × Answer)}, s.threads t ≠ none →
      Thread.Shrinks th (s.threads t) → Relation.CutExpand Thread.Shrinks
        (Machine.load ⟨w, Function.update s.threads t th, s.started, answers⟩)
        (Machine.load s) := by
    intro t th w answers hne hshrinks
    have hmem : t ∈ s.started.toFinset := List.mem_toFinset.mpr (hs.threads t hne)
    refine ⟨{th}, s.threads t, ?_, map_update_add hmem s.threads th⟩
    intro th' hth'
    rw [Multiset.mem_singleton.mp hth']
    exact hshrinks
  cases h with
  | run ht he =>
    refine hupdate (by simp [ht]) ?_
    rw [ht]
    exact .run _
  | answer ht =>
    refine hupdate (by simp [ht]) ?_
    rw [ht]
    exact .answer
  | land ht he =>
    refine hupdate (by simp [ht]) ?_
    rw [ht]
    exact .land _

/-- The calls under way cannot go on forever, whatever order their steps are taken in. -/
theorem advances_acc (hs : Accounted s) : Acc (fun s₂ s₁ => M.Advances s₁ s₂) s := by
  have hload := Thread.shrinks_wellFounded.cutExpand.apply (load s)
  generalize hm : load s = m at hload
  induction hload generalizing s with
  | intro m _ ih =>
    subst hm
    constructor
    intro s' h
    exact ih _ (h.load hs) (hs.step h.step) rfl

/-- A running call goes on running until it is answered. -/
theorem Advancing.running (h : M.Advancing s s') {t : Tid} {c : Call} {p : Prog Res Answer}
    (ht : s.threads t = some (.running c p)) :
    (∃ p', s'.threads t = some (.running c p')) ∨ ∃ a, (t, c, a) ∈ s'.answers := by
  have hother : ∀ {t' : Tid} {f : Tid → Option (Thread Call Answer Res)}
      {th : Option (Thread Call Answer Res)} {p' : Prog Res Answer}, t ≠ t' →
      f t = some (.running c p') → Function.update f t' th t = some (.running c p') := by
    intro t' f th p' hne hf
    rw [Function.update_of_ne hne, hf]
  induction h with
  | refl => exact .inl ⟨p, ht⟩
  | @tail s₁ s₂ _ hstep ih =>
    rcases ih with ⟨p', ht'⟩ | ⟨a, ha⟩
    · cases hstep with
      | @run t' c' o k r w hrun he =>
        by_cases heq : t = t'
        · subst heq
          obtain ⟨rfl, rfl⟩ := Thread.running.inj (Option.some.inj (ht'.symm.trans hrun))
          exact .inl ⟨k r, Function.update_self ..⟩
        · exact .inl ⟨p', hother heq ht'⟩
      | @answer t' c' a hrun =>
        by_cases heq : t = t'
        · subst heq
          obtain ⟨rfl, rfl⟩ := Thread.running.inj (Option.some.inj (ht'.symm.trans hrun))
          exact .inr ⟨a, List.mem_append_right _ (List.mem_singleton_self _)⟩
        · exact .inl ⟨p', hother heq ht'⟩
      | @land t' o k r w hrun he =>
        have heq : t ≠ t' := by
          rintro rfl
          rw [ht'] at hrun
          cases hrun
        exact .inl ⟨p', hother heq ht'⟩
    · refine .inr ⟨a, ?_⟩
      cases hstep with
      | run => exact ha
      | answer => exact List.mem_append_left _ ha
      | land => exact ha

end Steps

omit [DecidableEq Tid] in
theorem Runs.of_under {α : Type} {cond : W → W → Prop} {t : Tid} {p p' : Prog Res α} {w w' : W}
    (h : (M.under cond).Runs t p w p' w') : M.Runs t p w p' w' := by
  induction h with
  | refl => exact .refl _ _
  | op he _ ih => exact .op he.1 ih

/-- A thread that can run alone can do so while the others stand still. -/
theorem Runs.advancing {t : Tid} {c : Call} {p p' : Prog Res Answer} {w w' : W}
    (h : M.Runs t p w p' w') (threads : Tid → Option (Thread Call Answer Res))
    (started : List Tid) (answers : List (Tid × Call × Answer)) :
    M.Advancing ⟨w, Function.update threads t (some (.running c p)), started, answers⟩
      ⟨w', Function.update threads t (some (.running c p')), started, answers⟩ := by
  induction h with
  | refl => exact .refl
  | @op o k r w w₁ w' p he _ ih =>
    have hstep := Advances.run (M := M) (s := ⟨w, Function.update threads t
      (some (.running c (.op o k))), started, answers⟩) (Function.update_self t _ threads) he
    rw [Function.update_idem] at hstep
    exact .head hstep ih

/-- It can come to its answer so. -/
theorem Runs.advancing_answered {t : Tid} {c : Call} {p : Prog Res Answer} {a : Answer} {w w' : W}
    (h : M.Runs t p w (.ret a) w') (threads : Tid → Option (Thread Call Answer Res))
    (started : List Tid) (answers : List (Tid × Call × Answer)) :
    M.Advancing ⟨w, Function.update threads t (some (.running c p)), started, answers⟩
      ⟨w', Function.update threads t none, started, answers ++ [(t, c, a)]⟩ := by
  refine .tail (h.advancing threads started answers) ?_
  have hstep := Advances.answer (M := M) (s := ⟨w', Function.update threads t
    (some (.running c (.ret a))), started, answers⟩) (Function.update_self t _ threads)
  rw [Function.update_idem] at hstep
  exact hstep

/-- Where no call is under way there is a standstill. -/
theorem standstill_of_over {s : MachineState Tid Call Answer W Res} (h : ∀ t, s.threads t = none) :
    M.Standstill s := by
  intro s' hstep
  cases hstep with
  | run ht _ => cases (h _).symm.trans ht
  | answer ht => cases (h _).symm.trans ht
  | land ht _ => cases (h _).symm.trans ht

variable (M) in
/-- What a call holds is taken by its own operations only, and an end of the call without an
answer gives it back. -/
structure Lends (holds : Tid → W → Prop) : Prop where
  exec : ∀ t o r w w', M.exec t o r w w' → ∀ t', t' ≠ t → holds t' w' → holds t' w
  start : ∀ t c w w', M.start t c w w' → ∀ t', holds t' w' → holds t' w
  abandon : ∀ t o goesOn w w', M.abandon t o goesOn w w' →
    ∀ t', holds t' w' → holds t' w ∧ t' ≠ t
  ambient : ∀ ended w w', M.ambient ended w w' → ∀ t, holds t w' → holds t w ∧ ended t = false

/-- Of whoever holds something there is a thread. -/
def Owned (holds : Tid → W → Prop) (s : MachineState Tid Call Answer W Res) : Prop :=
  ∀ t, holds t s.world → s.threads t ≠ none

variable {holds : Tid → W → Prop} {s s' : MachineState Tid Call Answer W Res}

/-- One thread changes, and nobody but it comes to hold anything. -/
theorem Owned.update (h : Owned holds s) {t : Tid} {th : Option (Thread Call Answer Res)}
    {w : W} {started : List Tid} {answers : List (Tid × Call × Answer)}
    (hother : ∀ t', t' ≠ t → holds t' w → holds t' s.world) (hself : holds t w → th ≠ none) :
    Owned holds ⟨w, Function.update s.threads t th, started, answers⟩ := by
  intro t' ht'
  dsimp only at ht' ⊢
  by_cases he : t' = t
  · subst he
    rw [Function.update_self]
    exact hself ht'
  · rw [Function.update_of_ne he]
    exact h t' (hother t' he ht')

end Machine

namespace Protocol

variable {M : Machine Tid Call Answer W Res} {P : Protocol M}
  {post : Tid → Call → Answer → W → Prop} {left : Tid → Prog Res Unit → W → Prop}
  {holds : Tid → W → Prop} {s s' : MachineState Tid Call Answer W Res}

/-- What goes on of an abandoned call keeps to the protocol, and holds nothing at its end. -/
structure Leaving (P : Protocol M) (left : Tid → Prog Res Unit → W → Prop)
    (holds : Tid → W → Prop) : Prop where
  rely : ∀ t p, P.Stable t (left t p)
  begins : ∀ t o w w', P.inv w → P.permit t o w → M.abandon t o true w w' → P.inv w' →
    left t (M.leftover o) w'
  permit : ∀ t o k w, P.inv w → left t (.op o k) w → P.permit t o w
  goesOn : ∀ t o k r w w', P.inv w → left t (.op o k) w → M.exec t o r w w' → P.inv w' →
    left t (k r) w'
  ends : ∀ t a w, P.inv w → left t (.ret a) w → ¬ holds t w

/-- A call that comes with nothing keeps to the protocol and answers with nothing. -/
structure Abiding (P : Protocol M) (post : Tid → Call → Answer → W → Prop)
    (left : Tid → Prog Res Unit → W → Prop) (holds : Tid → W → Prop) : Prop
    extends Leaving P left holds where
  lends : M.Lends holds
  post_rely : ∀ t c a, P.Stable t (post t c a)
  programs : ∀ t c w w', P.inv w → M.start t c w w' → P.inv w' → ¬ holds t w' →
    P.wp t (M.program t c) (post t c) w'
  answers : ∀ t c a w, P.inv w → post t c a w → ¬ holds t w

variable (P) in
/-- A running call has its program ahead, anything else what was left of a call, which is not
over yet. -/
def Ahead (post : Tid → Call → Answer → W → Prop) (left : Tid → Prog Res Unit → W → Prop) (t : Tid)
    (w : W) : Thread Call Answer Res → Prop
  | .running c p => P.wp t p (post t c) w
  | .detached p => left t p w ∧ ∀ a, p ≠ .ret a

/-- The protocol while calls are under way: the invariant, every thread with what is ahead of it,
and a thread of whoever holds something. -/
structure Underway (P : Protocol M) (post : Tid → Call → Answer → W → Prop)
    (left : Tid → Prog Res Unit → W → Prop) (holds : Tid → W → Prop)
    (s : MachineState Tid Call Answer W Res) : Prop where
  inv : P.inv s.world
  threads : ∀ t th, s.threads t = some th → P.Ahead post left t s.world th
  owned : Machine.Owned holds s

/-- The next operation of a running call is permitted. -/
theorem Underway.permit (h : P.Underway post left holds s) {t : Tid} {c : Call} {o : Op}
    {k : Res o → Prog Res Answer} (ht : s.threads t = some (.running c (.op o k))) :
    P.permit t o s.world := (h.threads t _ ht s.world h.inv (P.rely_refl t _)).1

/-- What is ahead of a thread is not disturbed by the others. -/
theorem Abiding.ahead (ha : P.Abiding post left holds) {t : Tid} {th : Thread Call Answer Res}
    {w w' : W} (hw : P.inv w) (hw' : P.inv w') (hrely : P.rely t w w')
    (h : P.Ahead post left t w th) : P.Ahead post left t w' th := by
  cases th with
  | running c p => exact wp_stable (ha.post_rely t c) w w' hw hw' hrely h
  | detached p => exact ⟨ha.rely t p w w' hw hw' hrely h.1, h.2⟩

/-- What is left of a call is ahead of its thread. -/
theorem Ahead.remaining {t : Tid} {w : W} {p : Prog Res Unit} (h : left t p w)
    {th : Thread Call Answer Res} (hth : Thread.remaining p = some th) :
    P.Ahead post left t w th := by
  cases p with
  | ret a => cases hth
  | op o k =>
    obtain rfl := Option.some.inj hth
    exact ⟨h, nofun⟩

/-- Where something is held something is left. -/
theorem Leaving.remaining_ne_none (h : P.Leaving left holds) {t : Tid} {w : W} {p : Prog Res Unit}
    (hw : P.inv w) (hp : left t p w) (hheld : holds t w) :
    (Thread.remaining p : Option (Thread Call Answer Res)) ≠ none := by
  cases p with
  | ret a => exact (h.ends t a w hw hp hheld).elim
  | op o k => exact Option.some_ne_none _

variable [DecidableEq Tid]

/-- A change that keeps the contract leaves the spared threads what is ahead of them. -/
theorem Underway.update (ha : P.Abiding post left holds) (h : P.Underway post left holds s)
    {t : Tid} {w : W} (hkeeps : P.Keeps (· ≠ t) s.world w)
    {th : Option (Thread Call Answer Res)} (hth : ∀ x, th = some x → P.Ahead post left t w x)
    {started : List Tid} {answers : List (Tid × Call × Answer)}
    (howned : Machine.Owned holds ⟨w, Function.update s.threads t th, started, answers⟩) :
    P.Underway post left holds ⟨w, Function.update s.threads t th, started, answers⟩ where
  inv := hkeeps.inv
  threads := by
    intro t' x hx
    dsimp only at hx
    by_cases ht : t' = t
    · subst ht
      rw [Function.update_self] at hx
      exact hth x hx
    · rw [Function.update_of_ne ht] at hx
      exact ha.ahead h.inv hkeeps.inv (hkeeps.rely t' ht) (h.threads t' x hx)
  owned := howned

/-- Every step of the machine leaves the threads what is ahead of them. -/
theorem Underway.step (ha : P.Abiding post left holds) (h : P.Underway post left holds s)
    (hs : Machine.Accounted s) (hstep : M.Step s s') : P.Underway post left holds s' := by
  have hnone : ∀ {t : Tid} {w : W} (x : Thread Call Answer Res), none = some x →
      P.Ahead post left t w x := by
    intro t w x hx
    cases hx
  cases hstep with
  | @start t c w ht hw =>
    have hkeeps := P.start_keeps t c _ w h.inv hw
    have hidle : s.threads t = none := by
      by_contra hne
      exact ht (hs.threads t hne)
    have hheld : ¬ holds t w :=
      fun hheld => h.owned t (ha.lends.start t c _ w hw t hheld) hidle
    refine h.update ha hkeeps ?_ (h.owned.update ?_ ?_)
    · intro x hx
      obtain rfl := Option.some.inj hx
      exact ha.programs t c _ w h.inv hw hkeeps.inv hheld
    · exact fun t' _ => ha.lends.start t c _ w hw t'
    · exact fun _ => Option.some_ne_none _
  | @run t c o k r w ht he =>
    have hkeeps := P.exec_keeps t o r _ w h.inv (h.permit ht) he
    refine h.update ha hkeeps ?_ (h.owned.update (ha.lends.exec t o r _ w he) ?_)
    · intro x hx
      obtain rfl := Option.some.inj hx
      exact (h.threads t _ ht s.world h.inv (P.rely_refl t _)).2 r w he hkeeps.inv
    · exact fun _ => Option.some_ne_none _
  | @answer t c a ht =>
    have hkeeps : P.Keeps (· ≠ t) s.world s.world :=
      ⟨h.inv, P.later_refl _, fun t' _ => P.rely_refl t' _⟩
    refine h.update ha hkeeps hnone (h.owned.update (fun _ _ hheld => hheld) ?_)
    exact fun hheld => (ha.answers t c a _ h.inv (h.threads t _ ht) hheld).elim
  | @abandon t c o k goesOn w ht hab =>
    obtain ⟨hkeeps, -⟩ := P.abandon_keeps t o goesOn _ w h.inv (h.permit ht) hab
    have hlent := ha.lends.abandon t o goesOn _ w hab
    refine h.update ha hkeeps ?_ (h.owned.update (fun t' _ hheld => (hlent t' hheld).1) ?_)
    · intro x hx
      cases goesOn with
      | false => cases hx
      | true => exact .remaining (ha.begins t o _ w h.inv (h.permit ht) hab hkeeps.inv) hx
    · exact fun hheld => ((hlent t hheld).2 rfl).elim
  | @land t o k r w ht he =>
    have hleft : left t (.op o k) s.world := (h.threads t _ ht).1
    have hkeeps := P.exec_keeps t o r _ w h.inv (ha.permit t o k _ h.inv hleft) he
    have hrest := ha.goesOn t o k r _ w h.inv hleft he hkeeps.inv
    refine h.update ha hkeeps (fun x hx => .remaining hrest hx)
      (h.owned.update (ha.lends.exec t o r _ w he) ?_)
    exact ha.remaining_ne_none hkeeps.inv hrest
  | @ambient ended w hamb =>
    have hkeeps := P.ambient_keeps ended _ w h.inv hamb
    refine ⟨hkeeps.inv, ?_, ?_⟩
    · intro t x hx
      dsimp only at hx
      cases hended : ended t with
      | true => simp [hended] at hx
      | false =>
        rw [hended, if_neg Bool.false_ne_true] at hx
        exact ha.ahead h.inv hkeeps.inv (hkeeps.rely t hended) (h.threads t x hx)
    · intro t hheld
      obtain ⟨hbefore, hended⟩ := ha.lends.ambient ended _ w hamb t hheld
      have hne := h.owned t hbefore
      simpa [hended] using hne

/-- In every reachable state the threads have ahead what they should, and whoever holds something
has one. -/
theorem Abiding.reachable (ha : P.Abiding post left holds) {w : W} (hw : P.inv w)
    (hfree : ∀ t, ¬ holds t w) (h : M.Reachable w s) : P.Underway post left holds s := by
  induction h with
  | refl =>
    refine ⟨hw, ?_, ?_⟩
    · intro t th ht
      cases ht
    · exact fun t hheld => (hfree t hheld).elim
  | tail hsteps hstep ih => exact ih.step ha (Machine.Reachable.accounted hsteps) hstep

end Protocol

end Veriai
