import Mathlib.Control.Monad.Basic
import Mathlib.Logic.Function.Basic
import Mathlib.Logic.Relation

/-!
# Programs that share a world

A program is a tree of operations on a shared world. A machine runs any number
of calls at once, one operation at a time; a call may be abandoned at an
operation, which then possibly goes on without it, and the surroundings may
change the world and end calls.
-/

namespace Veriai

/-- A program: it returns, or performs an operation and goes on with the result. -/
inductive Prog {Op : Type} (Res : Op → Type) (α : Type) where
  | ret (a : α)
  | op (o : Op) (k : Res o → Prog Res α)

section Programs

variable {Op : Type} {Res : Op → Type} {ε ε' α β : Type}

/-- Run one program after another. -/
def Prog.bind (p : Prog Res α) (f : α → Prog Res β) : Prog Res β :=
  match p with
  | .ret a => f a
  | .op o k => .op o fun r => (k r).bind f

instance : Monad (Prog Res) where
  pure := .ret
  bind := Prog.bind

/-- A program that may return early with an error. -/
abbrev Handler (Res : Op → Type) (ε α : Type) := ExceptT ε (Prog Res) α

namespace Handler

/-- Perform one operation. -/
def call (o : Op) : Handler Res ε (Res o) := ExceptT.mk (.op o fun r => .ret (.ok r))

/-- `?` on a value at hand. -/
def ensure (x : Except ε α) : Handler Res ε α := ExceptT.mk (.ret x)

/-- Catch the early return of a part: its outcome as a value. -/
def outcome (m : Handler Res ε α) : Handler Res ε' (Except ε α) :=
  ExceptT.mk (m.run >>= fun x => .ret (.ok x))

/-- `map_err` on the early return of a part. -/
def mapError (f : ε → ε') (m : Handler Res ε α) : Handler Res ε' α :=
  ExceptT.mk (m.run >>= fun x => .ret (x.mapError f))

/-- A scope: on an early return from it, `leave` is performed first. -/
def leaving (leave : Op) (m : Handler Res ε α) : Handler Res ε α :=
  ExceptT.mk (m.run >>= fun x =>
    match x with
    | .ok a => .ret (.ok a)
    | .error e => .op leave fun _ => .ret (.error e))

end Handler

/-- Every operation of the program satisfies `P`. -/
inductive Prog.All (P : Op → Prop) : Prog Res α → Prop
  | ret (a : α) : All P (.ret a)
  | op {o : Op} {k : Res o → Prog Res α} : P o → (∀ r, All P (k r)) → All P (.op o k)

theorem Prog.All.bind {P : Op → Prop} {p : Prog Res α} {f : α → Prog Res β} (hp : p.All P)
    (hf : ∀ a, (f a).All P) : (p >>= f).All P := by
  induction hp with
  | ret a => exact hf a
  | op ho _ ih => exact .op ho ih

theorem Prog.All.mono {P Q : Op → Prop} (hPQ : ∀ o, P o → Q o) {p : Prog Res α} (h : p.All P) :
    p.All Q := by
  induction h with
  | ret a => exact .ret a
  | op ho _ ih => exact .op (hPQ _ ho) ih

/-- Every operation of the handler satisfies `P`. -/
def Handler.All (P : Op → Prop) (m : Handler Res ε α) : Prop := Prog.All P m.run

namespace Handler.All

variable {P : Op → Prop}

theorem pure (a : α) : All P (Pure.pure a : Handler Res ε α) := .ret _

theorem ensure (x : Except ε α) : All P (Handler.ensure x : Handler Res ε α) := .ret _

theorem throw (e : ε) : All P (throw e : Handler Res ε α) := .ret _

theorem call {o : Op} (h : P o) : All P (Handler.call o : Handler Res ε (Res o)) :=
  .op h fun _ => .ret _

theorem bind {m : Handler Res ε α} {f : α → Handler Res ε β} (hm : All P m)
    (hf : ∀ a, All P (f a)) : All P (m >>= f) := by
  refine Prog.All.bind hm ?_
  intro x
  cases x with
  | ok a => exact hf a
  | error e => exact .ret _

theorem mapError {f : ε → ε'} {m : Handler Res ε α} (hm : All P m) : All P (m.mapError f) :=
  Prog.All.bind hm fun _ => .ret _

theorem outcome {m : Handler Res ε α} (hm : All P m) :
    All P (m.outcome : Handler Res ε' (Except ε α)) :=
  Prog.All.bind hm fun _ => .ret _

theorem leaving {leave : Op} {m : Handler Res ε α} (hleave : P leave) (hm : All P m) :
    All P (m.leaving leave) := by
  refine Prog.All.bind hm ?_
  intro x
  cases x with
  | ok a => exact .ret _
  | error e => exact .op hleave fun _ => .ret _

theorem mono {Q : Op → Prop} (hPQ : ∀ o, P o → Q o) {m : Handler Res ε α} (hm : All P m) :
    All Q m := Prog.All.mono hPQ hm

end Handler.All

end Programs

/-- What runs the programs. -/
structure Machine (Tid Call Answer W : Type) {Op : Type} (Res : Op → Type) where
  /-- The thread performs the operation, with this result. -/
  exec : Tid → (o : Op) → Res o → W → W → Prop
  /-- The program of a call. -/
  program : Tid → Call → Prog Res Answer
  /-- A call arrives. -/
  start : Tid → Call → W → W → Prop
  /-- A call is abandoned at the operation; the flag says that the operation goes on. -/
  abandon : Tid → Op → Bool → W → W → Prop
  /-- What goes on when an operation goes on without its call. -/
  leftover : Op → Prog Res Unit := fun o => .op o fun _ => .ret ()
  /-- The surroundings act, ending the marked calls. -/
  ambient : (Tid → Bool) → W → W → Prop

section Runs

variable {Tid Call Answer W Op : Type} {Res : Op → Type}

/-- A thread of the machine: a call, or what goes on of one that was abandoned. -/
inductive Thread (Call Answer : Type) (Res : Op → Type) where
  | running (call : Call) (rest : Prog Res Answer)
  | detached (rest : Prog Res Unit)

/-- The thread of what goes on; there is none when nothing is left. -/
def Thread.remaining {Call Answer : Type} : Prog Res Unit → Option (Thread Call Answer Res)
  | .ret _ => none
  | .op o k => some (.detached (.op o k))

/-- A state of the machine, with the calls started and the answers given so far. -/
structure MachineState (Tid Call Answer W : Type) {Op : Type} (Res : Op → Type) where
  world : W
  threads : Tid → Option (Thread Call Answer Res)
  started : List Tid
  answers : List (Tid × Call × Answer)

namespace Machine

variable (M : Machine Tid Call Answer W Res)

section Steps

variable [DecidableEq Tid]

/-- One step of the machine. -/
inductive Step : MachineState Tid Call Answer W Res → MachineState Tid Call Answer W Res → Prop
  | start {s : MachineState Tid Call Answer W Res} {t : Tid} {c : Call} {w : W} :
      t ∉ s.started → M.start t c s.world w →
      Step s ⟨w, Function.update s.threads t (some (.running c (M.program t c))),
        s.started ++ [t], s.answers⟩
  | run {s : MachineState Tid Call Answer W Res} {t : Tid} {c : Call} {o : Op}
      {k : Res o → Prog Res Answer} {r : Res o} {w : W} :
      s.threads t = some (.running c (.op o k)) → M.exec t o r s.world w →
      Step s ⟨w, Function.update s.threads t (some (.running c (k r))), s.started, s.answers⟩
  | answer {s : MachineState Tid Call Answer W Res} {t : Tid} {c : Call} {a : Answer} :
      s.threads t = some (.running c (.ret a)) →
      Step s ⟨s.world, Function.update s.threads t none, s.started, s.answers ++ [(t, c, a)]⟩
  | abandon {s : MachineState Tid Call Answer W Res} {t : Tid} {c : Call} {o : Op}
      {k : Res o → Prog Res Answer} {goesOn : Bool} {w : W} :
      s.threads t = some (.running c (.op o k)) → M.abandon t o goesOn s.world w →
      Step s ⟨w, Function.update s.threads t
        (if goesOn then Thread.remaining (M.leftover o) else none),
        s.started, s.answers⟩
  | land {s : MachineState Tid Call Answer W Res} {t : Tid} {o : Op} {k : Res o → Prog Res Unit}
      {r : Res o} {w : W} :
      s.threads t = some (.detached (.op o k)) → M.exec t o r s.world w →
      Step s ⟨w, Function.update s.threads t (Thread.remaining (k r)), s.started, s.answers⟩
  | ambient {s : MachineState Tid Call Answer W Res} {ended : Tid → Bool} {w : W} :
      M.ambient ended s.world w →
      Step s ⟨w, fun t => if ended t then none else s.threads t, s.started, s.answers⟩

/-- No call yet. -/
def initial (w : W) : MachineState Tid Call Answer W Res := ⟨w, fun _ => none, [], []⟩

/-- The steps from one state lead to the other. -/
def Steps : MachineState Tid Call Answer W Res → MachineState Tid Call Answer W Res → Prop :=
  Relation.ReflTransGen M.Step

/-- The states of the runs from a world. -/
def Reachable (w : W) (s : MachineState Tid Call Answer W Res) : Prop := M.Steps (initial w) s

/-- The machine restricted to steps under a condition. -/
def under (cond : W → W → Prop) : Machine Tid Call Answer W Res where
  exec t o r w w' := M.exec t o r w w' ∧ cond w w'
  program := M.program
  start t c w w' := M.start t c w w' ∧ cond w w'
  abandon t o goesOn w w' := M.abandon t o goesOn w w' ∧ cond w w'
  leftover := M.leftover
  ambient ended w w' := M.ambient ended w w' ∧ cond w w'

variable {M}

/-- A condition that always holds restricts nothing. -/
theorem Step.under {cond : W → W → Prop} (hcond : ∀ w w', cond w w')
    {s s' : MachineState Tid Call Answer W Res} (h : M.Step s s') : (M.under cond).Step s s' := by
  cases h with
  | start ht hw => exact .start (M := M.under cond) ht ⟨hw, hcond _ _⟩
  | run ht hw => exact .run ht ⟨hw, hcond _ _⟩
  | answer ht => exact .answer ht
  | abandon ht hw => exact .abandon (M := M.under cond) ht ⟨hw, hcond _ _⟩
  | land ht hw => exact .land ht ⟨hw, hcond _ _⟩
  | ambient hw => exact .ambient ⟨hw, hcond _ _⟩

/-- Under a weaker condition there are all the steps there were. -/
theorem Step.weaken {cond cond' : W → W → Prop} (hcond : ∀ w w', cond w w' → cond' w w')
    {s s' : MachineState Tid Call Answer W Res} (h : (M.under cond).Step s s') :
    (M.under cond').Step s s' := by
  cases h with
  | start ht hw => exact .start (M := M.under cond') ht ⟨hw.1, hcond _ _ hw.2⟩
  | run ht hw => exact .run ht ⟨hw.1, hcond _ _ hw.2⟩
  | answer ht => exact .answer ht
  | abandon ht hw => exact .abandon (M := M.under cond') ht ⟨hw.1, hcond _ _ hw.2⟩
  | land ht hw => exact .land ht ⟨hw.1, hcond _ _ hw.2⟩
  | ambient hw => exact .ambient ⟨hw.1, hcond _ _ hw.2⟩

/-- A step under a condition is a step. -/
theorem Step.of_under {cond : W → W → Prop} {s s' : MachineState Tid Call Answer W Res}
    (h : (M.under cond).Step s s') : M.Step s s' := by
  cases h with
  | start ht hw => exact .start ht hw.1
  | run ht hw => exact .run ht hw.1
  | answer ht => exact .answer ht
  | abandon ht hw => exact .abandon ht hw.1
  | land ht hw => exact .land ht hw.1
  | ambient hw => exact .ambient hw.1

theorem Steps.weaken {cond cond' : W → W → Prop} (hcond : ∀ w w', cond w w' → cond' w w')
    {s s' : MachineState Tid Call Answer W Res} (h : (M.under cond).Steps s s') :
    (M.under cond').Steps s s' := by
  induction h with
  | refl => exact .refl
  | tail _ hstep ih => exact ih.tail (hstep.weaken hcond)

theorem Steps.of_under {cond : W → W → Prop} {s s' : MachineState Tid Call Answer W Res}
    (h : (M.under cond).Steps s s') : M.Steps s s' := by
  induction h with
  | refl => exact .refl
  | tail _ hstep ih => exact ih.tail hstep.of_under

theorem Steps.under {cond : W → W → Prop} (hcond : ∀ w w', cond w w')
    {s s' : MachineState Tid Call Answer W Res} (h : M.Steps s s') :
    (M.under cond).Steps s s' := by
  induction h with
  | refl => exact .refl
  | tail _ hstep ih => exact ih.tail (hstep.under hcond)

/-- A call that has a thread or an answer was started, and an answered one has no thread. -/
structure Accounted (s : MachineState Tid Call Answer W Res) : Prop where
  threads : ∀ t, s.threads t ≠ none → t ∈ s.started
  answers : ∀ a ∈ s.answers, a.1 ∈ s.started ∧ s.threads a.1 = none
  once : (s.answers.map Prod.fst).Nodup

private theorem Accounted.update {s : MachineState Tid Call Answer W Res} (h : Accounted s)
    {t : Tid} (ht : s.threads t ≠ none) (th : Option (Thread Call Answer Res)) (w : W) :
    Accounted ⟨w, Function.update s.threads t th, s.started, s.answers⟩ where
  threads := by
    intro t' hne
    by_cases he : t' = t
    · exact he ▸ h.threads t ht
    · exact h.threads t' (by simpa [Function.update_of_ne he] using hne)
  answers := by
    intro a ha
    obtain ⟨hstarted, hnone⟩ := h.answers a ha
    have he : a.1 ≠ t := by
      rintro rfl
      exact ht hnone
    exact ⟨hstarted, by simpa [Function.update_of_ne he] using hnone⟩
  once := h.once

theorem Accounted.step {s s' : MachineState Tid Call Answer W Res} (h : Accounted s)
    (hstep : M.Step s s') : Accounted s' := by
  cases hstep with
  | @start t c w ht hw =>
    refine ⟨?_, ?_, h.once⟩
    · intro t' hne
      by_cases he : t' = t
      · simp [he]
      · exact List.mem_append_left _ (h.threads t' (by simpa [Function.update_of_ne he] using hne))
    · intro a ha
      obtain ⟨hstarted, hnone⟩ := h.answers a ha
      have he : a.1 ≠ t := by
        rintro rfl
        exact ht hstarted
      exact ⟨List.mem_append_left _ hstarted, by simpa [Function.update_of_ne he] using hnone⟩
  | @run t c o k r w ht he => exact h.update (by simp [ht]) _ _
  | @abandon t c o k goesOn w ht ha => exact h.update (by simp [ht]) _ _
  | @land t o k r w ht he => exact h.update (by simp [ht]) _ _
  | @answer t c a ht =>
    have hne : s.threads t ≠ none := by simp [ht]
    have hkept := h.update hne none s.world
    refine ⟨hkept.threads, ?_, ?_⟩
    · intro b hb
      rcases List.mem_append.mp hb with hb | hb
      · exact hkept.answers b hb
      · obtain rfl := List.mem_singleton.mp hb
        exact ⟨h.threads t hne, Function.update_self _ _ _⟩
    · rw [List.map_append, List.nodup_append]
      refine ⟨h.once, List.pairwise_singleton _ _, ?_⟩
      rintro x hx y hy rfl
      obtain ⟨b, hb, rfl⟩ := List.mem_map.mp hx
      obtain rfl : b.1 = t := by simpa using hy
      exact hne (h.answers b hb).2
  | @ambient ended w ha =>
    refine ⟨?_, ?_, h.once⟩
    · intro t hne
      refine h.threads t ?_
      intro hnone
      simp [hnone] at hne
    · intro b hb
      obtain ⟨hstarted, hnone⟩ := h.answers b hb
      exact ⟨hstarted, by simp [hnone]⟩

/-- Calls are answered at most once. -/
theorem Reachable.accounted {w : W} {s : MachineState Tid Call Answer W Res}
    (h : M.Reachable w s) : Accounted s := by
  induction h with
  | refl =>
    refine ⟨?_, ?_, List.nodup_nil⟩
    · intro t hne
      exact (hne rfl).elim
    · intro a ha
      exact (List.not_mem_nil ha).elim
  | tail _ hstep ih => exact ih.step hstep

end Steps

variable {M}

variable (M) in
/-- Alone, thread `t` takes the program to another one, changing the world. -/
inductive Runs {α : Type} (t : Tid) : Prog Res α → W → Prog Res α → W → Prop
  | refl (p : Prog Res α) (w : W) : Runs t p w p w
  | op {o : Op} {k : Res o → Prog Res α} {r : Res o} {w w₁ w' : W} {p : Prog Res α} :
      M.exec t o r w w₁ → Runs t (k r) w₁ p w' → Runs t (.op o k) w p w'

theorem Runs.trans {α : Type} {t : Tid} {p p₁ p' : Prog Res α} {w w₁ w' : W}
    (h : M.Runs t p w p₁ w₁) (h' : M.Runs t p₁ w₁ p' w') : M.Runs t p w p' w' := by
  induction h with
  | refl => exact h'
  | op he _ ih => exact .op he (ih h')

/-- A part of a program runs inside the whole. -/
theorem Runs.bind {α β : Type} {t : Tid} {p p' : Prog Res α} {w w' : W} (f : α → Prog Res β)
    (h : M.Runs t p w p' w') : M.Runs t (p >>= f) w (p' >>= f) w' := by
  induction h with
  | refl => exact .refl _ _
  | op he _ ih => exact .op he ih

/-- The handler comes to the end with this outcome. -/
def Ends {ε α : Type} (M : Machine Tid Call Answer W Res) (t : Tid) (m : Handler Res ε α) (w : W)
    (x : Except ε α) (w' : W) : Prop := M.Runs t m.run w (.ret x) w'

section Ends

variable {ε ε' α β : Type} {t : Tid} {w w₁ w' : W}

theorem Ends.pure (a : α) : M.Ends (ε := ε) t (Pure.pure a) w (.ok a) w := .refl _ _

theorem Ends.ensure {x y : Except ε α} (h : x = y) : M.Ends t (Handler.ensure x) w y w := by
  rw [h]
  exact .refl _ _

theorem Ends.call {o : Op} {r : Res o} (h : M.exec t o r w w') :
    M.Ends (ε := ε) t (Handler.call o) w (.ok r) w' := .op h (.refl _ _)

theorem Ends.bind {m : Handler Res ε α} {f : α → Handler Res ε β} {a : α} {x : Except ε β}
    (h : M.Ends t m w (.ok a) w₁) (h' : M.Ends t (f a) w₁ x w') : M.Ends t (m >>= f) w x w' :=
  (Runs.bind _ h).trans h'

/-- An early return of the first part is one of the whole. -/
theorem Ends.bind_early {m : Handler Res ε α} {f : α → Handler Res ε β} {e : ε}
    (h : M.Ends t m w (.error e) w') : M.Ends t (m >>= f) w (.error e) w' := Runs.bind _ h

theorem Ends.outcome {m : Handler Res ε α} {x : Except ε α} (h : M.Ends t m w x w') :
    M.Ends t (m.outcome : Handler Res ε' (Except ε α)) w (.ok x) w' := Runs.bind _ h

theorem Ends.mapError {f : ε → ε'} {m : Handler Res ε α} {x : Except ε α}
    (h : M.Ends t m w x w') : M.Ends t (m.mapError f) w (x.mapError f) w' := Runs.bind _ h

theorem Ends.leaving {leave : Op} {m : Handler Res ε α} {a : α} (h : M.Ends t m w (.ok a) w') :
    M.Ends t (m.leaving leave) w (.ok a) w' := Runs.bind _ h

/-- A scope that is left early. -/
theorem Ends.leaving_early {leave : Op} {r : Res leave} {m : Handler Res ε α} {e : ε}
    (h : M.Ends t m w (.error e) w₁) (he : M.exec t leave r w₁ w') :
    M.Ends t (m.leaving leave) w (.error e) w' :=
  (Runs.bind _ h).trans (.op he (.refl _ _))

end Ends

/-- Alone, the thread comes to stand before operation `o` in world `w₁`, and when it finds
result `r` and world `w₂` after it, it comes to the end with `x` in world `w'`. -/
def Passes {α : Type} (M : Machine Tid Call Answer W Res) (t : Tid) (p : Prog Res α) (w : W)
    (o : Op) (w₁ : W) (r : Res o) (w₂ : W) (x : α) (w' : W) : Prop :=
  ∃ k, M.Runs t p w (.op o k) w₁ ∧ M.Runs t (k r) w₂ (.ret x) w'

section Passes

variable {ε ε' α β : Type} {t : Tid} {w w₀ w₁ w₂ w₃ w' : W} {o : Op} {r : Res o}

/-- An operation that can be performed is passed. -/
theorem Passes.runs {p : Prog Res α} {x : α} (h : M.Passes t p w o w₁ r w₂ x w')
    (he : M.exec t o r w₁ w₂) : M.Runs t p w (.ret x) w' := by
  obtain ⟨k, hk, hend⟩ := h
  exact hk.trans (.op he hend)

theorem Passes.prog_bind {p : Prog Res α} {f : α → Prog Res β} {x : α} {y : β}
    (h : M.Passes t p w o w₁ r w₂ x w₃) (h' : M.Runs t (f x) w₃ (.ret y) w') :
    M.Passes t (p >>= f) w o w₁ r w₂ y w' := by
  obtain ⟨k, hk, hend⟩ := h
  exact ⟨_, hk.bind f, (hend.bind f).trans h'⟩

theorem Passes.call :
    M.Passes t (Handler.call o : Handler Res ε (Res o)).run w o w r w₂ (.ok r) w₂ :=
  ⟨_, .refl _ _, .refl _ _⟩

theorem Passes.bind {m : Handler Res ε α} {f : α → Handler Res ε β} {a : α} {y : Except ε β}
    (h : M.Passes t m.run w o w₁ r w₂ (.ok a) w₃) (h' : M.Ends t (f a) w₃ y w') :
    M.Passes t (m >>= f).run w o w₁ r w₂ y w' := h.prog_bind h'

/-- The operation is in the second part. -/
theorem Ends.passes {m : Handler Res ε α} {f : α → Handler Res ε β} {a : α} {y : Except ε β}
    (h : M.Ends t m w (.ok a) w₀) (h' : M.Passes t (f a).run w₀ o w₁ r w₂ y w') :
    M.Passes t (m >>= f).run w o w₁ r w₂ y w' := by
  obtain ⟨k, hk, hend⟩ := h'
  exact ⟨k, (Runs.bind _ h).trans hk, hend⟩

theorem Passes.outcome {m : Handler Res ε α} {x : Except ε α}
    (h : M.Passes t m.run w o w₁ r w₂ x w') :
    M.Passes t (m.outcome : Handler Res ε' (Except ε α)).run w o w₁ r w₂ (.ok x) w' :=
  h.prog_bind (.refl _ _)

theorem Passes.leaving {leave : Op} {m : Handler Res ε α} {a : α}
    (h : M.Passes t m.run w o w₁ r w₂ (.ok a) w') :
    M.Passes t (m.leaving leave).run w o w₁ r w₂ (.ok a) w' := h.prog_bind (.refl _ _)

end Passes

/-- Alone, the thread comes to stand before operation `o` in world `w₁`. -/
def Reaches {α : Type} (M : Machine Tid Call Answer W Res) (t : Tid) (p : Prog Res α) (w : W)
    (o : Op) (w₁ : W) : Prop := ∃ k, M.Runs t p w (.op o k) w₁

section Reaches

variable {ε α β : Type} {t : Tid} {w w₀ w₁ : W} {o : Op}

/-- A handler of one operation stands before it. -/
theorem Reaches.call : M.Reaches t (Handler.call o : Handler Res ε (Res o)).run w o w :=
  ⟨_, .refl _ _⟩

/-- The operation is in the first part. -/
theorem Reaches.bind {p : Prog Res α} (f : α → Prog Res β) (h : M.Reaches t p w o w₁) :
    M.Reaches t (p >>= f) w o w₁ := by
  obtain ⟨k, hk⟩ := h
  exact ⟨_, hk.bind f⟩

/-- The operation is in the second part. -/
theorem Ends.reaches {m : Handler Res ε α} {f : α → Handler Res ε β} {a : α}
    (h : M.Ends t m w (.ok a) w₀) (h' : M.Reaches t (f a).run w₀ o w₁) :
    M.Reaches t (m >>= f).run w o w₁ := by
  obtain ⟨k, hk⟩ := h'
  exact ⟨k, (Runs.bind _ h).trans hk⟩

end Reaches

/-- The machine can let one thread run alone. -/
theorem Runs.steps [DecidableEq Tid] {t : Tid} {c : Call} {p p' : Prog Res Answer} {w w' : W}
    (h : M.Runs t p w p' w') (threads : Tid → Option (Thread Call Answer Res))
    (started : List Tid) (answers : List (Tid × Call × Answer)) :
    M.Steps ⟨w, Function.update threads t (some (.running c p)), started, answers⟩
      ⟨w', Function.update threads t (some (.running c p')), started, answers⟩ := by
  induction h with
  | refl => exact .refl
  | @op o k r w w₁ w' p he _ ih =>
    have hstep := Step.run (M := M) (s := ⟨w, Function.update threads t
      (some (.running c (.op o k))), started, answers⟩) (Function.update_self t _ threads) he
    rw [Function.update_idem] at hstep
    exact .head hstep ih

/-- A thread that was just updated is abandoned at its operation. -/
theorem Step.abandoned [DecidableEq Tid] {t : Tid} {c : Call} {o : Op} {k : Res o → Prog Res Answer}
    {goesOn : Bool} {w w' : W} (h : M.abandon t o goesOn w w')
    (threads : Tid → Option (Thread Call Answer Res)) (started : List Tid)
    (answers : List (Tid × Call × Answer)) :
    M.Step ⟨w, Function.update threads t (some (.running c (.op o k))), started, answers⟩
      ⟨w', Function.update threads t (if goesOn then Thread.remaining (M.leftover o) else none),
        started, answers⟩ := by
  have hstep := Step.abandon (M := M) (s := ⟨w, Function.update threads t
    (some (.running c (.op o k))), started, answers⟩) (Function.update_self t _ threads) h
  rw [Function.update_idem] at hstep
  exact hstep

/-- What goes on in a thread that was just updated takes effect. -/
theorem Step.landed [DecidableEq Tid] {t : Tid} {o : Op} {k : Res o → Prog Res Unit} {r : Res o}
    {w w' : W} (h : M.exec t o r w w') (threads : Tid → Option (Thread Call Answer Res))
    (started : List Tid) (answers : List (Tid × Call × Answer)) :
    M.Step ⟨w, Function.update threads t (some (.detached (.op o k))), started, answers⟩
      ⟨w', Function.update threads t (Thread.remaining (k r)), started, answers⟩ := by
  have hstep := Step.land (M := M) (s := ⟨w, Function.update threads t
    (some (.detached (.op o k))), started, answers⟩) (Function.update_self t _ threads) h
  rw [Function.update_idem] at hstep
  exact hstep

/-- A call arrives, and the machine lets it run alone up to a point. -/
theorem Runs.arrives [DecidableEq Tid] {t : Tid} {c : Call} {p : Prog Res Answer} {w w₁ w' : W}
    (h : M.Runs t (M.program t c) w₁ p w') (hstart : M.start t c w w₁)
    (threads : Tid → Option (Thread Call Answer Res)) {started : List Tid} (ht : t ∉ started)
    (answers : List (Tid × Call × Answer)) :
    M.Steps ⟨w, threads, started, answers⟩
      ⟨w', Function.update threads t (some (.running c p)), started ++ [t], answers⟩ :=
  .head (Step.start (s := ⟨w, threads, started, answers⟩) ht hstart) (h.steps _ _ _)

/-- A call arrives, runs alone to its end and is answered. -/
theorem Runs.answered [DecidableEq Tid] {t : Tid} {c : Call} {a : Answer} {w w₁ w' : W}
    (h : M.Runs t (M.program t c) w₁ (.ret a) w') (hstart : M.start t c w w₁)
    (threads : Tid → Option (Thread Call Answer Res)) {started : List Tid} (ht : t ∉ started)
    (answers : List (Tid × Call × Answer)) :
    M.Steps ⟨w, threads, started, answers⟩
      ⟨w', Function.update threads t none, started ++ [t], answers ++ [(t, c, a)]⟩ := by
  refine .tail (h.arrives hstart threads ht answers) ?_
  have hstep := Step.answer (M := M) (s := ⟨w', Function.update threads t
    (some (.running c (.ret a))), started ++ [t], answers⟩) (Function.update_self t _ threads)
  rw [Function.update_idem] at hstep
  exact hstep

end Machine

end Runs

end Veriai
