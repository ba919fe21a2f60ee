import Mathlib.Control.Monad.Basic

/-!
# Checks that may exit early

A fallible computation succeeds exactly when its parts do. A checked
computation moreover reads and extends a report; it either yields a value
with the extended report or exits early. `Yields` and `Exits` name the two
outcomes, with one inversion rule for each way computations are combined, so
that a long sequence of checks is taken apart check by check.
-/

namespace Veriai

variable {ρ ε ε' α β : Type}

section Results

/-- A sequence succeeds exactly when both parts do. -/
theorem bind_eq_ok {x : Except ε α} {f : α → Except ε β} {b : β} :
    x >>= f = .ok b ↔ ∃ a, x = .ok a ∧ f a = .ok b := by
  cases x with
  | error e => simp [bind, Except.bind]
  | ok a => simp [bind, Except.bind]

/-- A part that has succeeded hands on its value. -/
theorem ok_bind (a : α) (f : α → Except ε β) : Except.ok a >>= f = f a := rfl

/-- Rewording an error does not change when a computation succeeds. -/
@[simp] theorem mapError_eq_ok {x : Except ε α} {f : ε → ε'} {a : α} :
    x.mapError f = .ok a ↔ x = .ok a := by
  cases x <;> simp [Except.mapError]

/-- `if condition { return Err(error); }`. -/
def refuseIf (condition : Prop) [Decidable condition] (error : ε) : Except ε Unit :=
  if condition then .error error else .ok ()

/-- What is refused under a condition goes on where the condition is false. -/
@[simp] theorem refuseIf_eq_ok {condition : Prop} [Decidable condition] {error : ε} {u : Unit} :
    refuseIf condition error = .ok u ↔ ¬ condition := by
  by_cases h : condition <;> simp [refuseIf, h]

/-- `ok_or`: the value, or the error without one. -/
def okOr (value : Option α) (error : ε) : Except ε α :=
  match value with
  | some a => .ok a
  | none => .error error

/-- A value is taken where there is one. -/
@[simp] theorem okOr_eq_ok {value : Option α} {error : ε} {a : α} :
    okOr value error = .ok a ↔ value = some a := by
  cases value <;> simp [okOr]

/-- A sequence fails when its first part does, or the second after it. -/
theorem bind_eq_error {x : Except ε α} {f : α → Except ε β} {e : ε} :
    x >>= f = .error e ↔ x = .error e ∨ ∃ a, x = .ok a ∧ f a = .error e := by
  cases x with
  | error e' => simp [bind, Except.bind]
  | ok a => simp [bind, Except.bind]

/-- An error that was reworded. -/
theorem mapError_eq_error {x : Except ε α} {f : ε → ε'} {e : ε'} :
    x.mapError f = .error e ↔ ∃ e', x = .error e' ∧ f e' = e := by
  cases x <;> simp [Except.mapError]

/-- What is refused under a condition is refused with its error. -/
theorem refuseIf_eq_error {condition : Prop} [Decidable condition] {error e : ε} :
    refuseIf condition error = .error e ↔ condition ∧ error = e := by
  by_cases h : condition <;> simp [refuseIf, h]

/-- A missing value is an error. -/
theorem okOr_eq_error {value : Option α} {error e : ε} :
    okOr value error = .error e ↔ value = none ∧ error = e := by
  cases value <;> simp [okOr]

/-- Dropping the error keeps the value. -/
@[simp] theorem toOption_eq_some {x : Except ε α} {a : α} : x.toOption = some a ↔ x = .ok a := by
  cases x <;> simp [Except.toOption]

/-- A success has a value. -/
theorem exists_of_isOk {x : Except ε α} (h : x.isOk = true) : ∃ a, x = .ok a := by
  cases x with
  | error e => cases h
  | ok a => exact ⟨a, rfl⟩

end Results

/-- A computation over a report `ρ` that may exit with `ε`. -/
abbrev Checked (ρ ε α : Type) := StateT ρ (Except ε) α

namespace Checked

/-- From report `r`, the computation yields `a` and leaves report `r'`. -/
def Yields (m : Checked ρ ε α) (r : ρ) (a : α) (r' : ρ) : Prop := m.run r = .ok (a, r')

/-- From report `r`, the computation exits early with `e`. -/
def Exits (m : Checked ρ ε α) (r : ρ) (e : ε) : Prop := m.run r = .error e

/-- A result leaves the report. -/
theorem yields_pure {a b : α} {r r' : ρ} :
    Yields (ε := ε) (pure a) r b r' ↔ b = a ∧ r' = r := by
  simp only [Yields, StateT.run_pure]
  constructor
  · intro h
    injection h with h
    injection h with ha hr
    exact ⟨ha.symm, hr.symm⟩
  · rintro ⟨rfl, rfl⟩
    rfl

/-- A sequence yields exactly when both parts do. -/
theorem yields_bind {m : Checked ρ ε α} {f : α → Checked ρ ε β} {r r' : ρ} {b : β} :
    Yields (m >>= f) r b r' ↔ ∃ a r₁, Yields m r a r₁ ∧ Yields (f a) r₁ b r' := by
  simp only [Yields, StateT.run_bind]
  cases hm : m.run r with
  | error e => simp [bind, Except.bind]
  | ok p =>
    obtain ⟨a, r₁⟩ := p
    simp only [bind, Except.bind, Except.ok.injEq, Prod.mk.injEq]
    constructor
    · intro h
      exact ⟨a, r₁, ⟨rfl, rfl⟩, h⟩
    · rintro ⟨_, _, ⟨rfl, rfl⟩, h⟩
      exact h

/-- A result is no exit. -/
theorem exits_pure {a : α} {r : ρ} {e : ε} : ¬ Exits (pure a : Checked ρ ε α) r e := by
  intro h
  cases h

/-- A sequence exits in its first part, or in its second after the first yields. -/
theorem exits_bind {m : Checked ρ ε α} {f : α → Checked ρ ε β} {r : ρ} {e : ε} :
    Exits (m >>= f) r e ↔ Exits m r e ∨ ∃ a r₁, Yields m r a r₁ ∧ Exits (f a) r₁ e := by
  simp only [Exits, Yields, StateT.run_bind]
  cases hm : m.run r with
  | error e => simp [bind, Except.bind]
  | ok p =>
    obtain ⟨a, r₁⟩ := p
    simp only [bind, Except.bind, reduceCtorEq, false_or, Except.ok.injEq, Prod.mk.injEq]
    constructor
    · intro h
      exact ⟨a, r₁, ⟨rfl, rfl⟩, h⟩
    · rintro ⟨_, _, ⟨rfl, rfl⟩, h⟩
      exact h

/-- From a report with `pre`, the computation yields a report with `post` or exits with `P`. -/
structure Carries (P : ε → Prop) (pre post : ρ → Prop) (m : Checked ρ ε α) : Prop where
  yields : ∀ r a r', pre r → Yields m r a r' → post r'
  exits : ∀ r e, pre r → Exits m r e → P e

/-- A result carries every report. -/
theorem Carries.pure {P : ε → Prop} {pre : ρ → Prop} (a : α) :
    Carries P pre pre (Pure.pure a : Checked ρ ε α) where
  yields r b r' hr h := by
    obtain ⟨_, rfl⟩ := yields_pure.mp h
    exact hr
  exits r e _ h := (exits_pure h).elim

/-- What the first part leaves, the second takes up. -/
theorem Carries.bind {P : ε → Prop} {pre mid post : ρ → Prop} {m : Checked ρ ε α}
    {f : α → Checked ρ ε β} (hm : Carries P pre mid m) (hf : ∀ a, Carries P mid post (f a)) :
    Carries P pre post (m >>= f) where
  yields r b r' hr h := by
    obtain ⟨a, r₁, hfirst, hsecond⟩ := yields_bind.mp h
    exact (hf a).yields r₁ b r' (hm.yields r a r₁ hr hfirst) hsecond
  exits r e hr h := by
    rcases exits_bind.mp h with h | ⟨a, r₁, hfirst, hsecond⟩
    · exact hm.exits r e hr h
    · exact (hf a).exits r₁ e (hm.yields r a r₁ hr hfirst) hsecond

end Checked

end Veriai
