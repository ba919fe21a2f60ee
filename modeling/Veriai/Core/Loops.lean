import Mathlib.Control.Monad.Basic
import Veriai.Core.Checklist

/-!
# Loops that may exit early

A loop over a list whose body may fail keeps what every completed pass of the
body keeps, and follows another loop when the bodies follow each other.
-/

namespace Veriai

variable {σ τ ε ε' α : Type}

/-- What every pass of the body keeps, a completed loop keeps. -/
theorem foldlM_invariant {P : σ → Prop} {f : σ → α → Except ε σ}
    (step : ∀ s a s', P s → f s a = .ok s' → P s') {l : List α} {s s' : σ} (hs : P s)
    (h : l.foldlM f s = .ok s') : P s' := by
  induction l generalizing s with
  | nil =>
    obtain rfl := Except.ok.inj h
    exact hs
  | cons a l ih =>
    rw [List.foldlM_cons, bind_eq_ok] at h
    obtain ⟨s₁, hfirst, hrest⟩ := h
    exact ih (step s a s₁ hs hfirst) hrest

/-- A completed loop is followed by a loop whose body follows each completed pass. -/
theorem foldlM_simulates {R : σ → τ → Prop} {f : σ → α → Except ε σ} {g : τ → α → Except ε' τ}
    (step : ∀ s t a s', R s t → f s a = .ok s' → ∃ t', g t a = .ok t' ∧ R s' t') {l : List α}
    {s s' : σ} {t : τ} (hst : R s t) (h : l.foldlM f s = .ok s') :
    ∃ t', l.foldlM g t = .ok t' ∧ R s' t' := by
  induction l generalizing s t with
  | nil =>
    obtain rfl := Except.ok.inj h
    exact ⟨t, rfl, hst⟩
  | cons a l ih =>
    rw [List.foldlM_cons, bind_eq_ok] at h
    obtain ⟨s₁, hfirst, hrest⟩ := h
    obtain ⟨t₁, ht₁, hrel⟩ := step s t a s₁ hst hfirst
    obtain ⟨t', ht', hrel'⟩ := ih hrel hrest
    refine ⟨t', ?_, hrel'⟩
    rw [List.foldlM_cons, ht₁]
    exact ht'

/-- A loop whose body fails or follows a function comes to the fold of that function. -/
theorem foldlM_eq_ok {P : α → Prop} {f : σ → α → Except ε σ} {g : σ → α → σ}
    (step : ∀ s a s', f s a = .ok s' ↔ P a ∧ s' = g s a) {l : List α} {s s' : σ} :
    l.foldlM f s = .ok s' ↔ (∀ a ∈ l, P a) ∧ s' = l.foldl g s := by
  induction l generalizing s with
  | nil => simp [pure, Except.pure, eq_comm]
  | cons a l ih =>
    rw [List.foldlM_cons, List.foldl_cons, List.forall_mem_cons, bind_eq_ok]
    constructor
    · rintro ⟨s₁, hfirst, hrest⟩
      obtain ⟨ha, rfl⟩ := (step s a s₁).mp hfirst
      obtain ⟨hl, hs'⟩ := ih.mp hrest
      exact ⟨⟨ha, hl⟩, hs'⟩
    · rintro ⟨⟨ha, hl⟩, hs'⟩
      exact ⟨g s a, (step s a _).mpr ⟨ha, rfl⟩, ih.mpr ⟨hl, hs'⟩⟩

/-- Elements left out of a loop are those its body skips. -/
theorem foldlM_filter (p : α → Bool) (f : σ → α → Except ε σ) (l : List α) (s : σ) :
    (l.filter p).foldlM f s = l.foldlM (fun s a => if p a then f s a else .ok s) s := by
  induction l generalizing s with
  | nil => rfl
  | cons a l ih =>
    cases hp : p a with
    | true =>
      rw [List.filter_cons_of_pos hp, List.foldlM_cons, List.foldlM_cons, if_pos hp]
      cases hf : f s a with
      | error e => rfl
      | ok s₁ => exact ih s₁
    | false =>
      rw [List.filter_cons_of_neg (by simp [hp]), List.foldlM_cons, hp, if_neg Bool.false_ne_true]
      exact ih s

end Veriai
