import Mathlib.Data.Finmap
import Mathlib.Order.Basic

/-!
# Ledgers of last-seen numbers

A ledger keeps, for each key, the last number recorded under it. A number is
fresh when it lies above the recorded one; recording a fresh number only moves
the ledger forward. A log of such recordings is strictly increasing under each
key, and everything in it is accounted for by the ledger it leads to.
-/

namespace Veriai

variable {K N : Type} [DecidableEq K]

/-- The last number recorded under each key. -/
abbrev Ledger (K N : Type) := Finmap fun _ : K => N

namespace Ledger

/-- The number lies above the one recorded under the key, if any. -/
def Fresh [LT N] (m : Ledger K N) (k : K) (n : N) : Prop :=
  ∀ last, m.lookup k = some last → last < n

/-- Every key of the first ledger is in the second, with a number at least as large. -/
def Below [LE N] (m m' : Ledger K N) : Prop :=
  ∀ k n, m.lookup k = some n → ∃ n', m'.lookup k = some n' ∧ n ≤ n'

section Order

variable [Preorder N] {m m' m'' : Ledger K N} {k : K} {n : N}

theorem Below.refl (m : Ledger K N) : Below m m := fun _ n h => ⟨n, h, le_rfl⟩

theorem Below.trans (h : Below m m') (h' : Below m' m'') : Below m m'' := by
  intro k n hk
  obtain ⟨n', hk', hle⟩ := h k n hk
  obtain ⟨n'', hk'', hle'⟩ := h' k n' hk'
  exact ⟨n'', hk'', hle.trans hle'⟩

/-- Recording a fresh number moves the ledger forward. -/
theorem Fresh.below_insert (h : Fresh m k n) : Below m (m.insert k n) := by
  intro k' n' hk'
  by_cases he : k' = k
  · subst he
    exact ⟨n, Finmap.lookup_insert m, (h n' hk').le⟩
  · exact ⟨n', (Finmap.lookup_insert_of_ne m he).trans hk', le_rfl⟩

/-- Freshness after a recording: above the new number under its key, as before elsewhere. -/
theorem fresh_insert_iff {k' : K} {n' : N} :
    Fresh (m.insert k n) k' n' ↔ if k' = k then n < n' else Fresh m k' n' := by
  unfold Fresh
  by_cases he : k' = k
  · subst he
    rw [if_pos rfl, Finmap.lookup_insert]
    simp
  · rw [if_neg he, Finmap.lookup_insert_of_ne m he]

/-- What is fresh in a later ledger lies above every number of the earlier one. -/
theorem Below.lt_of_fresh {last : N} (h : Below m m') (hf : Fresh m' k n)
    (hl : m.lookup k = some last) : last < n := by
  obtain ⟨n', hk', hle⟩ := h k last hl
  exact hle.trans_lt (hf n' hk')

end Order

/-- The recordings that lead from one ledger to another, in order. -/
inductive Log [LT N] (m : Ledger K N) : Ledger K N → List (K × N) → Prop
  | nil : Log m m []
  | snoc {m' entries k n} : Log m m' entries → Fresh m' k n →
      Log m (m'.insert k n) (entries ++ [(k, n)])

namespace Log

variable [Preorder N] {m m' : Ledger K N} {entries : List (K × N)}

theorem forward (h : Log m m' entries) : Below m m' := by
  induction h with
  | nil => exact Below.refl m
  | snoc _ hf ih => exact ih.trans hf.below_insert

theorem eq_foldl (h : Log m m' entries) :
    m' = entries.foldl (fun m entry => m.insert entry.1 entry.2) m := by
  induction h with
  | nil => rfl
  | snoc _ _ ih =>
    rw [List.foldl_append, ← ih]
    rfl

/-- The recordings determine the final ledger. -/
theorem unique {m'' : Ledger K N} (h : Log m m' entries) (h' : Log m m'' entries) : m' = m'' := by
  rw [h.eq_foldl, h'.eq_foldl]

/-- Every recording is accounted for by the final ledger. -/
theorem recorded (h : Log m m' entries) {k : K} {n : N} (hm : (k, n) ∈ entries) :
    ∃ n', m'.lookup k = some n' ∧ n ≤ n' := by
  induction h with
  | nil => cases hm
  | @snoc m' entries k' n' _ hf ih =>
    rcases List.mem_append.mp hm with hm | hm
    · obtain ⟨x, hx, hle⟩ := ih hm
      obtain ⟨y, hy, hle'⟩ := hf.below_insert k x hx
      exact ⟨y, hy, hle.trans hle'⟩
    · obtain ⟨rfl, rfl⟩ := Prod.mk.inj (List.mem_singleton.mp hm)
      exact ⟨n, Finmap.lookup_insert m', le_rfl⟩

/-- What is fresh after a log: fresh before it, and above everything recorded under its key. -/
theorem fresh_iff (h : Log m m' entries) {k : K} {n : N} :
    Fresh m' k n ↔ Fresh m k n ∧ ∀ e ∈ entries, e.1 = k → e.2 < n := by
  constructor
  · intro hf
    constructor
    · intro last hl
      exact h.forward.lt_of_fresh hf hl
    · intro e he hk
      obtain ⟨x, hx, hle⟩ := h.recorded (n := e.2) (k := k) (hk ▸ he)
      exact hle.trans_lt (hf x hx)
  · rintro ⟨hf, hall⟩
    induction h with
    | nil => exact hf
    | @snoc m' entries k' n' _ _ ih =>
      rw [fresh_insert_iff]
      by_cases hk : k = k'
      · rw [if_pos hk]
        exact hall (k', n') (by simp) hk.symm
      · rw [if_neg hk]
        exact ih fun e he => hall e (List.mem_append_left _ he)

end Log

end Ledger

end Veriai
