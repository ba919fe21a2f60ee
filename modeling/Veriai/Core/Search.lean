import Mathlib.Data.List.Infix

/-!
# Searching a text for a marker

The first and the last occurrence of a marker in a text, as a text search
reports them. A marker that overlaps none of its own copies is found exactly
where it was put, as long as the text before it, or behind it, is free of it.
-/

namespace Veriai.Search

variable {α : Type} {pat text a b t : List α} {i : Nat}

/-- No occurrence of the marker that begins before `t` reaches into it. -/
def Apart (pat t : List α) : Prop := ∀ n < pat.length, 0 < n → ¬ pat.drop n <+: t

/-- The marker overlaps none of its own copies. -/
def Borderless (pat : List α) : Prop := Apart pat pat

/-- Only the beginning of `t` matters. -/
theorem Apart.append (h : Apart pat t) (hlen : pat.length ≤ t.length + 1) (b : List α) :
    Apart pat (t ++ b) := by
  intro n hn hpos hpre
  refine h n hn hpos ?_
  refine List.prefix_of_prefix_length_le hpre (List.prefix_append t b) ?_
  rw [List.length_drop]
  omega

/-- At the beginning of `a ++ t` the marker lies within `a` or reaches from `a` into `t`. -/
theorem prefix_append_cases (h : pat <+: a ++ t) :
    pat <+: a ∨ a.length < pat.length ∧ pat.drop a.length <+: t := by
  obtain ⟨u, hu⟩ := h
  rcases List.append_eq_append_iff.mp hu with ⟨p, rfl, rfl⟩ | ⟨p, rfl, rfl⟩
  · exact .inl (List.prefix_append pat p)
  · cases p with
    | nil => exact .inl (by simp)
    | cons c p =>
      refine .inr ⟨by simp, ?_⟩
      rw [List.drop_left]
      exact List.prefix_append (c :: p) u

/-- A text free of the marker stays so in front of `t`. -/
theorem not_infix_append (ha : ¬ pat <:+: a) (ht : ¬ pat <:+: t) (hapart : Apart pat t) :
    ¬ pat <:+: a ++ t := by
  intro h
  rcases List.infix_append_iff_ne_nil.mp h with h | h | ⟨l, r, hl, hr, rfl, _, hpre⟩
  · exact ha h
  · exact ht h
  · refine hapart l.length ?_ (List.length_pos_iff.mpr hl) ?_
    · rw [List.length_append]
      exact Nat.lt_add_of_pos_right (List.length_pos_iff.mpr hr)
    · rw [List.drop_left]
      exact hpre

/-- A text free of the marker stays so behind `a`, when no beginning of the marker ends `a`. -/
theorem not_infix_append_left (ha : ¬ pat <:+: a) (ht : ¬ pat <:+: t)
    (hleft : ∀ n < pat.length, 0 < n → ¬ pat.take n <:+ a) : ¬ pat <:+: a ++ t := by
  intro h
  rcases List.infix_append_iff_ne_nil.mp h with h | h | ⟨l, r, hl, hr, rfl, hsuf, _⟩
  · exact ha h
  · exact ht h
  · refine hleft l.length ?_ (List.length_pos_iff.mpr hl) ?_
    · rw [List.length_append]
      exact Nat.lt_add_of_pos_right (List.length_pos_iff.mpr hr)
    · rw [List.take_left]
      exact hsuf

variable [DecidableEq α]

instance (pat t : List α) : Decidable (Apart pat t) :=
  inferInstanceAs (Decidable (∀ n < pat.length, 0 < n → ¬ pat.drop n <+: t))

instance (pat : List α) : Decidable (Borderless pat) := inferInstanceAs (Decidable (Apart pat pat))

/-- The position of the first occurrence. -/
def find (pat : List α) : List α → Option Nat
  | [] => if pat = [] then some 0 else none
  | c :: text => if pat <+: c :: text then some 0 else (find pat text).map (· + 1)

theorem find_eq_none_iff : find pat text = none ↔ ¬ pat <:+: text := by
  induction text with
  | nil => simp [find]
  | cons c text ih =>
    rw [find, List.infix_cons_iff]
    by_cases h : pat <+: c :: text
    · simp [h]
    · simp [h, ih]

theorem find_of_prefix (h : pat <+: text) : find pat text = some 0 := by
  cases text with
  | nil => simp [find, List.prefix_nil.mp h]
  | cons c text => rw [find, if_pos h]

theorem prefix_drop_of_find (h : find pat text = some i) : pat <+: text.drop i := by
  induction text generalizing i with
  | nil =>
    rw [find] at h
    split at h
    · simp [*]
    · cases h
  | cons c text ih =>
    rw [find] at h
    split at h
    · obtain rfl := Option.some.inj h
      assumption
    · obtain ⟨j, hj, rfl⟩ := Option.map_eq_some_iff.mp h
      exact ih hj

/-- Behind a text free of it, the marker is found where it was put. -/
theorem find_append (ha : ¬ pat <:+: a) (ht : pat <+: t) (hapart : Apart pat t) :
    find pat (a ++ t) = some a.length := by
  induction a with
  | nil => exact find_of_prefix ht
  | cons c a ih =>
    have hnot : ¬ pat <+: c :: (a ++ t) := by
      intro h
      rw [← List.cons_append] at h
      rcases prefix_append_cases h with h | ⟨hlt, hdrop⟩
      · exact ha h.isInfix
      · exact hapart _ hlt (by simp) hdrop
    rw [List.cons_append, find, if_neg hnot, ih fun h => ha (List.infix_cons h)]
    rfl

/-- No occurrence lies before the first one. -/
theorem find_le (h : find pat (a ++ t) = some i) (ht : pat <+: t) : i ≤ a.length := by
  induction a generalizing i with
  | nil =>
    rw [List.nil_append, find_of_prefix ht] at h
    obtain rfl := Option.some.inj h
    exact Nat.le_refl 0
  | cons c a ih =>
    rw [List.cons_append, find] at h
    split at h
    · obtain rfl := Option.some.inj h
      exact Nat.zero_le _
    · obtain ⟨j, hj, rfl⟩ := Option.map_eq_some_iff.mp h
      exact Nat.succ_le_succ (ih hj)

/-- The first occurrence does not lie within a text free of the marker. -/
theorem lt_of_find (h : find pat (a ++ t) = some i) (ha : ¬ pat <:+: a) :
    a.length < i + pat.length := by
  by_contra hle
  have hpre := prefix_drop_of_find h
  rw [List.drop_append_of_le_length (by omega)] at hpre
  rcases prefix_append_cases hpre with hpre | ⟨hlt, _⟩
  · exact ha (hpre.isInfix.trans (List.drop_suffix i a).isInfix)
  · rw [List.length_drop] at hlt
    omega

/-- The text before a marker put behind it, and the text behind, are determined. -/
theorem append_marker_inj (hb : Borderless pat) {a' b' : List α} (ha : ¬ pat <:+: a)
    (ha' : ¬ pat <:+: a') (h : a ++ (pat ++ b) = a' ++ (pat ++ b')) : a = a' ∧ b = b' := by
  have hfind : ∀ {x y : List α}, ¬ pat <:+: x → find pat (x ++ (pat ++ y)) = some x.length :=
    fun hx => find_append hx (List.prefix_append ..) (hb.append (by omega) _)
  have hlen : a.length = a'.length := by
    have hpos := hfind ha (y := b)
    rw [h, hfind ha'] at hpos
    exact (Option.some.inj hpos).symm
  obtain ⟨rfl, hrest⟩ := List.append_inj h hlen
  exact ⟨rfl, List.append_cancel_left hrest⟩

/-- The position of the last occurrence. -/
def rfind (pat : List α) : List α → Option Nat
  | [] => if pat = [] then some 0 else none
  | c :: text =>
    match rfind pat text with
    | some i => some (i + 1)
    | none => if pat <+: c :: text then some 0 else none

theorem rfind_eq_none_iff : rfind pat text = none ↔ ¬ pat <:+: text := by
  induction text with
  | nil => simp [rfind]
  | cons c text ih =>
    rw [rfind, List.infix_cons_iff]
    cases hr : rfind pat text with
    | none => simp [ih.mp hr]
    | some i =>
      have hoccurs : pat <:+: text := by
        by_contra hnot
        rw [ih.mpr hnot] at hr
        cases hr
      simp [hoccurs]

theorem prefix_drop_of_rfind (h : rfind pat text = some i) : pat <+: text.drop i := by
  induction text generalizing i with
  | nil =>
    rw [rfind] at h
    split at h
    · simp [*]
    · cases h
  | cons c text ih =>
    rw [rfind] at h
    split at h
    · rename_i j hj
      obtain rfl := Option.some.inj h
      exact ih hj
    · split at h
      · obtain rfl := Option.some.inj h
        assumption
      · cases h

/-- Where the marker occurs in `t`, what stands before `t` is not searched. -/
theorem rfind_append_left (h : pat <:+: t) (a : List α) :
    rfind pat (a ++ t) = (rfind pat t).map (· + a.length) := by
  obtain ⟨i, hi⟩ : ∃ i, rfind pat t = some i :=
    Option.ne_none_iff_exists'.mp fun hnone => rfind_eq_none_iff.mp hnone h
  induction a with
  | nil => simp
  | cons c a ih =>
    rw [List.cons_append, rfind, ih, hi]
    simp [Nat.add_assoc]

/-- In front of a text free of it, the marker is found where it was put. -/
theorem rfind_append (hb : Borderless pat) (hne : pat ≠ []) (ht : ¬ pat <:+: t) (a : List α) :
    rfind pat (a ++ (pat ++ t)) = some a.length := by
  obtain ⟨c, rest, rfl⟩ := List.exists_cons_of_ne_nil hne
  have hrest : ¬ (c :: rest) <:+: rest ++ t := by
    intro h
    rcases List.infix_append_iff_ne_nil.mp h with h | h | ⟨l, r, hl, hr, heq, hsuf, _⟩
    · exact absurd h.length_le (by simp)
    · exact ht h
    · -- the part in front of `t` would be a border of the marker
      have hlen := hsuf.length_le
      have hpos := List.length_pos_iff.mpr hl
      have hdrop : (c :: rest).drop (rest.length + 1 - l.length) = l := by
        have hsuf' := hsuf.trans (List.suffix_cons c rest)
        exact (List.suffix_iff_eq_drop.mp hsuf').symm
      refine hb (rest.length + 1 - l.length) ?_ (by omega) ?_
      · rw [List.length_cons]
        omega
      · rw [hdrop, heq]
        exact List.prefix_append l r
  have hzero : rfind (c :: rest) (c :: rest ++ t) = some 0 := by
    rw [List.cons_append, rfind, rfind_eq_none_iff.mpr hrest]
    exact if_pos (List.prefix_append ..)
  rw [rfind_append_left (List.prefix_append ..).isInfix, hzero]
  simp

end Veriai.Search
