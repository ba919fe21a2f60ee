import Mathlib.Data.List.Basic
import Mathlib.Logic.Function.Basic
import Mathlib.Tactic.Common

/-!
# Hash trees built level by level

A nonempty list is folded level by level: neighbours are combined in pairs, an
odd last element with itself, until one element is left. Building with the free
combination gives the hash tree behind the digest built with the hash. Two
trees with one digest are equal, or two different hashed strings collide, or a
leaf of one is the join of two digests of the other.
-/

namespace Veriai

section Levels

variable {α β γ : Type}

/-- One level up: neighbours in pairs, an odd last element with itself. -/
def pairUp (f : α → α → γ) : List α → List γ
  | a :: b :: rest => f a b :: pairUp f rest
  | [a] => [f a a]
  | [] => []

/-- A level has half as many elements as the one below, rounded up. -/
theorem length_pairUp (f : α → α → γ) (l : List α) : (pairUp f l).length = (l.length + 1) / 2 := by
  induction l using pairUp.induct with
  | case1 a b rest ih =>
    simp only [pairUp, List.length_cons, ih]
    omega
  | case2 a => simp [pairUp]
  | case3 => simp [pairUp]

/-- A map over the results of a level. -/
theorem map_pairUp (g : γ → β) (f : α → α → γ) (l : List α) :
    (pairUp f l).map g = pairUp (fun a b => g (f a b)) l := by
  induction l using pairUp.induct with
  | case1 a b rest ih => simp only [pairUp, List.map_cons, ih]
  | case2 a => rfl
  | case3 => rfl

/-- A map over the elements of the level below. -/
theorem pairUp_map (f : β → β → γ) (g : α → β) (l : List α) :
    pairUp f (l.map g) = pairUp (fun a b => f (g a) (g b)) l := by
  induction l using pairUp.induct with
  | case1 a b rest ih => simp only [pairUp, List.map_cons, ih]
  | case2 a => rfl
  | case3 => rfl

/-- An element of a level combines two elements of the level below. -/
theorem mem_pairUp {f : α → α → γ} {l : List α} {c : γ} (h : c ∈ pairUp f l) :
    ∃ a ∈ l, ∃ b ∈ l, c = f a b := by
  induction l using pairUp.induct with
  | case1 a b rest ih =>
    rcases List.mem_cons.mp h with rfl | h
    · exact ⟨a, by simp, b, by simp, rfl⟩
    · obtain ⟨x, hx, y, hy, rfl⟩ := ih h
      exact ⟨x, by simp [hx], y, by simp [hy], rfl⟩
  | case2 a =>
    obtain rfl := List.mem_singleton.mp h
    exact ⟨a, by simp, a, by simp, rfl⟩
  | case3 => cases h

/-- Levels are built while more than one element is left. -/
def climb (f : α → α → α) (l : List α) : List α :=
  if 1 < l.length then climb f (pairUp f l) else l
termination_by l.length
decreasing_by
  rw [length_pairUp]
  omega

/-- A level of several is paired up first. -/
theorem climb_of_lt {f : α → α → α} {l : List α} (h : 1 < l.length) :
    climb f l = climb f (pairUp f l) := by
  rw [climb, if_pos h]

/-- A level of one is the top. -/
theorem climb_of_le {f : α → α → α} {l : List α} (h : l.length ≤ 1) : climb f l = l := by
  rw [climb, if_neg (Nat.not_lt.mpr h)]

/-- What is left of a nonempty list is one element. -/
theorem length_climb (f : α → α → α) {l : List α} (h : l ≠ []) : (climb f l).length = 1 := by
  induction l using climb.induct f with
  | case1 l hlt ih =>
    have hne : pairUp f l ≠ [] := by
      intro hnil
      have hlen := length_pairUp f l
      rw [hnil, List.length_nil] at hlen
      omega
    rw [climb_of_lt hlt]
    exact ih hne
  | case2 l hle =>
    have hpos := List.length_pos_iff.mpr h
    rw [climb_of_le (by omega)]
    omega

/-- The climb does not run empty. -/
theorem climb_ne_nil (f : α → α → α) {l : List α} (h : l ≠ []) : climb f l ≠ [] := by
  have hlen := length_climb f h
  intro hnil
  rw [hnil] at hlen
  cases hlen

/-- A homomorphism of the combinations carries whole constructions over. -/
theorem map_climb {f : α → α → α} {f' : β → β → β} {g : α → β}
    (hg : ∀ a b, g (f a b) = f' (g a) (g b)) (l : List α) :
    (climb f l).map g = climb f' (l.map g) := by
  induction l using climb.induct f with
  | case1 l hlt ih =>
    have hlevel : (pairUp f l).map g = pairUp f' (l.map g) := by
      rw [map_pairUp, pairUp_map]
      simp only [hg]
    have hlt' : 1 < (l.map g).length := by rwa [List.length_map]
    rw [climb_of_lt hlt, ih, hlevel, climb_of_lt hlt']
  | case2 l hle =>
    rw [climb_of_le (by omega), climb_of_le (by rw [List.length_map]; omega)]

/-- A property of all elements that combination keeps holds of what is left. -/
theorem climb_induction {f : α → α → α} {P : List α → Prop}
    (step : ∀ l, 1 < l.length → P l → P (pairUp f l)) {l : List α} (h : P l) : P (climb f l) := by
  induction l using climb.induct f with
  | case1 l hlt ih =>
    rw [climb_of_lt hlt]
    exact ih (step l hlt h)
  | case2 l hle =>
    rw [climb_of_le (by omega)]
    exact h

/-- The one element left of a nonempty list. -/
def top (f : α → α → α) (l : List α) (h : l ≠ []) : α := (climb f l).head (climb_ne_nil f h)

/-- The climb ends with the top alone. -/
theorem climb_eq_top (f : α → α → α) {l : List α} (h : l ≠ []) : climb f l = [top f l h] := by
  have hlen := length_climb f h
  obtain ⟨a, ha⟩ := List.length_eq_one_iff.mp hlen
  simp only [top, ha, List.head_cons]

/-- Every string joined on the way up. -/
def climbInputs (join : α → α → γ) (H : γ → α) (l : List α) : List γ :=
  if 1 < l.length then
    pairUp join l ++ climbInputs join H (pairUp (fun a b => H (join a b)) l)
  else []
termination_by l.length
decreasing_by
  rw [length_pairUp]
  omega

end Levels

/-- A binary tree of strings to be hashed. -/
inductive HashTree (S : Type) where
  | leaf (s : S)
  | node (left right : HashTree S)
  deriving DecidableEq, Repr

namespace HashTree

variable {S D : Type}

/-- The leaves from left to right. -/
def leaves : HashTree S → List S
  | leaf s => [s]
  | node l r => l.leaves ++ r.leaves

/-- Every leaf lies at the given depth. -/
def Perfect : Nat → HashTree S → Prop
  | 0, leaf _ => True
  | d + 1, node l r => Perfect d l ∧ Perfect d r
  | _, _ => False

/-- The tree built over a nonempty list. -/
def build (l : List S) (h : l ≠ []) : HashTree S :=
  top node (l.map leaf) (by simpa using h)

/-- The trees of a level: all of one depth, their leaves the list and copies of its elements. -/
private structure LevelOf (l : List S) (level : List (HashTree S)) : Prop where
  depth : ∃ d, ∀ t ∈ level, Perfect d t
  leaves : ∃ copies, level.flatMap HashTree.leaves = l ++ copies

/-- Pairing up repeats leaves at the end at most. -/
private theorem flatMap_pairUp (level : List (HashTree S)) :
    ∃ copies, (pairUp node level).flatMap leaves = level.flatMap leaves ++ copies := by
  induction level using pairUp.induct with
  | case1 a b rest ih =>
    obtain ⟨copies, hc⟩ := ih
    refine ⟨copies, ?_⟩
    simp only [pairUp, List.flatMap_cons, hc, leaves, List.append_assoc]
  | case2 a => exact ⟨a.leaves, by simp [pairUp, leaves]⟩
  | case3 => exact ⟨[], rfl⟩

/-- Pairing up makes a level of a level. -/
private theorem levelOf_pairUp {l : List S} {level : List (HashTree S)} (h : LevelOf l level) :
    LevelOf l (pairUp node level) := by
  obtain ⟨d, hd⟩ := h.depth
  obtain ⟨copies, hl⟩ := h.leaves
  obtain ⟨copies', hc⟩ := flatMap_pairUp level
  refine ⟨⟨d + 1, ?_⟩, copies ++ copies', ?_⟩
  · intro t ht
    obtain ⟨a, ha, b, hb, rfl⟩ := mem_pairUp ht
    exact ⟨hd a ha, hd b hb⟩
  · rw [hc, hl, List.append_assoc]

/-- The whole tree is a level by itself. -/
private theorem levelOf_build (l : List S) (h : l ≠ []) : LevelOf l [build l h] := by
  have hbase : LevelOf l (l.map leaf) := by
    refine ⟨⟨0, ?_⟩, [], ?_⟩
    · intro t ht
      obtain ⟨s, _, rfl⟩ := List.mem_map.mp ht
      trivial
    · simp [List.flatMap_map, leaves]
  have hclimb := climb_induction (fun _ _ hl => levelOf_pairUp hl) hbase
  rwa [climb_eq_top node (by simpa using h)] at hclimb

/-- The tree over a list is perfect. -/
theorem build_perfect (l : List S) (h : l ≠ []) : ∃ d, Perfect d (build l h) := by
  obtain ⟨d, hd⟩ := (levelOf_build l h).depth
  exact ⟨d, hd _ (List.mem_singleton_self _)⟩

/-- The leaves of the tree over a list begin with the list. -/
theorem leaves_build (l : List S) (h : l ≠ []) : ∃ copies, (build l h).leaves = l ++ copies := by
  obtain ⟨copies, hc⟩ := (levelOf_build l h).leaves
  exact ⟨copies, by simpa using hc⟩

/-- A tree is built over at most one list of each length. -/
theorem build_injective {l l' : List S} {h : l ≠ []} {h' : l' ≠ []} (hlen : l.length = l'.length)
    (heq : build l h = build l' h') : l = l' := by
  obtain ⟨copies, hc⟩ := leaves_build l h
  obtain ⟨copies', hc'⟩ := leaves_build l' h'
  rw [heq, hc'] at hc
  exact (List.append_inj_left hc hlen.symm).symm

/-- The tree over one string is its leaf. -/
theorem build_singleton (s : S) (h : [s] ≠ []) : build [s] h = leaf s := by
  have hclimb : climb node [leaf s] = [leaf s] := climb_of_le (Nat.le_refl 1)
  simp only [build, top, List.map_cons, List.map_nil, hclimb, List.head_cons]

variable (join : D → D → S) (H : S → D)

/-- The digest of a tree: leaves are hashed, inner nodes hash the join of their digests. -/
def digest : HashTree S → D
  | leaf s => H s
  | node l r => H (join (digest l) (digest r))

/-- Every string hashed for the digest of a tree. -/
def inputs : HashTree S → List S
  | leaf s => [s]
  | node l r => join (digest join H l) (digest join H r) :: (l.inputs ++ r.inputs)

/-- Building over hashed strings computes the digest of the tree. -/
theorem digest_build (l : List S) (h : l ≠ []) :
    digest join H (build l h) = top (fun a b => H (join a b)) (l.map H) (by simpa using h) := by
  have hmap : (climb node (l.map leaf)).map (digest join H) =
      climb (fun a b => H (join a b)) ((l.map leaf).map (digest join H)) :=
    map_climb (fun _ _ => rfl) (l.map leaf)
  have hleaf : (l.map leaf).map (digest join H) = l.map H := by
    simp [List.map_map, Function.comp_def, digest]
  rw [hleaf, climb_eq_top node (by simpa using h), climb_eq_top _ (by simpa using h)] at hmap
  exact (List.cons.inj hmap).1

variable {join H}

/-- Pairing up feeds the pairs of digests. -/
private theorem mem_flatMap_pairUp {level : List (HashTree S)} {s : S} :
    s ∈ (pairUp node level).flatMap (inputs join H) ↔
      s ∈ pairUp join (level.map (digest join H)) ∨ s ∈ level.flatMap (inputs join H) := by
  induction level using pairUp.induct with
  | case1 a b rest ih =>
    simp only [pairUp, List.map_cons, List.flatMap_cons, List.mem_append, List.mem_cons, inputs, ih]
    tauto
  | case2 a => simp [pairUp, inputs]
  | case3 => simp [pairUp]

/-- The climb feeds the pairs of digests of all its levels. -/
private theorem mem_climb_inputs {level : List (HashTree S)} {s : S} :
    s ∈ (climb node level).flatMap (inputs join H) ↔
      s ∈ level.flatMap (inputs join H) ∨ s ∈ climbInputs join H (level.map (digest join H)) := by
  induction level using climb.induct node with
  | case1 level hlt ih =>
    have hlevel : (pairUp node level).map (digest join H) =
        pairUp (fun a b => H (join a b)) (level.map (digest join H)) := by
      rw [map_pairUp, pairUp_map]
      rfl
    have hinputs : climbInputs join H (level.map (digest join H)) =
        pairUp join (level.map (digest join H)) ++
          climbInputs join H (pairUp (fun a b => H (join a b)) (level.map (digest join H))) := by
      rw [climbInputs, if_pos (by rwa [List.length_map])]
    rw [climb_of_lt hlt, ih, mem_flatMap_pairUp, hlevel, hinputs, List.mem_append]
    tauto
  | case2 level hle =>
    rw [climb_of_le (by omega), climbInputs, if_neg (by rwa [List.length_map])]
    simp

/-- The strings hashed for a tree built over a list are the list and the joins on the way up. -/
theorem mem_inputs_build {l : List S} {h : l ≠ []} {s : S} :
    s ∈ (build l h).inputs join H ↔ s ∈ l ∨ s ∈ climbInputs join H (l.map H) := by
  have hclimb : s ∈ (climb node (l.map leaf)).flatMap (inputs join H) ↔ _ := mem_climb_inputs
  have hleaf : (l.map leaf).map (digest join H) = l.map H := by
    simp [List.map_map, Function.comp_def, digest]
  have hinputs : (l.map leaf).flatMap (inputs join H) = l := by
    simp [List.flatMap_map, inputs]
  rw [climb_eq_top node (by simpa using h), hleaf, hinputs, List.flatMap_singleton] at hclimb
  exact hclimb

/-- Two different strings hashed for the two trees have one hash. -/
def Collide (join : D → D → S) (H : S → D) (t t' : HashTree S) : Prop :=
  ∃ s ∈ t.inputs join H, ∃ s' ∈ t'.inputs join H, s ≠ s' ∧ H s = H s'

/-- Every leaf is the join of two digests. -/
def LeavesJoin (join : D → D → S) (t : HashTree S) : Prop :=
  ∀ s ∈ t.leaves, ∃ a b, s = join a b

/-- A collision in the left halves is one in the trees. -/
private theorem collide_left {l r l' r' : HashTree S} (h : Collide join H l l') :
    Collide join H (node l r) (node l' r') := by
  obtain ⟨s, hs, s', hs', hne, heq⟩ := h
  exact ⟨s, by simp [inputs, hs], s', by simp [inputs, hs'], hne, heq⟩

/-- A collision in the right halves is one in the trees. -/
private theorem collide_right {l r l' r' : HashTree S} (h : Collide join H r r') :
    Collide join H (node l r) (node l' r') := by
  obtain ⟨s, hs, s', hs', hne, heq⟩ := h
  exact ⟨s, by simp [inputs, hs], s', by simp [inputs, hs'], hne, heq⟩

/-- Perfect trees of one depth with one digest are equal or collide. -/
theorem digest_eq_same (hjoin : Function.Injective2 join) {d : Nat} {t t' : HashTree S}
    (ht : Perfect d t) (ht' : Perfect d t') (heq : digest join H t = digest join H t') :
    t = t' ∨ Collide join H t t' := by
  induction t generalizing d t' with
  | leaf s =>
    cases d with
    | succ d => exact ht.elim
    | zero =>
      cases t' with
      | node l' r' => exact ht'.elim
      | leaf s' =>
        by_cases hs : s = s'
        · exact Or.inl (hs ▸ rfl)
        · exact Or.inr ⟨s, by simp [inputs], s', by simp [inputs], hs, heq⟩
  | node l r ihl ihr =>
    cases d with
    | zero => exact ht.elim
    | succ d =>
      cases t' with
      | leaf s' => exact ht'.elim
      | node l' r' =>
        by_cases hs : join (digest join H l) (digest join H r) =
            join (digest join H l') (digest join H r')
        · obtain ⟨hl, hr⟩ := hjoin hs
          rcases ihl ht.1 ht'.1 hl with rfl | hcl
          · rcases ihr ht.2 ht'.2 hr with rfl | hcr
            · exact Or.inl rfl
            · exact Or.inr (collide_right hcr)
          · exact Or.inr (collide_left hcl)
        · exact Or.inr ⟨_, by simp [inputs], _, by simp [inputs], hs, heq⟩

/-- A shallower tree with the digest of a deeper one collides with it, or all its leaves
are joins of digests. -/
theorem digest_eq_shallow (hjoin : Function.Injective2 join) {d d' : Nat} {t t' : HashTree S}
    (hd : d < d') (ht : Perfect d t) (ht' : Perfect d' t')
    (heq : digest join H t = digest join H t') :
    LeavesJoin join t ∨ Collide join H t t' := by
  induction t generalizing d d' t' with
  | leaf s =>
    obtain ⟨d', rfl⟩ : ∃ k, d' = k + 1 := ⟨d' - 1, by omega⟩
    cases t' with
    | leaf s' => exact ht'.elim
    | node l' r' =>
      by_cases hs : s = join (digest join H l') (digest join H r')
      · left
        intro x hx
        obtain rfl := List.mem_singleton.mp hx
        exact ⟨_, _, hs⟩
      · exact Or.inr ⟨s, by simp [inputs], _, by simp [inputs], hs, heq⟩
  | node l r ihl ihr =>
    cases d with
    | zero => exact ht.elim
    | succ d =>
      obtain ⟨d', rfl⟩ : ∃ k, d' = k + 1 := ⟨d' - 1, by omega⟩
      cases t' with
      | leaf s' => exact ht'.elim
      | node l' r' =>
        by_cases hs : join (digest join H l) (digest join H r) =
            join (digest join H l') (digest join H r')
        · obtain ⟨hl, hr⟩ := hjoin hs
          rcases ihl (by omega) ht.1 ht'.1 hl with hjl | hcl
          · rcases ihr (by omega) ht.2 ht'.2 hr with hjr | hcr
            · left
              intro x hx
              rcases List.mem_append.mp hx with hx | hx
              · exact hjl x hx
              · exact hjr x hx
            · exact Or.inr (collide_right hcr)
          · exact Or.inr (collide_left hcl)
        · exact Or.inr ⟨_, by simp [inputs], _, by simp [inputs], hs, heq⟩

end HashTree

end Veriai
