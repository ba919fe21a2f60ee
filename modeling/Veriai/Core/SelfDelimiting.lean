import Mathlib.Data.List.Basic

/-!
# Self-delimiting texts

A way of writing values is self-delimiting when what is written can be told
from whatever follows it. Self-delimiting ways of writing are composed: one
behind another, between fixed texts, and as lists with brackets and separators.
-/

namespace Veriai

variable {α β γ : Type}

/-- A written value is determined by any text it begins, and so is the rest of that text. -/
def SelfDelimiting (enc : α → List β) : Prop :=
  ∀ a b r r', enc a ++ r = enc b ++ r' → a = b ∧ r = r'

namespace SelfDelimiting

variable {enc : α → List β} {enc' : γ → List β}

/-- A reader that returns the value and the rest shows that a way of writing is self-delimiting. -/
theorem of_reader {read : List β → Option (α × List β)}
    (h : ∀ a r, read (enc a ++ r) = some (a, r)) : SelfDelimiting enc := by
  intro a b r r' heq
  have hread := h a r
  rw [heq, h] at hread
  injection hread with hpair
  injection hpair with hvalue hrest
  exact ⟨hvalue.symm, hrest.symm⟩

/-- A value between two fixed texts. -/
theorem between (h : SelfDelimiting enc) (before behind : List β) :
    SelfDelimiting fun a => before ++ (enc a ++ behind) := by
  intro a b r r' heq
  simp only [List.append_assoc] at heq
  obtain ⟨rfl, hrest⟩ := h _ _ _ _ (List.append_cancel_left heq)
  exact ⟨rfl, List.append_cancel_left hrest⟩

/-- A list of written items up to a mark that begins none of them. -/
theorem listUntil (h : SelfDelimiting enc) {close : β}
    (hopen : ∀ a, ∃ b rest, enc a = b :: rest ∧ b ≠ close) :
    SelfDelimiting fun items : List α => items.flatMap enc ++ [close] := by
  have hends : ∀ (a : α) (r r' : List β), [close] ++ r ≠ enc a ++ r' := by
    intro a r r' heq
    obtain ⟨b, rest, henc, hne⟩ := hopen a
    rw [henc] at heq
    injection heq with hclose
    exact hne hclose.symm
  intro items items' r r' heq
  induction items generalizing items' with
  | nil =>
    cases items' with
    | nil => exact ⟨rfl, List.append_cancel_left heq⟩
    | cons a items' =>
      simp only [List.flatMap_cons, List.flatMap_nil, List.nil_append, List.append_assoc] at heq
      exact (hends _ _ _ heq).elim
  | cons a items ih =>
    cases items' with
    | nil =>
      simp only [List.flatMap_cons, List.flatMap_nil, List.nil_append, List.append_assoc] at heq
      exact (hends _ _ _ heq.symm).elim
    | cons b items' =>
      simp only [List.flatMap_cons, List.append_assoc] at heq
      obtain ⟨rfl, hrest⟩ := h _ _ _ _ heq
      rw [← List.append_assoc, ← List.append_assoc] at hrest
      obtain ⟨rfl, hr⟩ := ih items' hrest
      exact ⟨rfl, hr⟩

end SelfDelimiting

/-- Items between brackets, with a separator between neighbours. -/
def bracketed (opening separator closing : β) (enc : α → List β) : List α → List β
  | [] => [opening, closing]
  | a :: items => opening :: (enc a ++ (items.flatMap (fun b => separator :: enc b) ++ [closing]))

/-- A bracketed list is self-delimiting when its items are and none begins with the closing
bracket. -/
theorem SelfDelimiting.bracketed {enc : α → List β} (h : SelfDelimiting enc)
    {opening separator closing : β} (hseparator : separator ≠ closing)
    (hitem : ∀ a, ∃ b rest, enc a = b :: rest ∧ b ≠ closing) :
    SelfDelimiting (bracketed opening separator closing enc) := by
  have htail : SelfDelimiting fun items : List α =>
      items.flatMap (fun b => [separator] ++ (enc b ++ [])) ++ [closing] :=
    (h.between [separator] []).listUntil fun a => ⟨separator, enc a ++ [], rfl, hseparator⟩
  simp only [List.append_nil, List.singleton_append] at htail
  have hends : ∀ (a : α) (r r' : List β), closing :: r ≠ enc a ++ r' := by
    intro a r r' heq
    obtain ⟨b, rest, henc, hne⟩ := hitem a
    rw [henc] at heq
    injection heq with hclose
    exact hne hclose.symm
  intro items items' r r' heq
  cases items with
  | nil =>
    cases items' with
    | nil => exact ⟨rfl, List.append_cancel_left heq⟩
    | cons b items' =>
      simp only [Veriai.bracketed, List.cons_append, List.nil_append, List.append_assoc] at heq
      injection heq with _ hrest
      exact (hends _ _ _ hrest).elim
  | cons a items =>
    cases items' with
    | nil =>
      simp only [Veriai.bracketed, List.cons_append, List.nil_append, List.append_assoc] at heq
      injection heq with _ hrest
      exact (hends _ _ _ hrest.symm).elim
    | cons b items' =>
      simp only [Veriai.bracketed, List.cons_append] at heq
      injection heq with _ hrest
      rw [List.append_assoc, List.append_assoc (enc b)] at hrest
      obtain ⟨rfl, hitems⟩ := h _ _ _ _ hrest
      obtain ⟨rfl, hr⟩ := htail _ _ _ _ hitems
      exact ⟨rfl, hr⟩

end Veriai
