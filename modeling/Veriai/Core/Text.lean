import Mathlib.Algebra.Ring.Nat
import Mathlib.Data.List.TakeWhile

/-!
# Trimmed decimal text

White space is the Unicode property `White_Space`. Decimal text is read with a
bound on the value, as a machine integer is parsed.
-/

namespace Veriai

/-- `char::is_whitespace`. -/
def isWhitespace (c : Char) : Bool :=
  let n := c.toNat
  (9 ≤ n && n ≤ 13) || n == 0x20 || n == 0x85 || n == 0xA0 || n == 0x1680 ||
    (0x2000 ≤ n && n ≤ 0x200A) || n == 0x2028 || n == 0x2029 || n == 0x202F || n == 0x205F ||
    n == 0x3000

/-- `str::trim`. -/
def trim (text : List Char) : List Char :=
  ((text.dropWhile isWhitespace).reverse.dropWhile isWhitespace).reverse

/-- Read digits behind a value already read, below `2 ^ 64`. -/
def parseDigits (value : Nat) : List Char → Option Nat
  | [] => some value
  | c :: rest =>
    if '0' ≤ c ∧ c ≤ '9' then
      let next := 10 * value + (c.toNat - '0'.toNat)
      if next < 2 ^ 64 then parseDigits next rest else none
    else none

/-- The text behind one leading plus sign. -/
def unsigned : List Char → List Char
  | '+' :: rest => rest
  | text => text

/-- `str::parse::<u64>`: one leading plus sign is allowed, no empty text. -/
def parseU64 (text : List Char) : Option UInt64 :=
  if unsigned text = [] then none else (parseDigits 0 (unsigned text)).map UInt64.ofNat

/-- The decimal text of a machine integer. -/
def decimal (n : UInt64) : List Char := Nat.toDigits 10 n.toNat

theorem parseDigits_eq_some {value n : Nat} {text : List Char}
    (h : parseDigits value text = some n) :
    n = Nat.ofDigitChars 10 text value ∧ (value < 2 ^ 64 → n < 2 ^ 64) := by
  induction text generalizing value with
  | nil =>
    obtain rfl := Option.some.inj h
    simp
  | cons c rest ih =>
    unfold parseDigits at h
    dsimp only at h
    by_cases hdigit : '0' ≤ c ∧ c ≤ '9'
    · rw [if_pos hdigit] at h
      by_cases hbound : 10 * value + (c.toNat - '0'.toNat) < 2 ^ 64
      · rw [if_pos hbound] at h
        obtain ⟨hn, hlt⟩ := ih h
        rw [Nat.ofDigitChars_cons]
        exact ⟨hn, fun _ => hlt hbound⟩
      · rw [if_neg hbound] at h
        cases h
    · rw [if_neg hdigit] at h
      cases h

/-- Reading more digits does not make the value smaller. -/
theorem ofDigitChars_le_append (text more : List Char) :
    Nat.ofDigitChars 10 text 0 ≤ Nat.ofDigitChars 10 (text ++ more) 0 := by
  rw [Nat.ofDigitChars_append, Nat.ofDigitChars_eq_ofDigitChars_zero (l := more)]
  have hpow : 1 ≤ 10 ^ more.length := Nat.one_le_pow _ _ (by omega)
  have hmul := Nat.mul_le_mul_right (Nat.ofDigitChars 10 text 0) hpow
  omega

/-- Digits are neither white space nor a sign. -/
theorem digit_of_mem_decimal {n : UInt64} {c : Char} (h : c ∈ decimal n) :
    isWhitespace c = false ∧ c ≠ '+' := by
  have hdigit := Nat.isDigit_of_mem_toDigits (by omega) (by omega) h
  simp only [Char.isDigit, Bool.and_eq_true, decide_eq_true_eq, ge_iff_le,
    UInt32.le_iff_toNat_le] at hdigit
  have hn : 48 ≤ c.toNat ∧ c.toNat ≤ 57 := hdigit
  constructor
  · simp only [isWhitespace, Bool.or_eq_false_iff, Bool.and_eq_false_iff, decide_eq_false_iff_not,
      beq_eq_false_iff_ne]
    omega
  · rintro rfl
    have hplus : '+'.toNat = 43 := rfl
    omega

/-- White space after a text without any is trimmed off. -/
theorem trim_append {text space : List Char} (ht : ∀ c ∈ text, isWhitespace c = false)
    (hs : ∀ c ∈ space, isWhitespace c = true) : trim (text ++ space) = text := by
  have hback : ((text ++ space).reverse.dropWhile isWhitespace).reverse = text := by
    rw [List.reverse_append, List.dropWhile_append_of_pos (by simpa using hs)]
    cases hrev : text.reverse with
    | nil => simpa using hrev.symm
    | cons c rest =>
      have hc : isWhitespace c = false := ht c (List.mem_reverse.mp (hrev ▸ List.mem_cons_self))
      rw [List.dropWhile_cons_of_neg (by simp [hc]), ← hrev, List.reverse_reverse]
  cases text with
  | nil =>
    have hspace : space.dropWhile isWhitespace = [] := List.dropWhile_eq_nil_iff.mpr hs
    simp [trim, hspace]
  | cons c rest =>
    have hc : isWhitespace c = false := ht c List.mem_cons_self
    rw [trim, List.cons_append, List.dropWhile_cons_of_neg (by simp [hc]), ← List.cons_append]
    exact hback

/-- Digits are read when their value fits. -/
theorem parseDigits_of_lt {value : Nat} {text : List Char}
    (hdigits : ∀ c ∈ text, '0' ≤ c ∧ c ≤ '9') (hlt : Nat.ofDigitChars 10 text value < 2 ^ 64) :
    parseDigits value text = some (Nat.ofDigitChars 10 text value) := by
  induction text generalizing value with
  | nil => rfl
  | cons c rest ih =>
    rw [Nat.ofDigitChars_cons] at hlt ⊢
    have hle : 10 * value + (c.toNat - '0'.toNat) ≤
        Nat.ofDigitChars 10 rest (10 * value + (c.toNat - '0'.toNat)) := by
      rw [Nat.ofDigitChars_eq_ofDigitChars_zero]
      have hmul := Nat.mul_le_mul_right (10 * value + (c.toNat - '0'.toNat))
        (Nat.one_le_pow rest.length 10 (by omega))
      omega
    simp only [parseDigits]
    rw [if_pos (hdigits c List.mem_cons_self), if_pos (hle.trans_lt hlt)]
    exact ih (fun c' hc' => hdigits c' (List.mem_cons_of_mem c hc')) hlt

/-- A decimal line is read as its number. -/
@[simp] theorem parseU64_trim_decimal (n : UInt64) :
    parseU64 (trim (decimal n ++ ['\n'])) = some n := by
  have hunsigned : unsigned (decimal n) = decimal n := by
    unfold unsigned
    split
    next rest heq =>
      have hplus : '+' ∈ decimal n := by
        rw [heq]
        exact List.mem_cons_self
      exact ((digit_of_mem_decimal hplus).2 rfl).elim
    next => rfl
  have hvalue : Nat.ofDigitChars 10 (decimal n) 0 = n.toNat :=
    Nat.ofDigitChars_toDigits (by omega) (by omega)
  have hdigits : ∀ c ∈ decimal n, '0' ≤ c ∧ c ≤ '9' := by
    intro c hc
    have hdigit := Nat.isDigit_of_mem_toDigits (by omega) (by omega) hc
    simp only [Char.isDigit, Bool.and_eq_true, decide_eq_true_eq] at hdigit
    exact hdigit
  have hne : decimal n ≠ [] := Nat.toDigits_ne_nil
  have hread := parseDigits_of_lt hdigits (hvalue ▸ n.toNat_lt)
  rw [trim_append (fun c hc => (digit_of_mem_decimal hc).1) (by simp [isWhitespace]), parseU64,
    hunsigned, if_neg hne, hread, hvalue]
  simp

/-- A number read from the beginning of a decimal line is at most the number of the line. -/
theorem parseU64_of_prefix {n m : UInt64} {text : List Char}
    (hpre : text <+: decimal n ++ ['\n']) (h : parseU64 (trim text) = some m) : m ≤ n := by
  obtain ⟨digits, space, rfl, ⟨more, hmore⟩, hspace⟩ : ∃ digits space, text = digits ++ space ∧
      digits <+: decimal n ∧ ∀ c ∈ space, isWhitespace c = true := by
    rcases List.prefix_concat_iff.mp hpre with rfl | hdigits
    · exact ⟨decimal n, ['\n'], rfl, List.prefix_rfl, by simp [isWhitespace]⟩
    · exact ⟨text, [], by simp, hdigits, by simp⟩
  have hmem : ∀ c ∈ digits, c ∈ decimal n := by
    intro c hc
    rw [← hmore]
    exact List.mem_append_left _ hc
  rw [trim_append (fun c hc => (digit_of_mem_decimal (hmem c hc)).1) hspace] at h
  have hunsigned : unsigned digits = digits := by
    cases digits with
    | nil => rfl
    | cons c rest =>
      have hc : c ≠ '+' := (digit_of_mem_decimal (hmem c List.mem_cons_self)).2
      unfold unsigned
      split
      · simp_all
      · rfl
  rw [parseU64, hunsigned] at h
  split at h
  · cases h
  · obtain ⟨k, hk, rfl⟩ := Option.map_eq_some_iff.mp h
    obtain ⟨hvalue, hlt⟩ := parseDigits_eq_some hk
    have hle : k ≤ n.toNat := by
      have hall := ofDigitChars_le_append digits more
      rw [hmore, ← hvalue, decimal, Nat.ofDigitChars_toDigits (by omega) (by omega)] at hall
      exact hall
    rw [UInt64.le_iff_toNat_le, UInt64.toNat_ofNat_of_lt' (hlt (by omega))]
    exact hle

end Veriai
