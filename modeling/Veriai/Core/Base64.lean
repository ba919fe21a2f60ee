import Veriai.Core.Bytes

/-!
# Padded Base64 text

The standard alphabet with padding. Decoding is strict: whole groups of four
characters, padding only in the last one, and no bits behind the last byte.
-/

namespace Veriai.Base64

/-- The character of six bits. -/
def symbol (sextet : Nat) : Char :=
  if sextet < 26 then Char.ofNat ('A'.toNat + sextet)
  else if sextet < 52 then Char.ofNat ('a'.toNat + (sextet - 26))
  else if sextet < 62 then Char.ofNat ('0'.toNat + (sextet - 52))
  else if sextet = 62 then '+'
  else '/'

/-- The six bits a character stands for. -/
def sextet (c : Char) : Option Nat :=
  if 'A' ≤ c ∧ c ≤ 'Z' then some (c.toNat - 'A'.toNat)
  else if 'a' ≤ c ∧ c ≤ 'z' then some (c.toNat - 'a'.toNat + 26)
  else if '0' ≤ c ∧ c ≤ '9' then some (c.toNat - '0'.toNat + 52)
  else if c = '+' then some 62
  else if c = '/' then some 63
  else none

/-- The characters of a buffer, three bytes at a time. -/
def encodeChars : Bytes → List Char
  | [] => []
  | [a] => [symbol (a.toNat / 4), symbol (a.toNat % 4 * 16), '=', '=']
  | [a, b] => [symbol (a.toNat / 4), symbol (a.toNat % 4 * 16 + b.toNat / 16),
      symbol (b.toNat % 16 * 4), '=']
  | a :: b :: c :: rest =>
    symbol (a.toNat / 4) :: symbol (a.toNat % 4 * 16 + b.toNat / 16) ::
      symbol (b.toNat % 16 * 4 + c.toNat / 64) :: symbol (c.toNat % 64) :: encodeChars rest

/-- `Base64::encode_string`. -/
def encode (bytes : Bytes) : String := String.ofList (encodeChars bytes)

/-- The first byte of a group of four sextets. -/
def firstByte (s₀ s₁ : Nat) : UInt8 := UInt8.ofNat (s₀ * 4 + s₁ / 16)

/-- The second byte of a group of four sextets. -/
def secondByte (s₁ s₂ : Nat) : UInt8 := UInt8.ofNat (s₁ % 16 * 16 + s₂ / 4)

/-- The third byte of a group of four sextets. -/
def thirdByte (s₂ s₃ : Nat) : UInt8 := UInt8.ofNat (s₂ % 4 * 64 + s₃)

/-- The bytes of a last group with padding, whose spare bits are zero. -/
def decodePadded (s₀ s₁ : Nat) (third : Char) : Option Bytes :=
  if third = '=' then
    if s₁ % 16 = 0 then some [firstByte s₀ s₁] else none
  else do
    let s₂ ← sextet third
    if s₂ % 4 = 0 then some [firstByte s₀ s₁, secondByte s₁ s₂] else none

/-- The bytes of the characters, four at a time. -/
def decodeChars : List Char → Option Bytes
  | [] => some []
  | w :: x :: y :: z :: rest => do
    let s₀ ← sextet w
    let s₁ ← sextet x
    if z = '=' then
      if rest = [] then decodePadded s₀ s₁ y else none
    else
      let s₂ ← sextet y
      let s₃ ← sextet z
      let bytes ← decodeChars rest
      return firstByte s₀ s₁ :: secondByte s₁ s₂ :: thirdByte s₂ s₃ :: bytes
  | _ => none

/-- `Base64::decode_vec`. -/
def decode (text : String) : Option Bytes := decodeChars text.toList

theorem sextet_symbol : ∀ n < 64, sextet (symbol n) = some n := by decide

theorem symbol_ne_pad : ∀ n < 64, symbol n ≠ '=' := by decide

theorem firstByte_eq (a : UInt8) {high : Nat} (h : high < 16) :
    firstByte (a.toNat / 4) (a.toNat % 4 * 16 + high) = a := by
  have ha : a.toNat / 4 * 4 + (a.toNat % 4 * 16 + high) / 16 = a.toNat := by omega
  rw [firstByte, ha, UInt8.ofNat_toNat]

theorem secondByte_eq (b : UInt8) (low : Nat) {high : Nat} (h : high < 4) :
    secondByte (low * 16 + b.toNat / 16) (b.toNat % 16 * 4 + high) = b := by
  have hlt := b.toNat_lt
  have hb : (low * 16 + b.toNat / 16) % 16 * 16 + (b.toNat % 16 * 4 + high) / 4 = b.toNat := by
    omega
  rw [secondByte, hb, UInt8.ofNat_toNat]

theorem thirdByte_eq (c : UInt8) (low : Nat) :
    thirdByte (low * 4 + c.toNat / 64) (c.toNat % 64) = c := by
  have hlt := c.toNat_lt
  have hc : (low * 4 + c.toNat / 64) % 4 * 64 + c.toNat % 64 = c.toNat := by omega
  rw [thirdByte, hc, UInt8.ofNat_toNat]

/-- Decoding the characters of a buffer gives the buffer back. -/
theorem decodeChars_encodeChars (bytes : Bytes) : decodeChars (encodeChars bytes) = some bytes := by
  induction bytes using encodeChars.induct with
  | case1 => rfl
  | case2 a =>
    have ha := a.toNat_lt
    have h₀ : a.toNat / 4 < 64 := by omega
    have h₁ : a.toNat % 4 * 16 < 64 := by omega
    have hspare : a.toNat % 4 * 16 % 16 = 0 := by omega
    have hfirst := firstByte_eq a (Nat.zero_lt_succ 15)
    rw [Nat.add_zero] at hfirst
    simp [encodeChars, decodeChars, decodePadded, sextet_symbol _ h₀, sextet_symbol _ h₁, hspare,
      hfirst]
  | case3 a b =>
    have ha := a.toNat_lt
    have hb := b.toNat_lt
    have h₀ : a.toNat / 4 < 64 := by omega
    have h₁ : a.toNat % 4 * 16 + b.toNat / 16 < 64 := by omega
    have h₂ : b.toNat % 16 * 4 < 64 := by omega
    have hspare : b.toNat % 16 * 4 % 4 = 0 := by omega
    have hfirst := firstByte_eq a (show b.toNat / 16 < 16 by omega)
    have hsecond := secondByte_eq b (a.toNat % 4) (Nat.zero_lt_succ 3)
    rw [Nat.add_zero] at hsecond
    simp [encodeChars, decodeChars, decodePadded, sextet_symbol _ h₀, sextet_symbol _ h₁,
      sextet_symbol _ h₂, symbol_ne_pad _ h₂, hspare, hfirst, hsecond]
  | case4 a b c rest ih =>
    have ha := a.toNat_lt
    have hb := b.toNat_lt
    have hc := c.toNat_lt
    have h₀ : a.toNat / 4 < 64 := by omega
    have h₁ : a.toNat % 4 * 16 + b.toNat / 16 < 64 := by omega
    have h₂ : b.toNat % 16 * 4 + c.toNat / 64 < 64 := by omega
    have h₃ : c.toNat % 64 < 64 := by omega
    have hfirst := firstByte_eq a (show b.toNat / 16 < 16 by omega)
    have hsecond := secondByte_eq b (a.toNat % 4) (show c.toNat / 64 < 4 by omega)
    have hthird := thirdByte_eq c (b.toNat % 16)
    simp [encodeChars, decodeChars, sextet_symbol _ h₀, sextet_symbol _ h₁, sextet_symbol _ h₂,
      sextet_symbol _ h₃, symbol_ne_pad _ h₃, ih, hfirst, hsecond, hthird]

/-- Decoding the text of a buffer gives the buffer back. -/
theorem decode_encode (bytes : Bytes) : decode (encode bytes) = some bytes := by
  simp [decode, encode, decodeChars_encodeChars]

/-- The first character holds the upper six bits of the first byte. -/
theorem head?_encodeChars (b : UInt8) (bytes : Bytes) :
    (encodeChars (b :: bytes)).head? = some (symbol (b.toNat / 4)) := by
  rcases bytes with - | ⟨c, - | ⟨d, rest⟩⟩ <;> rfl

end Veriai.Base64
