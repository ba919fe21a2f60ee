import Mathlib.Data.UInt
import Mathlib.Data.Vector.Basic

/-!
# Byte strings, fixed-width arrays and hexadecimal text

`Bytes` stands for an owned or borrowed byte buffer, `ByteArr n` for a fixed
array whose length is part of the type. Hexadecimal coding is the standard
lower-case one; decoding accepts either case and rejects odd lengths first.
-/

namespace Veriai

/-- A byte buffer. -/
abbrev Bytes := List UInt8

/-- A byte array of a fixed length; the length travels with the value. -/
abbrev ByteArr (n : Nat) := List.Vector UInt8 n

/-- The checked conversion from a buffer to a fixed array. -/
def ByteArr.ofBytes? (n : Nat) (bytes : Bytes) : Option (ByteArr n) :=
  if h : bytes.length = n then some ⟨bytes, h⟩ else none

theorem ByteArr.ofBytes?_eq_some {n : Nat} {bytes : Bytes} {a : ByteArr n} :
    ByteArr.ofBytes? n bytes = some a ↔ bytes = a.toList := by
  constructor
  · intro h
    by_cases hn : bytes.length = n
    · rw [ofBytes?, dif_pos hn] at h
      exact congrArg List.Vector.toList (Option.some.inj h)
    · simp [ofBytes?, hn] at h
  · rintro rfl
    rw [ofBytes?, dif_pos a.toList_length]
    rfl

@[simp] theorem ByteArr.ofBytes?_toList {n : Nat} (a : ByteArr n) :
    ByteArr.ofBytes? n a.toList = some a := ByteArr.ofBytes?_eq_some.mpr rfl

/-- Fixed arrays are equal when their bytes are. -/
theorem ByteArr.toList_inj {n : Nat} {a b : ByteArr n} (h : a.toList = b.toList) : a = b :=
  Subtype.ext h

/-- The UTF-8 bytes of a text. -/
def utf8Bytes (text : String) : Bytes := text.toByteArray.data.toList

/-- The bytes of a text are those of its characters. -/
theorem utf8Bytes_ofList (text : List Char) :
    utf8Bytes (String.ofList text) = text.flatMap String.utf8EncodeChar := by
  simp [utf8Bytes, List.utf8Encode]

/-- The lower-case digit of a nibble. -/
def hexDigit (nibble : Nat) : Char :=
  if nibble < 10 then Char.ofNat ('0'.toNat + nibble) else Char.ofNat ('a'.toNat + (nibble - 10))

/-- The nibble a digit of either case stands for. -/
def hexNibble (c : Char) : Option Nat :=
  if 'A' ≤ c ∧ c ≤ 'F' then some (c.toNat - 'A'.toNat + 10)
  else if 'a' ≤ c ∧ c ≤ 'f' then some (c.toNat - 'a'.toNat + 10)
  else if '0' ≤ c ∧ c ≤ '9' then some (c.toNat - '0'.toNat)
  else none

/-- The characters of the hexadecimal text of a buffer. -/
def hexChars (bytes : Bytes) : List Char :=
  bytes.flatMap fun b => [hexDigit (b.toNat / 16), hexDigit (b.toNat % 16)]

/-- `hex::encode`. -/
def hexEncode (bytes : Bytes) : String := String.ofList (hexChars bytes)

/-- Why hexadecimal text is rejected. -/
inductive FromHexError where
  | oddLength
  | invalidHexCharacter (c : Char) (index : Nat)
  deriving DecidableEq, Repr

/-- The digit in a byte of the text; the error shows the byte as a character. -/
def hexVal (c : UInt8) (index : Nat) : Except FromHexError Nat :=
  match hexNibble (Char.ofUInt8 c) with
  | some nibble => .ok nibble
  | none => .error (.invalidHexCharacter (Char.ofUInt8 c) index)

/-- Decode digit pairs; `index` is the position of the first digit. -/
def hexPairs (index : Nat) : Bytes → Except FromHexError Bytes
  | [] => .ok []
  | [_] => .error .oddLength
  | hi :: lo :: rest => do
    let h ← hexVal hi index
    let l ← hexVal lo (index + 1)
    let bytes ← hexPairs (index + 2) rest
    return UInt8.ofNat (16 * h + l) :: bytes

/-- `hex::decode`, which works on the UTF-8 bytes of the text. -/
def hexDecode (text : String) : Except FromHexError Bytes :=
  if (utf8Bytes text).length % 2 = 1 then .error .oddLength else hexPairs 0 (utf8Bytes text)

theorem hexNibble_hexDigit : ∀ n < 16, hexNibble (hexDigit n) = some n := by decide

/-- Two digits for each byte. -/
def digitPairs (digit : Nat → Char) (bytes : Bytes) : List Char :=
  bytes.flatMap fun b => [digit (b.toNat / 16), digit (b.toNat % 16)]

section Digits

variable {digit : Nat → Char}

private theorem digitPairs_cons (b : UInt8) (bytes : Bytes) :
    digitPairs digit (b :: bytes) =
      digit (b.toNat / 16) :: digit (b.toNat % 16) :: digitPairs digit bytes := by
  simp [digitPairs]

private theorem nibbles_lt (b : UInt8) : b.toNat / 16 < 16 ∧ b.toNat % 16 < 16 := by
  have hb := b.toNat_lt
  omega

/-- Every digit of a hexadecimal text is one byte long. -/
theorem utf8Bytes_digitPairs
    (hbyte : ∀ n < 16, String.utf8EncodeChar (digit n) = [(digit n).toUInt8]) (bytes : Bytes) :
    utf8Bytes (String.ofList (digitPairs digit bytes)) =
      (digitPairs digit bytes).map Char.toUInt8 := by
  rw [utf8Bytes_ofList]
  induction bytes with
  | nil => rfl
  | cons b bytes ih =>
    obtain ⟨hhi, hlo⟩ := nibbles_lt b
    simp only [digitPairs_cons, List.flatMap_cons, List.map_cons, hbyte _ hhi, hbyte _ hlo, ih,
      List.singleton_append]

/-- A hexadecimal text has two digits for each byte. -/
theorem length_digitPairs (bytes : Bytes) : (digitPairs digit bytes).length = 2 * bytes.length := by
  induction bytes with
  | nil => rfl
  | cons b bytes ih =>
    simp only [digitPairs_cons, List.length_cons, ih]
    omega

/-- The digits are read back, pair by pair. -/
theorem hexPairs_digitPairs
    (hdigit : ∀ n < 16, hexNibble (Char.ofUInt8 (digit n).toUInt8) = some n) (index : Nat)
    (bytes : Bytes) : hexPairs index ((digitPairs digit bytes).map Char.toUInt8) = .ok bytes := by
  induction bytes generalizing index with
  | nil => rfl
  | cons b bytes ih =>
    obtain ⟨hhi, hlo⟩ := nibbles_lt b
    have hb : 16 * (b.toNat / 16) + b.toNat % 16 = b.toNat := by omega
    have hval (n : Nat) (hn : n < 16) (i : Nat) : hexVal (digit n).toUInt8 i = .ok n := by
      rw [hexVal, hdigit n hn]
    have hbyte : UInt8.ofNat (16 * (b.toNat / 16) + b.toNat % 16) = b := by
      rw [hb, UInt8.ofNat_toNat]
    simp only [digitPairs_cons, List.map_cons, hexPairs, hval _ hhi, hval _ hlo, ih]
    exact congrArg (fun b => Except.ok (b :: bytes)) hbyte

/-- The digits may be of either case. -/
theorem hexDecode_digitPairs
    (hbyte : ∀ n < 16, String.utf8EncodeChar (digit n) = [(digit n).toUInt8])
    (hdigit : ∀ n < 16, hexNibble (Char.ofUInt8 (digit n).toUInt8) = some n) (bytes : Bytes) :
    hexDecode (String.ofList (digitPairs digit bytes)) = .ok bytes := by
  have heven : ((digitPairs digit bytes).map Char.toUInt8).length % 2 ≠ 1 := by
    rw [List.length_map, length_digitPairs]
    omega
  rw [hexDecode, utf8Bytes_digitPairs hbyte, if_neg heven, hexPairs_digitPairs hdigit]

end Digits

/-- Decoding the text of a buffer gives the buffer back. -/
@[simp] theorem hexDecode_hexEncode (bytes : Bytes) : hexDecode (hexEncode bytes) = .ok bytes :=
  hexDecode_digitPairs (by decide) (by decide) bytes

/-- Distinct buffers have distinct hexadecimal texts. -/
theorem hexEncode_injective : Function.Injective hexEncode := by
  intro a b h
  have hd := congrArg hexDecode h
  simpa using hd

/-- The upper-case digit of a nibble. -/
def hexDigitUpper (nibble : Nat) : Char := (hexDigit nibble).toUpper

/-- `hex::encode_upper`. -/
def hexEncodeUpper (bytes : Bytes) : String := String.ofList (digitPairs hexDigitUpper bytes)

@[simp] theorem hexDecode_hexEncodeUpper (bytes : Bytes) :
    hexDecode (hexEncodeUpper bytes) = .ok bytes :=
  hexDecode_digitPairs (by decide) (by decide) bytes

/-- A text that does not begin with a digit is rejected. -/
theorem hexDecode_of_head {c : Char} {rest : List Char}
    (hbyte : String.utf8EncodeChar c = [c.toUInt8])
    (hc : hexNibble (Char.ofUInt8 c.toUInt8) = none) :
    ∃ e, hexDecode (String.ofList (c :: rest)) = .error e := by
  have hval (i : Nat) : hexVal c.toUInt8 i =
      .error (.invalidHexCharacter (Char.ofUInt8 c.toUInt8) i) := by
    rw [hexVal, hc]
  rw [hexDecode, utf8Bytes_ofList, List.flatMap_cons, hbyte, List.singleton_append]
  split
  · exact ⟨_, rfl⟩
  · cases rest.flatMap String.utf8EncodeChar with
    | nil => exact ⟨_, rfl⟩
    | cons lo more =>
      rw [hexPairs, hval]
      exact ⟨_, rfl⟩

end Veriai
