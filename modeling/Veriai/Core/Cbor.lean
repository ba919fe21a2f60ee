import Mathlib.Control.Monad.Basic
import Mathlib.Data.Nat.Digits.Defs
import Veriai.Core.Bytes
import Veriai.Core.Checklist

/-!
# CBOR data items

The data items of the binary format, how typed values are written as items
and read back from them, and codecs between items and bytes. A codec reads
the first item of a byte string and returns what follows it. Reading is
generous about tags and about the two ways to write a byte sequence; writing
picks one form for each type.

`definite` is the codec with definite lengths and shortest heads. Its round
trip is by induction on the nesting that both directions admit.
-/

namespace Veriai.Cbor

/-- A data item. A float is its 64 bits. -/
inductive Item where
  | unsigned (value : UInt64)
  /-- The integer `-1 - value`. -/
  | negative (value : UInt64)
  | bytes (value : Bytes)
  | text (value : String)
  | array (items : List Item)
  | map (entries : List (Item × Item))
  | tag (number : UInt64) (content : Item)
  | bool (value : Bool)
  | null
  | undefined
  | float (bits : UInt64)

namespace Item

/-- `serialize_i64`. -/
def ofInt64 (value : Int64) : Item :=
  if 0 ≤ value then .unsigned value.toUInt64 else .negative (~~~value).toUInt64

/-- A byte slice without a byte-string marker is serialized element by element. -/
def ofByteSeq (value : Bytes) : Item := .array (value.map fun b => .unsigned b.toUInt64)

/-- The content of a bignum: leading zeros are skipped, sixteen bytes remain at most. -/
def readBignum : Item → Except String Nat
  | .bytes value =>
    let significant := value.dropWhile (· = 0)
    if significant.length ≤ 16 then
      .ok (Nat.ofDigits 256 (significant.map UInt8.toNat).reverse)
    else .error "bigint too large"
  | _ => .error "expected bytes"

/-- An integer as its sign and raw value; tags other than the two bignum tags are skipped. -/
def readInteger : Item → Except String (Bool × Nat)
  | .unsigned value => .ok (false, value.toNat)
  | .negative value => .ok (true, value.toNat)
  | .tag number content =>
    if number = 2 then content.readBignum.map fun raw => (false, raw)
    else if number = 3 then content.readBignum.map fun raw => (true, raw)
    else content.readInteger
  | _ => .error "expected integer"

/-- `deserialize_u64`. -/
def readU64 (item : Item) : Except String UInt64 := do
  match ← item.readInteger with
  | (false, raw) => if raw < 2 ^ 64 then return .ofNat raw else throw "integer too large"
  | (true, _) => throw "integer too large"

/-- `deserialize_i64`. -/
def readI64 (item : Item) : Except String Int64 := do
  match ← item.readInteger with
  | (false, raw) => if raw < 2 ^ 63 then return .ofNat raw else throw "integer too large"
  | (true, raw) => if raw < 2 ^ 63 then return ~~~(.ofNat raw) else throw "integer too large"

/-- `u8::deserialize`. -/
def readU8 (item : Item) : Except String UInt8 := do
  let value ← item.readU64
  if value < 256 then return value.toUInt8 else throw "expected u8"

/-- `Vec<u8>::deserialize`: an array of bytes, or a byte string. -/
def readByteSeq : Item → Except String Bytes
  | .array items => items.mapM readU8
  | .bytes value => .ok value
  | .tag _ content => content.readByteSeq
  | _ => .error "expected array"

/-- `String::deserialize`. -/
def readString : Item → Except String String
  | .text value => .ok value
  | .tag _ content => content.readString
  | _ => .error "expected string"

/-- `deserialize_map`. -/
def readMap : Item → Except String (List (Item × Item))
  | .map entries => .ok entries
  | .tag _ content => content.readMap
  | _ => .error "expected map"

/-- An integer below `2 ^ 63` survives the checked conversion. -/
private theorem toNat_toUInt64_lt {value : Int64} (h : 0 ≤ value) :
    value.toUInt64.toNat < 2 ^ 63 := by
  rw [Int64.toNat_toUInt64_of_le h]
  have hlt := Int64.toInt_lt value
  have hle : 0 ≤ value.toInt := Int64.le_iff_toInt_le.mp h
  have hnat : value.toNatClampNeg = value.toInt.toNat := rfl
  omega

/-- A signed number is read back. -/
@[simp] theorem readI64_ofInt64 (value : Int64) : (ofInt64 value).readI64 = .ok value := by
  by_cases h : 0 ≤ value
  · have hlt := toNat_toUInt64_lt h
    have hback : Int64.ofNat value.toUInt64.toNat = value := by
      rw [← UInt64.toInt64_ofNat', UInt64.ofNat_toNat, Int64.toInt64_toUInt64]
    rw [ofInt64, if_pos h]
    simp only [readI64, readInteger, bind, Except.bind, if_pos hlt, hback]
    rfl
  · have hneg : 0 ≤ ~~~value := by
      rw [Int64.le_iff_toInt_le] at h ⊢
      rw [Int64.toInt_not]
      have hzero : (0 : Int64).toInt = 0 := rfl
      have hge := Int64.le_toInt value
      rw [hzero] at h ⊢
      rw [Int.bmod_eq_of_le (by omega) (by omega)]
      omega
    have hlt := toNat_toUInt64_lt hneg
    have hback : ~~~Int64.ofNat (~~~value).toUInt64.toNat = value := by
      rw [← UInt64.toInt64_ofNat', UInt64.ofNat_toNat, Int64.toInt64_toUInt64, Int64.not_not]
    rw [ofInt64, if_neg h]
    simp only [readI64, readInteger, bind, Except.bind, if_pos hlt, hback]
    rfl

/-- An unsigned number is read back. -/
@[simp] theorem readU64_unsigned (value : UInt64) : (unsigned value).readU64 = .ok value := by
  have hlt : value.toNat < 2 ^ 64 := value.toNat_lt
  simp only [readU64, readInteger, bind, Except.bind, if_pos hlt, UInt64.ofNat_toNat]
  rfl

/-- An unsigned number of eight bits is read back. -/
@[simp] theorem readU8_unsigned (value : UInt8) : (unsigned value.toUInt64).readU8 = .ok value := by
  have hlt : value.toUInt64 < 256 := by
    have hbound := value.toNat_lt
    rw [UInt64.lt_iff_toNat_lt, UInt8.toNat_toUInt64]
    exact hbound
  simp only [readU8, readU64_unsigned, bind, Except.bind, if_pos hlt, UInt8.toUInt8_toUInt64]
  rfl

/-- A byte string is read as a sequence of bytes. -/
@[simp] theorem readByteSeq_bytes (value : Bytes) : (bytes value).readByteSeq = .ok value := rfl

/-- A byte sequence written element by element is read back. -/
@[simp] theorem readByteSeq_ofByteSeq (value : Bytes) :
    (ofByteSeq value).readByteSeq = .ok value := by
  rw [ofByteSeq, readByteSeq]
  induction value with
  | nil => rfl
  | cons b value ih =>
    rw [List.map_cons, List.mapM_cons, readU8_unsigned, ih]
    rfl

/-- The item is nested at most `depth` deep. -/
def Within : Nat → Item → Prop
  | 0, _ => False
  | depth + 1, .array items => ∀ item ∈ items, Within depth item
  | depth + 1, .map entries => ∀ entry ∈ entries, Within depth entry.1 ∧ Within depth entry.2
  | depth + 1, .tag _ content => Within depth content
  | _ + 1, _ => True

/-- What is within a depth is within any greater one. -/
theorem Within.mono {depth depth' : Nat} {item : Item} (h : item.Within depth)
    (hle : depth ≤ depth') : item.Within depth' := by
  induction depth generalizing depth' item with
  | zero => cases h
  | succ depth ih =>
    obtain ⟨deeper, rfl⟩ := Nat.exists_eq_succ_of_ne_zero (by omega : depth' ≠ 0)
    have hle : depth ≤ deeper := by omega
    cases item with
    | array items => exact fun item hmem => ih (h item hmem) hle
    | map entries => exact fun entry hmem => ⟨ih (h entry hmem).1 hle, ih (h entry hmem).2 hle⟩
    | tag number content =>
      have hcontent : content.Within depth := h
      show content.Within deeper
      exact ih hcontent hle
    | _ => trivial

end Item

/-- The nesting a reader follows. -/
def recursionLimit : Nat := 256

/-- A writer of items and a reader of the first item of a byte string. -/
structure Codec where
  /-- `into_writer`. -/
  write : Item → Except String Bytes
  /-- `from_reader`: the first item and the bytes after it. -/
  read : Bytes → Except String (Item × Bytes)

/-- What is written is read back, and nothing of what follows is touched. -/
structure Codec.Lawful (codec : Codec) : Prop where
  read_write {item : Item} {bytes : Bytes} (rest : Bytes) : item.Within recursionLimit →
    codec.write item = .ok bytes → codec.read (bytes ++ rest) = .ok (item, rest)

/-- The `width` low bytes of a number, highest first. -/
def beBytes : Nat → Nat → Bytes
  | 0, _ => []
  | width + 1, value => .ofNat (value / 256 ^ width) :: beBytes width (value % 256 ^ width)

/-- The number in the first `width` bytes, and the bytes after it. -/
def readBe : Nat → Bytes → Option (Nat × Bytes)
  | 0, bytes => some (0, bytes)
  | _ + 1, [] => none
  | width + 1, b :: bytes => do
    let (low, rest) ← readBe width bytes
    return (b.toNat * 256 ^ width + low, rest)

/-- Bytes in network order are read back. -/
theorem readBe_beBytes {width value : Nat} (h : value < 256 ^ width) (rest : Bytes) :
    readBe width (beBytes width value ++ rest) = some (value, rest) := by
  induction width generalizing value with
  | zero =>
    have hzero : value = 0 := by omega
    rw [hzero]
    rfl
  | succ width ih =>
    have hpos : 0 < 256 ^ width := by positivity
    have hhigh : value / 256 ^ width < 256 := by
      rw [Nat.div_lt_iff_lt_mul hpos]
      rw [pow_succ, mul_comm] at h
      exact h
    have hbyte : (UInt8.ofNat (value / 256 ^ width)).toNat = value / 256 ^ width :=
      UInt8.toNat_ofNat_of_lt' hhigh
    rw [beBytes, List.cons_append, readBe, ih (Nat.mod_lt _ hpos)]
    simp only [hbyte, Option.bind_eq_bind, Option.bind_some, Nat.div_add_mod']
    rfl

/-- The first byte of an item: its major type and five bits of information. -/
def initialByte (major info : Nat) : UInt8 := .ofNat (major * 32 + info)

/-- The information bits that announce an argument of a number of bytes. -/
def argumentWidths : List (Nat × Nat) := [(24, 1), (25, 2), (26, 4), (27, 8)]

/-- Each form of an argument has one width. -/
theorem argumentWidths_lookup : ∀ form ∈ argumentWidths,
    24 ≤ form.1 ∧ form.1 < 32 ∧ argumentWidths.lookup form.1 = some form.2 := by decide

/-- The shortest head of a major type with an argument. -/
def writeHead (major argument : Nat) : Except String Bytes :=
  if argument < 24 then .ok [initialByte major argument]
  else match argumentWidths.find? fun form => argument < 256 ^ form.2 with
    | some (info, width) => .ok (initialByte major info :: beBytes width argument)
    | none => .error "argument too large"

/-- The argument that the information bits give or announce. -/
def readArgument (info : Nat) (bytes : Bytes) : Option (Nat × Bytes) :=
  if info < 24 then some (info, bytes)
  else match argumentWidths.lookup info with
    | some width => readBe width bytes
    | none => none

/-- A head: the major type, its information bits, its argument and what follows. -/
def readHead : Bytes → Option (Nat × Nat × Nat × Bytes)
  | [] => none
  | b :: bytes => do
    let (argument, rest) ← readArgument (b.toNat % 32) bytes
    return (b.toNat / 32, b.toNat % 32, argument, rest)

/-- An initial byte and its argument are read as a head. -/
private theorem readHead_cons {major info argument : Nat} {bytes rest : Bytes} (hmajor : major < 8)
    (hinfo : info < 32) (h : readArgument info bytes = some (argument, rest)) :
    readHead (initialByte major info :: bytes) = some (major, info, argument, rest) := by
  have hbyte : (initialByte major info).toNat = major * 32 + info :=
    UInt8.toNat_ofNat_of_lt' (by simp only [UInt8.size]; omega)
  have hlow : (initialByte major info).toNat % 32 = info := by omega
  have hhigh : (initialByte major info).toNat / 32 = major := by omega
  rw [readHead, hlow, hhigh, h]
  rfl

/-- A written head is read back. -/
theorem readHead_writeHead {major argument : Nat} (hmajor : major < 8) {head : Bytes}
    (h : writeHead major argument = .ok head) (rest : Bytes) :
    ∃ info, readHead (head ++ rest) = some (major, info, argument, rest) := by
  rw [writeHead] at h
  split at h
  next hsmall =>
    obtain rfl := Except.ok.inj h
    refine ⟨argument, readHead_cons hmajor (by omega) ?_⟩
    rw [readArgument, if_pos hsmall]
    rfl
  next =>
    cases hform : argumentWidths.find? fun form => argument < 256 ^ form.2 with
    | none =>
      rw [hform] at h
      cases h
    | some form =>
      obtain ⟨info, width⟩ := form
      rw [hform] at h
      obtain rfl := Except.ok.inj h
      obtain ⟨hge, hlt, hlookup⟩ := argumentWidths_lookup _ (List.mem_of_find?_eq_some hform)
      have hfits : argument < 256 ^ width := by simpa using List.find?_some hform
      refine ⟨info, readHead_cons hmajor hlt ?_⟩
      rw [readArgument, if_neg (by omega), hlookup]
      exact readBe_beBytes hfits rest

/-- The first `count` bytes, and the bytes after them. -/
def takeBytes (count : Nat) (bytes : Bytes) : Option (Bytes × Bytes) :=
  if count ≤ bytes.length then some (bytes.take count, bytes.drop count) else none

/-- As many bytes as were written are taken. -/
theorem takeBytes_append (bytes rest : Bytes) :
    takeBytes bytes.length (bytes ++ rest) = some (bytes, rest) := by
  have hle : bytes.length ≤ (bytes ++ rest).length := by
    rw [List.length_append]
    omega
  rw [takeBytes, if_pos hle, List.take_left, List.drop_left]

/-- Read `count` values in a row. -/
def repeated {α : Type} (one : Bytes → Option (α × Bytes)) : Nat → Bytes → Option (List α × Bytes)
  | 0, bytes => some ([], bytes)
  | count + 1, bytes => do
    let (first, bytes) ← one bytes
    let (others, rest) ← repeated one count bytes
    return (first :: others, rest)

/-- Values written one after the other are read back when each of them is. -/
theorem repeated_mapM {α : Type} {write : α → Except String Bytes}
    {one : Bytes → Option (α × Bytes)} {values : List α} {parts : List Bytes}
    (hone : ∀ value ∈ values, ∀ part rest, write value = .ok part →
      one (part ++ rest) = some (value, rest))
    (h : values.mapM write = .ok parts) (rest : Bytes) :
    repeated one values.length (parts.flatten ++ rest) = some (values, rest) := by
  induction values generalizing parts with
  | nil =>
    obtain rfl := Except.ok.inj h
    rfl
  | cons value values ih =>
    rw [List.mapM_cons, bind_eq_ok] at h
    obtain ⟨part, hpart, h⟩ := h
    rw [bind_eq_ok] at h
    obtain ⟨others, hothers, h⟩ := h
    obtain rfl := Except.ok.inj h
    have hfirst := hone value List.mem_cons_self part (others.flatten ++ rest) hpart
    have hrest := ih (fun v hv => hone v (List.mem_cons_of_mem _ hv)) hothers
    rw [List.length_cons, List.flatten_cons, List.append_assoc, repeated, hfirst]
    simp only [Option.bind_eq_bind, Option.bind_some, hrest]
    rfl

/-- Read two values in a row. -/
def inPair {α : Type} (one : Bytes → Option (α × Bytes)) (bytes : Bytes) :
    Option ((α × α) × Bytes) := do
  let (key, bytes) ← one bytes
  let (value, rest) ← one bytes
  return ((key, value), rest)

/-- Write an item nested at most `depth` deep. -/
def encode : Nat → Item → Except String Bytes
  | 0, _ => .error "recursion limit exceeded"
  | _ + 1, .unsigned value => writeHead 0 value.toNat
  | _ + 1, .negative value => writeHead 1 value.toNat
  | _ + 1, .bytes value => do
    return (← writeHead 2 value.length) ++ value
  | _ + 1, .text value => do
    return (← writeHead 3 (utf8Bytes value).length) ++ utf8Bytes value
  | depth + 1, .array items => do
    let head ← writeHead 4 items.length
    let parts ← items.mapM (encode depth)
    return head ++ parts.flatten
  | depth + 1, .map entries => do
    let head ← writeHead 5 entries.length
    let parts ← entries.mapM fun entry => do
      return (← encode depth entry.1) ++ (← encode depth entry.2)
    return head ++ parts.flatten
  | depth + 1, .tag number content => do
    return (← writeHead 6 number.toNat) ++ (← encode depth content)
  | _ + 1, .bool false => .ok [0xf4]
  | _ + 1, .bool true => .ok [0xf5]
  | _ + 1, .null => .ok [0xf6]
  | _ + 1, .undefined => .ok [0xf7]
  | _ + 1, .float bits => .ok (0xfb :: beBytes 8 bits.toNat)

/-- Read the first item, nested at most `depth` deep. -/
def decode : Nat → Bytes → Option (Item × Bytes)
  | 0, _ => none
  | depth + 1, bytes => do
    let (major, info, argument, rest) ← readHead bytes
    match major with
    | 0 => return (.unsigned (.ofNat argument), rest)
    | 1 => return (.negative (.ofNat argument), rest)
    | 2 =>
      let (value, rest) ← takeBytes argument rest
      return (.bytes value, rest)
    | 3 =>
      let (value, rest) ← takeBytes argument rest
      let text ← String.fromUTF8? ⟨value.toArray⟩
      return (.text text, rest)
    | 4 =>
      let (items, rest) ← repeated (decode depth) argument rest
      return (.array items, rest)
    | 5 =>
      let (entries, rest) ← repeated (inPair (decode depth)) argument rest
      return (.map entries, rest)
    | 6 =>
      let (content, rest) ← decode depth rest
      return (.tag (.ofNat argument) content, rest)
    | _ => match info with
      | 20 => return (.bool false, rest)
      | 21 => return (.bool true, rest)
      | 22 => return (.null, rest)
      | 23 => return (.undefined, rest)
      | 27 => return (.float (.ofNat argument), rest)
      | _ => none

/-- The bytes of a text are read as the text. -/
theorem fromUTF8_utf8Bytes (text : String) :
    String.fromUTF8? ⟨(utf8Bytes text).toArray⟩ = some text := by
  have harray : (⟨(utf8Bytes text).toArray⟩ : ByteArray) = text.toByteArray := by
    rw [utf8Bytes, Array.toArray_toList]
  rw [harray, String.fromUTF8?, dif_pos text.isValidUTF8]
  rfl

/-- A written item is read back, whatever follows it. -/
theorem decode_encode {depth : Nat} {item : Item} {bytes : Bytes}
    (h : encode depth item = .ok bytes) (rest : Bytes) :
    decode depth (bytes ++ rest) = some (item, rest) := by
  induction depth generalizing item bytes rest with
  | zero => cases h
  | succ depth ih =>
    cases item with
    | unsigned value =>
      obtain ⟨info, hhead⟩ := readHead_writeHead (by decide) h rest
      simp [decode, hhead]
    | negative value =>
      obtain ⟨info, hhead⟩ := readHead_writeHead (by decide) h rest
      simp [decode, hhead]
    | bytes value =>
      rw [encode, bind_eq_ok] at h
      obtain ⟨head, hwrite, h⟩ := h
      obtain rfl := Except.ok.inj h
      obtain ⟨info, hhead⟩ := readHead_writeHead (by decide) hwrite (value ++ rest)
      simp [decode, hhead, takeBytes_append]
    | text value =>
      rw [encode, bind_eq_ok] at h
      obtain ⟨head, hwrite, h⟩ := h
      obtain rfl := Except.ok.inj h
      obtain ⟨info, hhead⟩ := readHead_writeHead (by decide) hwrite (utf8Bytes value ++ rest)
      simp [decode, hhead, takeBytes_append, fromUTF8_utf8Bytes]
    | array items =>
      rw [encode, bind_eq_ok] at h
      obtain ⟨head, hwrite, h⟩ := h
      rw [bind_eq_ok] at h
      obtain ⟨parts, hparts, h⟩ := h
      obtain rfl := Except.ok.inj h
      obtain ⟨info, hhead⟩ := readHead_writeHead (by decide) hwrite (parts.flatten ++ rest)
      have hitems := repeated_mapM (fun item _ part rest hpart => ih hpart rest) hparts rest
      simp [decode, hhead, hitems]
    | map entries =>
      rw [encode, bind_eq_ok] at h
      obtain ⟨head, hwrite, h⟩ := h
      rw [bind_eq_ok] at h
      obtain ⟨parts, hparts, h⟩ := h
      obtain rfl := Except.ok.inj h
      obtain ⟨info, hhead⟩ := readHead_writeHead (by decide) hwrite (parts.flatten ++ rest)
      have hentries : repeated (inPair (decode depth)) entries.length (parts.flatten ++ rest) =
          some (entries, rest) := by
        refine repeated_mapM ?_ hparts rest
        intro entry _ part rest hpart
        simp only [bind_eq_ok] at hpart
        obtain ⟨key, hkey, value, hvalue, hpart⟩ := hpart
        obtain rfl := Except.ok.inj hpart
        simp [inPair, ih hkey, ih hvalue]
      simp [decode, hhead, hentries]
    | tag number content =>
      rw [encode, bind_eq_ok] at h
      obtain ⟨head, hwrite, h⟩ := h
      rw [bind_eq_ok] at h
      obtain ⟨inner, hinner, h⟩ := h
      obtain rfl := Except.ok.inj h
      obtain ⟨info, hhead⟩ := readHead_writeHead (by decide) hwrite (inner ++ rest)
      simp [decode, hhead, ih hinner]
    | bool value =>
      cases value with
      | false =>
        obtain rfl := Except.ok.inj h
        rfl
      | true =>
        obtain rfl := Except.ok.inj h
        rfl
    | null =>
      obtain rfl := Except.ok.inj h
      rfl
    | undefined =>
      obtain rfl := Except.ok.inj h
      rfl
    | float bits =>
      obtain rfl := Except.ok.inj h
      have hbits : bits.toNat < 256 ^ 8 := bits.toNat_lt
      have hargument : readArgument 27 (beBytes 8 bits.toNat ++ rest) = some (bits.toNat, rest) :=
        readBe_beBytes hbits rest
      have hhead : readHead (0xfb :: (beBytes 8 bits.toNat ++ rest)) =
          some (7, 27, bits.toNat, rest) :=
        @readHead_cons 7 27 _ _ _ (by decide) (by decide) hargument
      simp [decode, hhead]

/-- Items with definite lengths and shortest heads. -/
def definite : Codec where
  write := encode recursionLimit
  read bytes := okOr (decode recursionLimit bytes) "malformed item"

/-- The codec with definite lengths reads what it has written. -/
theorem definite_lawful : definite.Lawful where
  read_write rest _ h := by
    simp only [definite, okOr_eq_ok]
    exact decode_encode h rest

end Veriai.Cbor
