import Mathlib.Data.Rat.Defs
import Veriai.Core.Bytes
import Veriai.Core.SelfDelimiting

/-!
# JSON values and compact JSON text

A parsed JSON value, with the members of an object in the order and number in
which they are written, and the compact text of strings and lists. A written
string is told from whatever follows it.
-/

namespace Veriai

/-- A parsed JSON value. -/
inductive Json where
  | null
  | bool (value : Bool)
  | number (value : Rat)
  | string (text : String)
  | array (items : List Json)
  | object (members : List (String × Json))

/-- A character inside a JSON string: the short escapes, the other control characters by number,
and the rest as they are. -/
def escapeChar (c : Char) : List Char :=
  if c = '"' then ['\\', '"']
  else if c = '\\' then ['\\', '\\']
  else if c = Char.ofNat 0x08 then ['\\', 'b']
  else if c = '\t' then ['\\', 't']
  else if c = '\n' then ['\\', 'n']
  else if c = Char.ofNat 0x0C then ['\\', 'f']
  else if c = '\r' then ['\\', 'r']
  else if c.toNat < 0x20 then
    ['\\', 'u', '0', '0', hexDigit (c.toNat / 16), hexDigit (c.toNat % 16)]
  else [c]

/-- The character behind a short escape. -/
def unescapeShort (c : Char) : Option Char :=
  if c = '"' then some '"'
  else if c = '\\' then some '\\'
  else if c = 'b' then some (Char.ofNat 0x08)
  else if c = 't' then some '\t'
  else if c = 'n' then some '\n'
  else if c = 'f' then some (Char.ofNat 0x0C)
  else if c = 'r' then some '\r'
  else none

/-- The first character written inside a JSON string, and the rest. -/
def unescapeChar : List Char → Option (Char × List Char)
  | '\\' :: 'u' :: '0' :: '0' :: hi :: lo :: rest =>
    match hexNibble hi, hexNibble lo with
    | some h, some l => some (Char.ofNat (16 * h + l), rest)
    | _, _ => none
  | '\\' :: c :: rest => (unescapeShort c).map (·, rest)
  | c :: rest => some (c, rest)
  | [] => none

theorem unescapeChar_escapeChar (c : Char) (rest : List Char) :
    unescapeChar (escapeChar c ++ rest) = some (c, rest) := by
  unfold escapeChar
  split_ifs with hquote hslash hb ht hn hf hr hcontrol
  · rw [hquote]
    rfl
  · rw [hslash]
    rfl
  · rw [hb]
    rfl
  · rw [ht]
    rfl
  · rw [hn]
    rfl
  · rw [hf]
    rfl
  · rw [hr]
    rfl
  · have hhi := hexNibble_hexDigit (c.toNat / 16) (by omega)
    have hlo := hexNibble_hexDigit (c.toNat % 16) (by omega)
    have hvalue : 16 * (c.toNat / 16) + c.toNat % 16 = c.toNat := by omega
    simp only [List.cons_append, List.nil_append, unescapeChar, hhi, hlo, hvalue, Char.ofNat_toNat]
  · rw [List.singleton_append, unescapeChar]
    · rintro _ _ _ h _
      exact hslash h
    · rintro _ _ h _
      exact hslash h

/-- A string with its quotes. -/
def writeString (text : String) : List Char :=
  '"' :: (text.toList.flatMap escapeChar ++ ['"'])

/-- No escaped character begins with the closing quote. -/
theorem escapeChar_open (c : Char) : ∃ d rest, escapeChar c = d :: rest ∧ d ≠ '"' := by
  unfold escapeChar
  split_ifs with hquote
  all_goals first | exact ⟨'\\', _, rfl, by decide⟩ | exact ⟨c, [], rfl, hquote⟩

theorem selfDelimiting_writeString : SelfDelimiting writeString := by
  have hchars : SelfDelimiting fun text : List Char => text.flatMap escapeChar ++ ['"'] :=
    (SelfDelimiting.of_reader unescapeChar_escapeChar).listUntil escapeChar_open
  intro a b r r' heq
  obtain ⟨htext, hr⟩ := (hchars.between ['"'] []) a.toList b.toList r r' (by
    simpa [writeString] using heq)
  exact ⟨String.toList_inj.mp htext, hr⟩

/-- A list of written items. -/
def writeArray {α : Type} (writeItem : α → List Char) : List α → List Char :=
  bracketed '[' ',' ']' writeItem

end Veriai
