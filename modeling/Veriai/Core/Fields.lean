import Mathlib.Logic.Function.Basic
import Veriai.Core.Cbor

/-!
# Structs as maps of named fields

A derived `Deserialize` reads a struct from a map. It walks the entries with
one slot for each field: an entry of a field fills the slot, a second entry of
the same field is refused, and the value under any other name is skipped. A
field without an entry is refused unless its type has a value for that case.

The walk over all fields is a walk for each field by itself, over the values
that the entries give that field. What is decoded therefore depends on neither
the order of the entries nor what stands between them.
-/

namespace Veriai.Cbor

namespace Item

/-- The longest key that the reader holds. -/
def scratch : Nat := 4096

/-- The bytes of a key that is not too long. -/
def identifier (key : Bytes) : Except String Bytes :=
  if key.length ≤ scratch then .ok key else .error "expected str or bytes"

/-- `deserialize_identifier`: a text or a byte string. -/
def readIdentifier : Item → Except String Bytes
  | .text value => identifier (utf8Bytes value)
  | .bytes value => identifier value
  | .tag _ content => content.readIdentifier
  | _ => .error "expected str or bytes"

/-- `u32::deserialize`. -/
def readU32 (item : Item) : Except String UInt32 := do
  let value ← item.readU64
  if value < 2 ^ 32 then return value.toUInt32 else throw "expected u32"

/-- `Option::deserialize`. -/
def readOption {α : Type} (read : Item → Except String α) : Item → Except String (Option α)
  | .null | .undefined => .ok none
  | item => (read item).map some

/-- `Vec::deserialize` where the elements are no integers. A byte string is a sequence of
integers, so only the empty one is read. -/
def readSeq {α : Type} (read : Item → Except String α) : Item → Except String (List α)
  | .array items => items.mapM read
  | .bytes [] => .ok []
  | .bytes (_ :: _) => .error "expected a sequence"
  | .tag _ content => content.readSeq read
  | _ => .error "expected array"

/-- An unsigned number of 32 bits is read back. -/
@[simp] theorem readU32_unsigned (value : UInt32) :
    (unsigned value.toUInt64).readU32 = .ok value := by
  have hlt : value.toUInt64 < 2 ^ 32 := by
    have hbound := value.toNat_lt
    rw [UInt64.lt_iff_toNat_lt, UInt32.toNat_toUInt64]
    exact hbound
  simp only [readU32, readU64_unsigned, bind, Except.bind, if_pos hlt, UInt32.toUInt32_toUInt64]
  rfl

/-- A sequence is read when each of its elements is. -/
theorem readSeq_array {α : Type} {read : Item → Except String α} {write : α → Item}
    (h : ∀ value, read (write value) = .ok value) (values : List α) :
    (array (values.map write)).readSeq read = .ok values := by
  rw [readSeq]
  induction values with
  | nil => rfl
  | cons value values ih =>
    rw [List.map_cons, List.mapM_cons, h, ok_bind, ih]
    rfl

end Item

/-- The named fields of a struct. -/
structure Fields (F : Type) where
  Value : F → Type
  /-- In the order of the declaration. -/
  all : List F
  name : F → String
  read : (f : F) → Item → Except String (Value f)
  /-- The value of a field without an entry, where its type has one. -/
  absent : (f : F) → Option (Value f)
  nodup : all.Nodup
  complete : ∀ f, f ∈ all
  name_injective : Function.Injective name
  name_fits : ∀ f, (utf8Bytes (name f)).length ≤ Item.scratch

namespace Fields

variable {F : Type} (fields : Fields F)

/-- One slot for each field. -/
abbrev Slots : Type := (f : F) → Option (fields.Value f)

/-- The field of a key. -/
def find? (key : Bytes) : Option F := fields.all.find? fun f => utf8Bytes (fields.name f) = key

/-- Fill the slot of a field. -/
def fill (f : F) (slot : Option (fields.Value f)) (item : Item) :
    Except String (Option (fields.Value f)) :=
  if slot.isSome then .error ("duplicate field `" ++ fields.name f ++ "`")
  else (fields.read f item).map some

/-- One pass of the loop in the derived `visit_map`; `skip` reads a value that is ignored. -/
def visitEntry [DecidableEq F] (skip : Item → Except String Unit) (slots : fields.Slots)
    (entry : Item × Item) : Except String fields.Slots := do
  let key ← entry.1.readIdentifier
  match fields.find? key with
  | some f => return Function.update slots f (← fields.fill f (slots f) entry.2)
  | none =>
    skip entry.2
    return slots

/-- A field at the end of the walk. -/
def settled (slots : fields.Slots) (f : F) : Option (fields.Value f) :=
  (slots f).or (fields.absent f)

/-- The values once the walk is over; the first field that is missing is reported. -/
def finish (slots : fields.Slots) : Except String ((f : F) → fields.Value f) :=
  match h : fields.all.find? fun f => (fields.settled slots f).isNone with
  | some f => .error ("missing field `" ++ fields.name f ++ "`")
  | none => .ok fun f => (fields.settled slots f).get <| by
      simpa [Option.isSome_iff_ne_none] using List.find?_eq_none.mp h f (fields.complete f)

/-- The derived `visit_map`. -/
def visitMap [DecidableEq F] (skip : Item → Except String Unit) (entries : List (Item × Item)) :
    Except String ((f : F) → fields.Value f) := do
  let slots ← entries.foldlM (fields.visitEntry skip) fun _ => none
  fields.finish slots

/-- The key can be read, and the value can be skipped where no field has that name. -/
def Legible (skip : Item → Except String Unit) (entry : Item × Item) : Prop :=
  ∃ key, entry.1.readIdentifier = .ok key ∧ (fields.find? key = none → skip entry.2 = .ok ())

/-- The values that entries give a field, in their order. -/
def given (f : F) (entries : List (Item × Item)) : List Item :=
  (entries.filter fun entry =>
    entry.1.readIdentifier.toOption = some (utf8Bytes (fields.name f))).map Prod.snd

/-- The values given to a field come to a value: no more than one is given, and without any the
type of the field has a value of its own. -/
def Settles (f : F) (value : fields.Value f) : List Item → Prop
  | [] => fields.absent f = some value
  | [item] => fields.read f item = .ok value
  | _ => False

variable {fields} {skip : Item → Except String Unit} {entry : Item × Item}
  {entries entries' : List (Item × Item)} {slots slots' : fields.Slots} {f : F}

/-- The bytes of a text determine it. -/
theorem utf8Bytes_inj {s t : String} (h : utf8Bytes s = utf8Bytes t) : s = t := by
  have hread := fromUTF8_utf8Bytes s
  rw [h, fromUTF8_utf8Bytes] at hread
  exact (Option.some.inj hread).symm

/-- A key finds the field of its name. -/
theorem find?_eq_some {key : Bytes} :
    fields.find? key = some f ↔ utf8Bytes (fields.name f) = key := by
  constructor
  · intro h
    simpa using List.find?_some h
  · rintro rfl
    cases hfind : fields.find? (utf8Bytes (fields.name f)) with
    | none =>
      have hnone := List.find?_eq_none.mp hfind f (fields.complete f)
      simp at hnone
    | some g =>
      have hg : utf8Bytes (fields.name g) = utf8Bytes (fields.name f) := by
        simpa using List.find?_some hfind
      rw [fields.name_injective (utf8Bytes_inj hg)]

@[simp] theorem given_nil : fields.given f [] = [] := rfl

/-- The values of the first entry come first. -/
theorem given_cons : fields.given f (entry :: entries) =
    fields.given f [entry] ++ fields.given f entries := by
  simp only [given, ← List.map_append, ← List.filter_append, List.singleton_append]

/-- An entry with the name of the field gives its value. -/
theorem given_self (h : entry.1.readIdentifier = .ok (utf8Bytes (fields.name f))) :
    fields.given f [entry] = [entry.2] := by
  simp [given, h]

/-- An entry with another name gives none. -/
theorem given_other {key : Bytes} (h : entry.1.readIdentifier = .ok key)
    (hne : fields.find? key ≠ some f) : fields.given f [entry] = [] := by
  have hkey : ¬ key = utf8Bytes (fields.name f) := fun heq => hne (find?_eq_some.mpr heq.symm)
  simp [given, h, hkey]

/-- One pass fills the slots with what the entry gives each field. -/
theorem visitEntry_eq_ok [DecidableEq F] : fields.visitEntry skip slots entry = .ok slots' ↔
    fields.Legible skip entry ∧
      ∀ f, (fields.given f [entry]).foldlM (fields.fill f) (slots f) = .ok (slots' f) := by
  cases hkey : entry.1.readIdentifier with
  | error e => simp [visitEntry, Legible, hkey, bind, Except.bind]
  | ok key =>
    cases hfind : fields.find? key with
    | none =>
      have hgiven (f : F) : fields.given f [entry] = [] := by
        apply given_other hkey
        simp [hfind]
      simp only [visitEntry, Legible, hkey, hfind, ok_bind, hgiven, bind_eq_ok, List.foldlM_nil]
      constructor
      · rintro ⟨u, hskip, hslots⟩
        obtain rfl := Except.ok.inj hslots
        exact ⟨⟨key, rfl, fun _ => hskip⟩, fun f => rfl⟩
      · rintro ⟨⟨_, heq, hskip⟩, hslots⟩
        obtain rfl := Except.ok.inj heq
        refine ⟨(), hskip hfind, congrArg Except.ok ?_⟩
        funext f
        exact Except.ok.inj (hslots f)
    | some g =>
      have hname : utf8Bytes (fields.name g) = key := find?_eq_some.mp hfind
      have hself : fields.given g [entry] = [entry.2] := given_self (by rw [hkey, hname])
      have hother (f : F) (hf : f ≠ g) : fields.given f [entry] = [] := by
        apply given_other hkey
        rw [hfind]
        exact fun h => hf (Option.some.inj h).symm
      have hlegible : fields.Legible skip entry := by
        refine ⟨key, hkey, ?_⟩
        rw [hfind]
        exact fun h => nomatch h
      simp only [visitEntry, hkey, hfind, ok_bind, bind_eq_ok]
      constructor
      · rintro ⟨slot, hslot, hslots⟩
        obtain rfl := Except.ok.inj hslots
        refine ⟨hlegible, fun f => ?_⟩
        by_cases hf : f = g
        · subst hf
          rw [hself, List.foldlM_cons, hslot, Function.update_self]
          rfl
        · rw [hother f hf, Function.update_of_ne hf]
          rfl
      · rintro ⟨-, hslots⟩
        have hg := hslots g
        rw [hself, List.foldlM_cons, bind_eq_ok] at hg
        obtain ⟨slot, hslot, hg⟩ := hg
        refine ⟨slot, hslot, congrArg Except.ok ?_⟩
        funext f
        by_cases hf : f = g
        · subst hf
          rw [Function.update_self]
          exact Except.ok.inj hg
        · have hf' := hslots f
          rw [hother f hf] at hf'
          rw [Function.update_of_ne hf]
          exact Except.ok.inj hf'

/-- The walk is a walk for each field over the values given to it. -/
theorem walk_eq_ok [DecidableEq F] : entries.foldlM (fields.visitEntry skip) slots = .ok slots' ↔
    (∀ entry ∈ entries, fields.Legible skip entry) ∧
      ∀ f, (fields.given f entries).foldlM (fields.fill f) (slots f) = .ok (slots' f) := by
  induction entries generalizing slots with
  | nil =>
    simp only [List.foldlM_nil, List.not_mem_nil, false_implies, implies_true, true_and, given_nil]
    constructor
    · intro h f
      obtain rfl := Except.ok.inj h
      rfl
    · intro h
      refine congrArg Except.ok ?_
      funext f
      exact Except.ok.inj (h f)
  | cons entry entries ih =>
    simp only [List.foldlM_cons, bind_eq_ok, visitEntry_eq_ok, ih, List.forall_mem_cons]
    constructor
    · rintro ⟨mid, ⟨hlegible, hfirst⟩, hall, hrest⟩
      refine ⟨⟨hlegible, hall⟩, fun f => ?_⟩
      rw [given_cons, List.foldlM_append, hfirst f]
      exact hrest f
    · rintro ⟨⟨hlegible, hall⟩, hslots⟩
      -- the slots between the first entry and the others, field by field
      have hmid (f : F) : ∃ slot,
          (fields.given f [entry]).foldlM (fields.fill f) (slots f) = .ok slot ∧
            (fields.given f entries).foldlM (fields.fill f) slot = .ok (slots' f) := by
        have hf := hslots f
        rw [given_cons, List.foldlM_append, bind_eq_ok] at hf
        exact hf
      choose mid hfirst hrest using hmid
      exact ⟨mid, ⟨hlegible, hfirst⟩, hall, hrest⟩

/-- A struct is finished where every field is settled. -/
theorem finish_eq_ok {values : (f : F) → fields.Value f} :
    fields.finish slots = .ok values ↔ ∀ f, fields.settled slots f = some (values f) := by
  unfold finish
  split
  next f hf =>
    have hnone : fields.settled slots f = none := by simpa using List.find?_some hf
    constructor
    · intro h
      cases h
    · intro h
      rw [h f] at hnone
      cases hnone
  next hall =>
    constructor
    · intro h f
      obtain rfl := Except.ok.inj h
      exact (Option.some_get _).symm
    · intro h
      refine congrArg Except.ok ?_
      funext f
      exact Option.get_of_eq_some _ (h f)

/-- A field by itself: what is given to it fills an empty slot at most once. -/
theorem settles_iff {value : fields.Value f} {items : List Item} :
    (∃ slot, items.foldlM (fields.fill f) none = .ok slot ∧
      slot.or (fields.absent f) = some value) ↔ fields.Settles f value items := by
  match items with
  | [] =>
    simp only [Settles, List.foldlM_nil]
    constructor
    · rintro ⟨slot, hslot, hvalue⟩
      obtain rfl := Except.ok.inj hslot
      exact hvalue
    · exact fun h => ⟨none, rfl, h⟩
  | [item] =>
    simp only [Settles, List.foldlM_cons, List.foldlM_nil, bind_pure, fill, Option.isSome_none,
      Bool.false_eq_true, if_false]
    cases fields.read f item <;> simp [Except.map]
  | item :: item' :: items =>
    simp only [Settles, iff_false, not_exists]
    rintro slot ⟨hslot, -⟩
    rw [List.foldlM_cons, bind_eq_ok] at hslot
    obtain ⟨first, hfirst, hslot⟩ := hslot
    rw [List.foldlM_cons, bind_eq_ok] at hslot
    obtain ⟨second, hsecond, -⟩ := hslot
    have hsome : first.isSome := by
      cases hread : fields.read f item <;> simp_all [fill, Except.map]
      rw [← hfirst]
      rfl
    rw [fill, if_pos hsome] at hsecond
    cases hsecond

/-- A map is decoded exactly when its keys are legible and every field settles. -/
theorem visitMap_eq_ok [DecidableEq F] {values : (f : F) → fields.Value f} :
    fields.visitMap skip entries = .ok values ↔
      (∀ entry ∈ entries, fields.Legible skip entry) ∧
        ∀ f, fields.Settles f (values f) (fields.given f entries) := by
  simp only [visitMap, bind_eq_ok, walk_eq_ok, finish_eq_ok, settled, ← settles_iff]
  constructor
  · rintro ⟨slots, ⟨hlegible, hslots⟩, hvalues⟩
    exact ⟨hlegible, fun f => ⟨slots f, hslots f, hvalues f⟩⟩
  · rintro ⟨hlegible, hsettles⟩
    choose slots hslots hvalues using hsettles
    exact ⟨slots, ⟨hlegible, hslots⟩, hvalues⟩

/-- The order of the values does not matter. -/
theorem Settles.perm {value : fields.Value f} {items items' : List Item}
    (h : fields.Settles f value items) (hperm : items.Perm items') :
    fields.Settles f value items' := by
  match items with
  | [] => rwa [hperm.symm.eq_nil]
  | [item] => rwa [hperm.symm.eq_singleton]

/-- The order of the entries does not matter. -/
theorem visitMap_perm [DecidableEq F] {values : (f : F) → fields.Value f}
    (hperm : entries.Perm entries') (h : fields.visitMap skip entries = .ok values) :
    fields.visitMap skip entries' = .ok values := by
  rw [visitMap_eq_ok] at h ⊢
  constructor
  · exact fun entry hmem => h.1 entry (hperm.mem_iff.mpr hmem)
  · exact fun f => (h.2 f).perm ((hperm.filter _).map _)

/-- One entry for each field, its value written by `write`. -/
def oneEach (fields : Fields F) (write : F → Item) : List (Item × Item) :=
  fields.all.map fun f => (.text (fields.name f), write f)

/-- The name of a field is read as its bytes. -/
theorem readIdentifier_name (fields : Fields F) (f : F) :
    (Item.text (fields.name f)).readIdentifier = .ok (utf8Bytes (fields.name f)) := by
  rw [Item.readIdentifier, Item.identifier, if_pos (fields.name_fits f)]

/-- One entry for each field gives each field one value. -/
theorem given_oneEach [DecidableEq F] {write : F → Item} :
    fields.given f (fields.oneEach write) = [write f] := by
  have hsame : ∀ g ∈ fields.all, ((fun entry : Item × Item => decide
      (entry.1.readIdentifier.toOption = some (utf8Bytes (fields.name f)))) ∘
        fun g => (Item.text (fields.name g), write g)) g = decide (g = f) := by
    intro g _
    have hname : utf8Bytes (fields.name g) = utf8Bytes (fields.name f) ↔ g = f :=
      ⟨fun h => fields.name_injective (utf8Bytes_inj h), fun h => h ▸ rfl⟩
    simp [readIdentifier_name, hname]
  rw [given, oneEach, List.filter_map, List.filter_congr hsame, List.filter_eq,
    List.count_eq_one_of_mem fields.nodup (fields.complete f)]
  rfl

/-- One readable entry for each field decodes to the fields. -/
theorem visitMap_oneEach [DecidableEq F] {values : (f : F) → fields.Value f} {write : F → Item}
    (h : ∀ f, fields.read f (write f) = .ok (values f)) :
    fields.visitMap skip (fields.oneEach write) = .ok values := by
  rw [visitMap_eq_ok]
  constructor
  · intro entry hmem
    obtain ⟨f, -, rfl⟩ := List.mem_map.mp hmem
    refine ⟨_, fields.readIdentifier_name f, fun hnone => ?_⟩
    rw [find?_eq_some.mpr rfl] at hnone
    cases hnone
  · intro f
    rw [given_oneEach]
    exact h f

end Fields

end Veriai.Cbor
