import Mathlib.Data.Finset.Sort
import Veriai.Core.Fields
import Veriai.Types.Schema

/-!
# Attestation documents as maps

The derived `Serialize` and `Deserialize` of `AttestationDoc`. The nine fields
are entries under their names; the three optional ones may be null or absent.
The register table is a map in the order of its keys, and of two entries for
one register the later counts.
-/

namespace Veriai

open Cbor

/-- A field of the document. -/
inductive DocField where
  | moduleId
  | timestamp
  | digest
  | pcrs
  | certificate
  | cabundle
  | publicKey
  | userData
  | nonce
  deriving DecidableEq

/-- `BTreeMap<u32, Vec<u8>>::deserialize`. -/
def readPcrs (item : Item) : Except String (Finmap fun _ : UInt32 => Bytes) := do
  let entries ← item.readMap
  entries.foldlM (fun pcrs entry => do
    let index ← entry.1.readU32
    let value ← entry.2.readByteSeq
    return pcrs.insert index value) ∅

namespace DocField

/-- The type of a field. -/
def Value : DocField → Type
  | moduleId | digest => String
  | timestamp => UInt64
  | pcrs => Finmap fun _ : UInt32 => Bytes
  | certificate => Bytes
  | cabundle => List Bytes
  | publicKey | userData | nonce => Option Bytes

def all : List DocField :=
  [moduleId, timestamp, digest, pcrs, certificate, cabundle, publicKey, userData, nonce]

def name : DocField → String
  | moduleId => "module_id"
  | timestamp => "timestamp"
  | digest => "digest"
  | pcrs => "pcrs"
  | certificate => "certificate"
  | cabundle => "cabundle"
  | publicKey => "public_key"
  | userData => "user_data"
  | nonce => "nonce"

/-- How the value of a field is read. -/
def read : (f : DocField) → Item → Except String f.Value
  | moduleId, item => item.readString
  | timestamp, item => item.readU64
  | digest, item => item.readString
  | pcrs, item => readPcrs item
  | certificate, item => item.readByteSeq
  | cabundle, item => item.readSeq Item.readByteSeq
  | publicKey, item => item.readOption Item.readByteSeq
  | userData, item => item.readOption Item.readByteSeq
  | nonce, item => item.readOption Item.readByteSeq

/-- An optional field may be absent. -/
def absent : (f : DocField) → Option f.Value
  | publicKey | userData | nonce => some none
  | _ => none

end DocField

/-- The fields of `AttestationDoc` in the order of its declaration. -/
def docFields : Fields DocField where
  Value := DocField.Value
  all := DocField.all
  name := DocField.name
  read := DocField.read
  absent := DocField.absent
  nodup := by decide
  complete f := by cases f <;> decide
  name_injective f g h := by
    cases f <;> cases g <;> first | rfl | exact absurd h (by decide)
  name_fits f := by cases f <;> decide

namespace AttestationDoc

def ofValues (values : (f : DocField) → docFields.Value f) : AttestationDoc where
  moduleId := values .moduleId
  timestamp := values .timestamp
  digest := values .digest
  pcrs := values .pcrs
  certificate := values .certificate
  cabundle := values .cabundle
  publicKey := values .publicKey
  userData := values .userData
  nonce := values .nonce

/-- The derived `visit_map`; `skip` reads a value that no field has. -/
def visitMap (skip : Item → Except String Unit) (entries : List (Item × Item)) :
    Except String AttestationDoc := do
  return ofValues (← docFields.visitMap skip entries)

/-- `AttestationDoc::from_binary`: only the first item of the bytes is looked at. -/
def fromBinary (codec : Codec) (skip : Item → Except String Unit) (bytes : Bytes) :
    Except String AttestationDoc := do
  let (item, _) ← codec.read bytes
  let entries ← item.readMap
  visitMap skip entries

/-- An optional byte sequence. -/
def ofOption : Option Bytes → Item
  | none => .null
  | some value => .ofByteSeq value

/-- The registers in the order of their keys. -/
def pcrEntries (doc : AttestationDoc) : List (Item × Item) :=
  (doc.pcrs.keys.sort (· ≤ ·)).map fun index =>
    (.unsigned index.toUInt64, .ofByteSeq ((doc.pcrs.lookup index).getD []))

/-- The entries that the derived `serialize` emits, in its order. -/
def serializeEntries (doc : AttestationDoc) : List (Item × Item) :=
  [(.text "module_id", .text doc.moduleId),
    (.text "timestamp", .unsigned doc.timestamp),
    (.text "digest", .text doc.digest),
    (.text "pcrs", .map doc.pcrEntries),
    (.text "certificate", .ofByteSeq doc.certificate),
    (.text "cabundle", .array (doc.cabundle.map Item.ofByteSeq)),
    (.text "public_key", ofOption doc.publicKey),
    (.text "user_data", ofOption doc.userData),
    (.text "nonce", ofOption doc.nonce)]

/-- `AttestationDoc::to_binary`. -/
def toBinary (codec : Codec) (doc : AttestationDoc) : Except String Bytes :=
  codec.write (.map doc.serializeEntries)

/-- The value of a field in a document. -/
def value (doc : AttestationDoc) : (f : DocField) → docFields.Value f
  | .moduleId => doc.moduleId
  | .timestamp => doc.timestamp
  | .digest => doc.digest
  | .pcrs => doc.pcrs
  | .certificate => doc.certificate
  | .cabundle => doc.cabundle
  | .publicKey => doc.publicKey
  | .userData => doc.userData
  | .nonce => doc.nonce

/-- How `serialize` writes the value of a field. -/
def written (doc : AttestationDoc) : DocField → Item
  | .moduleId => .text doc.moduleId
  | .timestamp => .unsigned doc.timestamp
  | .digest => .text doc.digest
  | .pcrs => .map doc.pcrEntries
  | .certificate => .ofByteSeq doc.certificate
  | .cabundle => .array (doc.cabundle.map Item.ofByteSeq)
  | .publicKey => ofOption doc.publicKey
  | .userData => ofOption doc.userData
  | .nonce => ofOption doc.nonce

theorem ofValues_value (doc : AttestationDoc) : ofValues doc.value = doc := rfl

theorem value_ofValues (values : (f : DocField) → docFields.Value f) :
    (ofValues values).value = values := by
  funext f
  cases f <;> rfl

theorem serializeEntries_eq (doc : AttestationDoc) :
    doc.serializeEntries = docFields.oneEach doc.written := rfl

theorem readOption_ofOption (value : Option Bytes) :
    (ofOption value).readOption Item.readByteSeq = .ok value := by
  cases value with
  | none => rfl
  | some value =>
    have hread : (ofOption (some value)).readOption Item.readByteSeq =
        (Item.ofByteSeq value).readByteSeq.map some := rfl
    rw [hread, Item.readByteSeq_ofByteSeq]
    rfl

/-- Each register among the inserted ones has the value inserted for it. -/
theorem lookup_insertAll {keys : List UInt32} {f : UInt32 → Bytes}
    {pcrs : Finmap fun _ : UInt32 => Bytes} {index : UInt32} :
    (keys.foldl (fun pcrs key => pcrs.insert key (f key)) pcrs).lookup index =
      if index ∈ keys then some (f index) else pcrs.lookup index := by
  induction keys generalizing pcrs with
  | nil => simp
  | cons key keys ih =>
    rw [List.foldl_cons, ih]
    by_cases hmem : index ∈ keys
    · simp [hmem]
    · by_cases hkey : index = key
      · subst hkey
        simp
      · simp [hmem, hkey]

/-- The registers are read as they are written. -/
theorem readPcrs_pcrEntries (doc : AttestationDoc) :
    readPcrs (.map doc.pcrEntries) = .ok doc.pcrs := by
  have hwalk (keys : List UInt32) (pcrs : Finmap fun _ : UInt32 => Bytes) :
      (keys.map fun index => (Item.unsigned index.toUInt64,
          Item.ofByteSeq ((doc.pcrs.lookup index).getD []))).foldlM (fun pcrs entry => do
        let index ← entry.1.readU32
        let value ← entry.2.readByteSeq
        return pcrs.insert index value) pcrs =
      (.ok (keys.foldl (fun pcrs key => pcrs.insert key ((doc.pcrs.lookup key).getD [])) pcrs) :
        Except String _) := by
    induction keys generalizing pcrs with
    | nil => rfl
    | cons key keys ih =>
      rw [List.map_cons, List.foldlM_cons, Item.readU32_unsigned, Item.readByteSeq_ofByteSeq]
      exact ih _
  rw [readPcrs, Item.readMap, ok_bind, pcrEntries, hwalk]
  refine congrArg Except.ok (Finmap.ext_lookup fun index => ?_)
  rw [lookup_insertAll]
  simp only [Finset.mem_sort, Finmap.mem_keys]
  by_cases hmem : index ∈ doc.pcrs
  · obtain ⟨value, hvalue⟩ := Finmap.mem_iff.mp hmem
    simp [hmem, hvalue]
  · simp [hmem, Finmap.lookup_eq_none.mpr hmem]

/-- Each field is read as it was written. -/
theorem read_written (doc : AttestationDoc) (f : DocField) :
    docFields.read f (doc.written f) = .ok (doc.value f) := by
  cases f with
  | pcrs => exact doc.readPcrs_pcrEntries
  | certificate => exact Item.readByteSeq_ofByteSeq _
  | cabundle => exact Item.readSeq_array Item.readByteSeq_ofByteSeq _
  | publicKey | userData | nonce => exact readOption_ofOption _
  | timestamp => exact Item.readU64_unsigned _
  | moduleId | digest => rfl

/-- The written map is nested four deep. -/
theorem within_serializeEntries (doc : AttestationDoc) :
    (Item.map doc.serializeEntries).Within 4 := by
  have hseq (value : Bytes) : (Item.ofByteSeq value).Within 2 := by
    intro item hmem
    obtain ⟨b, -, rfl⟩ := List.mem_map.mp hmem
    trivial
  have hoption (value : Option Bytes) : (ofOption value).Within 3 := by
    cases value with
    | none => trivial
    | some value => exact (hseq value).mono (by decide)
  intro entry hmem
  rw [serializeEntries_eq] at hmem
  obtain ⟨f, -, rfl⟩ := List.mem_map.mp hmem
  refine ⟨trivial, ?_⟩
  cases f with
  | pcrs =>
    intro entry hmem
    obtain ⟨index, -, rfl⟩ := List.mem_map.mp hmem
    exact ⟨trivial, hseq _⟩
  | certificate => exact (hseq _).mono (by decide)
  | cabundle =>
    intro item hmem
    obtain ⟨value, -, rfl⟩ := List.mem_map.mp hmem
    exact hseq value
  | publicKey | userData | nonce => exact hoption _
  | moduleId | timestamp | digest => trivial

section Format

variable {codec : Codec} {skip : Item → Except String Unit}

theorem visitMap_eq_ok {entries : List (Item × Item)} {doc : AttestationDoc} :
    visitMap skip entries = .ok doc ↔ docFields.visitMap skip entries = .ok doc.value := by
  simp only [visitMap, bind_eq_ok]
  constructor
  · rintro ⟨values, hvalues, hdoc⟩
    obtain rfl := Except.ok.inj hdoc
    rw [hvalues, value_ofValues]
  · exact fun h => ⟨_, h, congrArg Except.ok doc.ofValues_value⟩

/-- What `to_binary` writes is read back, whatever follows it. -/
theorem fromBinary_toBinary (hcodec : codec.Lawful) {doc : AttestationDoc} {bytes : Bytes}
    (h : doc.toBinary codec = .ok bytes) (rest : Bytes) :
    fromBinary codec skip (bytes ++ rest) = .ok doc := by
  have hwithin : (Item.map doc.serializeEntries).Within recursionLimit :=
    doc.within_serializeEntries.mono (by decide)
  have hvisit : visitMap skip doc.serializeEntries = .ok doc := by
    rw [visitMap_eq_ok, serializeEntries_eq]
    exact Fields.visitMap_oneEach doc.read_written
  rw [fromBinary, hcodec.read_write rest hwithin h]
  exact hvisit

/-- A document is read back from the bytes it is written as, whatever follows them. A map is
decoded as a document exactly when every key can be read, every value under another name can be
skipped, and each field is given once, or not at all where it is optional; the order of the entries
does not matter. -/
theorem document_format (hcodec : codec.Lawful) (skip : Item → Except String Unit) :
    (∀ (doc : AttestationDoc) (bytes rest : Bytes), doc.toBinary codec = .ok bytes →
      fromBinary codec skip (bytes ++ rest) = .ok doc) ∧
    (∀ (entries : List (Item × Item)) (doc : AttestationDoc),
      visitMap skip entries = .ok doc ↔
        (∀ entry ∈ entries, docFields.Legible skip entry) ∧
          ∀ f, docFields.Settles f (doc.value f) (docFields.given f entries)) ∧
    ∀ (entries entries' : List (Item × Item)) (doc : AttestationDoc), entries.Perm entries' →
      (visitMap skip entries = .ok doc ↔ visitMap skip entries' = .ok doc) := by
  refine ⟨?_, ?_, ?_⟩
  · exact fun doc bytes rest h => fromBinary_toBinary hcodec h rest
  · intro entries doc
    rw [visitMap_eq_ok, Fields.visitMap_eq_ok]
  · intro entries entries' doc hperm
    rw [visitMap_eq_ok, visitMap_eq_ok]
    exact ⟨Fields.visitMap_perm hperm, Fields.visitMap_perm hperm.symm⟩

end Format

/-- A document with one register and without a nonce. -/
def sample : AttestationDoc where
  moduleId := "module"
  timestamp := 1
  digest := "SHA384"
  pcrs := Finmap.singleton 0 (List.replicate 48 0)
  certificate := [1]
  cabundle := [[2], [3]]
  publicKey := some [4]
  userData := some []
  nonce := none

/-- Every value can be skipped. -/
def skipAll (_ : Item) : Except String Unit := .ok ()

theorem sample_pcrEntries : sample.pcrEntries =
    [(.unsigned 0, .ofByteSeq (List.replicate 48 0))] := by
  have hkeys : sample.pcrs.keys = {0} := rfl
  have hlookup : sample.pcrs.lookup 0 = some (List.replicate 48 0) := rfl
  rw [pcrEntries, hkeys, Finset.sort_singleton, List.map_singleton, hlookup]
  rfl

/-- The document is written and read back before another byte, and it is read from its entries in
the reverse order, without the nonce, around an entry of another name. -/
theorem document_format_sample :
    (∃ bytes, sample.toBinary definite = .ok bytes ∧
      fromBinary definite skipAll (bytes ++ [0]) = .ok sample) ∧
    visitMap skipAll ((.text "other", .null) :: sample.serializeEntries.dropLast).reverse =
      .ok sample := by
  obtain ⟨hread, hdecodes, hperm⟩ := document_format definite_lawful skipAll
  constructor
  · have hwrites : ∃ bytes, sample.toBinary definite = .ok bytes := by
      rw [toBinary, serializeEntries, sample_pcrEntries]
      exact ⟨_, rfl⟩
    obtain ⟨bytes, hbytes⟩ := hwrites
    exact ⟨bytes, hbytes, hread sample bytes [0] hbytes⟩
  · rw [hperm _ _ _ (List.reverse_perm _), hdecodes]
    constructor
    · intro entry hmem
      rcases List.mem_cons.mp hmem with rfl | hmem
      · exact ⟨_, rfl, fun _ => rfl⟩
      · rw [serializeEntries_eq] at hmem
        obtain ⟨f, -, rfl⟩ := List.mem_map.mp (List.mem_of_mem_dropLast hmem)
        exact ⟨_, docFields.readIdentifier_name f, fun _ => rfl⟩
    · intro f
      cases f with
      | nonce => rfl
      | _ => exact sample.read_written _

end AttestationDoc

end Veriai
