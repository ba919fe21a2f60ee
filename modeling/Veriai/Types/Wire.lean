import Veriai.Types.ClaimsMap

/-!
# The claims set on the wire

The format specification gives each claim a CDDL type. `from_binary` reads
every map of these types, in any order. `to_binary` writes only the integer
and text claims with theirs: a byte sequence without a byte-string marker
becomes an array of integers, so the five 32-byte claims and the attestation
report do not have the specified type.
-/

namespace Veriai

open Cbor

namespace Cbor

/-- A nonnegative integer of the signed range is the item of its value. -/
theorem Item.unsigned_eq_ofInt64 {value : UInt64} (h : value.toNat < 2 ^ 63) :
    Item.unsigned value = .ofInt64 value.toInt64 := by
  have hnonneg : 0 ≤ value.toInt64 := by
    rw [Int64.le_iff_toInt_le, toInt_toInt64 h, Int64.toInt_zero]
    omega
  rw [ofInt64, if_pos hnonneg, UInt64.toUInt64_toInt64]

/-- A negative integer of the signed range is the item of its value. -/
theorem Item.negative_eq_ofInt64 {value : UInt64} (h : value.toNat < 2 ^ 63) :
    Item.negative value = .ofInt64 (~~~value.toInt64) := by
  have hneg : ¬ 0 ≤ ~~~value.toInt64 := by
    rw [Int64.le_iff_toInt_le, Int64.toInt_not, toInt_toInt64 h, Int64.toInt_zero,
      Int.bmod_eq_of_le (by omega) (by omega)]
    omega
  rw [ofInt64, if_neg hneg, Int64.not_not, UInt64.toUInt64_toInt64]

end Cbor

/-- The CDDL type of a claim. -/
def Claim.Specified : Claim → Item → Prop
  | .modelHash, item | .inputHash, item | .outputHash, item | .clientNonce, item
  | .enclavePubkey, item => ∃ value : Bytes, item = .bytes value ∧ value.length = 32
  | .sequenceNum, item | .attestationType, item => ∃ value, item = .unsigned value
  | .attestationReport, item => ∃ value, item = .bytes value
  | .attestationTimestamp, item => ∃ value, item = .unsigned value ∨ item = .negative value
  | .sdkVersion, item => ∃ value, item = .text value

/-- An integer item within the range of `i64`. -/
def FitsI64 (item : Item) : Prop :=
  ∀ value, item = .unsigned value ∨ item = .negative value → value.toNat < 2 ^ 63

/-- The item of the specified type for each claim. -/
def VeriClaims.specified (claims : VeriClaims) : Claim → Item
  | .modelHash => .bytes claims.modelHash.toList
  | .inputHash => .bytes claims.inputHash.toList
  | .outputHash => .bytes claims.outputHash.toList
  | .clientNonce => .bytes claims.clientNonce.toList
  | .sequenceNum => .unsigned claims.sequenceNum
  | .attestationReport => .bytes claims.attestationReport
  | .attestationType => .unsigned claims.attestationType
  | .attestationTimestamp => .ofInt64 claims.attestationTimestamp
  | .sdkVersion => .text claims.sdkVersion
  | .enclavePubkey => .bytes claims.enclavePubkey.toList

/-- The claims that are written with their specified type. -/
def Claim.writtenAsSpecified : Claim → Bool
  | .sequenceNum | .attestationType | .attestationTimestamp | .sdkVersion => true
  | _ => false

/-- `to_binary` writes a map in which each claim has its specified type. -/
def VeriClaims.WrittenAsSpecified (codec : Codec) (claims : VeriClaims) : Prop :=
  ∃ bytes entries, claims.toBinary codec = .ok bytes ∧
    codec.read bytes = .ok (.map entries, []) ∧
    ∀ c : Claim, ∃ item, (.ofInt64 c.key, item) ∈ entries ∧ c.Specified item

section Writing

variable {codec : Codec}

/-- An integer claim is written as an integer. -/
theorem specified_ofInt64 (value : Int64) :
    Claim.attestationTimestamp.Specified (.ofInt64 value) := by
  unfold Item.ofInt64
  split
  · exact ⟨_, Or.inl rfl⟩
  · exact ⟨_, Or.inr rfl⟩

/-- Exactly the integer and text claims are written with their specified type. -/
theorem VeriClaims.written_specified_iff (claims : VeriClaims) (c : Claim) :
    c.Specified (claims.written c) ↔ c.writtenAsSpecified = true := by
  cases c with
  | attestationTimestamp => exact iff_of_true (specified_ofInt64 _) rfl
  | sequenceNum => exact iff_of_true ⟨_, rfl⟩ rfl
  | attestationType => exact iff_of_true ⟨_, rfl⟩ rfl
  | sdkVersion => exact iff_of_true ⟨_, rfl⟩ rfl
  | attestationReport =>
    apply iff_of_false _ Bool.false_ne_true
    rintro ⟨value, hitem⟩
    cases hitem
  | modelHash | inputHash | outputHash | clientNonce | enclavePubkey =>
    apply iff_of_false _ Bool.false_ne_true
    rintro ⟨value, hitem, -⟩
    cases hitem

theorem within_ofInt64 (depth : Nat) (value : Int64) : (Item.ofInt64 value).Within (depth + 1) := by
  unfold Item.ofInt64
  split <;> trivial

/-- A map of claims is nested one deeper than its values. -/
theorem within_entries {f : Claim → Item} (hf : ∀ c, (f c).Within 2) {entries : List (Item × Item)}
    (hentries : entries ⊆ Claim.entries f) : (Item.map entries).Within 3 := by
  intro entry hmem
  obtain ⟨c, rfl⟩ := Claim.mem_entries (hentries hmem)
  exact ⟨within_ofInt64 _ _, hf c⟩

/-- The written map is nested two deep. -/
theorem VeriClaims.within_serializeEntries (claims : VeriClaims) :
    (Item.map claims.serializeEntries).Within 3 := by
  have hseq (value : Bytes) : (Item.ofByteSeq value).Within 2 := by
    intro item hmem
    obtain ⟨b, -, rfl⟩ := List.mem_map.mp hmem
    trivial
  apply within_entries (f := claims.written) _ (List.Subset.refl _)
  intro c
  cases c with
  | attestationTimestamp => exact within_ofInt64 _ _
  | sequenceNum | attestationType | sdkVersion => trivial
  | _ => exact hseq _

/-- What `to_binary` writes is read as the map of the ten entries. -/
theorem VeriClaims.read_toBinary (hcodec : codec.Lawful) {claims : VeriClaims} {bytes : Bytes}
    (h : claims.toBinary codec = .ok bytes) :
    codec.read bytes = .ok (.map claims.serializeEntries, []) := by
  have hread := hcodec.read_write [] (claims.within_serializeEntries.mono (by decide)) h
  rw [List.append_nil] at hread
  exact hread

/-- Among the entries of a table, a claim's key stands before its value only. -/
theorem Claim.eq_of_mem_entries {f : Claim → Item} {c : Claim} {item : Item}
    (h : (Item.ofInt64 c.key, item) ∈ Claim.entries f) : item = f c := by
  obtain ⟨d, hd⟩ := Claim.mem_entries h
  obtain ⟨hkey, rfl⟩ := Prod.mk.inj hd
  have hsame : Except.ok c.key = (Except.ok d.key : Except String Int64) := by
    rw [← Item.readI64_ofInt64, ← Item.readI64_ofInt64, hkey]
  rw [Claim.key_injective (Except.ok.inj hsame)]

/-- Every written claims set holds its model hash as an array. -/
theorem VeriClaims.not_writtenAsSpecified (hcodec : codec.Lawful) (claims : VeriClaims) :
    ¬ claims.WrittenAsSpecified codec := by
  rintro ⟨bytes, entries, hbytes, hread, hspecified⟩
  rw [claims.read_toBinary hcodec hbytes] at hread
  injection hread with hread
  injection hread with hread
  injection hread with hread
  obtain ⟨item, hmem, hitem⟩ := hspecified .modelHash
  rw [← hread, serializeEntries_eq] at hmem
  rw [Claim.eq_of_mem_entries hmem, claims.written_specified_iff] at hitem
  exact Bool.false_ne_true hitem

end Writing

section Reading

variable {codec : Codec}

@[simp] theorem readHash_bytes (name : String) (value : ByteArr 32) :
    readHash name (.bytes value.toList) = .ok value := by
  rw [readHash, Item.readByteSeq_bytes]
  simp only [bind, Except.bind, okOr_eq_ok, ByteArr.ofBytes?_toList]

/-- A value of the specified type is read. -/
theorem VeriClaims.read_specified (claims : VeriClaims) (c : Claim) :
    c.read (claims.specified c) = .ok (claims.value c) := by
  cases c <;> simp [Claim.read, specified, value] <;> rfl

theorem exists_vector_of_bytes {item : Item}
    (h : ∃ value : Bytes, item = .bytes value ∧ value.length = 32) :
    ∃ value : ByteArr 32, .bytes value.toList = item := by
  obtain ⟨value, rfl, hlen⟩ := h
  exact ⟨⟨value, hlen⟩, rfl⟩

/-- Values of the specified types are those of a claims set. -/
theorem VeriClaims.exists_specified {f : Claim → Item} (hf : ∀ c : Claim, c.Specified (f c))
    (hfits : FitsI64 (f .attestationTimestamp)) :
    ∃ claims : VeriClaims, ∀ c, claims.specified c = f c := by
  obtain ⟨modelHash, hmodelHash⟩ := exists_vector_of_bytes (hf .modelHash)
  obtain ⟨inputHash, hinputHash⟩ := exists_vector_of_bytes (hf .inputHash)
  obtain ⟨outputHash, houtputHash⟩ := exists_vector_of_bytes (hf .outputHash)
  obtain ⟨clientNonce, hclientNonce⟩ := exists_vector_of_bytes (hf .clientNonce)
  obtain ⟨enclavePubkey, henclavePubkey⟩ := exists_vector_of_bytes (hf .enclavePubkey)
  obtain ⟨sequenceNum, hsequenceNum⟩ := hf .sequenceNum
  obtain ⟨attestationReport, hattestationReport⟩ := hf .attestationReport
  obtain ⟨attestationType, hattestationType⟩ := hf .attestationType
  obtain ⟨sdkVersion, hsdkVersion⟩ := hf .sdkVersion
  obtain ⟨attestationTimestamp, htimestamp⟩ :
      ∃ value : Int64, .ofInt64 value = f .attestationTimestamp := by
    obtain ⟨value, hvalue⟩ := hf .attestationTimestamp
    have hlt := hfits value hvalue
    rcases hvalue with hvalue | hvalue
    · exact ⟨_, (hvalue.trans (Item.unsigned_eq_ofInt64 hlt)).symm⟩
    · exact ⟨_, (hvalue.trans (Item.negative_eq_ofInt64 hlt)).symm⟩
  refine ⟨{ modelHash, inputHash, outputHash, clientNonce, sequenceNum, attestationReport,
            attestationType, attestationTimestamp, sdkVersion, enclavePubkey }, ?_⟩
  intro c
  cases c with
  | modelHash => exact hmodelHash
  | inputHash => exact hinputHash
  | outputHash => exact houtputHash
  | clientNonce => exact hclientNonce
  | sequenceNum => exact hsequenceNum.symm
  | attestationReport => exact hattestationReport.symm
  | attestationType => exact hattestationType.symm
  | attestationTimestamp => exact htimestamp
  | sdkVersion => exact hsdkVersion.symm
  | enclavePubkey => exact henclavePubkey

/-- A map with one entry for each claim, in any order and of the specified types, is read as
the claims with these values. -/
theorem VeriClaims.fromBinary_specified (skip : Item → Except String Unit) {f : Claim → Item}
    (hf : ∀ c : Claim, c.Specified (f c)) (hfits : FitsI64 (f .attestationTimestamp))
    {entries : List (Item × Item)} {bytes rest : Bytes}
    (hentries : entries.Perm (Claim.entries f))
    (hread : codec.read bytes = .ok (.map entries, rest)) :
    ∃ claims, fromBinary codec skip bytes = .ok claims ∧ ∀ c, claims.specified c = f c := by
  obtain ⟨claims, hclaims⟩ := exists_specified hf hfits
  obtain rfl : claims.specified = f := funext hclaims
  refine ⟨claims, ?_, hclaims⟩
  rw [fromBinary, hread]
  exact visitMap_of_entries_only claims.read_specified hentries

end Reading

/-- No claims set is written as specified: the integer and text claims have their types, the
byte-string claims do not. Every map of the specified types is read, in any order. -/
theorem VeriClaims.wire_format {codec : Codec} (hcodec : codec.Lawful)
    (skip : Item → Except String Unit) :
    (∀ claims : VeriClaims, ¬ claims.WrittenAsSpecified codec) ∧
    (∀ (claims : VeriClaims) (bytes : Bytes), claims.toBinary codec = .ok bytes →
      codec.read bytes = .ok (.map claims.serializeEntries, []) ∧
      ∀ (c : Claim) (item : Item), (.ofInt64 c.key, item) ∈ claims.serializeEntries →
        (c.Specified item ↔ c.writtenAsSpecified = true)) ∧
    ∀ (f : Claim → Item) (entries : List (Item × Item)) (bytes rest : Bytes),
      (∀ c : Claim, c.Specified (f c)) → FitsI64 (f .attestationTimestamp) →
      entries.Perm (Claim.entries f) → codec.read bytes = .ok (.map entries, rest) →
      ∃ claims, fromBinary codec skip bytes = .ok claims ∧ ∀ c, claims.specified c = f c := by
  refine ⟨fun claims => claims.not_writtenAsSpecified hcodec, ?_, ?_⟩
  · intro claims bytes hbytes
    refine ⟨claims.read_toBinary hcodec hbytes, ?_⟩
    intro c item hmem
    rw [serializeEntries_eq] at hmem
    rw [Claim.eq_of_mem_entries hmem, claims.written_specified_iff]
  · intro f entries bytes rest hf hfits hentries hread
    exact fromBinary_specified skip hf hfits hentries hread

/-- The sample claims in the specified types and the reverse order are read back. -/
theorem VeriClaims.wire_format_reversed : ∃ bytes claims,
    definite.write (.map (Claim.entries sampleClaims.specified).reverse) = .ok bytes ∧
      fromBinary definite skipIgnored bytes = .ok claims ∧
      ∀ c, claims.specified c = sampleClaims.specified c := by
  have hwritten : (definite.write (.map (Claim.entries sampleClaims.specified).reverse)).isOk := by
    decide
  obtain ⟨bytes, hbytes⟩ := exists_of_isOk hwritten
  have hspecified (c : Claim) : c.Specified (sampleClaims.specified c) := by
    cases c with
    | attestationTimestamp => exact specified_ofInt64 _
    | sequenceNum | attestationReport | attestationType | sdkVersion => exact ⟨_, rfl⟩
    | _ => exact ⟨_, rfl, rfl⟩
  have hfits : FitsI64 (sampleClaims.specified .attestationTimestamp) := by
    intro value hvalue
    rcases hvalue with hvalue | hvalue
    · cases hvalue
    · obtain rfl := Item.negative.inj hvalue
      decide
  have hwithin : (Item.map (Claim.entries sampleClaims.specified).reverse).Within 3 := by
    apply within_entries (f := sampleClaims.specified) _
      (List.reverse_subset.mpr (List.Subset.refl _))
    intro c
    cases c with
    | attestationTimestamp => exact within_ofInt64 _ _
    | _ => trivial
  have hread := definite_lawful.read_write [] (hwithin.mono (by decide)) hbytes
  rw [List.append_nil] at hread
  obtain ⟨claims, hclaims, hsame⟩ := (VeriClaims.wire_format definite_lawful skipIgnored).2.2
    sampleClaims.specified _ bytes [] hspecified hfits (List.reverse_perm _) hread
  exact ⟨bytes, claims, hbytes, hclaims, hsame⟩

/-- The sample claims are written, but not as specified. -/
theorem sampleClaims_not_specified :
    (∃ bytes, sampleClaims.toBinary definite = .ok bytes) ∧
      ¬ sampleClaims.WrittenAsSpecified definite :=
  ⟨exists_of_isOk (by decide), sampleClaims.not_writtenAsSpecified definite_lawful⟩

end Veriai
