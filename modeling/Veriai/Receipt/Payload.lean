import Veriai.Receipt.Generate
import Veriai.Types.Wire

/-!
# What an accepted payload says

The claims of an accepted payload stand in the map it begins with. Each claim
occurs there, no reserved key does, and every occurrence is readable; a claim
that occurs once is read alike by every decoder. A repeated claim and bytes
after the map are not noticed.
-/

namespace Veriai

open Cbor

/-- The entries with a claim's key. -/
def Claim.occurrences (c : Claim) (entries : List (Item × Item)) : List (Item × Item) :=
  entries.filter fun entry => entry.1.readI64.toOption = some c.key

theorem Claim.mem_occurrences {c : Claim} {entries : List (Item × Item)} {entry : Item × Item} :
    entry ∈ c.occurrences entries ↔ entry ∈ entries ∧ entry.1.readI64 = .ok c.key := by
  rw [occurrences, List.mem_filter, decide_eq_true_eq, toOption_eq_some]

/-- The entries carry the claims. -/
structure CarriedBy (entries : List (Item × Item)) (claims : VeriClaims) : Prop where
  notReserved : ∀ entry ∈ entries, ∀ key, entry.1.readI64 = .ok key → ¬ IsReserved key
  readable : ∀ c : Claim, ∀ entry ∈ c.occurrences entries, ∃ value, c.read entry.2 = .ok value
  occurs : ∀ c : Claim, ∃ entry ∈ c.occurrences entries, c.read entry.2 = .ok (claims.value c)
  /-- A claim that occurs once has one reading. -/
  unambiguous : ∀ c : Claim, (c.occurrences entries).length = 1 →
    ∀ entry ∈ c.occurrences entries, c.read entry.2 = .ok (claims.value c)

/-- The first item of the payload is a map that carries the claims. -/
def PayloadCarries (codec : Codec) (payload : Bytes) (claims : VeriClaims) : Prop :=
  ∃ item rest entries, codec.read payload = .ok (item, rest) ∧ item.readMap = .ok entries ∧
    CarriedBy entries claims

/-- The visitor returns claims that its entries carry. -/
theorem CarriedBy.of_visitMap {skip : Item → Except String Unit} {entries : List (Item × Item)}
    {claims : VeriClaims} (h : VeriClaims.visitMap skip entries = .ok claims) :
    CarriedBy entries claims := by
  obtain ⟨hadmissible, hlast⟩ := VeriClaims.visitMap_eq_ok.mp h
  have hoccurs (c : Claim) :
      ∃ entry ∈ c.occurrences entries, c.read entry.2 = .ok (claims.value c) := by
    have hfound := List.mem_of_getLast? (hlast c)
    obtain ⟨entry, hmem, hentry⟩ := List.mem_filterMap.mp hfound
    obtain ⟨hkey, hread⟩ := Claim.found_eq_some.mp hentry
    exact ⟨entry, Claim.mem_occurrences.mpr ⟨hmem, hkey⟩, hread⟩
  constructor
  · intro entry hmem key hkey
    obtain ⟨key', hkey', hres, -⟩ := hadmissible entry hmem
    obtain rfl := Except.ok.inj (hkey.symm.trans hkey')
    exact hres
  · intro c entry hmem
    obtain ⟨hmem, hkey⟩ := Claim.mem_occurrences.mp hmem
    obtain ⟨key', hkey', -, hread, -⟩ := hadmissible entry hmem
    obtain rfl := Except.ok.inj (hkey.symm.trans hkey')
    exact hread c rfl
  · exact hoccurs
  · intro c hone entry hmem
    obtain ⟨only, honly⟩ := List.length_eq_one_iff.mp hone
    obtain ⟨other, hother, hread⟩ := hoccurs c
    rw [honly, List.mem_singleton] at hmem hother
    rw [hmem, ← hother]
    exact hread

/-- An accepted payload begins with a map that carries the claims returned. -/
theorem PayloadCarries.of_fromBinary {codec : Codec} {skip : Item → Except String Unit}
    {payload : Bytes} {claims : VeriClaims}
    (h : VeriClaims.fromBinary codec skip payload = .ok claims) :
    PayloadCarries codec payload claims := by
  rw [VeriClaims.fromBinary, bind_eq_ok] at h
  obtain ⟨⟨item, rest⟩, hread, h⟩ := h
  rw [bind_eq_ok] at h
  obtain ⟨entries, hentries, hvisit⟩ := h
  exact ⟨item, rest, entries, hread, hentries, .of_visitMap hvisit⟩

/-- Every payload that `from_binary` accepts, and the payload of every receipt answered valid,
begins with a map that carries the claims. -/
theorem accepted_payload_carries (codec : Codec) (skip : Item → Except String Unit) :
    (∀ payload claims, VeriClaims.fromBinary codec skip payload = .ok claims →
      PayloadCarries codec payload claims) ∧
    ∀ (env : Primitives) (v : Verifier) (now : SystemTime) (receiptBytes : Bytes)
      (expected : Expected) (state : Option ReplayMutex),
      (∀ payload, env.claimsFromBinary payload = VeriClaims.fromBinary codec skip payload) →
      Verifier.Accepts (v.verify env now receiptBytes expected state).1 →
      ∃ cose payload claims doc, cose.payload = some payload ∧
        PayloadCarries codec payload claims ∧
        v.Inspected env now receiptBytes expected cose claims doc := by
  refine ⟨fun payload claims => .of_fromBinary, ?_⟩
  intro env v now receiptBytes expected state hclaims haccepts
  obtain ⟨cose, claims, doc, hinspected, -⟩ := Verifier.accepts_iff.mp haccepts
  obtain ⟨payload, hpayload, hdecode⟩ := hinspected.claimsDecode
  rw [hclaims payload] at hdecode
  exact ⟨cose, payload, claims, doc, hpayload, .of_fromBinary hdecode, hinspected⟩

namespace Transparent

/-- Receipts are a marker and their payload, and the claims are read by `from_binary`. -/
def binaryClaims : Primitives where
  __ := primitives
  coseFromSlice
    | 0x84 :: payload => .ok (receipt (some []) payload)
    | payload => .ok (attestation payload)
  claimsFromBinary := VeriClaims.fromBinary definite skipIgnored

/-- A receipt whose payload `to_binary` wrote is accepted, and its payload carries the claims. -/
theorem accepted_payload_carries_written : ∃ payload,
    (claims 0 7).toBinary definite = .ok payload ∧
      Verifier.Accepts
        (verifier.verify binaryClaims epoch (0x84 :: payload) expected none).1 ∧
      PayloadCarries definite payload (claims 0 7) := by
  obtain ⟨payload, hpayload⟩ : ∃ payload, (claims 0 7).toBinary definite = .ok payload :=
    exists_of_isOk (by decide)
  have hsize : ∀ bytes ∈ ((claims 0 7).toBinary definite).toOption, bytes.length < 1024 := by
    decide +kernel
  have hdecode : binaryClaims.claimsFromBinary payload = .ok (claims 0 7) := by
    have hvisit : VeriClaims.visitMap skipIgnored (claims 0 7).serializeEntries =
        .ok (claims 0 7) :=
      VeriClaims.visitMap_of_entries_only (claims 0 7).read_written (List.Perm.refl _)
    change VeriClaims.fromBinary definite skipIgnored payload = _
    rw [VeriClaims.fromBinary, VeriClaims.read_toBinary definite_lawful hpayload]
    exact hvisit
  have hinspected : verifier.Inspected binaryClaims epoch (0x84 :: payload) expected
      (receipt (some []) payload) (claims 0 7) (doc 7) :=
    { receiptSize := by
        have hlt := hsize payload (by rw [hpayload]; rfl)
        have hmax : verifier.config.maxReceiptSize = 64 * 1024 := rfl
        rw [List.length_cons, hmax]
        omega
      pcr0Size := List.length_replicate
      receiptParses := rfl
      headers := ⟨rfl, rfl, rfl, rfl⟩
      claimsDecode := ⟨payload, rfl, hdecode⟩
      nitro := rfl
      signed := ⟨rfl, fill 64 0, rfl, rfl⟩
      attestation := ⟨_, _, rfl, rfl, rfl⟩
      chain := (vouches 7).trusted
      timestamps := Verifier.timestampsPass_iff.mpr (by decide)
      pcr0 := (vouches 7).pcr0
      pubkey := rfl
      reportData := rfl
      payload := ⟨rfl, rfl, rfl, rfl, rfl⟩ }
  have haccepts : Verifier.Accepts
      (verifier.verify binaryClaims epoch (0x84 :: payload) expected none).1 := by
    apply Verifier.accepts_iff.mpr
    refine ⟨_, _, _, hinspected, ?_⟩
    intro m hm
    cases hm
  refine ⟨payload, hpayload, haccepts, ?_⟩
  obtain ⟨cose, payload', claims', doc', hcose, hcarries, hread⟩ :=
    (accepted_payload_carries definite skipIgnored).2 binaryClaims verifier epoch (0x84 :: payload)
      expected none (fun _ => rfl) haccepts
  obtain rfl := Except.ok.inj (hread.receiptParses.symm.trans hinspected.receiptParses)
  obtain rfl := Option.some.inj hcose
  obtain ⟨payload', hpayload', hdecode'⟩ := hread.claimsDecode
  obtain rfl := Option.some.inj hpayload'
  obtain rfl := Except.ok.inj (hdecode'.symm.trans hdecode)
  exact hcarries

end Transparent

/-- The sample entries after a second model hash. -/
def repeatedEntries : List (Item × Item) :=
  (.ofInt64 claimModelHash, .ofByteSeq (List.replicate 32 9)) :: sampleClaims.serializeEntries

theorem repeatedEntries_decode (skip : Item → Except String Unit) :
    VeriClaims.visitMap skip repeatedEntries = .ok sampleClaims := by
  have hsample : VeriClaims.visitMap skip sampleClaims.serializeEntries = .ok sampleClaims :=
    VeriClaims.visitMap_of_entries_only sampleClaims.read_written (List.Perm.refl _)
  obtain ⟨hadmissible, hlast⟩ := VeriClaims.visitMap_eq_ok.mp hsample
  rw [VeriClaims.visitMap_eq_ok]
  constructor
  · intro entry hmem
    rcases List.mem_cons.mp hmem with rfl | hmem
    · refine ⟨claimModelHash, Item.readI64_ofInt64 claimModelHash, by decide, ?_,
        fun hother => absurd rfl (hother .modelHash)⟩
      intro c hc
      obtain rfl : Claim.modelHash = c := Claim.key_injective hc
      exact ⟨_, readHash_ofByteSeq "model-hash" (.replicate 32 9)⟩
    · exact hadmissible entry hmem
  · intro c
    rw [repeatedEntries, Claim.last_cons, hlast c]
    rfl

/-- A payload with two model hashes and a byte after its map is accepted. -/
theorem repeated_payload_accepted : ∃ payload,
    definite.read payload = .ok (.map repeatedEntries, [0]) ∧
      VeriClaims.fromBinary definite skipIgnored payload = .ok sampleClaims ∧
      (Claim.modelHash.occurrences repeatedEntries).length = 2 ∧
      (∃ entry ∈ Claim.modelHash.occurrences repeatedEntries,
        readHash "model-hash" entry.2 = .ok (.replicate 32 9)) ∧
      sampleClaims.modelHash ≠ .replicate 32 9 := by
  obtain ⟨bytes, hbytes⟩ : ∃ bytes, definite.write (.map repeatedEntries) = .ok bytes :=
    exists_of_isOk (by decide)
  have hread : definite.read (bytes ++ [0]) = .ok (.map repeatedEntries, [0]) := by
    simp only [definite, okOr_eq_ok]
    exact decode_encode hbytes [0]
  have hsecond : readHash "model-hash" (.ofByteSeq (List.replicate 32 9)) =
      .ok (.replicate 32 9) := readHash_ofByteSeq "model-hash" (.replicate 32 9)
  refine ⟨bytes ++ [0], hread, ?_, by decide, ⟨_, List.mem_cons_self, hsecond⟩, by decide⟩
  rw [VeriClaims.fromBinary, hread]
  exact repeatedEntries_decode skipIgnored

end Veriai
