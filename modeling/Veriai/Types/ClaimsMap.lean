import Veriai.Types.Claims

/-!
# Order, unknown claims and reserved claims

What `to_binary` writes is read back in whatever order its entries come and
among entries with unknown keys whose values can be skipped. A reserved key, a
claim that is missing and a claim of 32 bytes with another length are refused.
-/

namespace Veriai

open Cbor

variable {skip : Item → Except String Unit}

namespace Claim

/-- The claims in the order in which they are written. -/
def all : List Claim :=
  [modelHash, inputHash, outputHash, clientNonce, sequenceNum, attestationReport,
    attestationType, attestationTimestamp, sdkVersion, enclavePubkey]

/-- One entry for each claim, its value written by `f`. -/
def entries (f : Claim → Item) : List (Item × Item) := all.map fun c => (.ofInt64 c.key, f c)

theorem mem_entries {f : Claim → Item} {entry : Item × Item} (h : entry ∈ entries f) :
    ∃ c : Claim, entry = (.ofInt64 c.key, f c) := by
  obtain ⟨c, -, rfl⟩ := List.mem_map.mp h
  exact ⟨c, rfl⟩

/-- Each claim is found once among the entries. -/
theorem filterMap_entries {f : Claim → Item} {c : Claim} {value : c.Value}
    (h : c.read (f c) = .ok value) : (entries f).filterMap c.found = [value] := by
  have hfound : ∀ d ∈ all, (c.found ∘ fun d : Claim => (Item.ofInt64 d.key, f d)) d =
      if d = c then some value else none := by
    intro d _
    by_cases hd : d = c
    · subst hd
      rw [if_pos rfl]
      exact found_eq_some.mpr ⟨Item.readI64_ofInt64 _, h⟩
    · have hne : d.key ≠ c.key := fun hsame => hd (key_injective hsame)
      simp [found, hd, hne]
  rw [entries, List.filterMap_map, List.filterMap_congr hfound]
  cases c <;> rfl

end Claim

/-- An entry whose integer key is neither known nor reserved. -/
def IsExtension (entry : Item × Item) : Prop :=
  ∃ key, entry.1.readI64 = .ok key ∧ ¬ IsReserved key ∧ ∀ c : Claim, c.key ≠ key

/-- An entry is one when its key is written as an integer that is neither known nor reserved. -/
theorem isExtension_ofInt64 {key : Int64} {value : Item} (hres : ¬ IsReserved key)
    (hother : ∀ c : Claim, c.key ≠ key) : IsExtension (.ofInt64 key, value) :=
  ⟨key, Item.readI64_ofInt64 key, hres, hother⟩

/-- An extension is admissible when its value can be skipped. -/
theorem IsExtension.admissible_iff {entry : Item × Item} (h : IsExtension entry) :
    Admissible skip entry ↔ skip entry.2 = .ok () := by
  obtain ⟨key, hkey, hres, hother⟩ := h
  constructor
  · rintro ⟨key', hkey', -, -, hskip⟩
    obtain rfl := Except.ok.inj (hkey.symm.trans hkey')
    exact hskip hother
  · exact fun hskip => ⟨key, hkey, hres, fun c hc => absurd hc.symm (hother c), fun _ => hskip⟩

theorem IsExtension.found {entry : Item × Item} (h : IsExtension entry) (c : Claim) :
    c.found entry = none := by
  obtain ⟨key, hkey, -, hother⟩ := h
  simp [Claim.found, hkey, (hother c).symm]

/-- One readable entry for each claim decodes to the claims, in any order and among any entries
with other keys whose values can be skipped. -/
theorem VeriClaims.visitMap_of_entries {claims : VeriClaims} {f : Claim → Item}
    (hread : ∀ c : Claim, c.read (f c) = .ok (claims.value c)) {extra all : List (Item × Item)}
    (hextra : ∀ entry ∈ extra, IsExtension entry ∧ skip entry.2 = .ok ())
    (hperm : all.Perm (Claim.entries f ++ extra)) : visitMap skip all = .ok claims := by
  rw [visitMap_eq_ok]
  constructor
  · intro entry hmem
    rcases List.mem_append.mp (hperm.subset hmem) with hmem | hmem
    · obtain ⟨c, rfl⟩ := Claim.mem_entries hmem
      refine ⟨c.key, Item.readI64_ofInt64 _, c.not_isReserved, ?_,
        fun hother => absurd rfl (hother c)⟩
      intro d hd
      obtain rfl := Claim.key_injective hd
      exact ⟨_, hread c⟩
    · obtain ⟨hextension, hskip⟩ := hextra entry hmem
      exact hextension.admissible_iff.mpr hskip
  · intro c
    have hnone : extra.filterMap c.found = [] :=
      List.filterMap_eq_nil_iff.mpr fun entry hmem => (hextra entry hmem).1.found c
    have hfound : all.filterMap c.found = [claims.value c] := by
      have hsame := hperm.filterMap c.found
      rw [List.filterMap_append, Claim.filterMap_entries (hread c), hnone] at hsame
      exact hsame.eq_singleton
    rw [Claim.last, hfound]
    rfl

/-- One readable entry for each claim decodes to the claims, in any order. -/
theorem VeriClaims.visitMap_of_entries_only {claims : VeriClaims} {f : Claim → Item}
    (hread : ∀ c : Claim, c.read (f c) = .ok (claims.value c)) {all : List (Item × Item)}
    (hperm : all.Perm (Claim.entries f)) : visitMap skip all = .ok claims := by
  rw [← List.append_nil (Claim.entries f)] at hperm
  exact visitMap_of_entries hread (fun _ hmem => absurd hmem List.not_mem_nil) hperm

/-- Thirty-two bytes written as an array are read back. -/
@[simp] theorem readHash_ofByteSeq (name : String) (value : ByteArr 32) :
    readHash name (.ofByteSeq value.toList) = .ok value := by
  rw [readHash, Item.readByteSeq_ofByteSeq]
  simp only [bind, Except.bind, okOr_eq_ok, ByteArr.ofBytes?_toList]

/-- What is read as 32 bytes is a sequence of them. -/
theorem readByteSeq_of_readHash {name : String} {item : Item} {value : ByteArr 32}
    (h : readHash name item = .ok value) : item.readByteSeq = .ok value.toList := by
  simp only [readHash, bind_eq_ok, okOr_eq_ok, ByteArr.ofBytes?_eq_some] at h
  obtain ⟨val, hval, rfl⟩ := h
  exact hval

/-- A 32-byte claim is read from a sequence of 32 bytes. -/
theorem Claim.readByteSeq_of_read {c : Claim} (hhash : c.IsHash) {item : Item} {value : c.Value}
    (h : c.read item = .ok value) : ∃ val, item.readByteSeq = .ok val ∧ val.length = 32 := by
  cases c <;> first
    | exact ⟨_, readByteSeq_of_readHash h, List.Vector.toList_length _⟩
    | exact absurd hhash not_false

/-- How `serialize` writes the value of a claim. -/
def VeriClaims.written (claims : VeriClaims) : Claim → Item
  | .modelHash => .ofByteSeq claims.modelHash.toList
  | .inputHash => .ofByteSeq claims.inputHash.toList
  | .outputHash => .ofByteSeq claims.outputHash.toList
  | .clientNonce => .ofByteSeq claims.clientNonce.toList
  | .sequenceNum => .unsigned claims.sequenceNum
  | .attestationReport => .ofByteSeq claims.attestationReport
  | .attestationType => .unsigned claims.attestationType
  | .attestationTimestamp => .ofInt64 claims.attestationTimestamp
  | .sdkVersion => .text claims.sdkVersion
  | .enclavePubkey => .ofByteSeq claims.enclavePubkey.toList

theorem VeriClaims.serializeEntries_eq (claims : VeriClaims) :
    claims.serializeEntries = Claim.entries claims.written := rfl

/-- Each claim is read as it was written. -/
theorem VeriClaims.read_written (claims : VeriClaims) (c : Claim) :
    c.read (claims.written c) = .ok (claims.value c) := by
  cases c <;> simp [Claim.read, written, value] <;> rfl

/-- The entries of a claims set decode to it in any order and among any entries whose keys are
neither known nor reserved and whose values can be skipped; no entries with a reserved key,
without one of the claims, with a 32-byte claim of another length, or with an unknown key and a
value that cannot be skipped decode at all. -/
theorem VeriClaims.visitMap_decodes (skip : Item → Except String Unit) :
    (∀ (claims : VeriClaims) (extra entries : List (Item × Item)),
      (∀ entry ∈ extra, IsExtension entry ∧ skip entry.2 = .ok ()) →
      entries.Perm (claims.serializeEntries ++ extra) → visitMap skip entries = .ok claims) ∧
    ∀ entries : List (Item × Item),
      (∃ entry ∈ entries, ∃ key, entry.1.readI64 = .ok key ∧ IsReserved key) ∨
      (∃ c : Claim, ∀ entry ∈ entries, entry.1.readI64 ≠ .ok c.key) ∨
      (∃ entry ∈ entries, ∃ c : Claim, c.IsHash ∧ entry.1.readI64 = .ok c.key ∧
        ∀ val, entry.2.readByteSeq = .ok val → val.length ≠ 32) ∨
      (∃ entry ∈ entries, IsExtension entry ∧ skip entry.2 ≠ .ok ()) →
      ∃ error, visitMap skip entries = .error error := by
  constructor
  · intro claims extra entries hextra hperm
    rw [serializeEntries_eq] at hperm
    exact visitMap_of_entries claims.read_written hextra hperm
  · intro entries hbad
    cases hvisit : visitMap skip entries with
    | error e => exact ⟨e, rfl⟩
    | ok claims =>
      exfalso
      obtain ⟨hadmissible, hlast⟩ := visitMap_eq_ok.mp hvisit
      obtain ⟨entry, hmem, key, hkey, hres⟩ | ⟨c, hmissing⟩ |
        ⟨entry, hmem, c, hhash, hkey, hlength⟩ | ⟨entry, hmem, hextension, hskip⟩ := hbad
      · obtain ⟨key', hkey', hnot, -⟩ := hadmissible entry hmem
        obtain rfl := Except.ok.inj (hkey.symm.trans hkey')
        exact hnot hres
      · have hfound := List.mem_of_getLast? (hlast c)
        obtain ⟨entry, hmem, hentry⟩ := List.mem_filterMap.mp hfound
        exact hmissing entry hmem (Claim.found_eq_some.mp hentry).1
      · obtain ⟨key, hkey', -, hread, -⟩ := hadmissible entry hmem
        obtain rfl := Except.ok.inj (hkey.symm.trans hkey')
        obtain ⟨value, hvalue⟩ := hread c rfl
        obtain ⟨val, hval, hlen⟩ := Claim.readByteSeq_of_read hhash hvalue
        exact hlength val hval hlen
      · exact hskip (hextension.admissible_iff.mp (hadmissible entry hmem))

mutual

/-- A value is skipped with all its parts: a bignum is read as an integer of 128 bits first. -/
def skipIgnored : Item → Except String Unit
  | .tag number content =>
    if number = 2 then content.readBignum.map fun _ => ()
    else if number = 3 then do
      let raw ← content.readBignum
      if raw < 2 ^ 127 then .ok () else .error "integer too large"
    else skipIgnored content
  | .array items => skipItems items
  | .map entries => skipEntries entries
  | _ => .ok ()

/-- The items of an array, in their order. -/
def skipItems : List Item → Except String Unit
  | [] => .ok ()
  | item :: items => do
    skipIgnored item
    skipItems items

/-- The entries of a map, in their order. -/
def skipEntries : List (Item × Item) → Except String Unit
  | [] => .ok ()
  | entry :: entries => do
    skipEntry entry
    skipEntries entries

/-- The key of an entry, then its value. -/
def skipEntry : Item × Item → Except String Unit
  | (key, value) => do
    skipIgnored key
    skipIgnored value

end

/-- A claims set whose 32-byte values all differ. -/
def sampleClaims : VeriClaims where
  modelHash := .replicate 32 1
  inputHash := .replicate 32 2
  outputHash := .replicate 32 3
  clientNonce := .replicate 32 4
  sequenceNum := 7
  attestationReport := [1, 2, 3]
  attestationType := 3
  attestationTimestamp := -1
  sdkVersion := ""
  enclavePubkey := .replicate 32 5

/-- Its entries in the reverse order, around an entry with an unknown key. -/
theorem VeriClaims.visitMap_decodes_reversed :
    visitMap skipIgnored ((.ofInt64 7000, .null) :: sampleClaims.serializeEntries).reverse =
      .ok sampleClaims := by
  have hextra : ∀ entry ∈ [(Item.ofInt64 7000, Item.null)],
      IsExtension entry ∧ skipIgnored entry.2 = .ok () := by
    intro entry hmem
    obtain rfl := List.mem_singleton.mp hmem
    exact ⟨isExtension_ofInt64 (by decide) fun c => by cases c <;> decide, rfl⟩
  apply (visitMap_decodes skipIgnored).1 sampleClaims _ _ hextra
  exact (List.reverse_perm _).trans (List.perm_append_singleton _ _).symm

/-- The negative bignum of sixteen bytes `ff` under an unknown key cannot be skipped, and the
claims beside it are lost. -/
theorem VeriClaims.visitMap_not_decodes :
    ¬ ∀ (claims : VeriClaims) (extra entries : List (Item × Item)),
      (∀ entry ∈ extra, IsExtension entry) → entries.Perm (claims.serializeEntries ++ extra) →
        visitMap skipIgnored entries = .ok claims := by
  intro hdecodes
  have hextension : IsExtension (.ofInt64 7000, .tag 3 (.bytes (List.replicate 16 255))) :=
    isExtension_ofInt64 (by decide) fun c => by cases c <;> decide
  have hskip : skipIgnored (.tag 3 (.bytes (List.replicate 16 255))) ≠ .ok () := by decide
  have hdecoded := hdecodes sampleClaims [(.ofInt64 7000, .tag 3 (.bytes (List.replicate 16 255)))]
    _ (fun entry hmem => List.mem_singleton.mp hmem ▸ hextension) (List.Perm.refl _)
  obtain ⟨hadmissible, -⟩ := visitMap_eq_ok.mp hdecoded
  exact hskip (hextension.admissible_iff.mp
    (hadmissible _ (List.mem_append_right _ (List.mem_singleton_self _))))

end Veriai
