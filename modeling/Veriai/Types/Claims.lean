import Mathlib.Data.List.Basic
import Veriai.Core.Cbor
import Veriai.Core.Loops
import Veriai.Types.Schema

/-!
# The claims set as a map

The hand-written `Serialize` and `Deserialize` of `VeriClaims`. The visitor
walks the entries with one slot for each claim; a later entry overwrites the
slot of an earlier one, unknown keys are skipped and reserved keys refused.
`Claim` tabulates the ten branches, so that the walk has one specification:
every entry is admissible, and each slot ends with the last value of its claim.
-/

namespace Veriai

open Cbor

def claimModelHash : Int64 := 6000
def claimInputHash : Int64 := 6001
def claimOutputHash : Int64 := 6002
def claimClientNonce : Int64 := 6003
def claimSequenceNum : Int64 := 6004
def claimAttestationReport : Int64 := 6005
def claimAttestationType : Int64 := 6006
def claimAttestationTimestamp : Int64 := 6007
def claimSdkVersion : Int64 := 6011
def claimEnclavePubkey : Int64 := 6012

/-- The entries that `serialize` emits, in its order. -/
def VeriClaims.serializeEntries (claims : VeriClaims) : List (Item × Item) :=
  [(.ofInt64 claimModelHash, .ofByteSeq claims.modelHash.toList),
    (.ofInt64 claimInputHash, .ofByteSeq claims.inputHash.toList),
    (.ofInt64 claimOutputHash, .ofByteSeq claims.outputHash.toList),
    (.ofInt64 claimClientNonce, .ofByteSeq claims.clientNonce.toList),
    (.ofInt64 claimSequenceNum, .unsigned claims.sequenceNum),
    (.ofInt64 claimAttestationReport, .ofByteSeq claims.attestationReport),
    (.ofInt64 claimAttestationType, .unsigned claims.attestationType),
    (.ofInt64 claimAttestationTimestamp, .ofInt64 claims.attestationTimestamp),
    (.ofInt64 claimSdkVersion, .text claims.sdkVersion),
    (.ofInt64 claimEnclavePubkey, .ofByteSeq claims.enclavePubkey.toList)]

/-- `VeriClaims::to_binary`. -/
def VeriClaims.toBinary (codec : Codec) (claims : VeriClaims) : Except String Bytes :=
  codec.write (.map claims.serializeEntries)

/-- The ten mutable locals of `visit_map`. -/
structure ClaimSlots where
  modelHash : Option (ByteArr 32) := none
  inputHash : Option (ByteArr 32) := none
  outputHash : Option (ByteArr 32) := none
  clientNonce : Option (ByteArr 32) := none
  sequenceNum : Option UInt64 := none
  attestationReport : Option Bytes := none
  attestationType : Option UInt64 := none
  attestationTimestamp : Option Int64 := none
  sdkVersion : Option String := none
  enclavePubkey : Option (ByteArr 32) := none

/-- The value of a 32-byte claim. -/
def readHash (name : String) (value : Item) : Except String (ByteArr 32) := do
  let val ← value.readByteSeq
  okOr (ByteArr.ofBytes? 32 val) ("invalid " ++ name ++ " length")

/-- The keys that must not appear. -/
def IsReserved (key : Int64) : Prop := 6008 ≤ key ∧ key ≤ 6010

instance (key : Int64) : Decidable (IsReserved key) := inferInstanceAs (Decidable (_ ∧ _))

/-- One pass of the loop in `visit_map`; `skip` reads a value as `IgnoredAny`. -/
def ClaimSlots.visitEntry (skip : Item → Except String Unit) (slots : ClaimSlots)
    (entry : Item × Item) : Except String ClaimSlots := do
  let key ← entry.1.readI64
  let value := entry.2
  if key = claimModelHash then
    return { slots with modelHash := some (← readHash "model-hash" value) }
  else if key = claimInputHash then
    return { slots with inputHash := some (← readHash "input-hash" value) }
  else if key = claimOutputHash then
    return { slots with outputHash := some (← readHash "output-hash" value) }
  else if key = claimClientNonce then
    return { slots with clientNonce := some (← readHash "client-nonce" value) }
  else if key = claimSequenceNum then
    return { slots with sequenceNum := some (← value.readU64) }
  else if key = claimAttestationReport then
    return { slots with attestationReport := some (← value.readByteSeq) }
  else if key = claimAttestationType then
    return { slots with attestationType := some (← value.readU64) }
  else if key = claimAttestationTimestamp then
    return { slots with attestationTimestamp := some (← value.readI64) }
  else if key = claimSdkVersion then
    return { slots with sdkVersion := some (← value.readString) }
  else if key = claimEnclavePubkey then
    return { slots with enclavePubkey := some (← readHash "enclave-pubkey" value) }
  else if IsReserved key then
    throw ("claim key " ++ toString key ++ " is reserved")
  else
    skip value
    return slots

/-- `serde::de::Error::missing_field`. -/
def missingField (field : String) : String := "missing field `" ++ field ++ "`"

/-- The claims once every slot is filled. -/
def ClaimSlots.finish (slots : ClaimSlots) : Except String VeriClaims := do
  let modelHash ← okOr slots.modelHash (missingField "model_hash")
  let inputHash ← okOr slots.inputHash (missingField "input_hash")
  let outputHash ← okOr slots.outputHash (missingField "output_hash")
  let clientNonce ← okOr slots.clientNonce (missingField "client_nonce")
  let sequenceNum ← okOr slots.sequenceNum (missingField "sequence_num")
  let attestationReport ← okOr slots.attestationReport (missingField "attestation_report")
  let attestationType ← okOr slots.attestationType (missingField "attestation_type")
  let attestationTimestamp ← okOr slots.attestationTimestamp (missingField "attestation_timestamp")
  let sdkVersion ← okOr slots.sdkVersion (missingField "sdk_version")
  let enclavePubkey ← okOr slots.enclavePubkey (missingField "enclave_pubkey")
  return { modelHash, inputHash, outputHash, clientNonce, sequenceNum, attestationReport,
           attestationType, attestationTimestamp, sdkVersion, enclavePubkey }

/-- `VeriClaimsVisitor::visit_map` on the entries of the map, in their order. -/
def VeriClaims.visitMap (skip : Item → Except String Unit) (entries : List (Item × Item)) :
    Except String VeriClaims := do
  let slots ← entries.foldlM (ClaimSlots.visitEntry skip) {}
  slots.finish

/-- `VeriClaims::from_binary`: only the first item of the bytes is looked at. -/
def VeriClaims.fromBinary (codec : Codec) (skip : Item → Except String Unit) (bytes : Bytes) :
    Except String VeriClaims := do
  let (item, _) ← codec.read bytes
  let entries ← item.readMap
  VeriClaims.visitMap skip entries

/-- A known claim. -/
inductive Claim where
  | modelHash
  | inputHash
  | outputHash
  | clientNonce
  | sequenceNum
  | attestationReport
  | attestationType
  | attestationTimestamp
  | sdkVersion
  | enclavePubkey
  deriving DecidableEq

namespace Claim

/-- The type of a claim's value. -/
def Value : Claim → Type
  | modelHash | inputHash | outputHash | clientNonce | enclavePubkey => ByteArr 32
  | sequenceNum | attestationType => UInt64
  | attestationReport => Bytes
  | attestationTimestamp => Int64
  | sdkVersion => String

/-- The key of a claim. -/
def key : Claim → Int64
  | modelHash => claimModelHash
  | inputHash => claimInputHash
  | outputHash => claimOutputHash
  | clientNonce => claimClientNonce
  | sequenceNum => claimSequenceNum
  | attestationReport => claimAttestationReport
  | attestationType => claimAttestationType
  | attestationTimestamp => claimAttestationTimestamp
  | sdkVersion => claimSdkVersion
  | enclavePubkey => claimEnclavePubkey

/-- How a claim's value is read. -/
def read : (c : Claim) → Item → Except String c.Value
  | modelHash, value => readHash "model-hash" value
  | inputHash, value => readHash "input-hash" value
  | outputHash, value => readHash "output-hash" value
  | clientNonce, value => readHash "client-nonce" value
  | sequenceNum, value => value.readU64
  | attestationReport, value => value.readByteSeq
  | attestationType, value => value.readU64
  | attestationTimestamp, value => value.readI64
  | sdkVersion, value => value.readString
  | enclavePubkey, value => readHash "enclave-pubkey" value

/-- The claims whose value is 32 bytes. -/
def IsHash : Claim → Prop
  | modelHash | inputHash | outputHash | clientNonce | enclavePubkey => True
  | _ => False

end Claim

/-- The value of a claim in a claims set. -/
def VeriClaims.value (claims : VeriClaims) : (c : Claim) → c.Value
  | .modelHash => claims.modelHash
  | .inputHash => claims.inputHash
  | .outputHash => claims.outputHash
  | .clientNonce => claims.clientNonce
  | .sequenceNum => claims.sequenceNum
  | .attestationReport => claims.attestationReport
  | .attestationType => claims.attestationType
  | .attestationTimestamp => claims.attestationTimestamp
  | .sdkVersion => claims.sdkVersion
  | .enclavePubkey => claims.enclavePubkey

/-- The slot of a claim. -/
def ClaimSlots.get (slots : ClaimSlots) : (c : Claim) → Option c.Value
  | .modelHash => slots.modelHash
  | .inputHash => slots.inputHash
  | .outputHash => slots.outputHash
  | .clientNonce => slots.clientNonce
  | .sequenceNum => slots.sequenceNum
  | .attestationReport => slots.attestationReport
  | .attestationType => slots.attestationType
  | .attestationTimestamp => slots.attestationTimestamp
  | .sdkVersion => slots.sdkVersion
  | .enclavePubkey => slots.enclavePubkey

/-- The slots after a claim was read. -/
def ClaimSlots.set (slots : ClaimSlots) : (c : Claim) → c.Value → ClaimSlots
  | .modelHash, value => { slots with modelHash := some value }
  | .inputHash, value => { slots with inputHash := some value }
  | .outputHash, value => { slots with outputHash := some value }
  | .clientNonce, value => { slots with clientNonce := some value }
  | .sequenceNum, value => { slots with sequenceNum := some value }
  | .attestationReport, value => { slots with attestationReport := some value }
  | .attestationType, value => { slots with attestationType := some value }
  | .attestationTimestamp, value => { slots with attestationTimestamp := some value }
  | .sdkVersion, value => { slots with sdkVersion := some value }
  | .enclavePubkey, value => { slots with enclavePubkey := some value }

/-- Different claims have different keys. -/
theorem Claim.key_injective : Function.Injective Claim.key := by
  intro c d h
  cases c <;> cases d <;> first | rfl | exact absurd h (by decide)

/-- No claim has a reserved key. -/
theorem Claim.not_isReserved (c : Claim) : ¬ IsReserved c.key := by
  cases c <;> decide

@[simp] theorem ClaimSlots.get_set (slots : ClaimSlots) (c : Claim) (value : c.Value) :
    (slots.set c value).get c = some value := by
  cases c <;> rfl

theorem ClaimSlots.get_set_of_ne (slots : ClaimSlots) {c d : Claim} (value : c.Value)
    (h : d ≠ c) : (slots.set c value).get d = slots.get d := by
  cases c <;> cases d <;> first | rfl | exact absurd rfl h

variable {skip : Item → Except String Unit}

/-- The entry of a known claim fills its slot with the value read. -/
theorem ClaimSlots.visitEntry_claim (slots : ClaimSlots) {entry : Item × Item} {c : Claim}
    (h : entry.1.readI64 = .ok c.key) :
    slots.visitEntry skip entry = (c.read entry.2).map (slots.set c) := by
  have hmap : (c.read entry.2).map (slots.set c) =
      (c.read entry.2 >>= fun value => pure (slots.set c value)) := by
    cases c.read entry.2 <;> rfl
  rw [visitEntry, h, hmap]
  cases c <;> rfl

/-- Any other entry is refused when its key is reserved, and its value skipped otherwise. -/
theorem ClaimSlots.visitEntry_other (slots : ClaimSlots) {entry : Item × Item} {key : Int64}
    (h : entry.1.readI64 = .ok key) (hkey : ∀ c : Claim, c.key ≠ key) :
    slots.visitEntry skip entry =
      if IsReserved key then .error ("claim key " ++ toString key ++ " is reserved")
      else (skip entry.2).map fun _ => slots := by
  have hmodelHash : key ≠ claimModelHash := (hkey .modelHash).symm
  have hinputHash : key ≠ claimInputHash := (hkey .inputHash).symm
  have houtputHash : key ≠ claimOutputHash := (hkey .outputHash).symm
  have hclientNonce : key ≠ claimClientNonce := (hkey .clientNonce).symm
  have hsequenceNum : key ≠ claimSequenceNum := (hkey .sequenceNum).symm
  have hattestationReport : key ≠ claimAttestationReport := (hkey .attestationReport).symm
  have hattestationType : key ≠ claimAttestationType := (hkey .attestationType).symm
  have hattestationTimestamp : key ≠ claimAttestationTimestamp := (hkey .attestationTimestamp).symm
  have hsdkVersion : key ≠ claimSdkVersion := (hkey .sdkVersion).symm
  have henclavePubkey : key ≠ claimEnclavePubkey := (hkey .enclavePubkey).symm
  rw [visitEntry, h]
  simp only [bind, Except.bind]
  rw [if_neg hmodelHash, if_neg hinputHash, if_neg houtputHash, if_neg hclientNonce,
    if_neg hsequenceNum, if_neg hattestationReport, if_neg hattestationType,
    if_neg hattestationTimestamp, if_neg hsdkVersion, if_neg henclavePubkey]
  by_cases hres : IsReserved key
  · rw [if_pos hres, if_pos hres]
    rfl
  · rw [if_neg hres, if_neg hres]
    cases skip entry.2 <;> rfl

variable (skip) in
/-- An entry the walk gets past: an integer key that is not reserved, a readable value when the
claim is known, and one that can be skipped when it is not. -/
def Admissible (entry : Item × Item) : Prop :=
  ∃ key, entry.1.readI64 = .ok key ∧ ¬ IsReserved key ∧
    (∀ c : Claim, key = c.key → ∃ value, c.read entry.2 = .ok value) ∧
    ((∀ c : Claim, c.key ≠ key) → skip entry.2 = .ok ())

/-- The value that an entry gives a claim. -/
def Claim.found (c : Claim) (entry : Item × Item) : Option c.Value :=
  if entry.1.readI64.toOption = some c.key then (c.read entry.2).toOption else none

theorem Claim.found_eq_some {c : Claim} {entry : Item × Item} {value : c.Value} :
    c.found entry = some value ↔ entry.1.readI64 = .ok c.key ∧ c.read entry.2 = .ok value := by
  by_cases h : entry.1.readI64 = .ok c.key <;> simp [found, h]

/-- The value of a claim's last entry. -/
def Claim.last (c : Claim) (entries : List (Item × Item)) : Option c.Value :=
  (entries.filterMap c.found).getLast?

/-- One pass of the loop succeeds on the admissible entries. -/
theorem ClaimSlots.admissible_of_visitEntry {slots slots' : ClaimSlots} {entry : Item × Item}
    (h : slots.visitEntry skip entry = .ok slots') : Admissible skip entry := by
  cases hkey : entry.1.readI64 with
  | error e =>
    rw [visitEntry, hkey] at h
    cases h
  | ok key =>
    by_cases hknown : ∃ c : Claim, c.key = key
    · obtain ⟨c, rfl⟩ := hknown
      refine ⟨_, hkey, c.not_isReserved, ?_, fun hother => absurd rfl (hother c)⟩
      intro d hd
      obtain rfl := Claim.key_injective hd
      rw [slots.visitEntry_claim hkey] at h
      cases hread : c.read entry.2 with
      | error e =>
        rw [hread] at h
        cases h
      | ok value => exact ⟨value, rfl⟩
    · have hother : ∀ c : Claim, c.key ≠ key := fun c hc => hknown ⟨c, hc⟩
      rw [slots.visitEntry_other hkey hother] at h
      split at h
      next => cases h
      next hres =>
        refine ⟨key, hkey, hres, fun c hc => absurd hc.symm (hother c), fun _ => ?_⟩
        cases hskip : skip entry.2 with
        | error e =>
          rw [hskip] at h
          cases h
        | ok u => rfl

/-- One pass over an admissible entry leaves in each slot what the entry gives its claim. -/
theorem ClaimSlots.visitEntry_of_admissible (slots : ClaimSlots) {entry : Item × Item}
    (h : Admissible skip entry) : ∃ slots', slots.visitEntry skip entry = .ok slots' ∧
      ∀ c, slots'.get c = (c.found entry).or (slots.get c) := by
  obtain ⟨key, hkey, hres, hread, hskip⟩ := h
  by_cases hknown : ∃ c : Claim, c.key = key
  · obtain ⟨c, rfl⟩ := hknown
    obtain ⟨value, hvalue⟩ := hread c rfl
    refine ⟨slots.set c value, ?_, ?_⟩
    · rw [slots.visitEntry_claim hkey, hvalue]
      rfl
    · intro d
      by_cases hd : d = c
      · subst hd
        have hfound : d.found entry = some value := Claim.found_eq_some.mpr ⟨hkey, hvalue⟩
        rw [hfound, get_set]
        rfl
      · have hfound : d.found entry = none := by
          have hne : c.key ≠ d.key := fun hsame => hd (Claim.key_injective hsame).symm
          simp [Claim.found, hkey, hne]
        rw [hfound, get_set_of_ne slots value hd]
        rfl
  · have hother : ∀ c : Claim, c.key ≠ key := fun c hc => hknown ⟨c, hc⟩
    refine ⟨slots, ?_, ?_⟩
    · rw [slots.visitEntry_other hkey hother, if_neg hres, hskip hother]
      rfl
    · intro c
      have hfound : c.found entry = none := by simp [Claim.found, hkey, (hother c).symm]
      rw [hfound]
      rfl

theorem Claim.last_cons (c : Claim) (entry : Item × Item) (entries : List (Item × Item)) :
    c.last (entry :: entries) = (c.last entries).or (c.found entry) := by
  cases hfound : c.found entry with
  | none =>
    rw [last, List.filterMap_cons_none hfound, Option.or_none]
    rfl
  | some value =>
    rw [last, List.filterMap_cons_some hfound, List.getLast?_cons]
    cases hlast : c.last entries with
    | none =>
      rw [last] at hlast
      rw [hlast]
      rfl
    | some later =>
      rw [last] at hlast
      rw [hlast]
      rfl

/-- A completed walk met admissible entries only. -/
theorem ClaimSlots.admissible_of_walk {entries : List (Item × Item)} {slots slots' : ClaimSlots}
    (h : entries.foldlM (visitEntry skip) slots = .ok slots') :
    ∀ entry ∈ entries, Admissible skip entry := by
  induction entries generalizing slots with
  | nil => intro entry hmem; cases hmem
  | cons first entries ih =>
    rw [List.foldlM_cons, bind_eq_ok] at h
    obtain ⟨between, hfirst, hrest⟩ := h
    intro entry hmem
    rcases List.mem_cons.mp hmem with rfl | hmem
    · exact admissible_of_visitEntry hfirst
    · exact ih hrest entry hmem

/-- A walk over admissible entries ends with the last value of each claim in its slot. -/
theorem ClaimSlots.walk_of_admissible {entries : List (Item × Item)}
    (h : ∀ entry ∈ entries, Admissible skip entry) (slots : ClaimSlots) :
    ∃ slots', entries.foldlM (visitEntry skip) slots = .ok slots' ∧
      ∀ c, slots'.get c = (c.last entries).or (slots.get c) := by
  induction entries generalizing slots with
  | nil => exact ⟨slots, rfl, fun c => rfl⟩
  | cons first entries ih =>
    obtain ⟨between, hfirst, hbetween⟩ :=
      slots.visitEntry_of_admissible (h first List.mem_cons_self)
    obtain ⟨slots', hrest, hslots⟩ := ih (fun e he => h e (List.mem_cons_of_mem _ he)) between
    refine ⟨slots', ?_, ?_⟩
    · rw [List.foldlM_cons, hfirst]
      exact hrest
    · intro c
      rw [hslots c, hbetween c, Claim.last_cons, Option.or_assoc]

/-- The claims are complete when every slot holds its claim. -/
theorem ClaimSlots.finish_eq_ok {slots : ClaimSlots} {claims : VeriClaims} :
    slots.finish = .ok claims ↔ ∀ c, slots.get c = some (claims.value c) := by
  constructor
  · intro h
    simp only [finish, bind_eq_ok, okOr_eq_ok] at h
    obtain ⟨_, hmodelHash, _, hinputHash, _, houtputHash, _, hclientNonce, _, hsequenceNum,
      _, hattestationReport, _, hattestationType, _, hattestationTimestamp, _, hsdkVersion,
      _, henclavePubkey, h⟩ := h
    obtain rfl := Except.ok.inj h
    intro c
    cases c <;> assumption
  · intro h
    have hmodelHash : slots.modelHash = some claims.modelHash := h .modelHash
    have hinputHash : slots.inputHash = some claims.inputHash := h .inputHash
    have houtputHash : slots.outputHash = some claims.outputHash := h .outputHash
    have hclientNonce : slots.clientNonce = some claims.clientNonce := h .clientNonce
    have hsequenceNum : slots.sequenceNum = some claims.sequenceNum := h .sequenceNum
    have hattestationReport : slots.attestationReport = some claims.attestationReport :=
      h .attestationReport
    have hattestationType : slots.attestationType = some claims.attestationType :=
      h .attestationType
    have hattestationTimestamp : slots.attestationTimestamp = some claims.attestationTimestamp :=
      h .attestationTimestamp
    have hsdkVersion : slots.sdkVersion = some claims.sdkVersion := h .sdkVersion
    have henclavePubkey : slots.enclavePubkey = some claims.enclavePubkey := h .enclavePubkey
    rw [finish, hmodelHash, hinputHash, houtputHash, hclientNonce, hsequenceNum,
      hattestationReport, hattestationType, hattestationTimestamp, hsdkVersion, henclavePubkey]
    rfl

/-- The visitor returns exactly the last value of each claim, when every entry is admissible. -/
theorem VeriClaims.visitMap_eq_ok {entries : List (Item × Item)} {claims : VeriClaims} :
    visitMap skip entries = .ok claims ↔
      (∀ entry ∈ entries, Admissible skip entry) ∧
        ∀ c, c.last entries = some (claims.value c) := by
  have hempty (c : Claim) : ({} : ClaimSlots).get c = none := by cases c <;> rfl
  constructor
  · intro h
    rw [visitMap, bind_eq_ok] at h
    obtain ⟨slots, hwalk, hfinish⟩ := h
    have hadmissible := ClaimSlots.admissible_of_walk hwalk
    obtain ⟨slots', hwalk', hslots⟩ := ClaimSlots.walk_of_admissible hadmissible {}
    obtain rfl : slots = slots' := Except.ok.inj (hwalk.symm.trans hwalk')
    refine ⟨hadmissible, ?_⟩
    intro c
    rw [← ClaimSlots.finish_eq_ok.mp hfinish c, hslots c, hempty, Option.or_none]
  · rintro ⟨hadmissible, hlast⟩
    obtain ⟨slots, hwalk, hslots⟩ := ClaimSlots.walk_of_admissible hadmissible {}
    rw [visitMap, bind_eq_ok]
    refine ⟨slots, hwalk, ClaimSlots.finish_eq_ok.mpr ?_⟩
    intro c
    rw [hslots c, hempty, Option.or_none, hlast c]

end Veriai
