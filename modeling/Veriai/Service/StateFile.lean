import Veriai.Core.Loops
import Veriai.Service.Operations

/-!
# The state file as a table of fingerprints

The replay state is saved under the hexadecimal texts of the fingerprints and
collected again from the members in whatever order a map is iterated. Collecting
what was saved gives the replay state back.
-/

namespace Veriai.Service

variable {Text : Type} (formats : Formats Text)

/-- `decode_hex_32`. -/
def decodeHex32 (s : String) : Except String (ByteArr 32) := do
  let bytes ← (hexDecode s).mapError fun e => "Hex decode failed: " ++ formats.debugHexError e
  okOr (ByteArr.ofBytes? 32 bytes) ("Expected 32 bytes, got " ++ toString bytes.length)

/-- `collect` into a `HashMap<[u8; 32], u64>`: a later member overrides an earlier one. -/
def collectReplayMap (order : MemberOrder) : Except String ReplayMap :=
  order.entries.foldlM (fun state member => do
    let fingerprint ← (decodeHex32 formats member.1).mapError
      ("invalid identity fingerprint: " ++ ·)
    return state.insert fingerprint member.2) ∅

/-- One member: the hexadecimal text of the fingerprint and its number. -/
def encodeMember (e : Sigma fun _ : Fingerprint => UInt64) : Sigma fun _ : String => UInt64 :=
  ⟨hexEncode e.1.toList, e.2⟩

theorem hexEncode_toList_injective :
    Function.Injective fun f : Fingerprint => hexEncode f.toList := by
  intro a b h
  exact ByteArr.toList_inj (hexEncode_injective h)

private theorem nodupKeys_encoded {state : ReplayMap} :
    (state.entries.map encodeMember).NodupKeys := by
  have hkeys := (Multiset.nodup_keys.mpr state.nodupKeys).map hexEncode_toList_injective
  rw [← Multiset.nodup_keys]
  simpa [Multiset.keys, Function.comp_def, encodeMember] using hkeys

/-- The members under the hexadecimal texts of the fingerprints. -/
def encodeMembers (state : ReplayMap) : Members :=
  ⟨state.entries.map encodeMember, nodupKeys_encoded⟩

variable {formats}

/-- The name of a fingerprint is decoded to it. -/
@[simp] theorem decodeHex32_hexEncode (a : ByteArr 32) :
    decodeHex32 formats (hexEncode a.toList) = .ok a := by
  simp [decodeHex32, okOr, Except.mapError, bind, Except.bind]

private theorem lookup_foldl_insert {l : List (Sigma fun _ : Fingerprint => UInt64)}
    (hl : l.NodupKeys) (f : Fingerprint) (n : UInt64) :
    (l.foldl (fun state e => state.insert e.1 e.2) (∅ : ReplayMap)).lookup f = some n ↔
      ⟨f, n⟩ ∈ l := by
  induction l using List.reverseRecOn with
  | nil => simp
  | append_singleton l e ih =>
    obtain ⟨hkeys, hl⟩ : e.1 ∉ l.keys ∧ l.NodupKeys := by
      exact List.nodupKeys_cons.mp ((List.perm_nodupKeys (List.perm_append_singleton e l)).mp hl)
    rw [List.foldl_append, List.foldl_cons, List.foldl_nil, List.mem_append, List.mem_singleton]
    by_cases he : f = e.1
    · subst he
      rw [Finmap.lookup_insert]
      constructor
      · intro h
        obtain rfl := Option.some.inj h
        exact Or.inr rfl
      · rintro (h | h)
        · exact (hkeys (List.mem_map_of_mem (f := Sigma.fst) (a := ⟨e.1, n⟩) h)).elim
        · rw [← h]
    · rw [Finmap.lookup_insert_of_ne _ he, ih hl]
      constructor
      · exact Or.inl
      · rintro (h | h)
        · exact h
        · exact (he (congrArg Sigma.fst h)).elim

private theorem encodeMember_injective : Function.Injective encodeMember := by
  rintro ⟨f, n⟩ ⟨f', n'⟩ h
  simp only [encodeMember, Sigma.mk.injEq, heq_eq_eq] at h
  obtain rfl := hexEncode_toList_injective h.1
  rw [h.2]

/-- Collecting comes to the fold over the members, when every name is a fingerprint. -/
theorem collectReplayMap_eq_foldl {order : MemberOrder} {state : ReplayMap} :
    collectReplayMap formats order = .ok state ↔
      (∀ member ∈ order.entries, ∃ f, decodeHex32 formats member.1 = .ok f) ∧
        state = order.entries.foldl (fun state member =>
          match decodeHex32 formats member.1 with
          | .ok f => state.insert f member.2
          | .error _ => state) ∅ := by
  refine foldlM_eq_ok ?_
  intro state member state'
  simp only [bind_eq_ok, mapError_eq_ok]
  cases decodeHex32 formats member.1 <;> simp [pure, Except.pure, eq_comm]

/-- The fingerprints collected are those that the names of the members spell. -/
theorem mem_collectReplayMap {order : MemberOrder} {state : ReplayMap}
    (h : collectReplayMap formats order = .ok state) {f : Fingerprint} :
    f ∈ state ↔ ∃ name ∈ order.toFinmap, decodeHex32 formats name = .ok f := by
  obtain ⟨hnames, rfl⟩ := collectReplayMap_eq_foldl.mp h
  have hmem : ∀ (l : List (Sigma fun _ : String => UInt64)) (state : ReplayMap),
      f ∈ l.foldl (fun state member =>
        match decodeHex32 formats member.1 with
        | .ok f => state.insert f member.2
        | .error _ => state) state ↔
      f ∈ state ∨ ∃ member ∈ l, decodeHex32 formats member.1 = .ok f := by
    intro l
    induction l with
    | nil => simp
    | cons member l ih =>
      intro state
      rw [List.foldl_cons, ih]
      cases hdecode : decodeHex32 formats member.1 with
      | error e => simp [hdecode]
      | ok g =>
        simp only [Finmap.mem_insert, List.mem_cons, exists_eq_or_imp, hdecode, Except.ok.injEq]
        tauto
  rw [hmem]
  constructor
  · rintro (hempty | ⟨member, hmember, hdecode⟩)
    · exact absurd hempty Finmap.notMem_empty
    · exact ⟨member.1, AList.mem_keys.mpr (List.mem_map_of_mem hmember), hdecode⟩
  · rintro ⟨name, hname, hdecode⟩
    obtain ⟨member, hmember, rfl⟩ := List.mem_map.mp (AList.mem_keys.mp hname)
    exact Or.inr ⟨member, hmember, hdecode⟩

/-- The members of a map in some order. -/
theorem exists_order (members : Members) : ∃ order : MemberOrder, order.toFinmap = members :=
  Finmap.induction_on members fun order => ⟨order, rfl⟩

/-- Collecting the members that were saved gives the replay state back, in any order. -/
theorem collectReplayMap_encodeMembers {state : ReplayMap} {order : MemberOrder}
    (h : order.toFinmap = encodeMembers state) : collectReplayMap formats order = .ok state := by
  have hentries : (order.entries : Multiset (Sigma fun _ : String => UInt64)) =
      state.entries.map encodeMember := congrArg Finmap.entries h
  obtain ⟨l, hl⟩ : ∃ l : List (Sigma fun _ : Fingerprint => UInt64),
      order.entries = l.map encodeMember := by
    have hmem : ∀ e ∈ order.entries, e ∈ Set.range encodeMember := by
      intro e he
      have he' : e ∈ state.entries.map encodeMember := hentries ▸ Multiset.mem_coe.mpr he
      obtain ⟨g, _, hg⟩ := Multiset.mem_map.mp he'
      exact ⟨g, hg⟩
    have hrange := Set.range_list_map encodeMember
    have hin : order.entries ∈ Set.range (List.map encodeMember) := by
      rw [hrange]
      exact hmem
    obtain ⟨l, hl⟩ := hin
    exact ⟨l, hl.symm⟩
  have hstate : state.entries = (l : Multiset (Sigma fun _ : Fingerprint => UInt64)) := by
    apply Multiset.map_injective encodeMember_injective
    rw [← hentries, hl, Multiset.map_coe]
  have hnodup : l.NodupKeys := by
    rw [← Multiset.coe_nodupKeys, ← hstate]
    exact state.nodupKeys
  rw [collectReplayMap_eq_foldl, hl, List.foldl_map]
  simp only [List.forall_mem_map, encodeMember, decodeHex32_hexEncode]
  refine ⟨fun e _ => ⟨e.1, rfl⟩, ?_⟩
  apply Finmap.ext_lookup
  intro f
  ext n
  rw [lookup_foldl_insert hnodup, Finmap.lookup_eq_some_iff, hstate, Multiset.mem_coe]

/-- The members are collected, in whatever order, when every name is a fingerprint. -/
theorem collectReplayMap_succeeds {order : MemberOrder} :
    (∃ state, collectReplayMap formats order = .ok state) ↔
      ∀ name ∈ order.toFinmap, ∃ fingerprint, decodeHex32 formats name = .ok fingerprint := by
  simp only [collectReplayMap_eq_foldl, exists_and_left, exists_eq, and_true]
  constructor
  · intro h name hname
    obtain ⟨member, hmember, rfl⟩ := List.mem_map.mp (AList.mem_keys.mp hname)
    exact h member hmember
  · intro h member hmember
    exact h member.1 (AList.mem_keys.mpr (List.mem_map_of_mem hmember))

end Veriai.Service
