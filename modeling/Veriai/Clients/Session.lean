import Veriai.Clients.Cli
import Veriai.Core.Loops
import Veriai.Service.Transparent

/-!
# Two loaders of one file format

The session file of the command line and the state file of the service hold the
same object. Both loaders come to the map that is gathered from the members
whose names are fingerprints; they differ in what they do about other names, and
where two names mean one fingerprint the order of iteration decides.
-/

namespace Veriai.Session

open Service (Members MemberOrder decodeHex32 collectReplayMap)

/-- A member of the object. -/
abbrev Member := Sigma fun _ : String => UInt64

/-- The fingerprint that a name is the hexadecimal text of. -/
def nameFingerprint (name : String) : Option Fingerprint :=
  (hexDecode name).toOption.bind (ByteArr.ofBytes? 32)

/-- Record a member whose name is a fingerprint. -/
def keep (state : ReplayMap) (member : Member) : ReplayMap :=
  match nameFingerprint member.1 with
  | some fingerprint => state.insert fingerprint member.2
  | none => state

/-- The map of the members whose names are fingerprints; a later one overrides an earlier one. -/
def gather (members : List Member) : ReplayMap := members.foldl keep ∅

/-- The last member is kept after the others. -/
theorem gather_append (members : List Member) (member : Member) :
    gather (members ++ [member]) = keep (gather members) member := by
  simp [gather]

/-- A member is kept under its fingerprint. -/
theorem keep_lookup_self {state : ReplayMap} {member : Member} {f : Fingerprint}
    (h : nameFingerprint member.1 = some f) : (keep state member).lookup f = some member.2 := by
  simp [keep, h]

/-- A member is kept under no other fingerprint. -/
theorem keep_lookup_of_ne {state : ReplayMap} {member : Member} {f : Fingerprint}
    (h : nameFingerprint member.1 ≠ some f) : (keep state member).lookup f = state.lookup f := by
  rw [keep]
  split
  · next f' hf' => exact Finmap.lookup_insert_of_ne _ fun he => h (by rw [hf', he])
  · rfl

/-- What is gathered under a fingerprint is the number of a member whose name means it. -/
theorem exists_of_gather {members : List Member} {f : Fingerprint} {n : UInt64}
    (h : (gather members).lookup f = some n) :
    ∃ member ∈ members, nameFingerprint member.1 = some f ∧ member.2 = n := by
  induction members using List.reverseRecOn with
  | nil => simp [gather] at h
  | append_singleton members member ih =>
    rw [gather_append] at h
    by_cases hname : nameFingerprint member.1 = some f
    · rw [keep_lookup_self hname] at h
      exact ⟨member, by simp, hname, Option.some.inj h⟩
    · rw [keep_lookup_of_ne hname] at h
      obtain ⟨found, hmem, hfound⟩ := ih h
      exact ⟨found, List.mem_append_left _ hmem, hfound⟩

/-- Every name that means a fingerprint leaves a number under it. -/
theorem gather_of_mem {members : List Member} {member : Member} {f : Fingerprint}
    (hmem : member ∈ members) (h : nameFingerprint member.1 = some f) :
    ∃ n, (gather members).lookup f = some n := by
  induction members using List.reverseRecOn with
  | nil => simp at hmem
  | append_singleton members last ih =>
    rw [gather_append]
    by_cases hname : nameFingerprint last.1 = some f
    · exact ⟨last.2, keep_lookup_self hname⟩
    · rw [keep_lookup_of_ne hname]
      rcases List.mem_append.mp hmem with hmem | hmem
      · exact ih hmem
      · rw [List.mem_singleton.mp hmem] at h
        exact absurd h hname

section Loaders

variable {Text : Type} {formats : Service.Formats Text} {surroundings : Cli.Surroundings}

/-- The service decodes exactly the names of fingerprints. -/
theorem decodeHex32_eq_ok {name : String} {f : Fingerprint} :
    decodeHex32 formats name = .ok f ↔ nameFingerprint name = some f := by
  rw [decodeHex32, nameFingerprint]
  cases hexDecode name with
  | error e => simp [Except.mapError, Except.toOption, bind, Except.bind]
  | ok bytes =>
    simp [Except.mapError, Except.toOption, bind, Except.bind, okOr_eq_ok]

/-- The service accepts the object when every name is a fingerprint. -/
theorem collectReplayMap_eq_ok {order : MemberOrder} {state : ReplayMap} :
    collectReplayMap formats order = .ok state ↔
      (∀ member ∈ order.entries, (nameFingerprint member.1).isSome) ∧
        state = gather order.entries := by
  refine foldlM_eq_ok ?_
  intro state member state'
  simp only [bind_eq_ok, mapError_eq_ok, decodeHex32_eq_ok, keep]
  cases nameFingerprint member.1 <;> simp [pure, Except.pure, eq_comm]

/-- The command line accepts the object when every name is hexadecimal. -/
theorem decodeSession_eq_ok {order : MemberOrder} {state : ReplayMap} :
    Cli.decodeSession surroundings order = .ok state ↔
      (∀ member ∈ order.entries, ∃ bytes, hexDecode member.1 = .ok bytes) ∧
        state = gather order.entries := by
  refine foldlM_eq_ok ?_
  intro state member state'
  simp only [bind_eq_ok, mapError_eq_ok, keep, nameFingerprint]
  cases hexDecode member.1 with
  | error e => simp
  | ok bytes =>
    cases hfp : ByteArr.ofBytes? 32 bytes <;>
      simp [hfp, Except.toOption, pure, Except.pure, eq_comm]

end Loaders

section Orders

variable {members : Members} {order : MemberOrder} {name : String} {n : UInt64}

/-- The members are found in every order. -/
theorem lookup_eq_some_iff (h : order.toFinmap = members) :
    members.lookup name = some n ↔ ⟨name, n⟩ ∈ order.entries := by
  rw [← h, Finmap.lookup_toFinmap, ← Option.mem_def, AList.mem_lookup_iff]

/-- The names are found in every order. -/
theorem mem_iff_of_order (h : order.toFinmap = members) :
    name ∈ members ↔ ∃ member ∈ order.entries, member.1 = name := by
  rw [← h]
  exact List.mem_map

/-- Any member may be the last in the order of iteration. -/
theorem exists_order_last {member : Member} (h : members.lookup member.1 = some member.2) :
    ∃ (order : MemberOrder) (front : List Member), order.toFinmap = members ∧
      order.entries = front ++ [member] := by
  obtain ⟨order, horder⟩ := Service.exists_order members
  have hmem : member ∈ order.entries := (lookup_eq_some_iff horder).mp h
  have hperm : (order.entries.erase member ++ [member]).Perm order.entries :=
    (List.perm_append_singleton _ _).trans (List.perm_cons_erase hmem).symm
  have hnodup : (order.entries.erase member ++ [member]).NodupKeys :=
    (List.perm_nodupKeys hperm).mpr order.nodupKeys
  refine ⟨⟨_, hnodup⟩, order.entries.erase member, ?_, rfl⟩
  rw [← horder]
  exact AList.toFinmap_eq.mpr hperm

end Orders

/-- Every member is represented by a number at least as large. -/
def Represents (members : Members) (state : ReplayMap) : Prop :=
  ∀ name n, members.lookup name = some n →
    ∃ f last, nameFingerprint name = some f ∧ state.lookup f = some last ∧ n ≤ last

/-- Both loaders fail, or both come to one map that represents every member. -/
def Agree (members : Members) (session service : Except String ReplayMap) : Prop :=
  (∀ state, session ≠ .ok state ∧ service ≠ .ok state) ∨
    ∃ state, session = .ok state ∧ service = .ok state ∧ Represents members state

/-- A name is not hexadecimal text. -/
def Malformed (members : Members) : Prop := ∃ name ∈ members, ∃ e, hexDecode name = .error e

/-- Every name is a fingerprint, and names of one fingerprint carry one number. -/
structure Unambiguous (members : Members) : Prop where
  fingerprints : ∀ name ∈ members, ∃ f, nameFingerprint name = some f
  consistent : ∀ name name' n n', members.lookup name = some n → members.lookup name' = some n' →
    nameFingerprint name = nameFingerprint name' → n = n'

variable {Text : Type} (formats : Service.Formats Text) (surroundings : Cli.Surroundings)

/-- The loaders agree on the object in whatever orders they iterate over it. -/
def LoadersAgree (members : Members) : Prop :=
  ∀ order order' : MemberOrder, order.toFinmap = members → order'.toFinmap = members →
    Agree members (Cli.decodeSession surroundings order) (collectReplayMap formats order')

variable {formats surroundings} {members : Members} {order order' : MemberOrder}

/-- A malformed session is refused by both loaders. -/
theorem Malformed.agree (h : Malformed members) (horder : order.toFinmap = members)
    (horder' : order'.toFinmap = members) :
    Agree members (Cli.decodeSession surroundings order) (collectReplayMap formats order') := by
  obtain ⟨name, hname, e, he⟩ := h
  refine Or.inl fun state => ⟨?_, ?_⟩
  · intro hsession
    obtain ⟨member, hmem, rfl⟩ := (mem_iff_of_order horder).mp hname
    obtain ⟨bytes, hbytes⟩ := (decodeSession_eq_ok.mp hsession).1 member hmem
    rw [he] at hbytes
    cases hbytes
  · intro hservice
    obtain ⟨member, hmem, rfl⟩ := (mem_iff_of_order horder').mp hname
    have hsome := (collectReplayMap_eq_ok.mp hservice).1 member hmem
    simp [nameFingerprint, he, Except.toOption] at hsome

/-- Without ambiguity the map that is gathered does not depend on the order. -/
theorem Unambiguous.lookup_gather (h : Unambiguous members) (horder : order.toFinmap = members)
    {f : Fingerprint} {n : UInt64} : (gather order.entries).lookup f = some n ↔
      ∃ name, members.lookup name = some n ∧ nameFingerprint name = some f := by
  constructor
  · intro hn
    obtain ⟨⟨name, n'⟩, hmem, hname, rfl⟩ := exists_of_gather hn
    exact ⟨name, (lookup_eq_some_iff horder).mpr hmem, hname⟩
  · rintro ⟨name, hlookup, hname⟩
    obtain ⟨n', hn'⟩ := gather_of_mem ((lookup_eq_some_iff horder).mp hlookup) hname
    obtain ⟨⟨name', _⟩, hmem, hname', rfl⟩ := exists_of_gather hn'
    have hsame := h.consistent name name' n _ hlookup ((lookup_eq_some_iff horder).mpr hmem)
      (hname.trans hname'.symm)
    rw [hn', hsame]

/-- The name of a fingerprint is hexadecimal. -/
theorem hexDecode_of_nameFingerprint {name : String} {f : Fingerprint}
    (h : nameFingerprint name = some f) : ∃ bytes, hexDecode name = .ok bytes := by
  cases hdecode : hexDecode name with
  | ok bytes => exact ⟨bytes, rfl⟩
  | error e => simp [nameFingerprint, hdecode, Except.toOption] at h

/-- An unambiguous session is loaded alike. -/
theorem Unambiguous.agree (h : Unambiguous members) (horder : order.toFinmap = members)
    (horder' : order'.toFinmap = members) :
    Agree members (Cli.decodeSession surroundings order) (collectReplayMap formats order') := by
  have hsame : gather order.entries = gather order'.entries := by
    apply Finmap.ext_lookup
    intro f
    ext n
    rw [h.lookup_gather horder, h.lookup_gather horder']
  refine Or.inr ⟨gather order.entries, decodeSession_eq_ok.mpr ⟨?_, rfl⟩,
    collectReplayMap_eq_ok.mpr ⟨?_, hsame⟩, ?_⟩
  · intro member hmem
    obtain ⟨f, hf⟩ := h.fingerprints member.1 ((mem_iff_of_order horder).mpr ⟨member, hmem, rfl⟩)
    exact hexDecode_of_nameFingerprint hf
  · intro member hmem
    obtain ⟨f, hf⟩ := h.fingerprints member.1 ((mem_iff_of_order horder').mpr ⟨member, hmem, rfl⟩)
    rw [hf, Option.isSome_some]
  · intro name n hlookup
    obtain ⟨f, hf⟩ := h.fingerprints name (Finmap.mem_of_lookup_eq_some hlookup)
    exact ⟨f, n, hf, (h.lookup_gather horder).mpr ⟨name, hlookup, hf⟩, le_rfl⟩

/-- Where the loaders agree on an object of hexadecimal names, all of them are fingerprints. -/
theorem LoadersAgree.fingerprints (h : LoadersAgree formats surroundings members)
    (hhex : ∀ name ∈ members, ∃ bytes, hexDecode name = .ok bytes) :
    ∀ name ∈ members, ∃ f, nameFingerprint name = some f := by
  obtain ⟨order, horder⟩ := Service.exists_order members
  have hsession : Cli.decodeSession surroundings order = .ok (gather order.entries) := by
    refine decodeSession_eq_ok.mpr ⟨?_, rfl⟩
    intro member hmem
    exact hhex member.1 ((mem_iff_of_order horder).mpr ⟨member, hmem, rfl⟩)
  intro name hname
  rcases h order order horder horder with hfail | ⟨state, -, hservice, -⟩
  · exact absurd hsession (hfail _).1
  · obtain ⟨member, hmem, rfl⟩ := (mem_iff_of_order horder).mp hname
    exact Option.isSome_iff_exists.mp ((collectReplayMap_eq_ok.mp hservice).1 member hmem)

/-- Where the loaders agree on names of one fingerprint, these carry one number: either of them may
come last in the order of one loader, and the other in that of the other. -/
theorem LoadersAgree.consistent (h : LoadersAgree formats surroundings members)
    (hhex : ∀ name ∈ members, ∃ bytes, hexDecode name = .ok bytes) {name name' : String}
    {n n' : UInt64} (hn : members.lookup name = some n) (hn' : members.lookup name' = some n')
    (hsame : nameFingerprint name = nameFingerprint name') : n = n' := by
  obtain ⟨f, hf⟩ := h.fingerprints hhex name (Finmap.mem_of_lookup_eq_some hn)
  obtain ⟨order, front, horder, hlast⟩ : ∃ (order : MemberOrder) (front : List Member),
      order.toFinmap = members ∧ order.entries = front ++ [(⟨name, n⟩ : Member)] :=
    exists_order_last hn
  obtain ⟨order', front', horder', hlast'⟩ : ∃ (order : MemberOrder) (front : List Member),
      order.toFinmap = members ∧ order.entries = front ++ [(⟨name', n'⟩ : Member)] :=
    exists_order_last hn'
  have hsession : Cli.decodeSession surroundings order = .ok (gather order.entries) := by
    refine decodeSession_eq_ok.mpr ⟨?_, rfl⟩
    intro member hmem
    exact hhex member.1 ((mem_iff_of_order horder).mpr ⟨member, hmem, rfl⟩)
  rcases h order order' horder horder' with hfail | ⟨state, hstate, hservice, -⟩
  · exact absurd hsession (hfail _).1
  · obtain rfl := Except.ok.inj (hsession.symm.trans hstate)
    have hgather := (collectReplayMap_eq_ok.mp hservice).2
    have hfirst : (gather order.entries).lookup f = some n := by
      rw [hlast, gather_append]
      exact keep_lookup_self hf
    have hsecond : (gather order'.entries).lookup f = some n' := by
      rw [hlast', gather_append]
      exact keep_lookup_self (hsame.symm.trans hf)
    rw [hgather, hsecond] at hfirst
    exact (Option.some.inj hfirst).symm

/-- The loaders agree on an object, and lose nothing of it, if and only if some name is not
hexadecimal text, or every name is a fingerprint and names of one fingerprint carry one number. -/
theorem loadersAgree_iff : LoadersAgree formats surroundings members ↔
    Malformed members ∨ Unambiguous members := by
  constructor
  · intro h
    by_cases hmalformed : Malformed members
    · exact Or.inl hmalformed
    · have hhex : ∀ name ∈ members, ∃ bytes, hexDecode name = .ok bytes := by
        intro name hname
        cases hdecode : hexDecode name with
        | ok bytes => exact ⟨bytes, rfl⟩
        | error e => exact absurd ⟨name, hname, e, hdecode⟩ hmalformed
      exact Or.inr ⟨h.fingerprints hhex, fun _ _ _ _ hn hn' => h.consistent hhex hn hn'⟩
  · rintro (h | h) order order' horder horder'
    · exact h.agree horder horder'
    · exact h.agree horder horder'

/-- A command line that finds no file. -/
def emptySurroundings : Cli.Surroundings where
  read _ := .error "no file"
  openFile _ := .error "no file"
  readToString _ := .error "no file"
  stdin := .ok []
  pathExists _ := false
  readSession _ := .error "no session"
  displayHexError _ := "invalid"

/-- `{"00": 5}`. -/
def shortName : MemberOrder := AList.singleton "00" 5

/-- The command line drops the member, the service refuses the file. -/
theorem not_loadersAgree_shortName :
    Cli.decodeSession emptySurroundings shortName = .ok ∅ ∧
      collectReplayMap Service.Transparent.formats shortName =
        .error "invalid identity fingerprint: Expected 32 bytes, got 1" ∧
      ¬ LoadersAgree Service.Transparent.formats emptySurroundings shortName.toFinmap := by
  have hsession : Cli.decodeSession emptySurroundings shortName = .ok ∅ := by rfl
  have hservice : collectReplayMap Service.Transparent.formats shortName =
      .error "invalid identity fingerprint: Expected 32 bytes, got 1" := by rfl
  refine ⟨hsession, hservice, ?_⟩
  intro h
  rcases h shortName shortName rfl rfl with hfail | ⟨state, -, hstate, -⟩
  · exact (hfail ∅).1 hsession
  · rw [hservice] at hstate
    cases hstate

end Veriai.Session
