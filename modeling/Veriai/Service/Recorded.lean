import Veriai.Service.System

/-!
# What a state file records

A file records the numbers that a reader of it may be given. The keys of a file
that the service wrote are the fingerprints in one spelling, so each fingerprint
has one number. A file from elsewhere may spell a fingerprint twice, and then the
number depends on the order in which the members are iterated.
-/

namespace Veriai.Service

variable {Text : Type} {formats : Formats Text}

variable (formats) in
/-- What is written can be read: the members in any order. -/
structure Formats.Lawful : Prop where
  roundTrip : ∀ (order : MemberOrder) text, formats.toVecPretty order = .ok text →
    formats.fromSlice text = .ok order.toFinmap

variable (formats) in
/-- The file records this number for the fingerprint: some order of its members gives it. -/
def Records (file : Option Text) (f : Fingerprint) (n : UInt64) : Prop :=
  ∃ text state, file = some text ∧ Loads formats text state ∧ state.lookup f = some n

variable (formats) in
/-- Each fingerprint has one number, however its keys are spelt. -/
def OneNumber (file : Option Text) : Prop :=
  ∀ f n n', Records formats file f n → Records formats file f n' → n = n'

variable (formats) in
/-- The file moves forward: no number gets smaller and no fingerprint is lost. -/
def Forward (file file' : Option Text) : Prop :=
  ∀ f n, Records formats file f n →
    (∃ n', Records formats file' f n') ∧ ∀ n', Records formats file' f n' → n ≤ n'

variable (formats) in
/-- What is loaded from the state file, in whatever order; no file is the empty ledger. -/
def Contents (file : Option Text) (m : ReplayMap) : Prop :=
  match file with
  | none => m = ∅
  | some text => ∀ state, Loads formats text state ↔ state = m

variable (formats) in
/-- The service wrote this replay state to the file; no file is the empty one. -/
def Saved (file : Option Text) (state : ReplayMap) : Prop :=
  match file with
  | none => state = ∅
  | some text => formats.fromSlice text = .ok (encodeMembers state)

/-- There is nothing to read where there is no file. -/
theorem not_records_none {f : Fingerprint} {n : UInt64} : ¬ Records formats none f n := by
  rintro ⟨text, state, hfile, -⟩
  cases hfile

/-- Without a file no fingerprint has two numbers. -/
theorem oneNumber_none : OneNumber formats none :=
  fun _ _ _ h => absurd h not_records_none

/-- Whatever the order, the same fingerprints are loaded. -/
theorem Loads.mem {text : Text} {state state' : ReplayMap} (h : Loads formats text state)
    (h' : Loads formats text state') {f : Fingerprint} (hf : f ∈ state) : f ∈ state' := by
  obtain ⟨order, hread, hcollect⟩ := h
  obtain ⟨order', hread', hcollect'⟩ := h'
  have hmembers : order.toFinmap = order'.toFinmap := Except.ok.inj (hread.symm.trans hread')
  rw [mem_collectReplayMap hcollect, hmembers] at hf
  exact (mem_collectReplayMap hcollect').mpr hf

/-- A replay state that was loaded covers the file, if the file gives each fingerprint one
number. -/
theorem Loads.lookup {text : Text} {state : ReplayMap} (h : Loads formats text state)
    (hone : OneNumber formats (some text)) {f : Fingerprint} {n : UInt64}
    (hrecords : Records formats (some text) f n) : state.lookup f = some n := by
  have ⟨text', state', htext, hloads, hlookup⟩ := hrecords
  obtain rfl := Option.some.inj htext
  have hmem : f ∈ state := hloads.mem h (Finmap.mem_of_lookup_eq_some hlookup)
  obtain ⟨k, hk⟩ := Finmap.mem_iff.mp hmem
  rw [hk, hone f k n ⟨text, state, rfl, h, hk⟩ hrecords]

/-- A file with one ledger records its numbers. -/
theorem Contents.records {file : Option Text} {m : ReplayMap} (h : Contents formats file m)
    {f : Fingerprint} {n : UInt64} : Records formats file f n ↔ m.lookup f = some n := by
  cases file with
  | none =>
    obtain rfl : m = ∅ := h
    simp [not_records_none]
  | some text =>
    constructor
    · rintro ⟨text', state, htext, hloads, hlookup⟩
      obtain rfl := Option.some.inj htext
      rwa [← (h state).mp hloads]
    · exact fun hlookup => ⟨text, m, rfl, (h m).mpr rfl, hlookup⟩

/-- A file with one ledger has one number for each fingerprint. -/
theorem Contents.oneNumber {file : Option Text} {m : ReplayMap} (h : Contents formats file m) :
    OneNumber formats file := by
  intro f n n' hn hn'
  rw [h.records] at hn hn'
  exact Option.some.inj (hn.symm.trans hn')

/-- A file has one ledger at most. -/
theorem Contents.unique {file : Option Text} {m m' : ReplayMap} (h : Contents formats file m)
    (h' : Contents formats file m') : m = m' := by
  cases file with
  | none => exact h.trans h'.symm
  | some text => exact (h' m).mp ((h m).mpr rfl)

/-- A file that was written is loaded as the state it was written for. -/
theorem Loads.of_saved {text : Text} {state state' : ReplayMap} (h : Loads formats text state)
    (hsaved : Saved formats (some text) state') : state = state' := by
  obtain ⟨order, hread, hcollect⟩ := h
  have hmembers : order.toFinmap = encodeMembers state' :=
    Except.ok.inj (hread.symm.trans hsaved)
  exact Except.ok.inj (hcollect.symm.trans (collectReplayMap_encodeMembers hmembers))

/-- A file that was written has the ledger it was written for. -/
theorem Saved.contents {file : Option Text} {m : ReplayMap} (h : Saved formats file m) :
    Contents formats file m := by
  cases file with
  | none => exact h
  | some text =>
    intro state
    constructor
    · exact fun hloads => hloads.of_saved h
    · rintro rfl
      obtain ⟨order, horder⟩ := exists_order (encodeMembers state)
      exact ⟨order, horder ▸ h, collectReplayMap_encodeMembers horder⟩

/-- Every file moves forward to itself, if it gives each fingerprint one number. -/
theorem Forward.refl {file : Option Text} (h : OneNumber formats file) :
    Forward formats file file :=
  fun f n hn => ⟨⟨n, hn⟩, fun n' hn' => (h f n n' hn hn').le⟩

/-- A file that moved forward twice moved forward. -/
theorem Forward.trans {file file' file'' : Option Text} (h : Forward formats file file')
    (h' : Forward formats file' file'') : Forward formats file file'' := by
  intro f n hn
  obtain ⟨⟨n', hn'⟩, hle⟩ := h f n hn
  obtain ⟨hexists, hle'⟩ := h' f n' hn'
  exact ⟨hexists, fun n'' hn'' => (hle n' hn').trans (hle' n'' hn'')⟩

/-- A ledger above everything recorded takes the file forward. -/
theorem Forward.of_contents {file file' : Option Text} {m : ReplayMap}
    (h : Contents formats file' m)
    (hcovers : ∀ f n, Records formats file f n → ∃ n', m.lookup f = some n' ∧ n ≤ n') :
    Forward formats file file' := by
  intro f n hn
  obtain ⟨k, hk, hle⟩ := hcovers f n hn
  refine ⟨⟨k, h.records.mpr hk⟩, ?_⟩
  intro n' hn'
  obtain rfl := Option.some.inj (hk.symm.trans (h.records.mp hn'))
  exact hle

end Veriai.Service
