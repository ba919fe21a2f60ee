import Mathlib.Data.Finset.Sort
import Mathlib.Data.String.Basic
import Veriai.Core.PosixPath
import Veriai.Service.Persistence
import Veriai.Service.Solo

/-!
# Saving the replay state and loading it again

`persist_replay_state` followed by `load_replay_state` on a disk without faults.
The temporary file and the directory that is synchronised are found through the
text of the state path: of a bare file name the parent is the empty path, which
cannot be opened.
-/

namespace Veriai.Service

open Machine PosixPath

variable {Text : Type}

/-- What is left of a state path in `AppState`. -/
def StatePath.ofText (path : Bytes) : StatePath := ⟨(PosixPath.fileName path).bind toStr⟩

/-- `format!(".{file_name}.{pid}.{counter}.tmp")`. -/
def temporaryName (fileName : String) (name : TempName) : String :=
  "." ++ fileName ++ "." ++ toString name.pid ++ "." ++ toString name.counter ++ ".tmp"

/-- What `File::open` is given to synchronise the directory, by its components. -/
def syncedDirectory (path : Bytes) : List Component := (parent path).getD [.curDir]

/-- A disk without faults: the names its directory takes for a new file, whether a rename may
replace what the state path names (a directory is not replaced), whether the directory can be
opened for reading, and the order in which a map is iterated. -/
structure Disk where
  takes : String → Bool
  replaceable : Bool
  readable : Bool
  order : Members → MemberOrder
  iterates : ∀ members, (order members).toFinmap = members

/-- Creating the temporary file fails where one exists or its name is not taken, renaming it where
the state path names what cannot be replaced, and opening the directory where it is not readable or
its path is empty; nothing else fails. -/
def Disk.plan (disk : Disk) (path : FilePath) (w : World Text) : Plan Text where
  fails
    | .createTemporary name => (w.temps name).isSome || !disk.takes (temporaryName path.name name)
    | .renameTemporary _ => !disk.replaceable
    | .syncParent => (syncedDirectory path.text).isEmpty || !disk.readable
    | _ => false
  order := disk.order

/-- The state file can be read where there is one. -/
def Readable : (o : Op Text) → Res Text o → Prop
  | .readState, r => r.isOk = true
  | _, _ => True

variable (formats : Formats Text) (env : Primitives) (config : Config)

/-- The service on the disk. -/
def Disk.service (disk : Disk) (path : FilePath) (w : World Text) :
    Machine CallId Request Response (World Text) (Res Text) :=
  ((disk.plan path w).service formats env ⟨true, false, false⟩ config).obeying Readable

/-- Persisting succeeds, and loading then gives the map back. -/
def Disk.RoundTrips (disk : Disk) (path : FilePath) (w : World Text) (saver loader : CallId)
    (state : ReplayMap) : Prop :=
  (disk.service formats env config path w).Delivers saver
    (persistReplayState formats saver.pid (.ofText path.text)) w fun x w' =>
      x = .ok () ∧ (disk.service formats env config path w).Delivers loader
        (loadReplayState formats) w' fun y _ => y = .ok state

variable {formats env config} {disk : Disk} {path : FilePath} {w : World Text}
variable {saver loader : CallId} {p : Process} {m : ReplayMutex}

theorem ofText_fileName : (StatePath.ofText path.text).fileName = some path.name :=
  path.fileName_text

/-- The directory can be synchronised if it is readable and the path is not a bare file name. -/
theorem fails_syncParent :
    (disk.plan path w).fails .syncParent = false ↔
      path.directory ≠ [] ∧ disk.readable = true := by
  have hfails : (disk.plan path w).fails .syncParent =
      ((components path.directory).isEmpty || !disk.readable) := by
    simp [Disk.plan, syncedDirectory, path.parent_text]
  rw [hfails, Bool.or_eq_false_iff, List.isEmpty_eq_false_iff, Bool.not_eq_false']
  exact and_congr_left' (not_congr path.components_directory_eq_nil)

/-- The rename succeeds where the state path names what can be replaced. -/
theorem fails_renameTemporary {name : TempName} :
    (disk.plan path w).fails (.renameTemporary name) = false ↔ disk.replaceable = true := by
  simp [Disk.plan]

/-- The temporary file can be created where none exists and its name is taken. -/
theorem fails_createTemporary {name : TempName} :
    (disk.plan path w).fails (.createTemporary name) = false ↔
      w.temps name = none ∧ disk.takes (temporaryName path.name name) = true := by
  simp [Disk.plan]

/-- A saved text loads as the map it was made from. -/
theorem delivers_loadReplayState (hlawful : formats.Lawful) {w' : World Text} {text : Text}
    {state : ReplayMap} (htext : formats.toVecPretty (disk.order (encodeMembers state)) = .ok text)
    (hfile : w'.file = some text) :
    (disk.service formats env config path w).Delivers loader (loadReplayState formats) w'
      fun y _ => y = .ok state := by
  have hmembers : formats.fromSlice text = .ok (encodeMembers state) := by
    rw [hlawful.roundTrip _ _ htext, disk.iterates]
  have hcollects : collectReplayMap formats (disk.order (encodeMembers state)) = .ok state :=
    collectReplayMap_encodeMembers (disk.iterates _)
  constructor
  · refine ⟨.ok state, w'.looked loader, ?_⟩
    apply Ends.bind (a := .ok text)
    · exact Ends.call ⟨⟨Or.inl ⟨text, hfile, rfl, rfl⟩, trivial⟩, rfl⟩
    apply Ends.bind (Ends.ensure (y := .ok text) rfl)
    apply Ends.bind (Ends.ensure (y := .ok (encodeMembers state)) (by rw [hmembers]; rfl))
    apply Ends.bind (a := disk.order (encodeMembers state))
    · exact Ends.call ⟨⟨⟨disk.iterates _, rfl⟩, rfl⟩, trivial⟩
    exact Ends.ensure hcollects
  · refine Leads.attempt_bind (o := Op.readState) rfl ?_
    rintro r w₁ ⟨⟨⟨text', htext', rfl, rfl⟩ | ⟨-, ⟨e, rfl⟩, -⟩ | ⟨-, ⟨e, rfl⟩, -⟩, -⟩, hok⟩
    · obtain rfl := Option.some.inj (htext'.symm.trans hfile)
      refine Leads.ensure_bind ?_ ?_
      · intro members hsaved
        rw [mapError_eq_ok, hmembers] at hsaved
        obtain rfl := Except.ok.inj hsaved
        refine Leads.call_bind (o := Op.intoIter (encodeMembers state)) ?_
        rintro order w₂ ⟨⟨-, horder⟩, -⟩
        obtain rfl : order = disk.order (encodeMembers state) := horder
        exact Leads.ensure hcollects
      · intro e he
        rw [hmembers] at he
        cases he
    · cases hok
    · cases hok

/-- What saving needs of the path and of the directory. -/
structure Disk.Saves (disk : Disk) (path : FilePath) (w : World Text) (name : TempName) : Prop where
  inDirectory : path.directory ≠ []
  readable : disk.readable = true
  replaceable : disk.replaceable = true
  free : w.temps name = none
  taken : disk.takes (temporaryName path.name name) = true

/-- Where it can be created, the temporary file takes the place of the state file. -/
theorem Disk.Saves.serves {name : TempName} {members : Members} (h : disk.Saves path w name) :
    Serves env ⟨true, false, false⟩ saver (disk.service formats env config path w) name members
      (disk.order members) := by
  rintro o r w₁ w₂ hr he -
  cases o with
  | getState | nextTempFile => exact ⟨⟨he, trivial⟩, trivial⟩
  | intoIter members' =>
    obtain ⟨rfl, rfl⟩ := hr
    exact ⟨⟨he, rfl⟩, trivial⟩
  | createTemporary name' =>
    obtain ⟨rfl, rfl⟩ := hr
    refine ⟨⟨he, ?_⟩, trivial⟩
    rw [Plan.Allows, fails_createTemporary.mpr ⟨h.free, h.taken⟩]
    rfl
  | setTemporaryPermissions | writeTemporary | syncTemporary =>
    obtain rfl := hr
    exact ⟨⟨he, rfl⟩, trivial⟩
  | syncParent =>
    obtain rfl := hr
    refine ⟨⟨he, ?_⟩, trivial⟩
    rw [Plan.Allows, fails_syncParent.mpr ⟨h.inDirectory, h.readable⟩]
    rfl
  | _ => exact hr.elim

/-- Where the disk saves, persisting comes to a successful end. -/
theorem ends_persistReplayState {text : Text} (hp : w.procs saver.pid = some p)
    (hm : p.verifier = some m) (hhealthy : m.poisoned = false)
    (htext : formats.toVecPretty (disk.order (encodeMembers m.map)) = .ok text)
    (hsaves : disk.Saves path w ⟨saver.pid, p.counter⟩) :
    ∃ w', (disk.service formats env config path w).Ends saver
      (persistReplayState formats saver.pid (.ofText path.text)) w (.ok ()) w' := by
  have hfilled : (w.written saver p text).temps ⟨saver.pid, p.counter⟩ = some text :=
    Function.update_self _ _ _
  have hserves : Serves env ⟨true, false, false⟩ saver (disk.service formats env config path w)
      ⟨saver.pid, p.counter⟩ (encodeMembers m.map) (disk.order (encodeMembers m.map)) :=
    hsaves.serves
  have hpasses : ∀ w₂, (disk.service formats env config path w).Passes saver
      (persistReplayState formats saver.pid (.ofText path.text)).run w
      (.renameTemporary ⟨saver.pid, p.counter⟩) (w.written saver p text) (Except.ok ()) w₂ (.ok ())
      w₂ :=
    passes_persistReplayState hserves hp hm hhealthy (disk.iterates _) htext ofText_fileName
      hsaves.free
  have hrenamed : (disk.plan path w).Allows (.renameTemporary ⟨saver.pid, p.counter⟩)
      (Except.ok ()) := by
    rw [Plan.Allows, fails_renameTemporary.mpr hsaves.replaceable]
    rfl
  exact ⟨_, (hpasses _).runs ⟨⟨Or.inl ⟨text, hfilled, rfl, rfl⟩, hrenamed⟩, trivial⟩⟩

/-- Saving a map and loading it again gives the same map, on a disk without faults, if and only if
the path is not a bare file name, its directory is readable, the temporary file can be created and
what the path names can be replaced. -/
theorem roundTrips_iff (hlawful : formats.Lawful)
    (hencodes : ∀ order, ∃ text, formats.toVecPretty order = .ok text)
    (hp : w.procs saver.pid = some p) (hm : p.verifier = some m) (hhealthy : m.poisoned = false) :
    disk.RoundTrips formats env config path w saver loader m.map ↔
      disk.Saves path w ⟨saver.pid, p.counter⟩ := by
  obtain ⟨text, htext⟩ := hencodes (disk.order (encodeMembers m.map))
  have hleads : (disk.service formats env config path w).Leads saver
      (persistReplayState formats saver.pid (.ofText path.text)) w fun x w' =>
        SameMemory saver p w' ∧ (disk.plan path w).Attempted
          ((disk.plan path w).Replaces formats saver p m (.ofText path.text)) w w' x.isOk :=
    (leads_persistReplayState hp hm).obeying
  constructor
  · rintro ⟨⟨x, w', hend⟩, hevery⟩
    obtain ⟨rfl, -⟩ := hevery x w' hend
    obtain ⟨-, ⟨text', hreplaces, -, hsynced⟩ | ⟨-, -, hfailed⟩⟩ := hleads _ w' hend
    · obtain ⟨hfree, htaken⟩ := fails_createTemporary.mp hreplaces.created
      obtain ⟨hdirectory, hreadable⟩ := fails_syncParent.mp (succeeds_of_ok hsynced)
      have hreplaceable := fails_renameTemporary.mp hreplaces.renames.renamed
      exact ⟨hdirectory, hreadable, hreplaceable, hfree, htaken⟩
    · cases hfailed
  · intro hsaves
    obtain ⟨w', hend⟩ := ends_persistReplayState hp hm hhealthy htext hsaves
    refine ⟨⟨_, w', hend⟩, ?_⟩
    intro x w' hend
    have hreplaces : (disk.plan path w).Replaces formats saver p m (.ofText path.text) text :=
      ⟨hhealthy, disk.iterates _, htext, by simp [ofText_fileName],
        fails_createTemporary.mpr ⟨hsaves.free, hsaves.taken⟩,
        ⟨rfl, rfl, rfl, fails_renameTemporary.mpr hsaves.replaceable⟩⟩
    obtain ⟨-, ⟨text', hreplaces', hfile, hsynced⟩ | ⟨hnot, -, -⟩⟩ := hleads x w' hend
    · obtain rfl := Except.ok.inj (htext.symm.trans hreplaces'.encodes)
      rw [fails_syncParent.mpr ⟨hsaves.inDirectory, hsaves.readable⟩] at hsynced
      refine ⟨?_, delivers_loadReplayState hlawful htext hfile⟩
      cases x with
      | ok u => rfl
      | error e => cases hsynced
    · exact absurd hreplaces (hnot text)

end Veriai.Service

namespace Veriai.Service.Transparent

open Machine PosixPath Veriai.Transparent

/-- The members in the order of their names. -/
def sortedOrder (members : Members) : MemberOrder where
  entries := members.keys.sort.map fun name => ⟨name, (members.lookup name).getD 0⟩
  nodupKeys := by
    rw [List.NodupKeys, List.keys, List.map_map]
    simp [Function.comp_def]

theorem sortedOrder_toFinmap (members : Members) : (sortedOrder members).toFinmap = members := by
  apply Finmap.ext_lookup
  intro name
  ext n
  rw [Finmap.lookup_toFinmap, ← Option.mem_def, AList.mem_lookup_iff, sortedOrder, List.mem_map]
  constructor
  · rintro ⟨name', hname, heq⟩
    obtain ⟨rfl, hn⟩ := Sigma.mk.inj heq
    obtain ⟨n', hn'⟩ := Finmap.mem_iff.mp (Finmap.mem_keys.mp ((Finset.mem_sort _).mp hname))
    rw [hn', Option.getD_some] at hn
    rw [hn', eq_of_heq hn]
  · intro hn
    have hmem := Finmap.mem_keys.mpr (Finmap.mem_of_lookup_eq_some hn)
    have hname := (Finset.mem_sort (· ≤ ·)).mpr hmem
    exact ⟨name, hname, by rw [hn, Option.getD_some]⟩

/-- A disk that takes every name of at most 255 bytes, in a directory without restrictions. -/
def disk : Disk where
  takes name := name.utf8ByteSize ≤ 255
  replaceable := true
  readable := true
  order := sortedOrder
  iterates := sortedOrder_toFinmap

theorem isName_replayJson : IsName (utf8Bytes "replay.json") where
  nonempty := by decide
  whole := by decide
  notCurDir := by decide
  notParentDir := by decide

/-- `state/replay.json`. -/
def inDirectory : FilePath where
  directory := utf8Bytes "state/"
  name := "replay.json"
  separated := Or.inr (by decide)
  isName := isName_replayJson

/-- `replay.json`. -/
def bare : FilePath where
  directory := []
  name := "replay.json"
  separated := Or.inl rfl
  isName := isName_replayJson

/-- A path with a directory in front is saved and loaded again. -/
theorem roundTrips_inDirectory :
    disk.RoundTrips formats primitives config inDirectory accepted caller ⟨0, 1⟩ current := by
  refine (roundTrips_iff (m := .new current) lawful (fun order => ⟨order, rfl⟩) rfl rfl rfl).mpr ?_
  exact ⟨by decide, rfl, rfl, rfl, by decide⟩

/-- The members that are saved, in their order. -/
def saved : MemberOrder := sortedOrder (encodeMembers current)

/-- Process 0 has filled its temporary file. -/
def prepared : World MemberOrder := numbered.setTemp ⟨0, 0⟩ (some saved)

/-- Under a bare file name the map is saved, and yet the attempt fails. -/
theorem ends_bare :
    (disk.service formats primitives config bare accepted).Ends caller
      (persistReplayState formats 0 (.ofText bare.text)) accepted
      (.error "failed to sync replay state directory: No such file or directory")
      (prepared.replace caller ⟨0, 0⟩ saved) := by
  have hiterated : (disk.plan bare accepted).Allows (.intoIter (encodeMembers current)) saved := rfl
  have hcreated : (disk.plan bare accepted).Allows (.createTemporary ⟨0, 0⟩) (Except.ok ()) := rfl
  have hpermitted : (disk.plan bare accepted).Allows (.setTemporaryPermissions ⟨0, 0⟩)
      (Except.ok ()) := rfl
  have hwritten : (disk.plan bare accepted).Allows (.writeTemporary ⟨0, 0⟩ saved)
      (Except.ok ()) := rfl
  have hsynced : (disk.plan bare accepted).Allows (.syncTemporary ⟨0, 0⟩) (Except.ok ()) := rfl
  have hrenamed : (disk.plan bare accepted).Allows (.renameTemporary ⟨0, 0⟩) (Except.ok ()) := rfl
  have hparent : (disk.plan bare accepted).Allows .syncParent
      (Except.error "No such file or directory") := by
    have hfails : (disk.plan bare accepted).fails .syncParent = true := by decide
    rw [Plan.Allows, hfails]
    rfl
  have hfilled : prepared.setTemp ⟨0, 0⟩ (some saved) = prepared := by
    simp [prepared, World.setTemp]
  refine .op (r := Except.ok (some current)) ⟨⟨⟨_, rfl, rfl, rfl⟩, trivial⟩, trivial⟩ ?_
  refine .op ⟨⟨⟨sortedOrder_toFinmap _, rfl⟩, hiterated⟩, trivial⟩ ?_
  refine .op (r := (0 : Nat)) ⟨⟨⟨_, rfl, rfl, rfl⟩, trivial⟩, trivial⟩ ?_
  refine .op ⟨⟨Or.inl ⟨rfl, rfl, saved, rfl⟩, hcreated⟩, trivial⟩ ?_
  refine .op ⟨⟨Or.inl ⟨rfl, rfl⟩, hpermitted⟩, trivial⟩ ?_
  refine .op ⟨⟨⟨?_, Or.inl ⟨rfl, hfilled.symm⟩⟩, hwritten⟩, trivial⟩ ?_
  · exact Option.some_ne_none _
  refine .op ⟨⟨Or.inl ⟨rfl, rfl⟩, hsynced⟩, trivial⟩ ?_
  refine .op ⟨⟨Or.inl ⟨saved, rfl, rfl, rfl⟩, hrenamed⟩, trivial⟩ ?_
  refine .op ⟨⟨Or.inr ⟨rfl, ⟨_, rfl⟩, rfl⟩, hparent⟩, trivial⟩ ?_
  refine .op (r := Except.error "not found") ⟨⟨Or.inr (Or.inl ⟨rfl, ⟨_, rfl⟩, rfl⟩), trivial⟩,
    trivial⟩ ?_
  exact .refl _ _

/-- The bare file name: an error, though the map is in the state file. -/
theorem not_roundTrips_bare : ∃ e w',
    (disk.service formats primitives config bare accepted).Ends caller
        (persistReplayState formats 0 (.ofText bare.text)) accepted (.error e) w' ∧
      w'.file = some saved ∧
      ¬ disk.RoundTrips formats primitives config bare accepted caller ⟨0, 1⟩ current := by
  refine ⟨_, _, ends_bare, rfl, ?_⟩
  rintro ⟨-, hevery⟩
  obtain ⟨hok, -⟩ := hevery _ _ ends_bare
  cases hok

end Veriai.Service.Transparent
