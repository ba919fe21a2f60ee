import Veriai.Service.Recorded

/-!
# The rules of the replay state

What keeps the numbers of an identity increasing is spread over the handler: the
guard of the process protects its memory, the file lock the state file, and the
memory is reloaded before a number is compared and written back before it is
answered. These are the rules that say so, and how the parts of a step keep them.
-/

namespace Veriai.Service

variable {Text : Type} {formats : Formats Text} {env : Primitives} {hz : Hazards} {config : Config}

/-- The call holds the guard of its process, whose verifier has this replay state. -/
def Memory (t : CallId) (replay : Option ReplayMutex) (w : World Text) : Prop :=
  ∃ p, w.procs t.pid = some p ∧ p.guard = some t ∧ p.verifier = replay

variable (formats) in
/-- The state is not behind the file, if the file is still the one the call looked at. -/
def Covers (t : CallId) (state : ReplayMap) (w : World Text) : Prop :=
  w.base t = w.version → OneNumber formats w.file → ∀ f n, Records formats w.file f n →
    ∃ n', state.lookup f = some n' ∧ n ≤ n'

variable (hz) in
/-- While calls are not dropped, the lock keeps the file as the call found it. -/
def Undisturbed (t : CallId) (w : World Text) : Prop :=
  hz.drops = false → w.fileLock = some t ∧ w.base t = w.version

variable (formats hz) in
/-- The temporary file holds a fresh number of the call above a state that covers the file. -/
def Ready (t : CallId) (name : TempName) (w : World Text) : Prop :=
  w.slots name = some t ∧ Undisturbed hz t w ∧ ∃ text state f n, w.temps name = some text ∧
    w.pending t = some (f, n) ∧ Ledger.Fresh state f n ∧ Covers formats t state w ∧
    formats.fromSlice text = .ok (encodeMembers (state.insert f n))

variable (formats hz) in
/-- When a call may perform an operation. -/
def mayPerform (t : CallId) : Op Text → World Text → Prop
  | .setState _, w => ∃ replay, Memory t replay w
  | .checkSequence .., w => ∃ replay, Memory t replay w
  | .createTemporary name, w => w.slots name = some t
  | .writeTemporary name _, w => w.slots name = some t
  | .removeTemporary name, w => w.slots name = some t
  | .renameTemporary name, w => Ready formats hz t name w
  | _, _ => True

variable (formats) in
/-- What holds between all operations. -/
structure ReplayInv (w : World Text) : Prop where
  slots : ∀ name t, w.slots name = some t → name.pid = t.pid ∧
    ∃ p, w.procs name.pid = some p ∧ name.counter < p.counter
  base : ∀ t, w.base t ≤ w.version
  covered : ∀ c ∈ w.commits, ∃ state n, Saved formats w.file state ∧
    state.lookup c.fingerprint = some n ∧ c.sequence ≤ n
  increasing : w.commits.Pairwise fun a b => a.fingerprint = b.fingerprint → a.sequence < b.sequence

variable (hz) in
/-- What a call can count on while the others act. -/
structure Rely (t : CallId) (w w' : World Text) : Prop where
  memory : ∀ replay, Memory t replay w → Memory t replay w'
  lock : w.fileLock = some t → w'.fileLock = some t ∧ (hz.drops = false → w'.version = w.version)
  slots : ∀ name, w.slots name = some t → w'.slots name = some t ∧ w'.temps name = w.temps name
  base : w'.base t = w.base t
  pending : w'.pending t = w.pending t
  version : w.version ≤ w'.version
  file : w'.version = w.version → w'.file = w.file
  commits : w.commits ⊆ w'.commits

variable (hz) in
theorem Rely.refl (t : CallId) (w : World Text) : Rely hz t w w :=
  ⟨fun _ h => h, fun h => ⟨h, fun _ => rfl⟩, fun _ h => ⟨h, rfl⟩, rfl, rfl, le_rfl, fun _ => rfl,
    List.Subset.refl _⟩

/-- What can be counted on over two steps. -/
theorem Rely.trans {t : CallId} {w w₁ w' : World Text} (h : Rely hz t w w₁)
    (h' : Rely hz t w₁ w') : Rely hz t w w' where
  memory replay hm := h'.memory replay (h.memory replay hm)
  lock := by
    intro hl
    obtain ⟨hl₁, hv₁⟩ := h.lock hl
    obtain ⟨hl', hv'⟩ := h'.lock hl₁
    exact ⟨hl', fun hd => (hv' hd).trans (hv₁ hd)⟩
  slots := by
    intro name hs
    obtain ⟨hs₁, ht₁⟩ := h.slots name hs
    obtain ⟨hs', ht'⟩ := h'.slots name hs₁
    exact ⟨hs', ht'.trans ht₁⟩
  base := h'.base.trans h.base
  pending := h'.pending.trans h.pending
  version := h.version.trans h'.version
  file := by
    intro hv
    have hle := h.version
    have hle' := h'.version
    have hv₁ : w₁.version = w.version := by omega
    have hv' : w'.version = w₁.version := by omega
    exact (h'.file hv').trans (h.file hv₁)
  commits := fun _ hc => h'.commits (h.commits hc)

/-- The others do not change the file behind a state that covers it, or it is another file. -/
theorem Covers.rely {t : CallId} {state : ReplayMap} {w w' : World Text}
    (hbase : w.base t ≤ w.version)
    (h : Rely hz t w w') (hc : Covers formats t state w) : Covers formats t state w' := by
  intro hv hone f n hrecords
  have hb := h.base
  have hle := h.version
  have hsame : w'.version = w.version := by omega
  rw [h.file hsame] at hone hrecords
  exact hc (by omega) hone f n hrecords

/-- The others do not disturb the holder of the lock. -/
theorem Undisturbed.rely {t : CallId} {w w' : World Text} (h : Rely hz t w w')
    (hu : Undisturbed hz t w) : Undisturbed hz t w' := by
  intro hd
  obtain ⟨hl, hb⟩ := hu hd
  obtain ⟨hl', hv⟩ := h.lock hl
  exact ⟨hl', by rw [h.base, hv hd, hb]⟩

/-- The others leave a temporary file ready. -/
theorem Ready.rely {t : CallId} {name : TempName} {w w' : World Text} (hbase : w.base t ≤ w.version)
    (h : Rely hz t w w') (hr : Ready formats hz t name w) : Ready formats hz t name w' := by
  obtain ⟨hslot, hu, text, state, f, n, htemp, hpending, hfresh, hcovers, htext⟩ := hr
  obtain ⟨hslot', htemp'⟩ := h.slots name hslot
  exact ⟨hslot', hu.rely h, text, state, f, n, htemp'.trans htemp, h.pending.trans hpending, hfresh,
    hcovers.rely hbase h, htext⟩

variable (formats) in
/-- How the world may change at all. -/
structure Later (w w' : World Text) : Prop where
  file : OneNumber formats w.file → OneNumber formats w'.file ∧ Forward formats w.file w'.file
  commits : w.commits ⊆ w'.commits

variable (formats hz) in
/-- The rules of the replay state. -/
def replayContract : Contract CallId (World Text) (Op Text) where
  inv := ReplayInv formats
  rely := Rely hz
  permit := mayPerform formats hz
  later := Later formats

/-- A change of neither the file nor the commits is one. -/
theorem Later.of_same {w w' : World Text} (hfile : w'.file = w.file)
    (hcommits : w'.commits = w.commits) : Later formats w w' where
  file hone := by
    rw [hfile]
    exact ⟨hone, .refl hone⟩
  commits := by rw [hcommits]; exact List.Subset.refl _

theorem Later.refl (w : World Text) : Later formats w w := .of_same rfl rfl

/-- Two changes of the world in a row. -/
theorem Later.trans {w w₁ w' : World Text} (h : Later formats w w₁) (h' : Later formats w₁ w') :
    Later formats w w' where
  file hone := by
    obtain ⟨hone₁, hforward⟩ := h.file hone
    obtain ⟨hone', hforward'⟩ := h'.file hone₁
    exact ⟨hone', hforward.trans hforward'⟩
  commits := fun _ hc => h'.commits (h.commits hc)

/-- The change leaves the state file, the numbers and who holds what. -/
structure Quiet (w w' : World Text) : Prop where
  procs : w'.procs = w.procs
  fileLock : w'.fileLock = w.fileLock
  file : w'.file = w.file
  temps : w'.temps = w.temps
  version : w'.version = w.version
  base : w'.base = w.base
  pending : w'.pending = w.pending
  slots : w'.slots = w.slots
  commits : w'.commits = w.commits

theorem Quiet.refl (w : World Text) : Quiet w w := ⟨rfl, rfl, rfl, rfl, rfl, rfl, rfl, rfl, rfl⟩

/-- A quiet step is nothing to count with. -/
theorem Quiet.rely {w w' : World Text} (h : Quiet w w') (t : CallId) : Rely hz t w w' where
  memory replay hm := by
    unfold Memory
    rw [h.procs]
    exact hm
  lock hl := ⟨h.fileLock.trans hl, fun _ => h.version⟩
  slots name hs := ⟨by rw [h.slots, hs], by rw [h.temps]⟩
  base := by rw [h.base]
  pending := by rw [h.pending]
  version := h.version.ge
  file := fun _ => h.file
  commits := by rw [h.commits]; exact List.Subset.refl _

/-- A quiet step keeps the rules. -/
theorem Quiet.keeps {w w' : World Text} (h : Quiet w w') (hw : ReplayInv formats w)
    (spared : CallId → Prop) : (replayContract formats hz).Keeps spared w w' where
  inv :=
    { slots := by rw [h.slots, h.procs]; exact hw.slots
      base := by rw [h.base, h.version]; exact hw.base
      covered := by rw [h.commits, h.file]; exact hw.covered
      increasing := by rw [h.commits]; exact hw.increasing }
  later := .of_same h.file h.commits
  rely t _ := h.rely t

/-- Two steps that keep the rules keep them together. -/
theorem keeps_trans {spared : CallId → Prop} {w w₁ w' : World Text}
    (h : (replayContract formats hz).Keeps spared w w₁)
    (h' : (replayContract formats hz).Keeps spared w₁ w') :
    (replayContract formats hz).Keeps spared w w' :=
  ⟨h'.inv, h.later.trans h'.later, fun t ht => (h.rely t ht).trans (h'.rely t ht)⟩

/-- A call with the guard can count on the memory when others change their process. -/
theorem rely_setProc {t t' : CallId} {w : World Text} {p p' : Process}
    (hp : w.procs t.pid = some p)
    (hguard : p.guard = some t' → p'.guard = some t' ∧ p'.verifier = p.verifier) :
    Rely hz t' w (w.setProc t.pid (some p')) where
  memory := by
    rintro replay ⟨q, hq, hheld, hreplay⟩
    by_cases hpid : t'.pid = t.pid
    · rw [hpid, hp] at hq
      obtain rfl := Option.some.inj hq
      obtain ⟨hheld', hsame⟩ := hguard hheld
      exact ⟨p', by rw [hpid]; exact Function.update_self .., hheld', hsame.trans hreplay⟩
    · exact ⟨q, (Function.update_of_ne hpid _ _).trans hq, hheld, hreplay⟩
  lock := fun hl => ⟨hl, fun _ => rfl⟩
  slots := fun _ hs => ⟨hs, rfl⟩
  base := rfl
  pending := rfl
  version := le_rfl
  file := fun _ => rfl
  commits := List.Subset.refl _

/-- A process changes, but not what a call of it holds under the guard. -/
theorem keeps_setProc {t : CallId} {w : World Text} {p p' : Process} (hw : ReplayInv formats w)
    (hp : w.procs t.pid = some p) (hcounter : p.counter ≤ p'.counter)
    (hguard : ∀ t', t' ≠ t → p.guard = some t' → p'.guard = some t' ∧ p'.verifier = p.verifier) :
    (replayContract formats hz).Keeps (· ≠ t) w (w.setProc t.pid (some p')) where
  inv :=
    { slots := World.NamesDrawn.setProc hw.slots hp hcounter
      base := hw.base
      covered := hw.covered
      increasing := hw.increasing }
  later := .of_same rfl rfl
  rely t' ht' := rely_setProc hp (hguard t' ht')

/-- Giving the guard back keeps the rules for the others. -/
theorem keeps_dropGuard {t : CallId} {w : World Text} (hw : ReplayInv formats w) :
    (replayContract formats hz).Keeps (· ≠ t) w (w.dropGuard t) := by
  unfold World.dropGuard
  split
  · rename_i p hp
    split
    · rename_i hheld
      refine keeps_setProc hw hp le_rfl ?_
      intro t' ht' hheld'
      rw [hheld] at hheld'
      exact (ht' (Option.some.inj hheld').symm).elim
    · exact (Quiet.refl w).keeps hw _
  · exact (Quiet.refl w).keeps hw _

/-- The file lock changes hands, but is not taken from anybody else. -/
theorem keeps_fileLock {t : CallId} {w : World Text} {holder : Option CallId}
    (hw : ReplayInv formats w) (hfree : ∀ t', w.fileLock = some t' → t' = t) :
    (replayContract formats hz).Keeps (· ≠ t) w { w with fileLock := holder } where
  inv := ⟨hw.slots, hw.base, hw.covered, hw.increasing⟩
  later := .of_same rfl rfl
  rely t' ht' :=
    { Rely.refl hz t' w with lock := fun hl => (ht' (hfree t' hl)).elim }

/-- Giving the file lock back keeps the rules for the others. -/
theorem keeps_dropLock {t : CallId} {w : World Text} (hw : ReplayInv formats w) :
    (replayContract formats hz).Keeps (· ≠ t) w (w.dropLock t) := by
  unfold World.dropLock
  split
  · rename_i hheld
    refine keeps_fileLock hw ?_
    intro t' hl
    exact (Option.some.inj (hheld.symm.trans hl)).symm
  · exact (Quiet.refl w).keeps hw _

/-- Looking at the file keeps the rules for the others. -/
theorem keeps_looked {t : CallId} {w : World Text} (hw : ReplayInv formats w) :
    (replayContract formats hz).Keeps (· ≠ t) w (w.looked t) where
  inv :=
    { slots := hw.slots
      base := by
        intro t'
        by_cases ht : t' = t
        · subst ht
          exact (Function.update_self t' w.version w.base).le
        · exact (Function.update_of_ne ht _ _).le.trans (hw.base t')
      covered := hw.covered
      increasing := hw.increasing }
  later := .of_same rfl rfl
  rely t' ht' := { Rely.refl hz t' w with base := Function.update_of_ne ht' _ _ }

/-- Noting the accepted identity keeps the rules for the others. -/
theorem keeps_pending {t : CallId} {w : World Text} {identity : Option (Fingerprint × UInt64)}
    (hw : ReplayInv formats w) :
    (replayContract formats hz).Keeps (· ≠ t) w
      { w with pending := Function.update w.pending t identity } where
  inv := ⟨hw.slots, hw.base, hw.covered, hw.increasing⟩
  later := .of_same rfl rfl
  rely t' ht' := { Rely.refl hz t' w with pending := Function.update_of_ne ht' _ _ }

/-- Handing out a free name takes none from anybody. -/
theorem rely_slots {t t' : CallId} {w : World Text} {name : TempName}
    (hfree : w.slots name = none) :
    Rely hz t' w { w with slots := Function.update w.slots name (some t) } :=
  { Rely.refl hz t' w with
    slots := by
      intro name' hs
      have he : name' ≠ name := by
        rintro rfl
        rw [hfree] at hs
        cases hs
      exact ⟨(Function.update_of_ne he _ _).trans hs, rfl⟩ }

/-- A name that is not in use is drawn for a call. -/
theorem keeps_slots {t : CallId} {w : World Text} {name : TempName} {p : Process}
    (hw : ReplayInv formats w) (hname : name.pid = t.pid) (hp : w.procs name.pid = some p)
    (hcounter : name.counter < p.counter) (hfree : w.slots name = none) :
    (replayContract formats hz).Keeps (· ≠ t) w
      { w with slots := Function.update w.slots name (some t) } where
  inv :=
    { slots := by
        intro name' t' hs
        by_cases he : name' = name
        · subst he
          obtain rfl : t = t' := by simpa using hs
          exact ⟨hname, p, hp, hcounter⟩
        · exact hw.slots name' t' ((Function.update_of_ne he _ _).symm.trans hs)
      base := hw.base
      covered := hw.covered
      increasing := hw.increasing }
  later := .of_same rfl rfl
  rely t' _ := rely_slots hfree

/-- A temporary file changes under a name drawn for the call. -/
theorem keeps_setTemp {t : CallId} {w : World Text} {name : TempName} {text : Option Text}
    (hw : ReplayInv formats w) (hslot : w.slots name = some t) :
    (replayContract formats hz).Keeps (· ≠ t) w (w.setTemp name text) where
  inv := ⟨hw.slots, hw.base, hw.covered, hw.increasing⟩
  later := .of_same rfl rfl
  rely t' ht' :=
    { Rely.refl hz t' w with
      slots := by
        intro name' hs
        have hname : name' ≠ name := by
          rintro rfl
          exact ht' (Option.some.inj (hs.symm.trans hslot))
        exact ⟨hs, Function.update_of_ne hname _ _⟩ }

end Veriai.Service
