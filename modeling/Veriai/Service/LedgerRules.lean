import Veriai.Service.Cancellation

/-!
# The rules of one ledger

At any time the state file contains the initial ledger with the commits recorded
in their order, and the memory of the process that holds the locks is either
that ledger or the one it is about to save. Every operation keeps these rules,
so they are a protocol of the service while calls are not dropped.
-/

namespace Veriai.Service

open Handler Protocol

variable {Text : Type} {formats : Formats Text} {env : Primitives} {hz : Hazards} {config : Config}
variable {t : CallId} {m₀ : ReplayMap}

/-- The recordings of the commits. -/
def entries (commits : List Commit) : List (Fingerprint × UInt64) :=
  commits.map fun c => (c.fingerprint, c.sequence)

/-- The recordings of commits in a row. -/
@[simp] theorem entries_append (commits commits' : List Commit) :
    entries (commits ++ commits') = entries commits ++ entries commits' := List.map_append

/-- The call holds the guard of its process, whose memory is this ledger. -/
def InMemory (t : CallId) (m : ReplayMap) (w : World Text) : Prop :=
  Memory t (some (.new m)) w

/-- The call may give its guard back: a process without a state file remembers nothing. -/
def Settled (t : CallId) (w : World Text) : Prop :=
  ∃ m, InMemory t m w ∧ (w.file = none → m = ∅)

variable (formats) in
/-- The temporary file contains the ledger of the state file with the pending number. -/
def Staged (t : CallId) (name : TempName) (w : World Text) : Prop :=
  w.slots name = some t ∧ w.fileLock = some t ∧ ∃ text m f n, w.temps name = some text ∧
    w.pending t = some (f, n) ∧ Contents formats w.file m ∧ Ledger.Fresh m f n ∧
    Contents formats (some text) (m.insert f n)

variable (formats) in
/-- When a call may perform an operation. -/
def mayRecord (t : CallId) : Op Text → World Text → Prop
  | .dropReplayGuard, w => Settled t w
  | .setState _, w => ∃ m, InMemory t m w
  | .checkSequence .., w => ∃ m, InMemory t m w
  | .createTemporary name, w => w.slots name = some t
  | .writeTemporary name _, w => w.slots name = some t
  | .removeTemporary name, w => w.slots name = some t
  | .renameTemporary name, w => Staged formats t name w
  | _, _ => True

variable (formats m₀) in
/-- What holds between all operations: the commits lead from the initial ledger to the one in the
state file. -/
structure LedgerInv (w : World Text) : Prop where
  slots : w.NamesDrawn
  memories : ∀ pid p, w.procs pid = some p →
    ∃ m, p.verifier = some (.new m) ∧ (p.guard = none → w.file = none → m = ∅)
  log : ∃ m, Contents formats w.file m ∧ Ledger.Log m₀ m (entries w.commits)

/-- What a call can count on while the others act. -/
structure LedgerRely (t : CallId) (w w' : World Text) : Prop where
  memory : ∀ m, InMemory t m w → InMemory t m w'
  lock : w.fileLock = some t → w'.fileLock = some t ∧ w'.file = w.file ∧ w'.commits = w.commits
  slots : ∀ name, w.slots name = some t → w'.slots name = some t ∧ w'.temps name = w.temps name
  pending : w'.pending t = w.pending t
  file : w.file ≠ none → w'.file ≠ none
  commits : w.commits <+: w'.commits

theorem LedgerRely.refl (t : CallId) (w : World Text) : LedgerRely t w w :=
  ⟨fun _ h => h, fun h => ⟨h, rfl, rfl⟩, fun _ h => ⟨h, rfl⟩, rfl, fun h => h, List.prefix_rfl⟩

/-- What can be counted on over two steps. -/
theorem LedgerRely.trans {w w₁ w' : World Text} (h : LedgerRely t w w₁)
    (h' : LedgerRely t w₁ w') : LedgerRely t w w' where
  memory m hm := h'.memory m (h.memory m hm)
  lock := by
    intro hl
    obtain ⟨hl₁, hf₁, hc₁⟩ := h.lock hl
    obtain ⟨hl', hf', hc'⟩ := h'.lock hl₁
    exact ⟨hl', hf'.trans hf₁, hc'.trans hc₁⟩
  slots := by
    intro name hs
    obtain ⟨hs₁, ht₁⟩ := h.slots name hs
    obtain ⟨hs', ht'⟩ := h'.slots name hs₁
    exact ⟨hs', ht'.trans ht₁⟩
  pending := h'.pending.trans h.pending
  file hf := h'.file (h.file hf)
  commits := h.commits.trans h'.commits

variable (formats m₀) in
/-- The rules of the ledger. -/
def ledgerContract : Contract CallId (World Text) (Op Text) where
  inv := LedgerInv formats m₀
  rely := LedgerRely
  permit := mayRecord formats
  later w w' := w.commits <+: w'.commits

/-- A number that is not fresh is refused and leaves the memory as it is. -/
theorem checkSequence_blocked (v : Verifier) {claims : VeriClaims} {doc : AttestationDoc}
    (report : Report) {m : ReplayMap} (hblocked : ¬ Verifier.SequenceFresh env claims doc m) :
    ∃ result, result.valid = false ∧
      v.checkSequence env claims doc report (some (.new m)) = (.ok result, some (.new m)) := by
  have hne : (m.lookup (computeIdentityFingerprint env doc)).filter (claims.sequenceNum ≤ ·) ≠
      none := fun hnone => hblocked (Verifier.filter_eq_none_iff.mp hnone)
  obtain ⟨last, hlast⟩ := Option.ne_none_iff_exists'.mp hne
  have hcheck : v.checkSequence env claims doc report (some (.new m)) =
      (.ok (report.failResult v.provider "Sequence Check" (some ("Sequence " ++
        toString claims.sequenceNum ++ " is out of order (last was " ++ toString last ++ ")"))
        .sequenceNumberOutOfOrder), some (.new m)) := by
    simp only [Verifier.checkSequence, ReplayMutex.new, hlast, Bool.false_eq_true, if_false]
  exact ⟨_, rfl, hcheck⟩

/-- A sound mutex stays sound. -/
theorem checkSequence_new (env : Primitives) (v : Verifier) (claims : VeriClaims)
    (doc : AttestationDoc) (report : Report) (m : ReplayMap) :
    ∃ m', (v.checkSequence env claims doc report (some (.new m))).2 = some (.new m') := by
  by_cases hfresh : Verifier.SequenceFresh env claims doc m
  · rw [Verifier.checkSequence_fresh rfl hfresh]
    exact ⟨_, rfl⟩
  · obtain ⟨result, _, hcheck⟩ := checkSequence_blocked v report hfresh
    exact ⟨m, by rw [hcheck]⟩

section Keeps

variable {w w₁ w' : World Text}

/-- Two steps that keep the rules keep them together. -/
theorem ledger_keeps_trans {spared : CallId → Prop}
    (h : (ledgerContract formats m₀).Keeps spared w w₁)
    (h' : (ledgerContract formats m₀).Keeps spared w₁ w') :
    (ledgerContract formats m₀).Keeps spared w w' :=
  ⟨h'.inv, List.IsPrefix.trans h.later h'.later, fun t ht => (h.rely t ht).trans (h'.rely t ht)⟩

/-- The change leaves the memories, the files and the commits. -/
structure SameLedger (w w' : World Text) : Prop where
  procs : w'.procs = w.procs
  fileLock : w'.fileLock = w.fileLock
  file : w'.file = w.file
  temps : w'.temps = w.temps
  pending : w'.pending = w.pending
  slots : w'.slots = w.slots
  commits : w'.commits = w.commits

/-- A step that leaves the ledger is nothing to count with. -/
theorem SameLedger.rely (h : SameLedger w w') (t : CallId) : LedgerRely t w w' where
  memory m hm := by
    unfold InMemory Memory at hm ⊢
    rwa [h.procs]
  lock hl := ⟨h.fileLock.trans hl, h.file, h.commits⟩
  slots name hs := ⟨by rw [h.slots, hs], by rw [h.temps]⟩
  pending := by rw [h.pending]
  file hf := by rwa [h.file]
  commits := by rw [h.commits]

/-- A step that leaves the ledger keeps its rules. -/
theorem SameLedger.keeps (h : SameLedger w w') (hw : LedgerInv formats m₀ w)
    (spared : CallId → Prop) : (ledgerContract formats m₀).Keeps spared w w' where
  inv :=
    { slots := by
        unfold World.NamesDrawn
        rw [h.slots, h.procs]
        exact hw.slots
      memories := by
        rw [h.procs, h.file]
        exact hw.memories
      log := by
        rw [h.file, h.commits]
        exact hw.log }
  later := by
    show w.commits <+: w'.commits
    rw [h.commits]
  rely t _ := h.rely t

theorem SameLedger.refl (w : World Text) : SameLedger w w := ⟨rfl, rfl, rfl, rfl, rfl, rfl, rfl⟩

/-- A quiet step leaves the ledger. -/
theorem Quiet.sameLedger (h : Quiet w w') : SameLedger w w' :=
  ⟨h.procs, h.fileLock, h.file, h.temps, h.pending, h.slots, h.commits⟩

/-- So does a look at the state file. -/
theorem sameLedger_looked (w : World Text) (t : CallId) : SameLedger w (w.looked t) :=
  ⟨rfl, rfl, rfl, rfl, rfl, rfl, rfl⟩

/-- A call with the guard can count on the memory when others change their process. -/
theorem ledgerRely_setProc {pid : Nat} {p p' : Process} (hp : w.procs pid = some p)
    (hguard : p.guard = some t → p'.guard = some t ∧ p'.verifier = p.verifier) :
    LedgerRely t w (w.setProc pid (some p')) :=
  { LedgerRely.refl t w with
    memory := by
      rintro m ⟨q, hq, hheld, hm⟩
      by_cases hpid : t.pid = pid
      · subst hpid
        obtain rfl := Option.some.inj (hp.symm.trans hq)
        obtain ⟨hheld', hsame⟩ := hguard hheld
        exact ⟨p', Function.update_self .., hheld', hsame.trans hm⟩
      · exact ⟨q, (Function.update_of_ne hpid _ _).trans hq, hheld, hm⟩ }

/-- A process changes, but no memory that others have in hand. -/
theorem ledger_keeps_setProc {pid : Nat} {p p' : Process} {spared : CallId → Prop}
    (hw : LedgerInv formats m₀ w) (hp : w.procs pid = some p) (hcounter : p.counter ≤ p'.counter)
    (hmemory : ∃ m, p'.verifier = some (.new m) ∧ (p'.guard = none → w.file = none → m = ∅))
    (hguard : ∀ t, spared t → p.guard = some t → p'.guard = some t ∧ p'.verifier = p.verifier) :
    (ledgerContract formats m₀).Keeps spared w (w.setProc pid (some p')) where
  inv :=
    { slots := hw.slots.setProc hp hcounter
      memories := by
        intro pid' q hq
        by_cases hpid : pid' = pid
        · subst hpid
          have hset : (w.setProc pid' (some p')).procs pid' = some p' := Function.update_self ..
          obtain rfl := Option.some.inj (hset.symm.trans hq)
          exact hmemory
        · exact hw.memories pid' q ((Function.update_of_ne hpid _ _).symm.trans hq)
      log := hw.log }
  later := List.prefix_rfl
  rely t ht := ledgerRely_setProc hp (hguard t ht)

/-- A call whose memory is settled may give the guard back. -/
theorem ledger_keeps_dropGuard (hw : LedgerInv formats m₀ w) (hsettled : Settled t w) :
    (ledgerContract formats m₀).Keeps (· ≠ t) w (w.dropGuard t) := by
  obtain ⟨m, ⟨p, hp, hheld, hm⟩, hempty⟩ := hsettled
  simp only [World.dropGuard, hp, hheld, if_true]
  refine ledger_keeps_setProc hw hp le_rfl ⟨m, hm, fun _ => hempty⟩ ?_
  intro t' ht' hheld'
  exact (ht' (Option.some.inj (hheld'.symm.trans hheld))).elim

/-- The file lock changes hands between nobody and one call. -/
theorem ledger_keeps_fileLock {holder : Option CallId} (hw : LedgerInv formats m₀ w)
    (hinitial : ∀ t', w.fileLock = some t' → t' = t) :
    (ledgerContract formats m₀).Keeps (· ≠ t) w { w with fileLock := holder } where
  inv := ⟨hw.slots, hw.memories, hw.log⟩
  later := List.prefix_rfl
  rely t' ht' := { LedgerRely.refl t' w with lock := fun h => (ht' (hinitial t' h)).elim }

/-- Giving the file lock back keeps the rules for the others. -/
theorem ledger_keeps_dropLock (hw : LedgerInv formats m₀ w) :
    (ledgerContract formats m₀).Keeps (· ≠ t) w (w.dropLock t) := by
  unfold World.dropLock
  split
  · rename_i hheld
    exact ledger_keeps_fileLock hw fun t' h => Option.some.inj (h.symm.trans hheld)
  · exact (SameLedger.refl w).keeps hw _

/-- A temporary file changes under a name drawn for the call. -/
theorem ledger_keeps_setTemp {name : TempName} {text : Option Text} (hw : LedgerInv formats m₀ w)
    (hslot : w.slots name = some t) :
    (ledgerContract formats m₀).Keeps (· ≠ t) w (w.setTemp name text) where
  inv := ⟨hw.slots, hw.memories, hw.log⟩
  later := List.prefix_rfl
  rely t' ht' :=
    { LedgerRely.refl t' w with
      slots := by
        intro name' hs
        have hname : name' ≠ name := by
          rintro rfl
          exact ht' (Option.some.inj (hs.symm.trans hslot))
        exact ⟨hs, Function.update_of_ne hname _ _⟩ }

/-- The next number of a process gives a name nobody has drawn. -/
theorem ledger_keeps_nextTempFile {p : Process} {spared : CallId → Prop}
    (hw : LedgerInv formats m₀ w) (hp : w.procs t.pid = some p) :
    (ledgerContract formats m₀).Keeps spared w
      { w.setProc t.pid (some { p with counter := p.counter + 1 }) with
        slots := Function.update w.slots ⟨t.pid, p.counter⟩ (some t) } := by
  have hset : (ledgerContract formats m₀).Keeps spared w
      (w.setProc t.pid (some { p with counter := p.counter + 1 })) :=
    ledger_keeps_setProc hw hp (Nat.le_succ _) (hw.memories t.pid p hp) fun _ _ h => ⟨h, rfl⟩
  have hfree := hw.slots.next_free hp
  refine ledger_keeps_trans hset ⟨⟨?_, hset.inv.memories, hset.inv.log⟩, List.prefix_rfl, ?_⟩
  · intro name t' hs
    by_cases he : name = ⟨t.pid, p.counter⟩
    · subst he
      obtain rfl : t = t' := by simpa using hs
      exact ⟨rfl, _, Function.update_self .., Nat.lt_succ_self _⟩
    · exact hset.inv.slots name t' ((Function.update_of_ne he _ _).symm.trans hs)
  · intro t' _
    refine { LedgerRely.refl t' (w.setProc t.pid (some { p with counter := p.counter + 1 })) with
      slots := ?_ }
    intro name hs
    have he : name ≠ ⟨t.pid, p.counter⟩ := by
      rintro rfl
      rw [show (w.setProc t.pid _).slots = w.slots from rfl, hfree] at hs
      cases hs
    exact ⟨(Function.update_of_ne he _ _).trans hs, rfl⟩

/-- Taking a free guard changes no memory. -/
theorem ledger_keeps_lockGuard {spared : CallId → Prop} {p : Process}
    (hw : LedgerInv formats m₀ w) (hp : w.procs t.pid = some p) (hfree : p.guard = none) :
    (ledgerContract formats m₀).Keeps spared w
      (w.setProc t.pid (some { p with guard := some t })) := by
  obtain ⟨m, hm, _⟩ := hw.memories t.pid p hp
  refine ledger_keeps_setProc hw hp le_rfl ⟨m, hm, ?_⟩ ?_
  · intro hnone
    cases hnone
  · intro t' _ hheld
    cases hfree.symm.trans hheld

/-- The call that holds the guard may change the memory. -/
theorem ledger_keeps_memory {p : Process} {m' : ReplayMap} (hw : LedgerInv formats m₀ w)
    (hp : w.procs t.pid = some p) (hmemory : ∃ m, InMemory t m w) :
    (ledgerContract formats m₀).Keeps (· ≠ t) w
      (w.setProc t.pid (some { p with verifier := some (.new m') })) := by
  obtain ⟨m, q, hq, hheld, _⟩ := hmemory
  obtain rfl := Option.some.inj (hp.symm.trans hq)
  refine ledger_keeps_setProc hw hp le_rfl ⟨m', rfl, ?_⟩ ?_
  · intro hfree
    cases hheld.symm.trans hfree
  · intro t' ht' hheld'
    exact (ht' (Option.some.inj (hheld'.symm.trans hheld))).elim

/-- It notes what it accepted for itself alone. -/
theorem ledger_keeps_accepted {p : Process} {m' : ReplayMap}
    {identity : Option (Fingerprint × UInt64)} (hw : LedgerInv formats m₀ w)
    (hp : w.procs t.pid = some p) (hmemory : ∃ m, InMemory t m w) :
    (ledgerContract formats m₀).Keeps (· ≠ t) w
      { w.setProc t.pid (some { p with verifier := some (.new m') }) with
        pending := Function.update w.pending t identity } := by
  have hset : (ledgerContract formats m₀).Keeps (· ≠ t) w
      (w.setProc t.pid (some { p with verifier := some (.new m') })) :=
    ledger_keeps_memory hw hp hmemory
  refine ledger_keeps_trans hset
    ⟨⟨hset.inv.slots, hset.inv.memories, hset.inv.log⟩, List.prefix_rfl, ?_⟩
  exact fun t' ht' => { LedgerRely.refl t' _ with pending := Function.update_of_ne ht' _ _ }

/-- The rename records the pending number in the ledger of the state file. -/
theorem ledger_keeps_replace {name : TempName} {text : Text} (hw : LedgerInv formats m₀ w)
    (hstaged : Staged formats t name w) (htemp : w.temps name = some text) :
    (ledgerContract formats m₀).Keeps (· ≠ t) w (w.replace t name text) := by
  obtain ⟨hslot, hlock, text', m, f, n, htemp', hpending, hfile, hfresh, htext⟩ := hstaged
  obtain rfl := Option.some.inj (htemp.symm.trans htemp')
  have hcommits : (w.replace t name text).commits = w.commits ++ [⟨t, f, n⟩] := by
    simp [World.replace, hpending]
  have hlog : Ledger.Log m₀ (m.insert f n) (entries (w.replace t name text).commits) := by
    obtain ⟨m', hfile', hlog⟩ := hw.log
    obtain rfl := hfile.unique hfile'
    rw [hcommits, entries_append]
    exact hlog.snoc hfresh
  have hinitial : w.commits <+: (w.replace t name text).commits := by
    rw [hcommits]
    exact List.prefix_append ..
  refine ⟨⟨hw.slots, ?_, ⟨_, htext, hlog⟩⟩, hinitial, ?_⟩
  · intro pid p hp
    obtain ⟨m', hm', _⟩ := hw.memories pid p hp
    refine ⟨m', hm', ?_⟩
    intro _ hnone
    cases hnone
  · intro t' ht'
    refine { LedgerRely.refl t' w with lock := ?_, slots := ?_, file := ?_, commits := hinitial }
    · intro hl
      exact (ht' (Option.some.inj (hl.symm.trans hlock))).elim
    · intro name' hs
      have hname : name' ≠ name := by
        rintro rfl
        exact ht' (Option.some.inj (hs.symm.trans hslot))
      exact ⟨hs, Function.update_of_ne hname _ _⟩
    · intro _ hnone
      cases hnone

/-- Every permitted operation keeps the rules of the ledger. -/
theorem ledger_exec_keeps {o : Op Text} {r : Res Text o} (hw : LedgerInv formats m₀ w)
    (hp : mayRecord formats t o w) (h : exec env hz t o r w w') :
    (ledgerContract formats m₀).Keeps (· ≠ t) w w' := by
  have hsame : (ledgerContract formats m₀).Keeps (· ≠ t) w w := (SameLedger.refl w).keeps hw _
  have hquiet : OnlyLooks o → (ledgerContract formats m₀).Keeps (· ≠ t) w w' :=
    fun ho => (exec_quiet ho h).sameLedger.keeps hw _
  cases o with
  | lockReplayGuard =>
    obtain ⟨p, hproc, hfree, rfl⟩ := h
    exact ledger_keeps_lockGuard hw hproc hfree
  | dropReplayGuard =>
    obtain rfl := h
    exact ledger_keeps_dropGuard hw hp
  | acquireReplayLock =>
    rcases h with ⟨_, hfree, rfl⟩ | ⟨_, _, rfl⟩
    · refine ledger_keeps_fileLock hw ?_
      intro t' hl
      cases hfree.symm.trans hl
    · exact hsame
  | dropReplayLock =>
    obtain rfl := h
    exact ledger_keeps_dropLock hw
  | pathExists =>
    obtain ⟨_, rfl⟩ := h
    exact (sameLedger_looked w t).keeps hw _
  | readState =>
    rcases h with ⟨_, _, _, rfl⟩ | ⟨_, _, rfl⟩ | ⟨_, _, rfl⟩
    · exact (sameLedger_looked w t).keeps hw _
    · exact hsame
    · exact hsame
  | setState state =>
    obtain ⟨p, hproc, _, rfl⟩ := h
    obtain ⟨m, hm, _⟩ := hw.memories t.pid p hproc
    rw [hm]
    exact ledger_keeps_memory hw hproc hp
  | checkSequence v claims doc report =>
    obtain ⟨p, hproc, _, rfl⟩ := h
    obtain ⟨m, hm, _⟩ := hw.memories t.pid p hproc
    obtain ⟨m', hm'⟩ := checkSequence_new env v claims doc report m
    rw [hm, hm']
    exact ledger_keeps_accepted hw hproc hp
  | nextTempFile =>
    obtain ⟨p, hproc, _, rfl⟩ := h
    exact ledger_keeps_nextTempFile hw hproc
  | createTemporary name =>
    rcases h with ⟨_, _, _, rfl⟩ | ⟨_, _, rfl⟩ | ⟨_, _, rfl⟩
    · exact ledger_keeps_setTemp hw hp
    · exact hsame
    · exact hsame
  | writeTemporary name text =>
    rcases h with ⟨_, ⟨_, rfl⟩ | ⟨_, _, _, rfl⟩⟩ <;> exact ledger_keeps_setTemp hw hp
  | renameTemporary name =>
    rcases h with ⟨text, htemp, _, rfl⟩ | ⟨_, _, rfl⟩ | ⟨_, _, rfl⟩
    · exact ledger_keeps_replace hw hp htemp
    · exact hsame
    · exact hsame
  | removeTemporary name =>
    rcases h with ⟨_, _, rfl⟩ | ⟨_, _, rfl⟩ | ⟨_, _, rfl⟩
    · exact ledger_keeps_setTemp hw hp
    · exact hsame
    · exact hsame
  | _ => exact hquiet trivial

/-- A crash ends the calls of its process and spares the others. -/
theorem ledger_keeps_crash {pid : Nat} (hw : LedgerInv formats m₀ w) :
    (ledgerContract formats m₀).Keeps (fun t => (t.pid == pid) = false) w (w.crash pid) where
  inv :=
    { slots := hw.slots.crash pid
      memories := by
        intro pid' p hp
        have hpid : pid' ≠ pid := by
          rintro rfl
          simp [World.crash, World.setProc] at hp
        exact hw.memories pid' p ((Function.update_of_ne hpid _ _).symm.trans hp)
      log := hw.log }
  later := List.prefix_rfl
  rely t ht := by
    have hpid : t.pid ≠ pid := by simpa using ht
    refine { LedgerRely.refl t w with memory := ?_, lock := ?_, slots := ?_ }
    · rintro m ⟨p, hp, hheld, hm⟩
      exact ⟨p, (Function.update_of_ne hpid _ _).trans hp, hheld, hm⟩
    · intro hl
      exact ⟨by simp [World.crash, hl, hpid], rfl, rfl⟩
    · exact fun name hs => ⟨hw.slots.slots_crash hpid hs, rfl⟩

/-- A process starts with what the state file contains, and with nothing where there is none. -/
theorem ledger_keeps_boot {pid : Nat} {m : ReplayMap} (hw : LedgerInv formats m₀ w)
    (hfree : w.procs pid = none) (hempty : w.file = none → m = ∅) (spared : CallId → Prop) :
    (ledgerContract formats m₀).Keeps spared w (w.setProc pid (some ⟨0, some (.new m), none⟩)) where
  inv :=
    { slots := hw.slots.boot hfree _
      memories := by
        intro pid' p hp
        by_cases hpid : pid' = pid
        · subst hpid
          have hset : (w.setProc pid' (some ⟨0, some (.new m), none⟩)).procs pid' =
            some ⟨0, some (.new m), none⟩ := Function.update_self ..
          obtain rfl := Option.some.inj (hset.symm.trans hp)
          exact ⟨m, rfl, fun _ => hempty⟩
        · exact hw.memories pid' p ((Function.update_of_ne hpid _ _).symm.trans hp)
      log := hw.log }
  later := List.prefix_rfl
  rely t _ :=
    { LedgerRely.refl t w with
      memory := by
        rintro m' ⟨p, hp, hheld, hm⟩
        have hpid : t.pid ≠ pid := by
          rintro rfl
          rw [hfree] at hp
          cases hp
        exact ⟨p, (Function.update_of_ne hpid _ _).trans hp, hheld, hm⟩ }

end Keeps

variable (formats env hz config m₀) in
/-- While calls are not dropped, the rules of the ledger are a protocol of the service. -/
def ledgerProtocol (hdrops : hz.drops = false) {path : StatePath}
    (hpath : ∀ pid, (config.state pid).replayStatePath = some path) :
    Protocol (service formats env hz config) where
  toContract := ledgerContract formats m₀
  rely_refl := LedgerRely.refl
  rely_trans _ _ _ _ := LedgerRely.trans
  later_refl _ := List.prefix_rfl
  later_trans _ _ _ := List.IsPrefix.trans
  exec_keeps _ _ _ _ _ hw hp h := ledger_exec_keeps hw hp h
  start_keeps := by
    rintro t c w w' hw ⟨_, rfl⟩
    exact (SameLedger.refl _).keeps hw _
  abandon_keeps := by
    rintro t o goesOn w w' _ _ ⟨hdropped, _⟩
    cases hdrops.symm.trans hdropped
  ambient_keeps := by
    rintro ended w w' hw h
    cases h with
    | @boot w pid replay hfree hboots =>
      rw [Boots, hpath pid] at hboots
      obtain ⟨m, rfl, hfile⟩ := hboots
      refine ledger_keeps_boot hw hfree ?_ _
      intro hnone
      rcases hfile with ⟨_, rfl⟩ | ⟨text, htext, _⟩
      · rfl
      · cases hnone.symm.trans htext
    | crash _ _ => exact ledger_keeps_crash hw

end Veriai.Service
