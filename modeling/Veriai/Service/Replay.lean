import Veriai.Service.ReplayRules

/-!
# The replay state across processes

The rules of the replay state are a protocol of the service. The temporary file
that is about to be renamed holds a fresh number above a state that covers the
current file, as long as nobody replaced the file since it was loaded. The file
lock ensures that, unless calls are dropped; with dropped calls it is a condition
on the run.
-/

namespace Veriai.Service

variable {Text : Type} {formats : Formats Text} {env : Primitives} {hz : Hazards} {config : Config}

/-- The step replaces the state file only for a call that looked at this very file. -/
def Timely (w w' : World Text) : Prop :=
  ∀ c, w'.commits = w.commits ++ [c] → w.base c.call = w.version

/-- A step without a commit is timely. -/
theorem timely_of_commits {w w' : World Text} (h : w'.commits = w.commits) : Timely w w' := by
  intro c hc
  rw [h] at hc
  simp at hc

/-- So is a replacement of the file that was looked at. -/
theorem timely_replace {w : World Text} {t : CallId} {name : TempName} {text : Text}
    (h : w.base t = w.version) : Timely w (w.replace t name text) := by
  intro c hc
  have hmap := List.append_cancel_left hc
  cases hp : w.pending t with
  | none => simp [hp] at hmap
  | some e =>
    obtain rfl : _ = c := by simpa [hp] using hmap
    exact h

/-- The heart of the matter: a ready temporary file, computed from the file it replaces,
moves the file forward and records a number above all recorded ones. -/
theorem keeps_replace {t : CallId} {w : World Text} {name : TempName} {text : Text}
    (hw : ReplayInv formats w) (hready : Ready formats hz t name w)
    (htemp : w.temps name = some text)
    (htimely : hz.drops = true → Timely w (w.replace t name text)) :
    (replayContract formats hz).Keeps (· ≠ t) w (w.replace t name text) := by
  obtain ⟨hslot, hundisturbed, text', state, f, n, htemp', hpending, hfresh, hcovers, htext⟩ :=
    hready
  obtain rfl := Option.some.inj (htemp.symm.trans htemp')
  have hcommits : (w.replace t name text).commits = w.commits ++ [⟨t, f, n⟩] := by
    simp [World.replace, hpending]
  have hbase : w.base t = w.version := by
    cases hdrops : hz.drops with
    | false => exact (hundisturbed hdrops).2
    | true => exact htimely hdrops _ hcommits
  have hcovered := hcovers hbase
  have hsaved : Saved formats (w.replace t name text).file (state.insert f n) := htext
  have hinv : ReplayInv formats (w.replace t name text) :=
    { slots := hw.slots
      base := fun t' => (hw.base t').trans (Nat.le_succ _)
      covered := by
        intro c hc
        rw [hcommits] at hc
        rcases List.mem_append.mp hc with hc | hc
        · obtain ⟨saved, k, hs, hk, hle⟩ := hw.covered c hc
          obtain ⟨k', hk', hle'⟩ :=
            hcovered hs.contents.oneNumber _ k (hs.contents.records.mpr hk)
          obtain ⟨k'', hk'', hle''⟩ := hfresh.below_insert _ _ hk'
          exact ⟨_, k'', hsaved, hk'', hle.trans (hle'.trans hle'')⟩
        · obtain rfl := List.mem_singleton.mp hc
          exact ⟨_, n, hsaved, Finmap.lookup_insert _, le_rfl⟩
      increasing := by
        rw [hcommits]
        refine List.pairwise_append.mpr ⟨hw.increasing, List.pairwise_singleton _ _, ?_⟩
        intro a ha b hb heq
        obtain rfl := List.mem_singleton.mp hb
        obtain ⟨saved, k, hs, hk, hle⟩ := hw.covered a ha
        rw [heq] at hk
        obtain ⟨k', hk', hle'⟩ :=
          hcovered hs.contents.oneNumber _ k (hs.contents.records.mpr hk)
        exact (hle.trans hle').trans_lt (hfresh k' hk') }
  refine ⟨hinv, ⟨?_, ?_⟩, ?_⟩
  · intro hone
    refine ⟨hsaved.contents.oneNumber, .of_contents hsaved.contents ?_⟩
    intro g k hk
    obtain ⟨k', hk', hle⟩ := hcovered hone g k hk
    obtain ⟨k'', hk'', hle'⟩ := hfresh.below_insert _ _ hk'
    exact ⟨k'', hk'', hle.trans hle'⟩
  · rw [hcommits]
    exact List.subset_append_left _ _
  · intro t' ht'
    refine { Rely.refl hz t' w with
      lock := ?_, slots := ?_, version := Nat.le_succ _, file := ?_, commits := ?_ }
    · intro hl
      refine ⟨hl, ?_⟩
      intro hd
      exact (ht' (Option.some.inj (hl.symm.trans (hundisturbed hd).1))).elim
    · intro name' hs
      have hname : name' ≠ name := by
        rintro rfl
        exact ht' (Option.some.inj (hs.symm.trans hslot))
      exact ⟨hs, Function.update_of_ne hname _ _⟩
    · intro hv
      have hv' : w.version + 1 = w.version := hv
      omega
    · rw [hcommits]
      exact List.subset_append_left _ _

/-- The operations of the challenges. -/
def OnChallenges : Op Text → Prop
  | .unixSeconds | .createChallengeDir | .setChallengeDirPermissions | .fillBytes
  | .createRecord .. | .setRecordPermissions _ | .writeRecord .. | .syncRecord _
  | .syncChallengeDir | .readRecord _ | .removeAvailable _ | .reserveRecord _
  | .restoreRecord _ | .consumeRecord _ => True
  | _ => False

/-- The operations that leave everything of the replay state as it is. -/
def OnlyLooks : Op Text → Prop
  | .intoIter _ | .getState | .observe | .setTemporaryPermissions _ | .syncTemporary _
  | .syncParent => True
  | o => OnChallenges o

theorem Plain.quiet {r : Except String Unit} {w w' : World Text} (h : Plain hz r w w') :
    Quiet w w' := by
  rcases h with ⟨_, rfl⟩ | ⟨_, _, rfl⟩ <;> exact .refl _

/-- An operation that only looks is quiet. -/
theorem exec_quiet {t : CallId} {o : Op Text} {r : Res Text o} {w w' : World Text}
    (ho : OnlyLooks o) (h : exec env hz t o r w w') : Quiet w w' := by
  cases o with
  | intoIter members =>
    obtain ⟨_, rfl⟩ := h
    exact .refl _
  | getState =>
    obtain ⟨_, _, _, rfl⟩ := h
    exact .refl _
  | observe =>
    obtain rfl := h
    exact .refl _
  | setTemporaryPermissions name => exact Plain.quiet h
  | syncTemporary name => exact Plain.quiet h
  | syncParent => exact Plain.quiet h
  | unixSeconds =>
    rcases h with ⟨_, _, rfl⟩ | ⟨_, rfl⟩ <;> exact ⟨rfl, rfl, rfl, rfl, rfl, rfl, rfl, rfl, rfl⟩
  | createChallengeDir => exact Plain.quiet h
  | setChallengeDirPermissions => exact Plain.quiet h
  | fillBytes =>
    obtain rfl := h
    exact .refl _
  | createRecord nonce expiresAt =>
    rcases h with ⟨_, _, _, rfl⟩ | ⟨_, _, rfl⟩ | ⟨_, _, rfl⟩ <;>
      exact ⟨rfl, rfl, rfl, rfl, rfl, rfl, rfl, rfl, rfl⟩
  | setRecordPermissions nonce => exact Plain.quiet h
  | writeRecord nonce c =>
    rcases h with ⟨_, rfl⟩ | ⟨_, _, rfl⟩ <;> exact ⟨rfl, rfl, rfl, rfl, rfl, rfl, rfl, rfl, rfl⟩
  | syncRecord nonce => exact Plain.quiet h
  | syncChallengeDir => exact Plain.quiet h
  | readRecord nonce =>
    rcases h with ⟨_, _, rfl⟩ | ⟨_, _, rfl⟩ | ⟨_, _, rfl⟩ <;> exact .refl _
  | removeAvailable nonce =>
    rcases h with ⟨_, _, rfl⟩ | ⟨_, _, rfl⟩ | ⟨_, _, rfl⟩ <;>
      exact ⟨rfl, rfl, rfl, rfl, rfl, rfl, rfl, rfl, rfl⟩
  | reserveRecord name =>
    rcases h with ⟨_, _, rfl⟩ | ⟨_, _, rfl⟩ | ⟨_, _, rfl⟩ <;>
      exact ⟨rfl, rfl, rfl, rfl, rfl, rfl, rfl, rfl, rfl⟩
  | restoreRecord name =>
    rcases h with ⟨_, _, rfl⟩ | ⟨_, _, rfl⟩ | ⟨_, _, rfl⟩ <;>
      exact ⟨rfl, rfl, rfl, rfl, rfl, rfl, rfl, rfl, rfl⟩
  | consumeRecord name =>
    rcases h with ⟨_, _, rfl⟩ | ⟨_, _, rfl⟩ | ⟨_, _, rfl⟩ <;>
      exact ⟨rfl, rfl, rfl, rfl, rfl, rfl, rfl, rfl, rfl⟩
  | _ => exact ho.elim

/-- Drawing a number for a temporary file. -/
theorem keeps_nextTempFile {t : CallId} {w : World Text} {p : Process} (hw : ReplayInv formats w)
    (hp : w.procs t.pid = some p) :
    (replayContract formats hz).Keeps (· ≠ t) w
      { w.setProc t.pid (some { p with counter := p.counter + 1 }) with
        slots := Function.update w.slots ⟨t.pid, p.counter⟩ (some t) } := by
  have hproc : (replayContract formats hz).Keeps (· ≠ t) w
      (w.setProc t.pid (some { p with counter := p.counter + 1 })) :=
    keeps_setProc hw hp (Nat.le_succ _) fun _ _ hheld => ⟨hheld, rfl⟩
  exact keeps_trans hproc (keeps_slots hproc.inv rfl (Function.update_self ..) (Nat.lt_succ_self _)
    (World.NamesDrawn.next_free hw.slots hp))

/-- The call that holds the guard may change the memory. -/
theorem keeps_memory {t : CallId} {w : World Text} {p : Process} {replay : Option ReplayMutex}
    (hw : ReplayInv formats w) (hp : w.procs t.pid = some p)
    (hmemory : ∃ replay, Memory t replay w) :
    (replayContract formats hz).Keeps (· ≠ t) w
      (w.setProc t.pid (some { p with verifier := replay })) := by
  obtain ⟨_, q, hq, hheld, _⟩ := hmemory
  obtain rfl := Option.some.inj (hp.symm.trans hq)
  refine keeps_setProc hw hp le_rfl ?_
  intro t' ht' hheld'
  exact (ht' (Option.some.inj (hheld'.symm.trans hheld))).elim

/-- Every permitted operation keeps the protocol. -/
theorem exec_keeps {t : CallId} {o : Op Text} {r : Res Text o} {w w' : World Text}
    (hw : ReplayInv formats w) (hp : mayPerform formats hz t o w) (h : exec env hz t o r w w')
    (htimely : hz.drops = true → Timely w w') :
    (replayContract formats hz).Keeps (· ≠ t) w w' := by
  have hquiet : OnlyLooks o → (replayContract formats hz).Keeps (· ≠ t) w w' :=
    fun ho => (exec_quiet ho h).keeps hw _
  cases o with
  | lockReplayGuard =>
    obtain ⟨p, hproc, hfree, rfl⟩ := h
    refine keeps_setProc hw hproc le_rfl ?_
    intro t' _ hheld
    rw [hfree] at hheld
    cases hheld
  | dropReplayGuard =>
    obtain rfl := h
    exact keeps_dropGuard hw
  | acquireReplayLock =>
    rcases h with ⟨_, hfree, rfl⟩ | ⟨_, _, rfl⟩
    · refine keeps_fileLock hw ?_
      intro t' hl
      rw [hfree] at hl
      cases hl
    · exact (Quiet.refl _).keeps hw _
  | dropReplayLock =>
    obtain rfl := h
    exact keeps_dropLock hw
  | pathExists =>
    obtain ⟨_, rfl⟩ := h
    exact keeps_looked hw
  | readState =>
    rcases h with ⟨_, _, _, rfl⟩ | ⟨_, _, rfl⟩ | ⟨_, _, rfl⟩
    · exact keeps_looked hw
    · exact (Quiet.refl _).keeps hw _
    · exact (Quiet.refl _).keeps hw _
  | setState state =>
    obtain ⟨p, hproc, _, rfl⟩ := h
    exact keeps_memory hw hproc hp
  | checkSequence v claims doc report =>
    obtain ⟨p, hproc, _, rfl⟩ := h
    have hset : (replayContract formats hz).Keeps (· ≠ t) w (w.setProc t.pid (some { p with
        verifier := (v.checkSequence env claims doc report p.verifier).2 })) :=
      keeps_memory hw hproc hp
    exact keeps_trans hset (keeps_pending hset.inv)
  | nextTempFile =>
    obtain ⟨p, hproc, _, rfl⟩ := h
    exact keeps_nextTempFile hw hproc
  | createTemporary name =>
    rcases h with ⟨_, _, _, rfl⟩ | ⟨_, _, rfl⟩ | ⟨_, _, rfl⟩
    · exact keeps_setTemp hw hp
    · exact (Quiet.refl _).keeps hw _
    · exact (Quiet.refl _).keeps hw _
  | writeTemporary name text =>
    rcases h with ⟨_, ⟨_, rfl⟩ | ⟨_, _, _, rfl⟩⟩ <;> exact keeps_setTemp hw hp
  | renameTemporary name =>
    rcases h with ⟨text, htemp, _, rfl⟩ | ⟨_, _, rfl⟩ | ⟨_, _, rfl⟩
    · exact keeps_replace hw hp htemp htimely
    · exact (Quiet.refl _).keeps hw _
    · exact (Quiet.refl _).keeps hw _
  | removeTemporary name =>
    rcases h with ⟨_, _, rfl⟩ | ⟨_, _, rfl⟩ | ⟨_, _, rfl⟩
    · exact keeps_setTemp hw hp
    · exact (Quiet.refl _).keeps hw _
    · exact (Quiet.refl _).keeps hw _
  | _ => exact hquiet trivial

/-- Dropping a call releases what it holds. -/
theorem keeps_abandon {t : CallId} {w : World Text} (hw : ReplayInv formats w) :
    (replayContract formats hz).Keeps (· ≠ t) w ((w.dropLock t).dropGuard t) := by
  have hlock : (replayContract formats hz).Keeps (· ≠ t) w (w.dropLock t) := keeps_dropLock hw
  exact keeps_trans hlock (keeps_dropGuard hlock.inv)

/-- A crash concerns no call of another process. -/
theorem keeps_crash {w : World Text} {pid : Nat} (hw : ReplayInv formats w) :
    (replayContract formats hz).Keeps (fun t => (t.pid == pid) = false) w (w.crash pid) where
  inv :=
    { slots := World.NamesDrawn.crash hw.slots pid
      base := hw.base
      covered := hw.covered
      increasing := hw.increasing }
  later := .of_same rfl rfl
  rely t ht := by
    have hpid : t.pid ≠ pid := by simpa using ht
    refine { Rely.refl hz t w with memory := ?_, lock := ?_, slots := ?_ }
    · rintro replay ⟨p, hp, hheld⟩
      exact ⟨p, (Function.update_of_ne hpid _ _).trans hp, hheld⟩
    · intro hl
      exact ⟨by simp [World.crash, hl, hpid], fun _ => rfl⟩
    · intro name hs
      exact ⟨World.NamesDrawn.slots_crash hw.slots hpid hs, rfl⟩

theorem keeps_boot {w : World Text} {pid : Nat} {replay : Option ReplayMutex}
    (hw : ReplayInv formats w) (hfree : w.procs pid = none) (spared : CallId → Prop) :
    (replayContract formats hz).Keeps spared w (w.setProc pid (some ⟨0, replay, none⟩)) where
  inv :=
    { slots := World.NamesDrawn.boot hw.slots hfree _
      base := hw.base
      covered := hw.covered
      increasing := hw.increasing }
  later := .of_same rfl rfl
  rely t _ :=
    { Rely.refl hz t w with
      memory := by
        rintro replay' ⟨p, hp, hheld⟩
        have hpid : t.pid ≠ pid := by
          rintro rfl
          rw [hfree] at hp
          cases hp
        exact ⟨p, (Function.update_of_ne hpid _ _).trans hp, hheld⟩ }

/-- The condition on the runs considered: none without dropped calls. -/
def Disciplined (hz : Hazards) (w w' : World Text) : Prop := hz.drops = true → Timely w w'

/-- Releasing the locks leaves the files and what calls know of them. -/
theorem World.released (w : World Text) (t : CallId) :
    let w' := (w.dropLock t).dropGuard t
    w'.slots = w.slots ∧ w'.temps = w.temps ∧ w'.pending = w.pending ∧ w'.base = w.base ∧
      w'.version = w.version ∧ w'.file = w.file := by
  dsimp only
  unfold World.dropGuard World.dropLock
  split <;> [split <;> split; split] <;> exact ⟨rfl, rfl, rfl, rfl, rfl, rfl⟩

/-- An operation that goes on after its call was dropped stays permitted. -/
theorem detached_permitted {t : CallId} {o : Op Text} {w w₁ : World Text} (hw : ReplayInv formats w)
    (hpool : UsesPool o) (hp : mayPerform formats hz t o w) (hdrops : hz.drops = true)
    (hrely : Rely hz t ((w.dropLock t).dropGuard t) w₁) : mayPerform formats hz t o w₁ := by
  obtain ⟨hslots, htemps, hpending, hbase, hversion, hfile⟩ := w.released t
  have hslot : ∀ name, w.slots name = some t → w₁.slots name = some t := by
    intro name hs
    exact (hrely.slots name (by rw [hslots, hs])).1
  cases o with
  | createTemporary name => exact hslot name hp
  | writeTemporary name text => exact hslot name hp
  | removeTemporary name => exact hslot name hp
  | renameTemporary name =>
    have hle : ((w.dropLock t).dropGuard t).base t ≤ ((w.dropLock t).dropGuard t).version := by
      rw [hbase, hversion]
      exact hw.base t
    refine Ready.rely hle hrely ?_
    obtain ⟨hs, _, text, state, f, n, htemp, hpend, hfresh, hcovers, htext⟩ := hp
    refine ⟨by rw [hslots, hs], fun hd => ?_, text, state, f, n, by rw [htemps, htemp],
      by rw [hpending, hpend], hfresh, ?_, htext⟩
    · rw [hdrops] at hd
      cases hd
    · unfold Covers
      rw [hbase, hversion, hfile]
      exact hcovers
  | setTemporaryPermissions name => trivial
  | syncTemporary name => trivial
  | acquireReplayLock => trivial
  | _ => exact hpool.elim

variable (formats env hz config) in
/-- The rules of the replay state are a protocol of the service. -/
def replayProtocol : Protocol ((service formats env hz config).under (Disciplined hz)) where
  toContract := replayContract formats hz
  rely_refl := Rely.refl hz
  rely_trans _ _ _ _ := Rely.trans
  later_refl := Later.refl
  later_trans _ _ _ := Later.trans
  exec_keeps _ _ _ _ _ hw hp h := exec_keeps hw hp h.1 h.2
  start_keeps := by
    rintro t c w w' hw ⟨⟨_, rfl⟩, _⟩
    exact (Quiet.refl _).keeps hw _
  abandon_keeps := by
    rintro t o goesOn w w' hw hp ⟨⟨hdrops, _, hpool, rfl⟩, _⟩
    refine ⟨keeps_abandon hw, ?_⟩
    intro hgoesOn
    refine wp_leftover ?_ fun _ _ => trivial
    exact fun w₁ _ hrely => detached_permitted hw (hpool hgoesOn) hp hdrops hrely
  ambient_keeps := by
    rintro ended w w' hw ⟨h, _⟩
    cases h with
    | boot hfree _ => exact keeps_boot hw hfree _
    | crash _ _ => exact keeps_crash hw

end Veriai.Service
