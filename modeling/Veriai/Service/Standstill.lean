import Veriai.Service.Owners

/-!
# Calls that come to their answers

Left to themselves the calls under way cannot go on forever, and they cannot
block each other: whoever holds the file lock waits for no lock, and whoever
holds a guard waits for the file lock at most. So they all come to an answer, and
what goes on of dropped calls comes to its end. Only a nonce that is drawn a second
time is left out of the account.
-/

namespace Veriai.Service

open Machine Protocol

section Rules

variable {Text : Type} {formats : Formats Text} {env : Primitives} {hz : Hazards} {config : Config}
variable {t : CallId} {w w' : World Text}

theorem setProc_procs {pid pid' : Nat} (p : Process) (hp : w.procs pid ≠ none) :
    (w.setProc pid' (some p)).procs pid ≠ none := by
  by_cases hpid : pid = pid'
  · subst hpid
    simp [World.setProc]
  · rw [show (w.setProc pid' (some p)).procs pid = w.procs pid from
      Function.update_of_ne hpid _ _]
    exact hp

theorem dropGuard_procs {pid : Nat} (hp : w.procs pid ≠ none) :
    (w.dropGuard t).procs pid ≠ none := by
  unfold World.dropGuard
  split
  · split
    · exact setProc_procs _ hp
    · exact hp
  · exact hp

theorem dropLock_procs {pid : Nat} (hp : w.procs pid ≠ none) :
    (w.dropLock t).procs pid ≠ none := by
  unfold World.dropLock
  split <;> exact hp

/-- No operation ends a process. -/
theorem exec_procs {o : Op Text} {r : Res Text o} (h : exec env hz t o r w w') {pid : Nat}
    (hp : w.procs pid ≠ none) : w'.procs pid ≠ none := by
  have hquiet : OnlyLooks o → w'.procs pid ≠ none := by
    intro ho
    rw [(exec_quiet ho h).procs]
    exact hp
  have hpool : OfTokioFs o → w'.procs pid ≠ none := by
    intro ho
    rw [(exec_pool ho h).1]
    exact hp
  cases o with
  | lockReplayGuard =>
    obtain ⟨p, _, _, rfl⟩ := h
    exact setProc_procs _ hp
  | dropReplayGuard =>
    obtain rfl := h
    exact dropGuard_procs hp
  | acquireReplayLock =>
    rcases h with ⟨_, _, rfl⟩ | ⟨_, _, rfl⟩ <;> exact hp
  | dropReplayLock =>
    obtain rfl := h
    exact dropLock_procs hp
  | pathExists =>
    obtain ⟨_, rfl⟩ := h
    exact hp
  | readState =>
    rcases h with ⟨_, _, _, rfl⟩ | ⟨_, _, rfl⟩ | ⟨_, _, rfl⟩ <;> exact hp
  | setState state =>
    obtain ⟨p, _, _, rfl⟩ := h
    exact setProc_procs _ hp
  | checkSequence v claims doc report =>
    obtain ⟨p, _, _, rfl⟩ := h
    exact setProc_procs _ hp
  | nextTempFile =>
    obtain ⟨p, _, _, rfl⟩ := h
    exact setProc_procs _ hp
  | createTemporary name => exact hpool trivial
  | writeTemporary name text => exact hpool trivial
  | renameTemporary name => exact hpool trivial
  | removeTemporary name => exact hpool trivial
  | _ => exact hquiet trivial

section Attended

variable {s s' : MachineState CallId Request Response (World Text) (Res Text)}

/-- The process of every thread runs. -/
def Attended (s : MachineState CallId Request Response (World Text) (Res Text)) : Prop :=
  ∀ t, s.threads t ≠ none → s.world.procs t.pid ≠ none

/-- One thread changes, and no process ends. -/
theorem Attended.update (h : Attended s) {th : Option (Thread Request Response (Res Text))}
    {started : List CallId} {answers : List (CallId × Request × Response)}
    (halive : w'.procs t.pid ≠ none)
    (hprocs : ∀ pid, s.world.procs pid ≠ none → w'.procs pid ≠ none) :
    Attended ⟨w', Function.update s.threads t th, started, answers⟩ := by
  intro t' hne
  dsimp only at hne ⊢
  by_cases he : t' = t
  · rw [he]
    exact halive
  · rw [Function.update_of_ne he] at hne
    exact hprocs _ (h t' hne)

/-- Only a crash ends a process, and with it the threads of the process. -/
theorem Attended.step (h : Attended s) (hstep : (service formats env hz config).Step s s') :
    Attended s' := by
  cases hstep with
  | start _ hw =>
    obtain ⟨halive, rfl⟩ := hw
    exact h.update halive fun _ hp => hp
  | @run t c o k r w' ht he =>
    exact h.update (exec_procs he (h t (by simp [ht]))) fun _ hp => exec_procs he hp
  | @answer t c a ht => exact h.update (h t (by simp [ht])) fun _ hp => hp
  | @abandon t c o k goesOn w' ht ha =>
    obtain ⟨_, _, _, rfl⟩ := ha
    have hprocs : ∀ pid, s.world.procs pid ≠ none →
        ((s.world.dropLock t).dropGuard t).procs pid ≠ none :=
      fun _ hp => dropGuard_procs (dropLock_procs hp)
    exact h.update (hprocs _ (h t (by simp [ht]))) hprocs
  | @land t o k r w' ht he =>
    exact h.update (exec_procs he (h t (by simp [ht]))) fun _ hp => exec_procs he hp
  | @ambient ended w' ha =>
    intro t hne
    dsimp only at hne ⊢
    have hended : ended t = false := by
      by_contra hended
      simp [hended] at hne
    have halive := h t (by simpa [hended] using hne)
    cases ha with
    | boot hfree _ => exact setProc_procs _ halive
    | @crash _ pid _ _ =>
      have hpid : t.pid ≠ pid := by simpa using hended
      rw [show (s.world.crash pid).procs t.pid = s.world.procs t.pid from
        Function.update_of_ne hpid _ _]
      exact halive

theorem attended_reachable (h : (service formats env hz config).Reachable w s) : Attended s := by
  induction h with
  | refl => exact fun t hne => (hne rfl).elim
  | tail _ hstep ih => exact ih.step hstep

end Attended

/-- The operation waits: for the guard of its process, for the file lock, or, with a nonce that
was drawn before, for ever. -/
inductive Waits (t : CallId) (w : World Text) : Op Text → Prop
  | guard {p : Process} : w.procs t.pid = some p → p.guard ≠ none → Waits t w .lockReplayGuard
  | lock : w.fileLock ≠ none → Waits t w .acquireReplayLock
  | nonce {nonce : ByteArr 32} {expiresAt : UInt64} : w.available nonce = false →
      w.issued nonce ≠ none → Waits t w (.createRecord nonce expiresAt)

variable (env hz) in
/-- Anything else that is permitted can be performed. -/
theorem exec_enabled {o : Op Text} (halive : w.procs t.pid ≠ none) (hp : mayTake t o w)
    (hwaits : ¬ Waits t w o) : ∃ r w', exec env hz t o r w w' := by
  obtain ⟨p, hproc⟩ := Option.ne_none_iff_exists'.mp halive
  cases o with
  | lockReplayGuard =>
    have hfree : p.guard = none := by
      by_contra hheld
      exact hwaits (.guard hproc hheld)
    exact ⟨(), _, p, hproc, hfree, rfl⟩
  | dropReplayGuard => exact ⟨(), _, rfl⟩
  | acquireReplayLock =>
    have hfree : w.fileLock = none := by
      by_contra hheld
      exact hwaits (.lock hheld)
    exact ⟨.ok (), _, .inl ⟨rfl, hfree, rfl⟩⟩
  | dropReplayLock => exact ⟨(), _, rfl⟩
  | pathExists => exact ⟨_, _, rfl, rfl⟩
  | readState =>
    cases hfile : w.file with
    | none => exact ⟨.error "", w, .inr (.inl ⟨hfile, ⟨_, rfl⟩, rfl⟩)⟩
    | some text => exact ⟨.ok text, _, .inl ⟨text, hfile, rfl, rfl⟩⟩
  | intoIter members =>
    obtain ⟨order, horder⟩ := exists_order members
    exact ⟨order, w, horder, rfl⟩
  | getState => exact ⟨_, w, p, hproc, rfl, rfl⟩
  | setState state => exact ⟨_, _, p, hproc, rfl, rfl⟩
  | observe =>
    refine ⟨⟨{ generate := fun _ _ _ => .ok [], verify := fun _ _ => .ok false }, ⟨0, 0⟩⟩, w, rfl⟩
  | checkSequence v claims doc report => exact ⟨_, _, p, hproc, rfl, rfl⟩
  | nextTempFile => exact ⟨p.counter, _, p, hproc, rfl, rfl⟩
  | createTemporary name =>
    cases htemp : w.temps name with
    | none =>
      obtain ⟨text⟩ := hp.2
      exact ⟨.ok (), _, .inl ⟨rfl, htemp, text, rfl⟩⟩
    | some text => exact ⟨.error "", w, .inr (.inl ⟨⟨_, rfl⟩, by simp [htemp], rfl⟩)⟩
  | writeTemporary name text => exact ⟨.ok (), _, hp.2, .inl ⟨rfl, rfl⟩⟩
  | renameTemporary name =>
    cases htemp : w.temps name with
    | none => exact ⟨.error "", w, .inr (.inl ⟨htemp, ⟨_, rfl⟩, rfl⟩)⟩
    | some text => exact ⟨.ok (), _, .inl ⟨text, htemp, rfl, rfl⟩⟩
  | removeTemporary name =>
    cases htemp : w.temps name with
    | none => exact ⟨.error "", w, .inr (.inl ⟨htemp, ⟨_, rfl⟩, rfl⟩)⟩
    | some text => exact ⟨.ok (), _, .inl ⟨by simp [htemp], rfl, rfl⟩⟩
  | unixSeconds => exact ⟨.error "", w, .inr ⟨⟨_, rfl⟩, rfl⟩⟩
  | fillBytes => exact ⟨default, w, rfl⟩
  | createRecord nonce expiresAt =>
    cases havailable : w.available nonce with
    | true => exact ⟨.error .alreadyExists, w, .inr (.inl ⟨rfl, havailable, rfl⟩)⟩
    | false =>
      have hissued : w.issued nonce = none := by
        by_contra hne
        exact hwaits (.nonce havailable hne)
      exact ⟨.ok (), _, .inl ⟨rfl, havailable, hissued, rfl⟩⟩
  | writeRecord nonce c => exact ⟨.ok (), _, .inl ⟨rfl, rfl⟩⟩
  | readRecord nonce =>
    cases havailable : w.available nonce with
    | true => exact ⟨_, w, .inl ⟨havailable, rfl, rfl⟩⟩
    | false => exact ⟨.error "", w, .inr (.inl ⟨havailable, ⟨_, rfl⟩, rfl⟩)⟩
  | removeAvailable nonce =>
    cases havailable : w.available nonce with
    | true => exact ⟨.ok (), _, .inl ⟨havailable, rfl, rfl⟩⟩
    | false => exact ⟨.error "", w, .inr (.inl ⟨havailable, ⟨_, rfl⟩, rfl⟩)⟩
  | reserveRecord name =>
    cases havailable : w.available name.nonce with
    | true => exact ⟨.ok (), _, .inl ⟨havailable, rfl, rfl⟩⟩
    | false => exact ⟨.error "", w, .inr (.inl ⟨havailable, ⟨_, rfl⟩, rfl⟩)⟩
  | restoreRecord name =>
    cases hreserved : w.reserved name with
    | true => exact ⟨.ok (), _, .inl ⟨hreserved, rfl, rfl⟩⟩
    | false => exact ⟨.error "", w, .inr (.inl ⟨hreserved, ⟨_, rfl⟩, rfl⟩)⟩
  | consumeRecord name =>
    cases hreserved : w.reserved name with
    | true => exact ⟨.ok (), _, .inl ⟨hreserved, rfl, rfl⟩⟩
    | false => exact ⟨.error "", w, .inr (.inl ⟨hreserved, ⟨_, rfl⟩, rfl⟩)⟩
  | _ => exact ⟨.ok (), w, .inl ⟨rfl, rfl⟩⟩

variable (env hz) in
/-- What goes on of a dropped call waits for the file lock at most. -/
theorem LeftOf.enabled {o : Op Text} {k : Res Text o → Prog (Res Text) Unit}
    (hp : LeftOf t w (.op o k)) (halive : w.procs t.pid ≠ none) (hfree : w.fileLock = none) :
    ∃ r w', exec env hz t o r w w' := by
  refine exec_enabled env hz halive hp.permit ?_
  intro hwaits
  cases hp with
  | file hfile _ _ => cases hwaits <;> exact hfile
  | attempt hnone =>
    cases hwaits with
    | lock hheld => exact hheld hfree
  | giveBack hguard => cases hwaits

variable (formats env hz config) in
/-- Giving back a lock can always be done. -/
theorem GivesBack.enabled {s : MachineState CallId Request Response (World Text) (Res Text)}
    (h : GivesBack s t) : ∃ s', (service formats env hz config).Advances s s' :=
  ⟨_, .land (r := ()) h rfl⟩

section Standstill

variable {s s' : MachineState CallId Request Response (World Text) (Res Text)}

/-- No call is about to issue a nonce that was issued and spent before. -/
def NoncesNew (s : MachineState CallId Request Response (World Text) (Res Text)) : Prop :=
  ∀ t nonce expiresAt, AboutTo s t (.createRecord nonce expiresAt) →
    s.world.available nonce = false → s.world.issued nonce = none

/-- Every call that was under way is answered, and nothing is left of any call. -/
structure Completed (s s' : MachineState CallId Request Response (World Text) (Res Text)) :
    Prop where
  ended : ∀ t, s'.threads t = none
  answered : ∀ t c rest, s.threads t = some (.running c rest) → ∃ a, (t, c, a) ∈ s'.answers
  guards : ∀ pid p, s'.world.procs pid = some p → p.guard = none
  fileLock : s'.world.fileLock = none

variable {path : StatePath}

/-- A running call that stands still waits. -/
theorem standstill_waits (hunderway : LocksUnderway formats env hz config s)
    (hattended : Attended s) (hstill : (service formats env hz config).Standstill s)
    (ht : UnderWay s t) : ∃ o, AboutTo s t o ∧ Waits t s.world o := by
  obtain ⟨c, p, ht⟩ := ht
  have halive := hattended t (by simp [ht])
  match p with
  | .ret a => exact (hstill _ (.answer ht)).elim
  | .op o k =>
    refine ⟨o, ⟨c, k, ht⟩, ?_⟩
    by_contra hfree
    obtain ⟨r, w', he⟩ := exec_enabled env hz halive (hunderway.permit ht) hfree
    exact hstill _ (.run ht he)

/-- Nobody holds the file lock at a standstill: a call that holds it waits for no lock, and an
attempt that has taken it gives it back. -/
theorem standstill_fileLock (hunderway : LocksUnderway formats env hz config s)
    (hattended : Attended s) (hstill : (service formats env hz config).Standstill s)
    (hnew : NoncesNew s) : s.world.fileLock = none := by
  by_contra hne
  obtain ⟨t, hheld⟩ := Option.ne_none_iff_exists'.mp hne
  rcases underWay_or_givesBack hunderway hheld with ht | ht
  · obtain ⟨o, ⟨c, k, ho⟩, hw⟩ := standstill_waits hunderway hattended hstill ht
    cases hw with
    | guard => exact (hunderway.permit ho).2 hheld
    | lock => exact hunderway.permit ho hheld
    | nonce havailable hissued => exact hissued (hnew t _ _ ⟨c, k, ho⟩ havailable)
  · obtain ⟨s', hadvances⟩ := GivesBack.enabled formats env hz config ht
    exact hstill s' hadvances

/-- Nobody waits for ever: the file lock is free at a standstill, and the holder of a guard waits
for the file lock at most, so nobody holds one either. -/
theorem standstill_over (hunderway : LocksUnderway formats env hz config s)
    (hattended : Attended s) (hstill : (service formats env hz config).Standstill s)
    (hnew : NoncesNew s) (t : CallId) : s.threads t = none := by
  have hlock := standstill_fileLock hunderway hattended hstill hnew
  by_contra hne
  obtain ⟨th, ht⟩ := Option.ne_none_iff_exists'.mp hne
  cases th with
  | detached p =>
    obtain ⟨hleft, hnot⟩ : LeftOf t s.world p ∧ ∀ a, p ≠ .ret a := hunderway.threads t _ ht
    cases p with
    | ret a => exact hnot a rfl
    | op o k =>
      obtain ⟨r, w', he⟩ := hleft.enabled env hz (hattended t hne) hlock
      exact hstill _ (.land ht he)
  | running c p =>
    obtain ⟨o, hready, hw⟩ := standstill_waits hunderway hattended hstill ⟨c, p, ht⟩
    cases hw with
    | lock hheld => exact hheld hlock
    | nonce havailable hissued => exact hissued (hnew t _ _ hready havailable)
    | guard hp hguard =>
      obtain ⟨t', hheld⟩ := Option.ne_none_iff_exists'.mp hguard
      have hpid := hunderway.inv.housed _ _ _ hp hheld
      have hholds : HoldsGuard t' s.world := ⟨_, hpid.symm ▸ hp, hheld⟩
      obtain ⟨o, ⟨c', k, ho⟩, hw⟩ := standstill_waits hunderway hattended hstill
        (underWay_of_holdsGuard hunderway hholds)
      cases hw with
      | guard => exact (hunderway.permit ho).1 hholds
      | lock hne => exact hne hlock
      | nonce havailable hissued => exact hissued (hnew t' _ _ ⟨c', k, ho⟩ havailable)

/-- From every reachable state the calls under way come to an end in whatever order they go on,
and when they do, each one has been answered and every lock is free. -/
theorem service_completes (hpath : ∀ pid, (config.state pid).replayStatePath = some path)
    (hw : w.AtRest) (h : (service formats env hz config).Reachable w s) :
    Acc (fun s₂ s₁ => (service formats env hz config).Advances s₁ s₂) s ∧
      ∀ s', (service formats env hz config).Advancing s s' →
        (service formats env hz config).Standstill s' → NoncesNew s' → Completed s s' := by
  refine ⟨advances_acc (Reachable.accounted h), ?_⟩
  intro s' hadvancing hstill hnew
  have hreach : (service formats env hz config).Reachable w s' := h.trans hadvancing.steps
  have hunderway := locks_underway hpath hw hreach
  have hover := standstill_over hunderway (attended_reachable hreach) hstill hnew
  refine ⟨hover, ?_, ?_, ?_⟩
  · intro t c rest ht
    rcases hadvancing.running ht with ⟨rest', ht'⟩ | hanswered
    · rw [hover t] at ht'
      cases ht'
    · exact hanswered
  · intro pid p hp
    by_contra hne
    obtain ⟨t', hheld⟩ := Option.ne_none_iff_exists'.mp hne
    obtain rfl := hunderway.inv.housed pid p t' hp hheld
    exact hunderway.owned t' (.inl ⟨p, hp, hheld⟩) (hover t')
  · by_contra hne
    obtain ⟨t', hheld⟩ := Option.ne_none_iff_exists'.mp hne
    exact hunderway.owned t' (.inr hheld) (hover t')

end Standstill

end Rules

namespace Transparent

open Veriai.Transparent

/-- The first call has come to its rename. -/
def atRename (text : MemberOrder) : World MemberOrder :=
  booted.prepared caller process (.new ∅) (fill 32 0) 1 text

/-- The second call has arrived. -/
def arrived : CallId → Option (Thread Request Response (Res MemberOrder)) :=
  Function.update (fun _ => none) ⟨0, 1⟩ (some (.running (.verify (payload 2))
    ((service formats primitives hostile config).program ⟨0, 1⟩ (.verify (payload 2)))))

/-- A call holds both locks before its rename while another one has just arrived: the first one
goes on to its answer, and the second one after it. -/
theorem service_completes_waiting :
    ∃ s s' result result', (service formats primitives hostile config).Reachable
        (World.initial none) s ∧ HoldsGuard caller s.world ∧ HoldsLock caller s.world ∧
      UnderWay s ⟨0, 1⟩ ∧ (service formats primitives hostile config).Advancing s s' ∧
      s'.answers = [(caller, .verify (payload 1), .verified (.ok result)),
        (⟨0, 1⟩, .verify (payload 2), .verified (.ok result'))] ∧ Completed s s' := by
  obtain ⟨text, htext⟩ := exists_order (encodeMembers ledgerOne)
  obtain ⟨text', htext'⟩ := exists_order (encodeMembers ledgerTwo)
  have hany : ∀ w w' : World MemberOrder, w'.commits = w.commits → True := fun _ _ _ => trivial
  have hstart (t : CallId) (seq : UInt8) (ht : t.pid = 0) :
      ((service formats primitives hostile config).under fun _ _ => True).start t
        (.verify (payload seq)) booted booted :=
    ⟨⟨by rw [ht]; exact Option.some_ne_none _, rfl⟩, trivial⟩
  have hsaved : Saved formats (some text) ((ReplayMutex.new ∅).map.insert (fill 32 0) 1) :=
    congrArg Except.ok htext
  have hidle : Idle formats ⟨0, 1⟩ ⟨1, some (.new ledgerOne), none⟩ (.new ledgerOne) (first text) :=
    (idle_booted 0).answered hsaved rfl
  obtain ⟨result, -, k, hk, hend⟩ := passes_verify hostile hany (presentable 0 1) (idle_booted 0)
    (fresh_empty 1 7) htext rfl ((atRename text).replace caller ⟨0, 0⟩ text)
  obtain ⟨result', -, hsecond⟩ := runs_verify hostile hany (presentable 0 2) hidle fresh_second
    htext' rfl rfl rfl trivial
  have hrename : (service formats primitives hostile config).exec caller (.renameTemporary ⟨0, 0⟩)
      (.ok ()) (atRename text) ((atRename text).replace caller ⟨0, 0⟩ text) :=
    .inl ⟨text, rfl, rfl, rfl⟩
  have harrived := Step.start (M := (service formats primitives hostile config).under
    fun _ _ => True) (s := ⟨booted, fun _ => none, [], []⟩) List.not_mem_nil (hstart ⟨0, 1⟩ 2 rfl)
  have hatRename := hk.arrives (hstart caller 1 rfl) arrived
    (show caller ∉ [(⟨0, 1⟩ : CallId)] by decide) []
  have hreach := Steps.of_under ((hatRename.head harrived).head (boots hostile trivial))
  have hfirst := (Runs.op hrename hend.of_under).advancing_answered arrived
    [⟨0, 1⟩, caller] [] (c := .verify (payload 1))
  have hnext := hsecond.of_under.advancing_answered (Function.update (fun _ => none) caller none)
    [⟨0, 1⟩, caller] [(caller, .verify (payload 1), .verified (.ok result))]
    (c := .verify (payload 2))
  rw [Function.update_comm (by decide)] at hnext
  have hadvancing := hfirst.trans hnext
  have hover : ∀ t, Function.update (Function.update (fun _ => none) caller none) ⟨0, 1⟩
      (none : Option (Thread Request Response (Res MemberOrder))) t = none := by
    intro t
    rw [Function.update_eq_self_iff.mpr, Function.update_eq_self_iff.mpr] <;> rfl
  refine ⟨_, _, result, result', hreach, ⟨_, rfl, rfl⟩, rfl, ⟨_, _, rfl⟩, hadvancing, rfl, ?_⟩
  refine (service_completes (fun _ => rfl) (World.atRest_initial none) hreach).2 _ hadvancing
    (standstill_of_over hover) ?_
  rintro t nonce expiresAt ⟨c, k, ht⟩
  cases (hover t).symm.trans ht

end Transparent

end Veriai.Service
