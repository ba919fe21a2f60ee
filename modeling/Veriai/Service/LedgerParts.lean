import Veriai.Service.LedgerRules

/-!
# What a call does to the ledger

The parts of the handler under the rules of the ledger: reloading gives the
memory the ledger of the state file, `verify` answers as a single verifier does
on it, and writing the state file enters what was accepted or leaves the ledger
as it was.
-/

namespace Veriai.Service

open Handler Protocol

variable {Text : Type} {formats : Formats Text} {env : Primitives} {hz : Hazards} {config : Config}
variable {t : CallId} {m₀ : ReplayMap}

/-- The call has taken both locks. -/
def Entered (t : CallId) (w : World Text) : Prop := Settled t w ∧ w.fileLock = some t

/-- The call works under both locks on this memory, above this file and these commits. -/
structure Inside (t : CallId) (m : ReplayMap) (file : Option Text) (commits : List Commit)
    (pending : Option (Fingerprint × UInt64)) (w : World Text) : Prop where
  memory : InMemory t m w
  lock : w.fileLock = some t
  file : w.file = file
  commits : w.commits = commits
  pending : w.pending t = pending

variable (formats) in
/-- The memory is the ledger of the state file. -/
def Synced (t : CallId) (w : World Text) : Prop :=
  ∃ m, Contents formats w.file m ∧ Inside t m w.file w.commits (w.pending t) w

/-- The number is recorded in the state file. -/
def Persisted (t : CallId) (f : Fingerprint) (n : UInt64) (commits : List Commit)
    (w : World Text) : Prop :=
  ∃ m, InMemory t m w ∧ w.file ≠ none ∧ commits ++ [⟨t, f, n⟩] <+: w.commits

/-- The call may go back to the earlier memory. -/
def Returning (t : CallId) (previous : ReplayMap) (w : World Text) : Prop :=
  ∃ m, InMemory t m w ∧ (w.file = none → previous = ∅)

section Stable

variable {w w' : World Text} {m : ReplayMap} {file : Option Text} {commits : List Commit}
  {pending : Option (Fingerprint × UInt64)}

/-- The others leave a memory that is about to go back. -/
theorem Returning.rely (h : LedgerRely t w w') (hr : Returning t m w) : Returning t m w' := by
  obtain ⟨m', hm, hempty⟩ := hr
  refine ⟨m', h.memory m' hm, ?_⟩
  intro hnone
  by_contra hne
  exact h.file (fun hinitial => hne (hempty hinitial)) hnone

/-- The others leave a settled memory. -/
theorem Settled.rely (h : LedgerRely t w w') (hs : Settled t w) : Settled t w' := by
  obtain ⟨m, hm, hempty⟩ := hs
  refine ⟨m, h.memory m hm, ?_⟩
  intro hnone
  by_contra hne
  exact h.file (fun hinitial => hne (hempty hinitial)) hnone

/-- The others leave the locks. -/
theorem Entered.rely (h : LedgerRely t w w') (he : Entered t w) : Entered t w' :=
  ⟨he.1.rely h, (h.lock he.2).1⟩

/-- The others leave memory, file and commits while the call holds the locks. -/
theorem Inside.rely (h : LedgerRely t w w') (hi : Inside t m file commits pending w) :
    Inside t m file commits pending w' := by
  obtain ⟨hl, hf, hc⟩ := h.lock hi.lock
  exact ⟨h.memory m hi.memory, hl, hf.trans hi.file, hc.trans hi.commits,
    h.pending.trans hi.pending⟩

/-- A commit is never taken back. -/
theorem Persisted.rely {f : Fingerprint} {n : UInt64} (h : LedgerRely t w w')
    (hp : Persisted t f n commits w) : Persisted t f n commits w' := by
  obtain ⟨m, hm, hfile, hinitial⟩ := hp
  exact ⟨m, h.memory m hm, h.file hfile, hinitial.trans h.commits⟩

/-- A memory that is the ledger of the file is settled. -/
theorem Inside.settled (hi : Inside t m file commits pending w) (hfile : Contents formats file m) :
    Settled t w := by
  refine ⟨m, hi.memory, ?_⟩
  intro hnone
  rw [← hi.file, hnone] at hfile
  exact hfile

/-- A memory that was persisted is settled. -/
theorem Persisted.settled {f : Fingerprint} {n : UInt64} (hp : Persisted t f n commits w) :
    Settled t w := by
  obtain ⟨m, hm, hfile, _⟩ := hp
  exact ⟨m, hm, fun hnone => (hfile hnone).elim⟩

/-- What is remembered is in the process. -/
theorem InMemory.verifier {p : Process} (hm : InMemory t m w) (hp : w.procs t.pid = some p) :
    p.guard = some t ∧ p.verifier = some (.new m) := by
  obtain ⟨q, hq, hheld, hv⟩ := hm
  obtain rfl := Option.some.inj (hp.symm.trans hq)
  exact ⟨hheld, hv⟩

/-- A new memory under the same guard. -/
theorem InMemory.setProc {p : Process} (hm : InMemory t m w) (hp : w.procs t.pid = some p)
    {m' : ReplayMap} {replay : Option ReplayMutex} (hreplay : replay = some (.new m')) :
    InMemory t m' (w.setProc t.pid (some { p with verifier := replay })) :=
  ⟨_, Function.update_self .., (hm.verifier hp).1, hreplay⟩

end Stable

section Specs

variable {path : StatePath} {hdrops : hz.drops = false}
  {hpath : ∀ pid, (config.state pid).replayStatePath = some path}

/-- A neutral operation is nothing to count with. -/
theorem ledger_exec_neutral {o : Op Text} {r : Res Text o} {w w' : World Text} (ho : Neutral o)
    (hw : LedgerInv formats m₀ w) (h : exec env hz t o r w w') : LedgerRely t w w' := by
  rcases ho with ho | rfl
  · exact (exec_quiet ho h).sameLedger.rely t
  · obtain ⟨p, hp, _, rfl⟩ := h
    have hkeeps : (ledgerContract formats m₀).Keeps (fun _ => True) w _ :=
      ledger_keeps_nextTempFile hw hp
    exact hkeeps.rely t trivial

/-- A neutral operation is always permitted. -/
theorem ledger_permitted {o : Op Text} (ho : Neutral o) (w : World Text) :
    mayRecord formats t o w := by
  rcases ho with ho | rfl
  · cases o with
    | dropReplayGuard => exact ho.elim
    | setState state => exact ho.elim
    | checkSequence v claims doc report => exact ho.elim
    | createTemporary name => exact ho.elim
    | writeTemporary name text => exact ho.elim
    | renameTemporary name => exact ho.elim
    | removeTemporary name => exact ho.elim
    | _ => trivial
  · trivial

/-- A part of a handler that is neutral keeps what the call knows. -/
theorem ledger_neutral {ε α : Type} {m : ServiceM Text ε α} {A : World Text → Prop}
    (hm : Handler.All Neutral m)
    (hA : (ledgerProtocol formats env hz config m₀ hdrops hpath).Stable t A) :
    (ledgerProtocol formats env hz config m₀ hdrops hpath).Spec t A m (fun _ => A) fun _ => A :=
  Spec.of_all hm hA (fun _ w ho => ledger_permitted ho w) fun _ _ _ _ ho hw h =>
    ledger_exec_neutral ho hw h

/-- Loading the state file yields the ledger in it. -/
theorem loadReplayState_ledger :
    (ledgerProtocol formats env hz config m₀ hdrops hpath).Spec t (Entered t)
      (loadReplayState formats) (fun state w => Entered t w ∧ Contents formats w.file state)
      fun _ => Settled t := by
  have hread : ∀ text, (ledgerProtocol formats env hz config m₀ hdrops hpath).Stable t
      fun w => Entered t w ∧ w.file = some text := by
    intro text w w' _ _ h he
    exact ⟨he.1.rely h, (h.lock he.1.2).2.1.trans he.2⟩
  refine Spec.attempt_bind (o := Op.readState)
    (Q := fun text w => Entered t w ∧ w.file = some text) rfl
    (fun _ _ _ _ h he => Entered.rely h he) (fun _ _ _ => trivial) ?_ fun text => ?_
  · rintro r w w' _ _ he (⟨text, hfile, rfl, rfl⟩ | ⟨_, ⟨e, rfl⟩, rfl⟩ | ⟨_, ⟨e, rfl⟩, rfl⟩)
    · exact ⟨he, hfile⟩
    · exact he.1
    · exact he.1
  refine Spec.bind (Q := fun saved w => (Entered t w ∧ w.file = some text) ∧
    formats.fromSlice text = .ok saved) ?_ fun saved => ?_
  · refine Spec.ensure ?_ fun _ _ _ _ h => h.1.1
    intro saved hsaved w _ h
    exact ⟨h, mapError_eq_ok.mp hsaved⟩
  refine Spec.bind (Q := fun order w => (Entered t w ∧ w.file = some text) ∧
    formats.fromSlice text = .ok order.toFinmap) ?_ fun order => ?_
  · refine Spec.call ?_ (fun _ _ _ => trivial) ?_
    · exact fun w w' hw hw' h he => ⟨hread text w w' hw hw' h he.1, he.2⟩
    · rintro order w w' _ _ ⟨he, hsaved⟩ ⟨hmembers, rfl⟩
      exact ⟨he, by rw [hmembers, hsaved]⟩
  refine Spec.ensure ?_ fun _ _ _ _ h => h.1.1.1
  rintro state hstate w hw ⟨⟨he, hfile⟩, hslice⟩
  obtain ⟨m, hm, _⟩ := hw.log
  have hloads : Loads formats text state := ⟨order, hslice, hstate⟩
  rw [hfile] at hm ⊢
  rw [(hm state).mp hloads]
  exact ⟨he, hm⟩

/-- After the reload the memory is the ledger of the state file, whether there is one or not. -/
theorem reload_ledger {state : AppState} (hstate : state.replayStatePath = some path) :
    (ledgerProtocol formats env hz config m₀ hdrops hpath).Spec t (Entered t)
      (reload formats state) (fun _ => Synced formats t) fun _ => Settled t := by
  simp only [reload, hstate]
  refine Spec.bind (Q := fun r w => if r then Entered t w else Synced formats t w) ?_ ?_
  · refine Spec.call (fun _ _ _ _ h he => Entered.rely h he) (fun _ _ _ => trivial) ?_
    rintro r w w' _ _ he ⟨rfl, rfl⟩
    cases hfile : w.file with
    | some text => exact he
    | none =>
      obtain ⟨⟨m, hm, hempty⟩, hlock⟩ := he
      have hcontents : Contents formats (w.looked t).file m := by
        show Contents formats w.file m
        rw [hfile]
        exact hempty hfile
      exact ⟨m, hcontents, hm, hlock, rfl, rfl, rfl⟩
  · intro r
    cases r with
    | false => exact Spec.pure fun _ _ h => h
    | true =>
      refine Spec.bind (Spec.mapError loadReplayState_ledger) ?_
      intro saved
      refine Spec.attempt (o := Op.setState saved) rfl ?_ ?_ ?_
      · intro w w' _ _ h he
        refine ⟨he.1.rely h, ?_⟩
        rw [(h.lock he.1.2).2.1]
        exact he.2
      · rintro w _ ⟨⟨⟨m, hm, _⟩, _⟩, _⟩
        exact ⟨m, hm⟩
      · rintro r w w' _ _ ⟨⟨⟨m, hm, _⟩, hlock⟩, hfile⟩ ⟨p, hp, rfl, rfl⟩
        rw [(hm.verifier hp).2]
        exact ⟨saved, hfile, hm.setProc hp rfl, hlock, rfl, rfl, rfl⟩

variable {m : ReplayMap} {file : Option Text} {commits : List Commit}
  {pending : Option (Fingerprint × UInt64)} {f : Fingerprint} {n : UInt64}

/-- The memory before the receipt is verified is the one that is gone back to. -/
theorem snapshot_ledger {state : AppState} (hstate : state.replayStatePath = some path) :
    (ledgerProtocol formats env hz config m₀ hdrops hpath).Spec t
      (Inside t m file commits pending) (snapshot state)
      (fun previous w => previous = some m ∧ Inside t m file commits pending w)
      fun _ => Settled t := by
  simp only [snapshot, hstate]
  refine Spec.attempt (o := Op.getState) rfl (fun _ _ _ _ h hi => hi.rely h)
    (fun _ _ _ => trivial) ?_
  rintro r w w' _ _ hi ⟨p, hp, rfl, rfl⟩
  rw [(hi.memory.verifier hp).2]
  exact ⟨rfl, hi⟩

/-- What a single verifier answers on the ledger `m`, and the ledger it leaves. -/
def Sequential (env : Primitives) (v : Verifier) (receiptBytes : Bytes) (expected : Expected)
    (m : ReplayMap) (result : VerificationResult) (m' : ReplayMap) : Prop :=
  ∃ provider now, ({ v with provider } : Verifier).verify env now receiptBytes expected
    (some (.new m)) = (.ok result, some (.new m'))

/-- The answer is the one of a single verifier on the memory, which is as it leaves it. -/
def Judged (env : Primitives) (v : Verifier) (receiptBytes : Bytes) (expected : Expected)
    (t : CallId) (m : ReplayMap) (file : Option Text) (commits : List Commit)
    (result : VerificationResult) (w : World Text) : Prop :=
  ∃ m', Sequential env v receiptBytes expected m result m' ∧
    (result.valid = false ∧ m' = m ∧ (∃ pending, Inside t m file commits pending w) ∨
      result.valid = true ∧ ∃ f n, m' = m.insert f n ∧ Ledger.Fresh m f n ∧
        Inside t (m.insert f n) file commits (some (f, n)) w)

/-- What the sequence check leaves; a poisoned state refuses the call. -/
def Checked (env : Primitives) (v : Verifier) (receiptBytes : Bytes) (expected : Expected)
    (t : CallId) (m : ReplayMap) (file : Option Text) (commits : List Commit) :
    Except VerifyError VerificationResult → World Text → Prop
  | .ok result, w => Judged env v receiptBytes expected t m file commits result w
  | .error _, w => Settled t w

/-- Verifying is judging on the memory. -/
theorem verify_ledger {v : Verifier} {receiptBytes : Bytes} {expected : Expected}
    (hfile : Contents formats file m) :
    (ledgerProtocol formats env hz config m₀ hdrops hpath).Spec t
      (Inside t m file commits pending)
      (verify env v receiptBytes expected : ServiceM Text VerifyError VerificationResult)
      (Judged env v receiptBytes expected t m file commits) fun _ => Settled t := by
  have hstable : (ledgerProtocol formats env hz config m₀ hdrops hpath).Stable t
      (Inside t m file commits pending) := fun _ _ _ _ h hi => hi.rely h
  refine Spec.bind (Q := fun _ => Inside t m file commits pending) ?_ ?_
  · refine Spec.call hstable (fun _ _ _ => trivial) ?_
    rintro r w w' _ _ hi rfl
    exact hi
  rintro ⟨provider, now⟩
  dsimp only
  cases hi : (({ v with provider } : Verifier).inspect env now receiptBytes expected).run {} with
  | error e =>
    cases e with
    | err e => exact Spec.throw fun w _ h => h.settled hfile
    | failed result =>
      have hinvalid : result.valid = false := (Verifier.reported_of_exits hi).leaves.refuses
      have hseq : Sequential env v receiptBytes expected m result m :=
        ⟨provider, now, by simp only [Verifier.verify, hi]⟩
      exact Spec.pure fun w _ h => ⟨m, hseq, Or.inl ⟨hinvalid, rfl, pending, h⟩⟩
  | ok p =>
    obtain ⟨⟨claims, doc⟩, report⟩ := p
    have hverify : ∀ {result : VerificationResult} {m' : ReplayMap},
        ({ v with provider } : Verifier).checkSequence env claims doc report (some (.new m)) =
          (.ok result, some (.new m')) → Sequential env v receiptBytes expected m result m' := by
      intro result m' hcheck
      refine ⟨provider, now, ?_⟩
      simp only [Verifier.verify, hi]
      exact hcheck
    refine Spec.bind (Q := Checked env v receiptBytes expected t m file commits) ?_ ?_
    · refine Spec.call hstable (fun w _ h => ⟨m, h.memory⟩) ?_
      rintro r w w' _ _ h ⟨p, hp, hr, rfl⟩
      rw [(h.memory.verifier hp).2] at hr ⊢
      by_cases hfresh : Verifier.SequenceFresh env claims doc m
      · have hcheck : ({ v with provider } : Verifier).checkSequence env claims doc report
            (some (.new m)) = _ := Verifier.checkSequence_fresh rfl hfresh
        rw [hcheck] at hr ⊢
        subst hr
        refine ⟨_, hverify hcheck, Or.inr ⟨rfl, _, _, rfl, hfresh, ?_⟩⟩
        refine ⟨h.memory.setProc hp rfl, h.lock, h.file, h.commits, ?_⟩
        simp [acceptedIdentity, Verifier.accepted]
      · obtain ⟨result, hinvalid, hcheck⟩ :=
          checkSequence_blocked { v with provider } report hfresh
        rw [hcheck] at hr ⊢
        subst hr
        refine ⟨_, hverify hcheck, Or.inl ⟨hinvalid, rfl, pending, ?_⟩⟩
        refine ⟨h.memory.setProc hp rfl, h.lock, h.file, h.commits, ?_⟩
        simp [acceptedIdentity, hinvalid, h.pending]
    · intro r
      cases r with
      | ok result => exact Spec.pure fun _ _ h => h
      | error e => exact Spec.throw fun _ _ h => h

variable (formats) in
/-- A name is drawn for the temporary file of a text that contains the new ledger, and if it says
so the file holds the text. -/
structure Prepared (t : CallId) (m : ReplayMap) (file : Option Text) (commits : List Commit)
    (f : Fingerprint) (n : UInt64) (name : TempName) (text : Text) (filled : Bool)
    (w : World Text) : Prop where
  inside : Inside t (m.insert f n) file commits (some (f, n)) w
  slot : w.slots name = some t
  contents : Contents formats (some text) (m.insert f n)
  temp : filled = true → w.temps name = some text

/-- The others leave the temporary file of a call. -/
theorem Prepared.rely {name : TempName} {text : Text} {filled : Bool} {w w' : World Text}
    (h : LedgerRely t w w') (hp : Prepared formats t m file commits f n name text filled w) :
    Prepared formats t m file commits f n name text filled w' := by
  obtain ⟨hs, ht⟩ := h.slots name hp.slot
  exact ⟨hp.inside.rely h, hs, hp.contents, fun hf => ht.trans (hp.temp hf)⟩

/-- The call may still go back, and its name is still its own. -/
def Retreating (t : CallId) (m : ReplayMap) (name : TempName) (w : World Text) : Prop :=
  Returning t m w ∧ w.slots name = some t

/-- The others leave a call that gives up. -/
theorem Retreating.rely {name : TempName} {w w' : World Text} (h : LedgerRely t w w')
    (hr : Retreating t m name w) : Retreating t m name w' :=
  ⟨hr.1.rely h, (h.slots name hr.2).1⟩

/-- Before the rename the call can go back to the ledger of the file. -/
theorem Inside.returning {m' : ReplayMap} {w : World Text} (hi : Inside t m' file commits pending w)
    (hfile : Contents formats file m) : Returning t m w := by
  refine ⟨m', hi.memory, ?_⟩
  intro hnone
  rw [← hi.file, hnone] at hfile
  exact hfile

/-- Filling the temporary file and renaming it records the number. -/
theorem writeState_ledger {name : TempName} {text : Text} (hfile : Contents formats file m)
    (hfresh : Ledger.Fresh m f n) :
    (ledgerProtocol formats env hz config m₀ hdrops hpath).Spec t
      (Prepared formats t m file commits f n name text false) (writeState name text)
      (fun _ => Persisted t f n commits) fun _ => Retreating t m name := by
  have hstable : ∀ filled, (ledgerProtocol formats env hz config m₀ hdrops hpath).Stable t
      (Prepared formats t m file commits f n name text filled) :=
    fun filled w w' _ _ h hp => hp.rely h
  have hback : ∀ {filled : Bool} {w : World Text},
      Prepared formats t m file commits f n name text filled w → Retreating t m name w :=
    fun hp => ⟨hp.inside.returning hfile, hp.slot⟩
  refine Spec.attempt_bind (o := Op.setTemporaryPermissions name)
    (Q := fun _ => Prepared formats t m file commits f n name text false) rfl (hstable _)
    (fun _ _ _ => trivial) ?_ fun _ => ?_
  · rintro r w w' _ _ hp (⟨rfl, rfl⟩ | ⟨_, ⟨e, rfl⟩, rfl⟩)
    · exact hp
    · exact hback hp
  refine Spec.attempt_bind (o := Op.writeTemporary name text)
    (Q := fun _ => Prepared formats t m file commits f n name text true) rfl (hstable _)
    (fun _ _ hp => hp.slot) ?_ fun _ => ?_
  · rintro r w w' _ _ hp ⟨_, ⟨rfl, rfl⟩ | ⟨_, ⟨e, rfl⟩, _, rfl⟩⟩
    · obtain ⟨⟨hm, hl, hf, hc, hpend⟩, hs, htext, _⟩ := hp
      exact ⟨⟨hm, hl, hf, hc, hpend⟩, hs, htext, fun _ => Function.update_self ..⟩
    · have hretreats : Retreating t m name w := hback hp
      exact hretreats
  refine Spec.attempt_bind (o := Op.syncTemporary name)
    (Q := fun _ => Prepared formats t m file commits f n name text true) rfl (hstable _)
    (fun _ _ _ => trivial) ?_ fun _ => ?_
  · rintro r w w' _ _ hp (⟨rfl, rfl⟩ | ⟨_, ⟨e, rfl⟩, rfl⟩)
    · exact hp
    · exact hback hp
  refine Spec.attempt_bind (o := Op.renameTemporary name)
    (Q := fun _ w => Persisted t f n commits w ∧ w.slots name = some t) rfl (hstable _)
    ?_ ?_ fun _ => ?_
  · intro w _ hp
    refine ⟨hp.slot, hp.inside.lock, text, m, f, n, hp.temp rfl, hp.inside.pending, ?_, hfresh,
      hp.contents⟩
    rw [hp.inside.file]
    exact hfile
  · rintro r w w' _ _ hp (⟨text', _, rfl, rfl⟩ | ⟨_, ⟨e, rfl⟩, rfl⟩ | ⟨_, ⟨e, rfl⟩, rfl⟩)
    · refine ⟨⟨_, hp.inside.memory, Option.some_ne_none _, ?_⟩, hp.slot⟩
      simp [World.replace, hp.inside.pending, hp.inside.commits]
    · exact hback hp
    · exact hback hp
  refine Spec.attempt (o := Op.syncParent) rfl ?_ (fun _ _ _ => trivial) ?_
  · exact fun w w' _ _ h hp => ⟨hp.1.rely h, (h.slots name hp.2).1⟩
  · rintro r w w' _ _ hp (⟨rfl, rfl⟩ | ⟨_, ⟨e, rfl⟩, rfl⟩)
    · exact hp.1
    · obtain ⟨⟨m', hm', hne, _⟩, hs⟩ := hp
      exact ⟨⟨m', hm', fun hnone => (hne hnone).elim⟩, hs⟩

/-- Persisting records the pending number above the ledger of the file, or can be gone back on. -/
theorem persistReplayState_ledger (hlawful : formats.Lawful) (hfile : Contents formats file m)
    (hfresh : Ledger.Fresh m f n) :
    (ledgerProtocol formats env hz config m₀ hdrops hpath).Spec t
      (Inside t (m.insert f n) file commits (some (f, n))) (persistReplayState formats t.pid path)
      (fun _ => Persisted t f n commits) fun _ => Returning t m := by
  have hstable : (ledgerProtocol formats env hz config m₀ hdrops hpath).Stable t
      (Inside t (m.insert f n) file commits (some (f, n))) := fun _ _ _ _ h hi => hi.rely h
  refine Spec.attempt_bind (o := Op.getState) (Q := fun r w => r = some (m.insert f n) ∧
    Inside t (m.insert f n) file commits (some (f, n)) w) rfl hstable (fun _ _ _ => trivial) ?_ ?_
  · rintro r w w' _ _ hi ⟨p, hp, rfl, rfl⟩
    rw [(hi.memory.verifier hp).2]
    exact ⟨rfl, hi⟩
  intro r
  refine Spec.bind (Q := fun state w => state = m.insert f n ∧
    Inside t (m.insert f n) file commits (some (f, n)) w) ?_ fun state => ?_
  · refine Spec.ensure ?_ fun _ _ _ _ h => h.2.returning hfile
    rintro state hr w _ ⟨rfl, hi⟩
    exact ⟨(Option.some.inj (okOr_eq_ok.mp hr)).symm, hi⟩
  refine Spec.bind (Q := fun order w => order.toFinmap = encodeMembers (m.insert f n) ∧
    Inside t (m.insert f n) file commits (some (f, n)) w) ?_ fun order => ?_
  · refine Spec.call (fun _ _ _ _ h hi => ⟨hi.1, hi.2.rely h⟩) (fun _ _ _ => trivial) ?_
    rintro order w w' _ _ ⟨rfl, hi⟩ ⟨hmembers, rfl⟩
    exact ⟨hmembers, hi⟩
  refine Spec.bind (Q := fun text w => Contents formats (some text) (m.insert f n) ∧
    Inside t (m.insert f n) file commits (some (f, n)) w) ?_ fun text => ?_
  · refine Spec.ensure ?_ fun _ _ _ _ h => h.2.returning hfile
    rintro text htext w _ ⟨hmembers, hi⟩
    have hsaved : Saved formats (some text) (m.insert f n) := by
      show formats.fromSlice text = _
      rw [hlawful.roundTrip order text (mapError_eq_ok.mp htext), hmembers]
    exact ⟨hsaved.contents, hi⟩
  refine Spec.bind (Q := fun _ w => Contents formats (some text) (m.insert f n) ∧
    Inside t (m.insert f n) file commits (some (f, n)) w) ?_ fun _ => ?_
  · exact Spec.ensure (fun _ _ _ _ h => h) fun _ _ _ _ h => h.2.returning hfile
  refine Spec.bind (Q := fun counter =>
    Prepared formats t m file commits f n ⟨t.pid, counter⟩ text false) ?_ fun counter => ?_
  · refine Spec.call (fun _ _ _ _ h hi => ⟨hi.1, hi.2.rely h⟩) (fun _ _ _ => trivial) ?_
    rintro counter w w' hw _ ⟨htext, hi⟩ hexec
    change exec env hz t Op.nextTempFile counter w w' at hexec
    have hrely : LedgerRely t w w' := ledger_exec_neutral (Or.inr rfl) hw hexec
    obtain ⟨p, hp, rfl, rfl⟩ := hexec
    exact ⟨hi.rely hrely, Function.update_self .., htext, fun h => Bool.noConfusion h⟩
  refine Spec.attempt_bind (o := Op.createTemporary ⟨t.pid, counter⟩)
    (Q := fun _ => Prepared formats t m file commits f n ⟨t.pid, counter⟩ text false) rfl
    (fun _ _ _ _ h hp => hp.rely h) (fun _ _ hp => hp.slot) ?_ fun _ => ?_
  · rintro r w w' _ _ hp (⟨rfl, _, _, rfl⟩ | ⟨⟨e, rfl⟩, _, rfl⟩ | ⟨_, ⟨e, rfl⟩, rfl⟩)
    · obtain ⟨⟨hm, hl, hf, hc, hpend⟩, hs, htext, _⟩ := hp
      exact ⟨⟨hm, hl, hf, hc, hpend⟩, hs, htext, fun h => Bool.noConfusion h⟩
    · exact hp.inside.returning hfile
    · exact hp.inside.returning hfile
  refine Spec.bind (Spec.outcome (writeState_ledger hfile hfresh)) ?_
  rintro (e | u)
  · refine Spec.bind (Q := fun _ => Returning t m) ?_ fun _ => Spec.throw fun _ _ h => h
    refine Spec.call (fun _ _ _ _ h hr => Retreating.rely h hr) (fun _ _ hr => hr.2) ?_
    rintro r w w' _ _ hr (⟨_, _, rfl⟩ | ⟨_, _, rfl⟩ | ⟨_, _, rfl⟩) <;> exact hr.1
  · exact Spec.pure fun _ _ h => h

end Specs

end Veriai.Service
