import Veriai.Service.LedgerParts

/-!
# One ledger behind all processes

The processes, their memories and the state file together serve one ledger. At
any time the state file contains the initial ledger with the commits recorded in
their order, and every answer is the one that a single verifier gives on the
ledger after some of the commits: a valid answer at the place of its own commit,
a refusal at a place where its number is no longer fresh.
-/

namespace Veriai.Service

open Handler Protocol

section Rules

variable {Text : Type} {formats : Formats Text} {env : Primitives} {hz : Hazards} {config : Config}
variable {t : CallId} {m₀ : ReplayMap}

section Specs

variable {path : StatePath} {hdrops : hz.drops = false}
  {hpath : ∀ pid, (config.state pid).replayStatePath = some path}
variable {m : ReplayMap} {file : Option Text} {commits : List Commit}
  {pending : Option (Fingerprint × UInt64)} {f : Fingerprint} {n : UInt64}

/-- A failure to persist gives the earlier memory back. -/
theorem persistReplayStateOrRollback_ledger (hlawful : formats.Lawful)
    (hfile : Contents formats file m) (hfresh : Ledger.Fresh m f n) :
    (ledgerProtocol formats env hz config m₀ hdrops hpath).Spec t
      (Inside t (m.insert f n) file commits (some (f, n)))
      (persistReplayStateOrRollback formats t.pid path m) (fun _ => Persisted t f n commits)
      fun _ => Settled t := by
  refine Spec.bind (Spec.outcome (persistReplayState_ledger hlawful hfile hfresh)) ?_
  rintro (e | u)
  · refine Spec.attempt_bind (o := Op.setState m) (Q := fun _ => Settled t) rfl
      (fun _ _ _ _ h hr => Returning.rely h hr) ?_ ?_ fun _ => Spec.throw fun _ _ h => h
    · rintro w _ ⟨m', hm', _⟩
      exact ⟨m', hm'⟩
    · rintro r w w' _ _ ⟨m', hm', hempty⟩ ⟨p, hp, rfl, rfl⟩
      rw [(hm'.verifier hp).2]
      exact ⟨m, hm'.setProc hp rfl, hempty⟩
  · exact Spec.pure fun _ _ h => h

/-- So it is where the challenge is given back on a failure. -/
theorem persist_ledger (hlawful : formats.Lawful) {state : AppState}
    (hstate : state.replayStatePath = some path) (hfile : Contents formats file m)
    (hfresh : Ledger.Fresh m f n) {reservation : Option ReservedName} :
    (ledgerProtocol formats env hz config m₀ hdrops hpath).Spec t
      (Inside t (m.insert f n) file commits (some (f, n)))
      (persist formats state t.pid (some m) reservation) (fun _ => Persisted t f n commits)
      fun _ => Settled t := by
  simp only [persist, hstate]
  refine Spec.bind (Spec.outcome (persistReplayStateOrRollback_ledger hlawful hfile hfresh)) ?_
  rintro (e | u)
  · refine Spec.bind (ledger_neutral (withReservation_neutral restore_neutral)
      fun _ _ _ _ h hs => Settled.rely h hs) fun _ => ?_
    exact Spec.throw fun _ _ h => h
  · exact Spec.pure fun _ _ h => h

variable (m₀) in
/-- The answer is the one of a single verifier on the ledger after some of the commits; where it
is valid, the commit of the call comes next. -/
def Placed (env : Primitives) (v : Verifier) (receiptBytes : Bytes) (expected : Expected)
    (t : CallId) (result : VerificationResult) (commits : List Commit) : Prop :=
  ∃ before m m', before <+: commits ∧ Ledger.Log m₀ m (entries before) ∧
    Sequential env v receiptBytes expected m result m' ∧
    (result.valid = true → ∃ f n, m' = m.insert f n ∧ before ++ [⟨t, f, n⟩] <+: commits)

theorem Placed.mono {v : Verifier} {receiptBytes : Bytes} {expected : Expected}
    {result : VerificationResult} {commits commits' : List Commit} (hmore : commits <+: commits')
    (h : Placed m₀ env v receiptBytes expected t result commits) :
    Placed m₀ env v receiptBytes expected t result commits' := by
  obtain ⟨before, m, m', hinitial, hlog, hseq, hvalid⟩ := h
  refine ⟨before, m, m', hinitial.trans hmore, hlog, hseq, ?_⟩
  intro hv
  obtain ⟨f, n, hm', hcommit⟩ := hvalid hv
  exact ⟨f, n, hm', hcommit.trans hmore⟩

/-- Giving the guard back in a settled state, with what is known of the commits. -/
theorem dropGuard_ledger {ε : Type} {A : List Commit → Prop}
    (hA : ∀ l l', l <+: l' → A l → A l') :
    (ledgerProtocol formats env hz config m₀ hdrops hpath).Spec (ε := ε) t
      (fun w => Settled t w ∧ A w.commits) (perform .dropReplayGuard) (fun _ w => A w.commits)
      fun _ => Settled t := by
  refine Spec.call (fun w w' _ _ h hs => ⟨hs.1.rely h, hA _ _ h.commits hs.2⟩)
    (fun _ _ hs => hs.1) ?_
  rintro r w w' _ _ hs rfl
  simpa using hs.2

theorem Settled.dropLock {w : World Text} (hs : Settled t w) : Settled t (w.dropLock t) := by
  unfold World.dropLock
  split <;> exact hs

/-- Giving the file lock back. -/
theorem dropLock_ledger {ε : Type} {A : World Text → Prop} {B : List Commit → Prop}
    (hA : (ledgerProtocol formats env hz config m₀ hdrops hpath).Stable t A)
    (hB : ∀ l l', l <+: l' → B l → B l') (hdrop : ∀ w, A w → A (w.dropLock t)) :
    (ledgerProtocol formats env hz config m₀ hdrops hpath).Spec (ε := ε) t
      (fun w => A w ∧ B w.commits) (perform .dropReplayLock) (fun _ w => A w ∧ B w.commits)
      fun _ => Settled t := by
  refine Spec.call (fun w w' hw hw' h hs => ⟨hA w w' hw hw' h hs.1, hB _ _ h.commits hs.2⟩)
    (fun _ _ _ => trivial) ?_
  rintro r w w' _ _ hs rfl
  exact ⟨hdrop w hs.1, by simpa using hs.2⟩

/-- From the memory that is the ledger of the file: the ledger is the one the commits lead to. -/
theorem spec_synced {ε α : Type} {k : ServiceM Text ε α} {Q : α → World Text → Prop}
    {E : ε → World Text → Prop}
    (h : ∀ m file commits pending, Contents formats file m → Ledger.Log m₀ m (entries commits) →
      (ledgerProtocol formats env hz config m₀ hdrops hpath).Spec t
        (Inside t m file commits pending) k Q E) :
    (ledgerProtocol formats env hz config m₀ hdrops hpath).Spec t (Synced formats t) k Q E := by
  rintro w hw ⟨m, hfile, hinside⟩
  obtain ⟨m', hm', hlog⟩ := hw.log
  obtain rfl := hfile.unique hm'
  exact h m _ _ _ hfile hlog w hw hinside

/-- Under the locks: the answer has its place among the commits. -/
theorem verifyLocked_ledger (hlawful : formats.Lawful) {state : AppState}
    (hstate : state.replayStatePath = some path) {receiptBytes : Bytes} {expected : Expected} :
    (ledgerProtocol formats env hz config m₀ hdrops hpath).Spec t (Entered t)
      (verifyLocked formats env state t.pid receiptBytes expected)
      (fun result w => Placed m₀ env state.verifier receiptBytes expected t result w.commits)
      fun _ => Settled t := by
  refine Spec.bind (reload_ledger hstate) fun _ => spec_synced ?_
  intro m file commits pending hfile hlog
  have hstable : (ledgerProtocol formats env hz config m₀ hdrops hpath).Stable t
      (Inside t m file commits pending) := fun _ _ _ _ h hi => hi.rely h
  have hmono : ∀ (result : VerificationResult) (l l' : List Commit), l <+: l' →
      Placed m₀ env state.verifier receiptBytes expected t result l →
      Placed m₀ env state.verifier receiptBytes expected t result l' :=
    fun _ _ _ hinitial hp => hp.mono hinitial
  have hverify : ∀ g : VerifyError → ApiError,
      (ledgerProtocol formats env hz config m₀ hdrops hpath).Spec t
        (Inside t m file commits pending)
        (mapError g (verify env state.verifier receiptBytes expected))
        (Judged env state.verifier receiptBytes expected t m file commits) fun _ => Settled t :=
    fun g => Spec.mapError (verify_ledger hfile)
  refine Spec.bind (m := reserveIssued state t.pid expected.nonce)
    ((ledger_neutral (reserveIssued_neutral ..) hstable).weaken (fun _ _ h => h)
      (fun _ _ _ h => h) fun _ _ _ h => h.settled hfile) fun reservation => ?_
  refine Spec.bind (snapshot_ledger hstate) fun previous => ?_
  rintro w hw ⟨rfl, hinside⟩
  refine Spec.bind (hverify _) (fun result => ?_) w hw hinside
  clear hinside hw w
  rintro w hw ⟨m', hseq, ⟨hinvalid, rfl, pending, hinside⟩ | ⟨hvalid, f, n, rfl, hfresh, hinside⟩⟩
  · -- the refusal has its place after all commits so far
    have hplaced : Placed m₀ env state.verifier receiptBytes expected t result w.commits := by
      refine ⟨commits, m', m', by rw [hinside.commits], hlog, hseq, ?_⟩
      intro hvalid
      cases hinvalid.symm.trans hvalid
    have hkept : (ledgerProtocol formats env hz config m₀ hdrops hpath).Stable t fun w =>
        Settled t w ∧ Placed m₀ env state.verifier receiptBytes expected t result w.commits :=
      fun _ _ _ _ h hs => ⟨hs.1.rely h, hs.2.mono h.commits⟩
    simp only [hinvalid, Bool.not_false, if_true]
    refine Spec.bind ((ledger_neutral (withReservation_neutral restore_neutral) hkept).weaken
      (fun _ _ h => h) (fun _ _ _ h => h) fun _ _ _ h => h.1) (fun _ => ?_) w hw
      ⟨hinside.settled hfile, hplaced⟩
    refine Spec.bind (dropLock_ledger (fun _ _ _ _ h hs => Settled.rely h hs) (hmono result)
      fun _ hs => hs.dropLock) fun _ => ?_
    refine Spec.bind (dropGuard_ledger (hmono result)) fun _ => ?_
    exact Spec.pure fun _ _ h => h
  · -- the acceptance has its place where its commit is
    have hplaced : ∀ l, commits ++ [⟨t, f, n⟩] <+: l →
        Placed m₀ env state.verifier receiptBytes expected t result l :=
      fun l hl => ⟨commits, m, _, (List.prefix_append ..).trans hl, hlog, hseq,
        fun _ => ⟨f, n, rfl, hl⟩⟩
    simp only [hvalid, Bool.not_true, Bool.false_eq_true, if_false]
    refine Spec.bind (persist_ledger hlawful hstate hfile hfresh) (fun _ => ?_) w hw hinside
    refine Spec.bind ((ledger_neutral (withReservation_neutral consume_neutral)
      fun _ _ _ _ h hp => Persisted.rely h hp).weaken (fun _ _ h => h) (fun _ _ _ h => h)
      fun _ _ _ h => h.settled) fun _ => ?_
    refine Spec.bind (Q := fun _ w => Placed m₀ env state.verifier receiptBytes expected t result
      w.commits) ?_ fun _ => ?_
    · refine (dropGuard_ledger (hmono result)).weaken ?_ (fun _ _ _ h => h) fun _ _ _ h => h
      exact fun w _ hp => ⟨hp.settled, hplaced _ hp.choose_spec.2.2⟩
    refine Spec.bind (Q := fun _ w => Placed m₀ env state.verifier receiptBytes expected t result
      w.commits) ?_ fun _ => Spec.pure fun _ _ h => h
    refine (dropLock_ledger (A := fun _ => True) (fun _ _ _ _ _ _ => trivial) (hmono result)
      fun _ _ => trivial).weaken (fun _ _ h => ⟨trivial, h⟩) (fun _ _ _ h => h.2)
      fun _ _ _ h => h

variable (formats env config m₀) in
/-- The answer to a request has its place among the commits. -/
def PlacedAnswer (t : CallId) : Request → Response → List Commit → Prop
  | .verify payload, .verified (.ok result), commits => ∃ receiptBytes expected,
      decodeRequest formats (config.state t.pid) payload = .ok (receiptBytes, expected) ∧
        Placed m₀ env (config.state t.pid).verifier receiptBytes expected t result commits
  | _, _, _ => True

/-- An answer of `verify_handler` has its place among the commits. -/
theorem verifyHandler_ledger (hlawful : formats.Lawful) (payload : VerifyRequest) :
    (ledgerProtocol formats env hz config m₀ hdrops hpath).Spec t (fun _ => True)
      (verifyHandler formats env (config.state t.pid) t.pid payload)
      (fun result w => PlacedAnswer formats env config m₀ t (.verify payload)
        (.verified (.ok result)) w.commits) fun _ _ => True := by
  have hstate := hpath t.pid
  refine Spec.bind (Q := fun request _ =>
    decodeRequest formats (config.state t.pid) payload = .ok request) ?_ ?_
  · exact Spec.ensure (fun _ h _ _ _ => h) fun _ _ _ _ _ => trivial
  rintro ⟨receiptBytes, expected⟩
  intro w hw hdecode
  refine Spec.bind (A := fun _ => True) (Q := fun _ => Settled t) ?_ (fun _ => ?_) w hw trivial
  · simp only [acquireGuard, hstate]
    refine Spec.call (A := fun _ => True) (fun _ _ _ _ _ _ => trivial) (fun _ _ _ => trivial) ?_
    rintro r w w' hw _ _ ⟨p, hp, hfree, rfl⟩
    obtain ⟨m, hm, hempty⟩ := hw.memories t.pid p hp
    exact ⟨m, ⟨_, Function.update_self .., rfl, hm⟩, hempty hfree⟩
  refine Spec.leaving (E := fun _ => Settled t) ?_ (fun _ _ _ _ _ h hs => hs.rely h)
    (fun _ _ _ hs => hs) fun _ _ _ _ _ _ _ _ => trivial
  refine Spec.bind (Q := fun _ => Entered t) ?_ fun _ => ?_
  · simp only [acquireFileLock, hstate]
    refine Spec.bind (Q := fun _ => Settled t) ?_ fun _ => ?_
    · exact Spec.ensure (fun _ _ _ _ h => h) fun _ _ _ _ h => h
    · refine Spec.attempt (o := Op.acquireReplayLock) rfl
        (fun _ _ _ _ h hs => Settled.rely h hs) (fun _ _ _ => trivial) ?_
      rintro r w w' _ _ hs (⟨rfl, _, rfl⟩ | ⟨_, ⟨e, rfl⟩, rfl⟩)
      · exact ⟨hs, rfl⟩
      · exact hs
  refine Spec.leaving (E := fun _ => Settled t) ?_ (fun _ _ _ _ _ h hs => hs.rely h)
    (fun _ _ _ _ => trivial) ?_
  · refine (verifyLocked_ledger hlawful hstate).weaken (fun _ _ h => h) ?_ fun _ _ _ h => h
    exact fun result w _ hplaced => ⟨receiptBytes, expected, hdecode, hplaced⟩
  · rintro e r w w' _ _ hs rfl
    exact hs.dropLock

/-- An answer keeps its place when commits are added. -/
theorem PlacedAnswer.mono {c : Request} {a : Response} {l l' : List Commit} (hinitial : l <+: l')
    (h : PlacedAnswer formats env config m₀ t c a l) :
    PlacedAnswer formats env config m₀ t c a l' := by
  match c, a with
  | .verify payload, .verified (.ok result) =>
    obtain ⟨receiptBytes, expected, hdecode, hplaced⟩ := h
    exact ⟨receiptBytes, expected, hdecode, hplaced.mono hinitial⟩
  | .verify _, .verified (.error _) => trivial
  | .verify _, .challenged _ => trivial
  | .challenge, _ => trivial

/-- Every call keeps to the rules of the ledger, and its answer has its place. -/
theorem ledgerKeeping (hlawful : formats.Lawful) :
    (ledgerProtocol formats env hz config m₀ hdrops hpath).Keeping
      fun t c a w => PlacedAnswer formats env config m₀ t c a w.commits where
  post_later _ _ _ _ _ hlater h := h.mono hlater
  post_rely _ _ _ _ _ _ _ hrely h := h.mono hrely.commits
  programs := by
    rintro t c w w' _ _ hw'
    cases c with
    | verify payload =>
      refine Triple.bind (verifyHandler_ledger hlawful payload) ?_ w' hw' trivial
      intro x
      cases x with
      | ok result => exact Triple.ret fun _ _ h => h
      | error e => exact Triple.ret fun _ _ _ => trivial
    | challenge =>
      have hspec : (ledgerProtocol formats env hz config m₀ hdrops hpath).Spec t (fun _ => True)
          (challengeHandler (config.state t.pid)) (fun _ _ => True) fun _ _ => True :=
        ledger_neutral (challengeHandler_neutral _) fun _ _ _ _ _ _ => trivial
      refine Triple.bind hspec ?_ w' hw' trivial
      exact fun x => Triple.ret fun _ _ _ => by cases x <;> trivial

end Specs

/-- At rest the state file is the ledger. -/
theorem World.AtRest.ledgerInv {w : World Text} (h : w.AtRest)
    (hfile : Contents formats w.file m₀) : LedgerInv formats m₀ w where
  slots := by
    intro name t hs
    cases (h.slots name).symm.trans hs
  memories := by
    intro pid p hp
    cases (h.procs pid).symm.trans hp
  log := by
    refine ⟨m₀, hfile, ?_⟩
    rw [h.commits]
    exact .nil

variable (formats env config m₀) in
/-- The service is one ledger: the state file contains the initial ledger with the commits
recorded in order, and every answer has its place among them. -/
structure OneLedger (s : MachineState CallId Request Response (World Text) (Res Text)) : Prop where
  file : ∃ m, Contents formats s.world.file m ∧ Ledger.Log m₀ m (entries s.world.commits)
  answers : ∀ t c a, (t, c, a) ∈ s.answers →
    PlacedAnswer formats env config m₀ t c a s.world.commits

/-- While calls are not dropped, any number of processes serve as one verifier with one ledger,
whatever fails or crashes. -/
theorem service_oneLedger (hlawful : formats.Lawful) {path : StatePath}
    (hpath : ∀ pid, (config.state pid).replayStatePath = some path) (hdrops : hz.drops = false)
    {w : World Text} (hw : w.AtRest) (hfile : Contents formats w.file m₀)
    {s : MachineState CallId Request Response (World Text) (Res Text)}
    (h : (service formats env hz config).Reachable w s) : OneLedger formats env config m₀ s := by
  have hkeeping : (ledgerProtocol formats env hz config m₀ hdrops hpath).Keeping
      fun t c a w => PlacedAnswer formats env config m₀ t c a w.commits := ledgerKeeping hlawful
  have hsafe := hkeeping.reachable (hw.ledgerInv hfile) h
  exact ⟨hsafe.inv.log, hsafe.answers⟩

end Rules

namespace Transparent

open Veriai.Transparent Machine

/-- Two processes answer valid from one ledger that begins empty: the second one receipt number 2,
after the number that the first one has entered. -/
theorem service_oneLedger_twice :
    ∃ s result result',
      (service formats primitives faulty config).Reachable (World.initial none) s ∧
      s.answers = [(⟨0, 0⟩, .verify (payload 1), .verified (.ok result)),
        (⟨1, 0⟩, .verify (payload 2), .verified (.ok result'))] ∧
      result.valid = true ∧ result'.valid = true ∧ OneLedger formats primitives config ∅ s := by
  obtain ⟨text, text', result, result', -, -, hvalid, hvalid', hreach⟩ :=
    reaches_second faulty (fun _ _ _ => trivial) (fun _ _ _ _ _ => trivial)
  exact ⟨_, result, result', hreach.of_under, rfl, hvalid, hvalid',
    service_oneLedger lawful (fun _ => rfl) rfl (World.atRest_initial none) rfl hreach.of_under⟩

end Transparent

end Veriai.Service
