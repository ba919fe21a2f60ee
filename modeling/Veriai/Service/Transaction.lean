import Veriai.Service.Reading

/-!
# The transaction of the verify handler

What writing the state file needs and leaves, and from it the whole handler: a
call that answers valid has renamed, before, a temporary file that records the
identity of its receipt.
-/

namespace Veriai.Service

open Handler Protocol

variable {Text : Type} {formats : Formats Text} {env : Primitives} {hz : Hazards} {config : Config}
variable {t : CallId}

variable (formats hz) in
/-- The state to be written, as taken from the memory. -/
def Snapped (t : CallId) (f : Fingerprint) (n : UInt64) (state : ReplayMap) (w : World Text) :
    Prop :=
  Holding t w ∧ Undisturbed hz t w ∧ w.pending t = some (f, n) ∧ ∃ before : ReplayMap,
    state = before.insert f n ∧ Ledger.Fresh before f n ∧ Covers formats t before w

variable (formats hz) in
/-- A name is drawn for the temporary file, and if it says so the file holds the text. -/
def Drawn (t : CallId) (name : TempName) (text : Text) (f : Fingerprint) (n : UInt64)
    (filled : Bool) (w : World Text) : Prop :=
  Encoded formats hz t text f n w ∧ w.slots name = some t ∧
    (filled = true → w.temps name = some text)

/-- The guard is held and the name drawn for the temporary file is still the call's. -/
def Named (t : CallId) (name : TempName) (w : World Text) : Prop :=
  Holding t w ∧ w.slots name = some t

section Stable

variable {w w' : World Text}

theorem Snapped.rely {f : Fingerprint} {n : UInt64} {state : ReplayMap}
    (hbase : w.base t ≤ w.version) (h : Rely hz t w w') (hs : Snapped formats hz t f n state w) :
    Snapped formats hz t f n state w' := by
  obtain ⟨hh, hu, hp, before, hstate, hfresh, hcovers⟩ := hs
  exact ⟨hh.rely h, hu.rely h, h.pending.trans hp, before, hstate, hfresh, hcovers.rely hbase h⟩

theorem Drawn.rely {name : TempName} {text : Text} {f : Fingerprint} {n : UInt64} {filled : Bool}
    (hbase : w.base t ≤ w.version) (h : Rely hz t w w')
    (hd : Drawn formats hz t name text f n filled w) :
    Drawn formats hz t name text f n filled w' := by
  obtain ⟨he, hs, ht⟩ := hd
  obtain ⟨hs', ht'⟩ := h.slots name hs
  exact ⟨he.rely hbase h, hs', fun hf => ht'.trans (ht hf)⟩

theorem Drawn.named {name : TempName} {text : Text} {f : Fingerprint} {n : UInt64} {filled : Bool}
    (hd : Drawn formats hz t name text f n filled w) : Named t name w := ⟨hd.1.1, hd.2.1⟩

theorem Named.rely {name : TempName} (h : Rely hz t w w') (hn : Named t name w) :
    Named t name w' := ⟨hn.1.rely h, (h.slots name hn.2).1⟩

/-- A filled temporary file is ready to be renamed. -/
theorem Drawn.ready {name : TempName} {text : Text} {f : Fingerprint} {n : UInt64}
    (hd : Drawn formats hz t name text f n true w) : Ready formats hz t name w := by
  obtain ⟨⟨_, hu, hp, state, hfresh, hcovers, htext⟩, hs, ht⟩ := hd
  exact ⟨hs, hu, text, state, f, n, ht rfl, hp, hfresh, hcovers, htext⟩

end Stable

/-- Filling the temporary file and renaming it records the number. -/
theorem writeState_spec {name : TempName} {text : Text} {f : Fingerprint} {n : UInt64} :
    (replayProtocol formats env hz config).Spec t (Drawn formats hz t name text f n false)
      (writeState name text) (fun _ w => Committed t f n w ∧ Holding t w)
      fun _ => Named t name := by
  have hstable : ∀ filled, (replayProtocol formats env hz config).Stable t
      (Drawn formats hz t name text f n filled) :=
    fun filled w w' hw _ h hd => hd.rely (hw.base t) h
  refine Spec.attempt_bind (o := Op.setTemporaryPermissions name)
    (Q := fun _ => Drawn formats hz t name text f n false) rfl (hstable _) (fun _ _ _ => trivial)
    ?_ fun _ => ?_
  · rintro r w w' _ _ hd ⟨⟨rfl, rfl⟩ | ⟨_, ⟨e, rfl⟩, rfl⟩, _⟩
    · exact hd
    · exact hd.named
  refine Spec.attempt_bind (o := Op.writeTemporary name text)
    (Q := fun _ => Drawn formats hz t name text f n true) rfl (hstable _) (fun _ _ hd => hd.2.1)
    ?_ fun _ => ?_
  · rintro r w w' _ _ hd ⟨⟨_, ⟨rfl, rfl⟩ | ⟨_, ⟨e, rfl⟩, _, rfl⟩⟩, _⟩
    · exact ⟨hd.1, hd.2.1, fun _ => Function.update_self ..⟩
    · exact hd.named
  refine Spec.attempt_bind (o := Op.syncTemporary name)
    (Q := fun _ => Drawn formats hz t name text f n true) rfl (hstable _) (fun _ _ _ => trivial)
    ?_ fun _ => ?_
  · rintro r w w' _ _ hd ⟨⟨rfl, rfl⟩ | ⟨_, ⟨e, rfl⟩, rfl⟩, _⟩
    · exact hd
    · exact hd.named
  refine Spec.attempt_bind (o := Op.renameTemporary name)
    (Q := fun _ w => Committed t f n w ∧ Named t name w) rfl (hstable _)
    (fun _ _ hd => hd.ready) ?_ fun _ => ?_
  · rintro r w w' _ _ hd ⟨⟨text', _, rfl, rfl⟩ | ⟨_, ⟨e, rfl⟩, rfl⟩ | ⟨_, ⟨e, rfl⟩, rfl⟩, _⟩
    · have hpending := hd.1.2.2.1
      refine ⟨?_, hd.named⟩
      simp [Committed, World.replace, hpending]
    · exact hd.named
    · exact hd.named
  refine Spec.attempt (o := Op.syncParent) rfl ?_ (fun _ _ _ => trivial) ?_
  · exact fun w w' _ _ h hd => ⟨hd.1.rely h, hd.2.rely h⟩
  · rintro r w w' _ _ hd ⟨⟨rfl, rfl⟩ | ⟨_, ⟨e, rfl⟩, rfl⟩, _⟩
    · exact ⟨hd.1, hd.2.1⟩
    · exact hd.2

/-- The state in memory is the one the number was recorded in. -/
theorem snapped_of_getState {f : Fingerprint} {n : UInt64} {replay : Option ReplayMutex}
    {state : ReplayMap} {w : World Text} (hm : Memory t replay w) (hu : Undisturbed hz t w)
    (hp : w.pending t = some (f, n))
    (hc : ∀ m, replay = some m → ∃ before : ReplayMap, m.map = before.insert f n ∧
      Ledger.Fresh before f n ∧ Covers formats t before w)
    (hget : getState replay = .ok (some state)) : Snapped formats hz t f n state w := by
  cases replay with
  | none => simp [getState] at hget
  | some m =>
    obtain ⟨before, hmap, hfresh, hcovers⟩ := hc m rfl
    unfold getState at hget
    dsimp only at hget
    split at hget
    · cases hget
    · obtain rfl := Option.some.inj (Except.ok.inj hget)
      exact ⟨⟨_, hm⟩, hu, hp, before, hmap, hfresh, hcovers⟩

/-- A successful `persist_replay_state` has committed the number. -/
theorem persistReplayState_spec (hlawful : formats.Lawful) {path : StatePath} {f : Fingerprint}
    {n : UInt64} :
    (replayProtocol formats env hz config).Spec t (Accepted formats hz t f n)
      (persistReplayState formats t.pid path) (fun _ w => Committed t f n w ∧ Holding t w)
      fun _ => Holding t := by
  have hsnapped : ∀ state, (replayProtocol formats env hz config).Stable t
      (Snapped formats hz t f n state) := fun state w w' hw _ h hs => hs.rely (hw.base t) h
  refine Spec.attempt_bind (o := Op.getState) (Q := fun r w => Holding t w ∧
    ∀ state, r = some state → Snapped formats hz t f n state w) rfl ?_ (fun _ _ _ => trivial) ?_ ?_
  · exact fun w w' hw _ h ha => ha.rely (hw.base t) h
  · rintro r w w' _ _ ⟨replay, hm, hu, hp, hc⟩ ⟨⟨p, hproc, rfl, rfl⟩, _⟩
    obtain ⟨q, hq, hheld, rfl⟩ := hm
    obtain rfl := Option.some.inj (hproc.symm.trans hq)
    have hmemory : Memory t p.verifier w' := ⟨p, hproc, hheld, rfl⟩
    cases hget : getState p.verifier with
    | error e => exact ⟨_, hmemory⟩
    | ok r =>
      refine ⟨⟨_, hmemory⟩, ?_⟩
      rintro state rfl
      exact snapped_of_getState hmemory hu hp hc hget
  intro r
  refine Spec.bind (Q := Snapped formats hz t f n) ?_ fun state => ?_
  · refine Spec.ensure ?_ fun _ _ _ _ h => h.1
    intro state hr w _ h
    exact h.2 state (okOr_eq_ok.mp hr)
  refine Spec.bind (Q := fun order w => Snapped formats hz t f n state w ∧
    order.toFinmap = encodeMembers state) ?_ fun order => ?_
  · refine Spec.call (hsnapped state) (fun _ _ _ => trivial) ?_
    rintro order w w' _ _ hs ⟨⟨hmembers, rfl⟩, _⟩
    exact ⟨hs, hmembers⟩
  refine Spec.bind (Q := fun text => Encoded formats hz t text f n) ?_ fun text => ?_
  · refine Spec.ensure ?_ fun _ _ _ _ h => h.1.1
    rintro text htext w _ ⟨⟨hh, hu, hp, before, rfl, hfresh, hcovers⟩, hmembers⟩
    refine ⟨hh, hu, hp, before, hfresh, hcovers, ?_⟩
    rw [hlawful.roundTrip order text (mapError_eq_ok.mp htext), hmembers]
  have hencoded : (replayProtocol formats env hz config).Stable t
      (Encoded formats hz t text f n) := fun w w' hw _ h he => he.rely (hw.base t) h
  refine Spec.bind (Q := fun _ => Encoded formats hz t text f n) ?_ fun _ => ?_
  · exact Spec.ensure (fun _ _ _ _ h => h) fun _ _ _ _ h => h.1
  refine Spec.bind (Q := fun counter => Drawn formats hz t ⟨t.pid, counter⟩ text f n false) ?_
    fun counter => ?_
  · refine Spec.call hencoded (fun _ _ _ => trivial) ?_
    rintro counter w w' hw _ he ⟨hexec, _⟩
    change exec env hz t Op.nextTempFile counter w w' at hexec
    have hrely : Rely hz t w w' := exec_neutral (Or.inr rfl) hw hexec
    obtain ⟨p, hp, rfl, rfl⟩ := hexec
    exact ⟨he.rely (hw.base t) hrely, Function.update_self .., fun h => Bool.noConfusion h⟩
  refine Spec.attempt_bind (o := Op.createTemporary ⟨t.pid, counter⟩)
    (Q := fun _ => Drawn formats hz t ⟨t.pid, counter⟩ text f n false) rfl ?_ (fun _ _ hd => hd.2.1)
    ?_ fun _ => ?_
  · exact fun w w' hw _ h hd => hd.rely (hw.base t) h
  · rintro r w w' _ _ hd ⟨⟨rfl, _, _, rfl⟩ | ⟨⟨e, rfl⟩, _, rfl⟩ | ⟨_, ⟨e, rfl⟩, rfl⟩, _⟩
    · exact ⟨hd.1, hd.2.1, fun h => Bool.noConfusion h⟩
    · exact hd.1.1
    · exact hd.1.1
  refine Spec.bind (Spec.outcome writeState_spec) ?_
  rintro (e | u)
  · refine Spec.bind (Q := fun _ => Holding t) ?_ fun _ => Spec.throw fun _ _ h => h
    refine Spec.call (fun _ _ _ _ h hn => Named.rely h hn) (fun _ _ hn => hn.2) ?_
    rintro r w w' _ _ hn ⟨⟨_, _, rfl⟩ | ⟨_, _, rfl⟩ | ⟨_, _, rfl⟩, _⟩ <;> exact hn.1
  · exact Spec.pure fun _ _ h => h

/-- With the rollback, the guard stays held on a failure as well. -/
theorem persistReplayStateOrRollback_spec (hlawful : formats.Lawful) {path : StatePath}
    {f : Fingerprint} {n : UInt64} {previous : ReplayMap} :
    (replayProtocol formats env hz config).Spec t (Accepted formats hz t f n)
      (persistReplayStateOrRollback formats t.pid path previous) (fun _ => Committed t f n)
      fun _ => Holding t := by
  refine Spec.bind (Spec.outcome (persistReplayState_spec hlawful)) ?_
  rintro (e | u)
  · refine Spec.attempt_bind (o := Op.setState previous) (Q := fun _ => Holding t) rfl
      (fun _ _ _ _ h hh => Holding.rely h hh) (fun _ _ hh => hh) ?_
      fun _ => Spec.throw fun _ _ h => h
    rintro r w w' _ _ ⟨replay, p, hp, hheld, rfl⟩ ⟨⟨q, hq, rfl, rfl⟩, _⟩
    obtain rfl := Option.some.inj (hp.symm.trans hq)
    have hholding : Holding t (w.setProc t.pid
        (some { p with verifier := (setState previous p.verifier).2 })) :=
      ⟨_, _, Function.update_self .., hheld, rfl⟩
    cases (setState previous p.verifier).1 <;> exact hholding
  · exact Spec.pure fun _ _ h => h.1

/-- A valid answer rests on a commit of the call for its receipt. -/
def Rests (env : Primitives) (t : CallId) (receiptBytes : Bytes) (result : VerificationResult)
    (w : World Text) : Prop :=
  result.valid = true → ∃ f n, receiptIdentity env receiptBytes = some (f, n) ∧ Committed t f n w

/-- What was accepted is committed where persisting succeeds. -/
theorem persist_spec (hlawful : formats.Lawful) {state : AppState} {path : StatePath}
    (hstate : state.replayStatePath = some path) {f : Fingerprint} {n : UInt64}
    {previous : Option ReplayMap} {reservation : Option ReservedName} :
    (replayProtocol formats env hz config).Spec t (Accepted formats hz t f n)
      (persist formats state t.pid previous reservation) (fun _ => Committed t f n)
      fun _ _ => True := by
  simp only [persist, hstate]
  refine Spec.bind (Spec.outcome (persistReplayStateOrRollback_spec hlawful)) ?_
  rintro (e | u)
  · refine Spec.bind (spec_neutral formats env hz config (withReservation_neutral restore_neutral)
      fun _ _ _ _ h hh => Holding.rely h hh).loose fun _ => ?_
    exact Spec.throw fun _ _ _ => trivial
  · exact Spec.pure fun _ _ h => h

/-- Leaving the transaction keeps what is recorded of it. -/
theorem release_spec {o : Op Text} (ho : o = .dropReplayLock ∨ o = .dropReplayGuard) {ε : Type}
    {A : List Commit → Prop} (hA : ∀ l l', l ⊆ l' → A l → A l') :
    (replayProtocol formats env hz config).Spec (ε := ε) t (fun w => A w.commits) (perform o)
      (fun _ w => A w.commits) fun _ _ => True := by
  rcases ho with rfl | rfl
  · refine Spec.call (fun w w' _ _ h ha => hA _ _ h.commits ha) (fun _ _ _ => trivial) ?_
    rintro r w w' _ _ ha ⟨rfl, _⟩
    simpa using ha
  · refine Spec.call (fun w w' _ _ h ha => hA _ _ h.commits ha) (fun _ _ _ => trivial) ?_
    rintro r w w' _ _ ha ⟨rfl, _⟩
    simpa using ha

/-- Under the locks: a valid answer rests on a commit. -/
theorem verifyLocked_spec (hlawful : formats.Lawful) {state : AppState} {path : StatePath}
    (hstate : state.replayStatePath = some path) {receiptBytes : Bytes} {expected : Expected} :
    (replayProtocol formats env hz config).Spec t (Locked hz t)
      (verifyLocked formats env state t.pid receiptBytes expected) (Rests env t receiptBytes)
      fun _ _ => True := by
  have hloaded : (replayProtocol formats env hz config).Stable t (Loaded formats hz t) :=
    fun w w' hw _ h hl => hl.rely (hw.base t) h
  refine Spec.bind (reload_spec hstate).loose fun _ => ?_
  refine Spec.bind (spec_neutral formats env hz config (reserveIssued_neutral ..) hloaded).loose
    fun reservation => ?_
  refine Spec.bind (spec_neutral formats env hz config (snapshot_neutral _) hloaded).loose
    fun previous => ?_
  refine Spec.bind (Spec.mapError verify_spec.loose) fun result => ?_
  cases hvalid : result.valid with
  | false =>
    refine Spec.bind (Q := fun _ _ => True) ?_ fun _ => ?_
    · refine (spec_neutral formats env hz config (A := fun _ => True)
        (withReservation_neutral restore_neutral) fun _ _ _ _ _ _ => trivial).weaken
        (fun _ _ _ => trivial) (fun _ _ _ h => h) fun _ _ _ h => h
    refine Spec.bind (release_spec (A := fun _ => True) (Or.inl rfl) fun _ _ _ h => h) fun _ => ?_
    refine Spec.bind (release_spec (A := fun _ => True) (Or.inr rfl) fun _ _ _ h => h) fun _ => ?_
    refine Spec.pure ?_
    intro w _ _ htrue
    rw [hvalid] at htrue
    cases htrue
  | true =>
    intro w hw hverified
    rcases hverified with ⟨hfalse, _⟩ | ⟨_, f, n, hidentity, haccepted⟩
    · rw [hvalid] at hfalse
      cases hfalse
    · have hcommitted : (replayProtocol formats env hz config).Stable t (Committed t f n) :=
        fun _ _ _ _ h hc => hc.rely h
      have hmono : ∀ l l' : List Commit, l ⊆ l' → ⟨t, f, n⟩ ∈ l → ⟨t, f, n⟩ ∈ l' :=
        fun _ _ hsub hc => hsub hc
      refine Spec.bind (persist_spec hlawful hstate) (fun _ => ?_) w hw haccepted
      refine Spec.bind (spec_neutral formats env hz config
        (withReservation_neutral consume_neutral) hcommitted).loose fun _ => ?_
      refine Spec.bind (release_spec (A := fun l => ⟨t, f, n⟩ ∈ l) (Or.inr rfl) hmono) fun _ => ?_
      refine Spec.bind (release_spec (A := fun l => ⟨t, f, n⟩ ∈ l) (Or.inl rfl) hmono) fun _ => ?_
      exact Spec.pure fun _ _ hc _ => ⟨f, n, hidentity, hc⟩

/-- The request decodes, and a valid answer rests on a commit for its receipt. -/
def Answered (formats : Formats Text) (env : Primitives) (config : Config) (t : CallId)
    (payload : VerifyRequest) (result : VerificationResult) (w : World Text) : Prop :=
  result.valid = true → ∃ receiptBytes expected f n,
    decodeRequest formats (config.state t.pid) payload = .ok (receiptBytes, expected) ∧
      receiptIdentity env receiptBytes = some (f, n) ∧ Committed t f n w

variable (env hz) in
/-- A call of `verify_handler` that answers valid has committed the identity of its receipt. -/
theorem verifyHandler_spec (hlawful : formats.Lawful) {path : StatePath}
    (hstate : (config.state t.pid).replayStatePath = some path) (payload : VerifyRequest) :
    (replayProtocol formats env hz config).Spec t (fun _ => True)
      (verifyHandler formats env (config.state t.pid) t.pid payload)
      (Answered formats env config t payload) fun _ _ => True := by
  refine Spec.bind (Q := fun request _ =>
    decodeRequest formats (config.state t.pid) payload = .ok request) ?_ ?_
  · exact Spec.ensure (fun _ h _ _ _ => h) fun _ _ _ _ _ => trivial
  rintro ⟨receiptBytes, expected⟩
  intro w hw hdecode
  refine Spec.bind (A := fun _ => True) (Q := fun _ => Holding t) ?_ (fun _ => ?_) w hw trivial
  · simp only [acquireGuard, hstate]
    refine Spec.call (A := fun _ => True) (fun _ _ _ _ _ _ => trivial) (fun _ _ _ => trivial) ?_
    rintro r w w' _ _ _ ⟨⟨p, hp, _, rfl⟩, _⟩
    exact ⟨_, _, Function.update_self .., rfl, rfl⟩
  refine Spec.leaving (E := fun _ _ => True) ?_ (fun _ _ _ _ _ _ _ => trivial)
    (fun _ _ _ _ => trivial) fun _ _ _ _ _ _ _ _ => trivial
  refine Spec.bind (Q := fun _ => Locked hz t) ?_ fun _ => ?_
  · simp only [acquireFileLock, hstate]
    refine Spec.bind (Q := fun _ => Holding t) ?_ fun _ => ?_
    · exact Spec.ensure (fun _ _ _ _ h => h) fun _ _ _ _ _ => trivial
    · refine Spec.attempt (o := Op.acquireReplayLock) rfl
        (fun _ _ _ _ h hh => Holding.rely h hh) (fun _ _ _ => trivial) ?_
      rintro r w w' _ _ hh ⟨⟨rfl, _, rfl⟩ | ⟨_, ⟨e, rfl⟩, rfl⟩, _⟩
      · exact ⟨hh, fun _ => rfl⟩
      · trivial
  refine Spec.leaving (E := fun _ _ => True) ?_ (fun _ _ _ _ _ _ _ => trivial)
    (fun _ _ _ _ => trivial) fun _ _ _ _ _ _ _ _ => trivial
  refine (verifyLocked_spec hlawful hstate).weaken (fun _ _ h => h) ?_ fun _ _ _ h => h
  intro result w _ hrests hvalid
  obtain ⟨f, n, hidentity, hcommitted⟩ := hrests hvalid
  exact ⟨receiptBytes, expected, f, n, hdecode, hidentity, hcommitted⟩

end Veriai.Service
