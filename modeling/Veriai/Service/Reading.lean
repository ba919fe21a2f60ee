import Veriai.Receipt.Restart
import Veriai.Service.Replay

/-!
# Reading the state and checking the number

What a call of `verify_handler` knows under the rules of the replay state until
its receipt is accepted: reloading gives the memory what the state file records,
and an accepted number is fresh above it.
-/

namespace Veriai.Service

open Handler Protocol

variable {Text : Type} {formats : Formats Text} {env : Primitives} {hz : Hazards} {config : Config}
variable {t : CallId}

/-- The call holds the guard of its process. -/
def Holding (t : CallId) (w : World Text) : Prop := ∃ replay, Memory t replay w

variable (hz) in
/-- The call holds the guard and, unless calls may be dropped, the file lock. -/
def Locked (t : CallId) (w : World Text) : Prop :=
  Holding t w ∧ (hz.drops = false → w.fileLock = some t)

variable (hz) in
/-- The call has read this text from the state file. -/
def HasRead (t : CallId) (text : Text) (w : World Text) : Prop :=
  Holding t w ∧ Undisturbed hz t w ∧ (w.base t = w.version → w.file = some text)

variable (formats hz) in
/-- The memory of the process covers the state file. -/
def Loaded (t : CallId) (w : World Text) : Prop :=
  ∃ replay, Memory t replay w ∧ Undisturbed hz t w ∧
    ∀ m, replay = some m → Covers formats t m.map w

variable (formats hz) in
/-- The number `n` was fresh, and the memory records it. -/
def Accepted (t : CallId) (f : Fingerprint) (n : UInt64) (w : World Text) : Prop :=
  ∃ replay, Memory t replay w ∧ Undisturbed hz t w ∧ w.pending t = some (f, n) ∧
    ∀ m, replay = some m → ∃ state : ReplayMap, m.map = state.insert f n ∧
      Ledger.Fresh state f n ∧ Covers formats t state w

variable (formats hz) in
/-- The text to be written records the number `n` as well. -/
def Encoded (t : CallId) (text : Text) (f : Fingerprint) (n : UInt64) (w : World Text) : Prop :=
  Holding t w ∧ Undisturbed hz t w ∧ w.pending t = some (f, n) ∧ ∃ state : ReplayMap,
    Ledger.Fresh state f n ∧ Covers formats t state w ∧
      formats.fromSlice text = .ok (encodeMembers (state.insert f n))

/-- The call has replaced the state file by one that records the number `n`. -/
def Committed (t : CallId) (f : Fingerprint) (n : UInt64) (w : World Text) : Prop :=
  ⟨t, f, n⟩ ∈ w.commits

section Stable

variable {w w' : World Text}

/-- The others leave the guard. -/
theorem Holding.rely (h : Rely hz t w w') (hh : Holding t w) : Holding t w' := by
  obtain ⟨replay, hm⟩ := hh
  exact ⟨replay, h.memory replay hm⟩

/-- The others leave the locks. -/
theorem Locked.rely (h : Rely hz t w w') (hl : Locked hz t w) : Locked hz t w' :=
  ⟨hl.1.rely h, fun hd => (h.lock (hl.2 hd)).1⟩

/-- The others do not change what was read under the lock. -/
theorem HasRead.rely {text : Text} (hbase : w.base t ≤ w.version) (h : Rely hz t w w')
    (hr : HasRead hz t text w) : HasRead hz t text w' := by
  refine ⟨hr.1.rely h, hr.2.1.rely h, ?_⟩
  intro hv
  have hb := h.base
  have hle := h.version
  have hsame : w'.version = w.version := by omega
  rw [h.file hsame]
  exact hr.2.2 (by omega)

/-- The others leave the memory, which still covers the file. -/
theorem Loaded.rely (hbase : w.base t ≤ w.version) (h : Rely hz t w w')
    (hl : Loaded formats hz t w) : Loaded formats hz t w' := by
  obtain ⟨replay, hm, hu, hc⟩ := hl
  exact ⟨replay, h.memory replay hm, hu.rely h, fun m he => (hc m he).rely hbase h⟩

/-- The others leave an accepted number fresh above the file. -/
theorem Accepted.rely {f : Fingerprint} {n : UInt64} (hbase : w.base t ≤ w.version)
    (h : Rely hz t w w') (ha : Accepted formats hz t f n w) : Accepted formats hz t f n w' := by
  obtain ⟨replay, hm, hu, hp, hc⟩ := ha
  refine ⟨replay, h.memory replay hm, hu.rely h, h.pending.trans hp, ?_⟩
  intro m he
  obtain ⟨state, hmap, hfresh, hcovers⟩ := hc m he
  exact ⟨state, hmap, hfresh, hcovers.rely hbase h⟩

/-- The others leave an encoded state ahead of the file. -/
theorem Encoded.rely {text : Text} {f : Fingerprint} {n : UInt64} (hbase : w.base t ≤ w.version)
    (h : Rely hz t w w') (he : Encoded formats hz t text f n w) :
    Encoded formats hz t text f n w' := by
  obtain ⟨hh, hu, hp, state, hfresh, hcovers, htext⟩ := he
  exact ⟨hh.rely h, hu.rely h, h.pending.trans hp, state, hfresh, hcovers.rely hbase h, htext⟩

/-- A commit is never taken back. -/
theorem Committed.rely {f : Fingerprint} {n : UInt64} (h : Rely hz t w w')
    (hc : Committed t f n w) : Committed t f n w' := h.commits hc

end Stable

/-- What a call may do at any time without disturbing its own knowledge. -/
def Neutral (o : Op Text) : Prop := OnlyLooks o ∨ o = .nextTempFile

/-- A neutral operation of one call is nothing to count with for any call. -/
theorem exec_neutral {o : Op Text} {r : Res Text o} {w w' : World Text} (ho : Neutral o)
    (hw : ReplayInv formats w) (h : exec env hz t o r w w') : Rely hz t w w' := by
  rcases ho with ho | rfl
  · exact (exec_quiet ho h).rely t
  · obtain ⟨p, hp, _, rfl⟩ := h
    have hset : Rely hz t w (w.setProc t.pid (some { p with counter := p.counter + 1 })) :=
      rely_setProc hp fun hheld => ⟨hheld, rfl⟩
    exact hset.trans (rely_slots (World.NamesDrawn.next_free hw.slots hp))

/-- A neutral operation is always permitted. -/
theorem neutral_permitted {o : Op Text} (ho : Neutral o) (w : World Text) :
    mayPerform formats hz t o w := by
  rcases ho with ho | rfl
  · cases o <;> trivial
  · trivial

variable (formats env hz config) in
/-- A part of a handler that is neutral keeps what the call knows. -/
theorem spec_neutral {ε α : Type} {m : ServiceM Text ε α} {A : World Text → Prop}
    (hm : Handler.All Neutral m) (hA : (replayProtocol formats env hz config).Stable t A) :
    (replayProtocol formats env hz config).Spec t A m (fun _ => A) fun _ => A :=
  Spec.of_all hm hA (fun _ w ho => neutral_permitted ho w) fun _ _ _ _ ho hw h =>
    exec_neutral ho hw h.1

/-- Reserving a challenge is neutral. -/
theorem reserveChallenge_neutral (pid : Nat) (path : StatePath) (nonce : ByteArr 32) :
    Handler.All Neutral (reserveChallenge pid path nonce : ServiceM Text String ReservedName) := by
  refine .bind (.ensure _) fun _ => .bind (.call (.inl trivial)) fun _ => .bind (.ensure _) fun _ =>
    .bind (.ensure _) fun _ => .bind (.call (.inl trivial)) fun _ => .bind (.ensure _) fun now => ?_
  split
  · exact .bind (.call (.inl trivial)) fun _ => .throw _
  · exact .bind (.call (.inr rfl)) fun _ => .bind (.call (.inl trivial)) fun _ =>
      .bind (.ensure _) fun _ => .bind (.call (.inl trivial)) fun _ => .bind (.ensure _) fun _ =>
        .pure _

/-- So it is where one is required. -/
theorem reserveIssued_neutral (state : AppState) (pid : Nat) (nonce : ByteArr 32) :
    Handler.All Neutral
      (reserveIssued state pid nonce : ServiceM Text ApiError (Option ReservedName)) := by
  unfold reserveIssued
  split
  · exact .bind (.ensure _) fun path =>
      .bind (.mapError (reserveChallenge_neutral pid path nonce)) fun _ => .pure _
  · exact .pure _

/-- Taking the memory down is neutral. -/
theorem snapshot_neutral (state : AppState) :
    Handler.All Neutral (snapshot state : ServiceM Text ApiError (Option ReplayMap)) := by
  unfold snapshot
  split
  · exact .bind (.call (.inl trivial)) fun _ => .ensure _
  · exact .pure _

/-- Giving a challenge back is neutral. -/
theorem restore_neutral (name : ReservedName) :
    Handler.All Neutral (restore name : ServiceM Text String Unit) :=
  .bind (.call (.inl trivial)) fun _ => .bind (.ensure _) fun _ =>
    .bind (.call (.inl trivial)) fun _ => .ensure _

/-- Consuming a challenge is neutral. -/
theorem consume_neutral (name : ReservedName) :
    Handler.All Neutral (consume name : ServiceM Text String Unit) :=
  .bind (.call (.inl trivial)) fun _ => .bind (.ensure _) fun _ =>
    .bind (.call (.inl trivial)) fun _ => .ensure _

/-- What is done with a reservation is neutral if it is so with each. -/
theorem withReservation_neutral {reservation : Option ReservedName}
    {f : ReservedName → ServiceM Text String Unit} (hf : ∀ name, Handler.All Neutral (f name)) :
    Handler.All Neutral (withReservation reservation f) := by
  cases reservation with
  | none => exact .pure _
  | some name => exact .mapError (hf name)

/-- Loading the state file yields a state that covers it. -/
theorem loadReplayState_spec :
    (replayProtocol formats env hz config).Spec t (Locked hz t) (loadReplayState formats)
      (fun state w => Holding t w ∧ Undisturbed hz t w ∧ Covers formats t state w)
      fun _ => Holding t := by
  refine Spec.attempt_bind (o := Op.readState) (Q := HasRead hz t) rfl
    (fun _ _ _ _ h => Locked.rely h) (fun _ _ _ => trivial) ?_ fun text => ?_
  · rintro r w w' _ _ hl ⟨⟨text, hfile, rfl, rfl⟩ | ⟨_, ⟨e, rfl⟩, rfl⟩ | ⟨_, ⟨e, rfl⟩, rfl⟩, _⟩
    · exact ⟨hl.1, fun hd => ⟨hl.2 hd, Function.update_self ..⟩, fun _ => hfile⟩
    · exact hl.1
    · exact hl.1
  refine Spec.bind (Q := fun saved w => HasRead hz t text w ∧ formats.fromSlice text = .ok saved)
    ?_ fun saved => ?_
  · refine Spec.ensure ?_ fun _ _ _ _ h => h.1
    intro saved hsaved w _ h
    exact ⟨h, mapError_eq_ok.mp hsaved⟩
  refine Spec.bind (Q := fun order w => HasRead hz t text w ∧
    formats.fromSlice text = .ok order.toFinmap) ?_ fun order => ?_
  · refine Spec.call ?_ (fun _ _ _ => trivial) ?_
    · intro w w' hw _ h hr
      exact ⟨hr.1.rely (hw.base t) h, hr.2⟩
    · rintro order w w' _ _ ⟨hr, hsaved⟩ ⟨⟨hmembers, rfl⟩, _⟩
      exact ⟨hr, by rw [hmembers, hsaved]⟩
  refine Spec.ensure ?_ fun _ _ _ _ h => h.1.1
  rintro state hstate w _ ⟨⟨hh, hu, hfile⟩, hread⟩
  refine ⟨hh, hu, ?_⟩
  intro hv hone f n hrecords
  rw [hfile hv] at hone hrecords
  have hloads : Loads formats text state := ⟨order, hread, hstate⟩
  exact ⟨n, hloads.lookup hone hrecords, le_rfl⟩

/-- A successful `set_state` leaves a map that was given to it. -/
theorem setState_map {state : ReplayMap} {replay : Option ReplayMutex} {m : ReplayMutex}
    (hok : (setState state replay).1 = .ok ()) (hm : (setState state replay).2 = some m) :
    m.map = state := by
  cases replay with
  | none => simp [setState] at hm
  | some mutex =>
    unfold setState at hok hm
    dsimp only at hok hm
    split at hok
    · cases hok
    · rename_i hpoisoned
      rw [if_neg hpoisoned] at hm
      rw [← Option.some.inj hm]

/-- After the reload the memory covers the state file, whether there is one or not. -/
theorem reload_spec {state : AppState} {path : StatePath}
    (hstate : state.replayStatePath = some path) :
    (replayProtocol formats env hz config).Spec t (Locked hz t) (reload formats state)
      (fun _ => Loaded formats hz t) fun _ => Holding t := by
  simp only [reload, hstate]
  refine Spec.bind (Q := fun r w => if r then Locked hz t w else Loaded formats hz t w) ?_ ?_
  · refine Spec.call (fun _ _ _ _ h => Locked.rely h) (fun _ _ _ => trivial) ?_
    rintro r w w' _ _ hl ⟨⟨rfl, rfl⟩, _⟩
    cases hfile : w.file with
    | some text => exact hl
    | none =>
      obtain ⟨⟨replay, hm⟩, hlock⟩ := hl
      refine ⟨replay, hm, fun hd => ⟨hlock hd, Function.update_self ..⟩, ?_⟩
      intro m _ _ _ f n hrecords
      have hnone : (w.looked t).file = none := hfile
      rw [hnone] at hrecords
      exact absurd hrecords not_records_none
  · intro r
    cases r with
    | false => exact Spec.pure fun _ _ h => h
    | true =>
      refine Spec.bind (Spec.mapError loadReplayState_spec) ?_
      intro saved
      refine Spec.attempt (o := Op.setState saved) rfl ?_ (fun _ _ h => h.1) ?_
      · rintro w w' hw _ h ⟨hh, hu, hc⟩
        exact ⟨hh.rely h, hu.rely h, hc.rely (hw.base t) h⟩
      · rintro r w w' _ _ ⟨⟨replay, p, hp, hheld, rfl⟩, hu, hc⟩ ⟨⟨q, hq, rfl, rfl⟩, _⟩
        obtain rfl := Option.some.inj (hp.symm.trans hq)
        have hmemory : Memory t (setState saved p.verifier).2 (w.setProc t.pid
            (some { p with verifier := (setState saved p.verifier).2 })) :=
          ⟨_, Function.update_self .., hheld, rfl⟩
        cases hr : (setState saved p.verifier).1 with
        | error e => exact ⟨_, hmemory⟩
        | ok u =>
          refine ⟨_, hmemory, hu, ?_⟩
          intro m hm
          rw [setState_map hr hm]
          exact hc

variable (formats hz) in
/-- What is known after the receipt was verified. -/
def Verified (env : Primitives) (t : CallId) (receiptBytes : Bytes) (result : VerificationResult)
    (w : World Text) : Prop :=
  result.valid = false ∧ Holding t w ∨ result.valid = true ∧
    ∃ f n, receiptIdentity env receiptBytes = some (f, n) ∧ Accepted formats hz t f n w

/-- Either the answer is not valid, or the memory records a number that was fresh. -/
theorem verify_spec {v : Verifier} {receiptBytes : Bytes} {expected : Expected} :
    (replayProtocol formats env hz config).Spec t (Loaded formats hz t)
      (verify env v receiptBytes expected : ServiceM Text VerifyError VerificationResult)
      (Verified formats hz env t receiptBytes) fun _ => Holding t := by
  have hstable : (replayProtocol formats env hz config).Stable t (Loaded formats hz t) :=
    fun w w' hw _ h hl => hl.rely (hw.base t) h
  have hholding : ∀ w, Loaded formats hz t w → Holding t w := by
    rintro w ⟨replay, hm, _⟩
    exact ⟨replay, hm⟩
  refine Spec.bind (Q := fun _ => Loaded formats hz t) ?_ ?_
  · refine Spec.call hstable (fun _ _ _ => trivial) ?_
    rintro r w w' _ _ hl ⟨rfl, _⟩
    exact hl
  · rintro ⟨provider, now⟩
    dsimp only
    cases hi : (({ v with provider } : Verifier).inspect env now receiptBytes expected).run {} with
    | error e =>
      cases e with
      | err e => exact Spec.throw fun w _ h => hholding w h
      | failed result =>
        have hinvalid : result.valid = false := (Verifier.reported_of_exits hi).leaves.refuses
        exact Spec.pure fun w _ h => Or.inl ⟨hinvalid, hholding w h⟩
    | ok p =>
      obtain ⟨⟨claims, doc⟩, report⟩ := p
      obtain ⟨⟨cose, hinspected⟩, _⟩ := Verifier.yields_inspect.mp hi
      have hidentity : receiptIdentity env receiptBytes =
          some (computeIdentityFingerprint env doc, claims.sequenceNum) :=
        receiptIdentity_eq_some.mpr ⟨claims, doc, hinspected.content, rfl, rfl⟩
      refine Spec.bind (Q := fun r w => match r with
        | .ok result => result.valid = false ∧ Holding t w ∨ result.valid = true ∧
            ∃ f n, receiptIdentity env receiptBytes = some (f, n) ∧ Accepted formats hz t f n w
        | .error _ => Holding t w) ?_ ?_
      · refine Spec.call hstable (fun w _ h => hholding w h) ?_
        rintro r w w' _ _ ⟨replay, ⟨p, hp, hheld, rfl⟩, hu, hc⟩ ⟨⟨q, hq, hr, rfl⟩, _⟩
        obtain rfl := Option.some.inj (hp.symm.trans hq)
        have hmemory : Memory t (Verifier.checkSequence env { v with provider } claims doc report
            p.verifier).2 (w.setProc t.pid (some { p with
              verifier := (Verifier.checkSequence env { v with provider } claims doc report
                p.verifier).2 })) := ⟨_, Function.update_self .., hheld, rfl⟩
        cases r with
        | error e => exact ⟨_, hmemory⟩
        | ok result =>
          cases hvalid : result.valid with
          | false => exact Or.inl ⟨hvalid, _, hmemory⟩
          | true =>
            refine Or.inr ⟨hvalid, _, _, hidentity, _, hmemory, hu, ?_, ?_⟩
            · simp [acceptedIdentity, hvalid]
            · intro m hm
              cases hv : p.verifier with
              | none => simp [hv, Verifier.checkSequence] at hm
              | some before =>
                rw [hv] at hr hm
                have hacc : Verifier.Accepts (.ok result) := ⟨result, rfl, hvalid⟩
                rcases Verifier.checkSequence_effect (Prod.ext hr.symm hm) with
                  ⟨_, hfresh, rfl⟩ | ⟨hno, _⟩
                · exact ⟨before.map, rfl, hfresh, hc before hv⟩
                · exact (hno hacc).elim
      · intro r
        cases r with
        | ok result => exact Spec.pure fun _ _ h => h
        | error e => exact Spec.throw fun _ _ h => h

end Veriai.Service
