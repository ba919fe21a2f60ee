import Veriai.Service.Challenges

/-!
# What a call does to a challenge

The parts of the two handlers under the rules of the challenge records: the
record that is created holds its expiry once it is synchronised, a reservation
is made in time, and a call that answers valid has consumed what it reserved.
-/

namespace Veriai.Service

open Handler Protocol

variable {Text : Type} {formats : Formats Text} {env : Primitives} {hz : Hazards} {config : Config}
variable {t : CallId}

/-- The call issued the nonce, and so much of the record is written. -/
def Writing (t : CallId) (nonce : ByteArr 32) (expiresAt : UInt64) (written : List Char)
    (w : World Text) : Prop :=
  w.issued nonce = some (t, expiresAt) ∧ w.record nonce = written

/-- The nonce was issued with an expiry no earlier than the time. -/
def Current (nonce : ByteArr 32) (now : UInt64) (w : World Text) : Prop :=
  ∃ issuer expiresAt, w.issued nonce = some (issuer, expiresAt) ∧ now ≤ expiresAt

/-- The call reserved a record of the nonce by a reading of the clock that did not exceed its
expiry. -/
def ReservedInTime (t : CallId) (nonce : ByteArr 32) (w : World Text) : Prop :=
  ∃ now, (t, nonce, some now) ∈ w.reservations ∧ Current nonce now w

/-- The record is reserved under this name of the call. -/
structure Holds (t : CallId) (name : ReservedName) (w : World Text) : Prop where
  slot : w.slots name.slot = some t
  reserved : w.reserved name = true
  inTime : ReservedInTime t name.nonce w

/-- The call reserved the record of the nonce in time and consumed it. -/
structure Spent (t : CallId) (nonce : ByteArr 32) (w : World Text) : Prop where
  consumed : w.consumed nonce = some t
  inTime : ReservedInTime t nonce w

section Stable

variable {nonce : ByteArr 32} {w w' : World Text}

/-- The others leave a record that is being written. -/
theorem Writing.rely {expiresAt : UInt64} {written : List Char} (h : RelyRecords t w w')
    (hw : Writing t nonce expiresAt written w) : Writing t nonce expiresAt written w' :=
  ⟨h.issued _ _ hw.1, (h.record _ _ hw.1).trans hw.2⟩

/-- A record that has not expired by a reading of the clock stays one. -/
theorem Current.later {now : UInt64} (h : Remembers w w') (hc : Current nonce now w) :
    Current nonce now w' := by
  obtain ⟨issuer, expiresAt, hissued, hle⟩ := hc
  exact ⟨issuer, expiresAt, h.issued _ _ hissued, hle⟩

/-- A reservation made in time stays one. -/
theorem ReservedInTime.later (h : Remembers w w') (hr : ReservedInTime t nonce w) :
    ReservedInTime t nonce w' := by
  obtain ⟨now, hmem, hcurrent⟩ := hr
  exact ⟨now, h.reservations hmem, hcurrent.later h⟩

/-- The others leave a reserved record. -/
theorem Holds.rely {name : ReservedName} (h : RelyRecords t w w') (hh : Holds t name w) :
    Holds t name w' :=
  ⟨h.slots _ hh.slot, (h.reserved _ hh.slot).trans hh.reserved, hh.inTime.later h.toRemembers⟩

/-- What is spent stays spent. -/
theorem Spent.later (h : Remembers w w') (hs : Spent t nonce w) : Spent t nonce w' :=
  ⟨h.consumed _ _ hs.consumed, hs.inTime.later h⟩

end Stable

/-- Operations that spare the records are always permitted. -/
theorem spares_permitted {o : Op Text} (ho : SparesRecords o) (w : World Text) :
    mayTouch t o w := by
  cases o with
  | writeRecord nonce c => exact ho.elim
  | reserveRecord name => exact ho.elim
  | restoreRecord name => exact ho.elim
  | consumeRecord name => exact ho.elim
  | _ => trivial

variable (formats env hz config) in
/-- A part of a handler that spares the records keeps what the call knows of them. -/
theorem spec_spares {ε α : Type} {m : ServiceM Text ε α} {A : World Text → Prop}
    (hm : Handler.All SparesRecords m) (hA : (challengeProtocol formats env hz config).Stable t A) :
    (challengeProtocol formats env hz config).Spec t A m (fun _ => A) fun _ _ => True :=
  (Spec.of_all hm hA (fun _ w ho => spares_permitted ho w) fun _ _ _ _ ho hw h =>
    (exec_spares ho h).rely hw.names t).loose

/-- The record is filled up from what is written of it. -/
theorem writeExpiry_spec {nonce : ByteArr 32} {expiresAt : UInt64} {written rest : List Char}
    (hrest : written ++ rest = decimal expiresAt ++ ['\n']) :
    (challengeProtocol formats env hz config).Spec t (Writing t nonce expiresAt written)
      (writeExpiry nonce rest) (fun _ _ => True) fun _ _ => True := by
  induction rest generalizing written with
  | nil => exact Spec.pure fun _ _ _ => trivial
  | cons c rest ih =>
    have hnext : (written ++ [c]) ++ rest = decimal expiresAt ++ ['\n'] := by simpa using hrest
    refine Spec.attempt_bind (o := Op.writeRecord nonce c)
      (Q := fun _ => Writing t nonce expiresAt (written ++ [c])) rfl
      (fun _ _ _ _ h hw => hw.rely h) ?_ ?_ fun _ => ih hnext
    · rintro w _ ⟨hissued, rfl⟩
      exact ⟨expiresAt, hissued, rest, hnext⟩
    · rintro r w w' _ _ ⟨hissued, rfl⟩ (⟨rfl, rfl⟩ | ⟨_, ⟨e, rfl⟩, rfl⟩)
      · exact ⟨hissued, Function.update_self ..⟩
      · trivial

/-- The new record is filled with its expiry and synchronised. -/
theorem fillRecord_spec {nonce : ByteArr 32} {expiresAt : UInt64} :
    (challengeProtocol formats env hz config).Spec t (Writing t nonce expiresAt [])
      (fillRecord nonce expiresAt) (fun _ _ => True) fun _ _ => True := by
  have hperm : Handler.All SparesRecords
      (perform (.setRecordPermissions nonce) : ServiceM Text ApiError _) := .call trivial
  refine Spec.bind (spec_spares formats env hz config hperm fun _ _ _ _ h hw => hw.rely h) ?_
  intro r
  refine Spec.bind (Q := fun _ => Writing t nonce expiresAt [])
    (Spec.ensure (fun _ _ _ _ h => h) fun _ _ _ _ _ => trivial) fun _ => ?_
  refine Spec.bind (writeExpiry_spec rfl) fun _ => ?_
  refine spec_spares formats env hz config ?_ fun _ _ _ _ _ _ => trivial
  exact .bind (.call trivial) fun _ => .bind (.ensure _) fun _ => .bind (.call trivial) fun _ =>
    .bind (.ensure _) fun _ => .pure _

/-- A challenge is issued by creating its record and filling it. -/
theorem issueChallenge_spec {expiresAt : UInt64} (attempts : Nat) :
    (challengeProtocol formats env hz config).Spec t (fun _ => True)
      (issueChallenge expiresAt attempts) (fun _ _ => True) fun _ _ => True := by
  induction attempts with
  | zero => exact Spec.throw fun _ _ _ => trivial
  | succ attempts ih =>
    have hfill : Handler.All SparesRecords (perform .fillBytes : ServiceM Text ApiError _) :=
      .call trivial
    refine Spec.bind (spec_spares formats env hz config hfill fun _ _ _ _ _ _ => trivial) ?_
    intro nonce
    refine Spec.bind (Q := fun r w => r = .ok () → Writing t nonce expiresAt [] w) ?_ ?_
    · refine Spec.call (fun _ _ _ _ _ _ => trivial) (fun _ _ _ => trivial) ?_
      rintro r w w' _ _ _ (⟨_, _, _, rfl⟩ | ⟨rfl, _, rfl⟩ | ⟨_, ⟨e, rfl⟩, rfl⟩) hr
      · exact ⟨Function.update_self .., Function.update_self ..⟩
      · cases hr
      · cases hr
    · intro r
      match r with
      | .ok () =>
        exact fillRecord_spec.weaken (fun _ _ h => h rfl) (fun _ _ _ h => h) fun _ _ _ h => h
      | .error .alreadyExists =>
        exact ih.weaken (fun _ _ _ => trivial) (fun _ _ _ h => h) fun _ _ _ h => h
      | .error (.other e) => exact Spec.throw fun _ _ _ => trivial

/-- The challenge handler follows the rules of the records. -/
theorem challengeHandler_spec {state : AppState} :
    (challengeProtocol formats env hz config).Spec t (fun _ => True) (challengeHandler state)
      (fun _ _ => True) fun _ _ => True := by
  have hensure {α : Type} (x : Except ApiError α) : (challengeProtocol formats env hz config).Spec t
      (fun _ => True) (ensure x) (fun _ _ => True) fun _ _ => True :=
    Spec.ensure (fun _ _ _ _ _ => trivial) fun _ _ _ _ _ => trivial
  have hplain {o : Op Text} (ho : SparesRecords o) : (challengeProtocol formats env hz config).Spec
      (ε := ApiError) t (fun _ => True) (perform o) (fun _ _ => True) fun _ _ => True :=
    spec_spares formats env hz config (.call ho) fun _ _ _ _ _ _ => trivial
  refine Spec.bind (hensure _) fun path => ?_
  refine Spec.bind (Spec.call (R := fun _ _ => True) (fun _ _ _ _ _ _ => trivial)
    (fun _ _ _ => trivial) fun _ _ _ _ _ _ _ => trivial) fun now => ?_
  refine Spec.bind (hensure _) fun now => ?_
  refine Spec.bind (hensure _) fun expiresAt => ?_
  refine Spec.bind (hensure _) fun _ => ?_
  refine Spec.bind (hplain (o := .createChallengeDir) trivial) fun _ => ?_
  refine Spec.bind (hensure _) fun _ => ?_
  refine Spec.bind (hplain (o := .setChallengeDirPermissions) trivial) fun _ => ?_
  exact Spec.bind (hensure _) fun _ => issueChallenge_spec 8

/-- What is reserved was issued, and the reading of the clock did not exceed its expiry. -/
theorem reserveChallenge_spec {path : StatePath} {nonce : ByteArr 32} :
    (challengeProtocol formats env hz config).Spec t (fun _ => True)
      (reserveChallenge t.pid path nonce) (fun name w => name.nonce = nonce ∧ Holds t name w)
      fun _ _ => True := by
  refine Spec.bind (Q := fun _ _ => True)
    (Spec.ensure (fun _ _ _ _ _ => trivial) fun _ _ _ _ _ => trivial) fun _ => ?_
  -- what is read is the beginning of a line with the expiry
  refine Spec.attempt_bind (o := Op.readRecord nonce) (Q := fun text w => ∃ issuer expiresAt,
    w.issued nonce = some (issuer, expiresAt) ∧ text.toList <+: decimal expiresAt ++ ['\n']) rfl
    (fun _ _ _ _ _ _ => trivial) (fun _ _ _ => trivial) ?_ fun text => ?_
  · rintro r w w' hw _ _ (⟨havailable, rfl, rfl⟩ | ⟨_, ⟨e, rfl⟩, rfl⟩ | ⟨_, ⟨e, rfl⟩, rfl⟩)
    · obtain ⟨⟨issuer, expiresAt⟩, hissued⟩ :=
        Option.ne_none_iff_exists'.mp (hw.available nonce havailable).1
      refine ⟨issuer, expiresAt, hissued, ?_⟩
      rw [String.toList_ofList]
      exact hw.record nonce issuer expiresAt hissued
    · trivial
    · trivial
  refine Spec.bind (Q := fun expiresAt => Current nonce expiresAt) ?_ fun expiresAt => ?_
  · refine Spec.ensure ?_ fun _ _ _ _ _ => trivial
    rintro expiresAt hparsed w _ ⟨issuer, limit, hissued, hprefix⟩
    exact ⟨issuer, limit, hissued, parseU64_of_prefix hprefix (okOr_eq_ok.mp hparsed)⟩
  refine Spec.bind (Q := fun r w => ∀ now, r = .ok now →
    Current nonce expiresAt w ∧ w.clock t = some now) ?_ fun r => ?_
  · refine Spec.call (fun _ _ _ _ h hc => hc.later h.toRemembers) (fun _ _ _ => trivial) ?_
    rintro r w w' _ _ hc (⟨now, rfl, rfl⟩ | ⟨⟨e, rfl⟩, rfl⟩) now' hr
    · obtain rfl := Except.ok.inj hr
      exact ⟨hc, Function.update_self ..⟩
    · cases hr
  refine Spec.bind (Q := fun now w => Current nonce expiresAt w ∧ w.clock t = some now) ?_
    fun now => ?_
  · exact Spec.ensure (fun now hr w _ h => h now hr) fun _ _ _ _ _ => trivial
  by_cases hexpired : now > expiresAt
  · rw [if_pos hexpired]
    refine Spec.bind (Q := fun _ _ => True) ?_ fun _ => Spec.throw fun _ _ _ => trivial
    exact (Spec.call (A := fun _ => True) (fun _ _ _ _ _ _ => trivial) (fun _ _ _ => trivial)
      fun _ _ _ _ _ _ _ => trivial).weaken (fun _ _ _ => trivial) (fun _ _ _ h => h)
        fun _ _ _ h => h
  rw [if_neg hexpired]
  have hle : now ≤ expiresAt := UInt64.not_lt.mp hexpired
  have hcurrent : (challengeProtocol formats env hz config).Stable t fun w =>
      Current nonce expiresAt w ∧ w.clock t = some now :=
    fun _ _ _ _ h hc => ⟨hc.1.later h.toRemembers, h.clock.trans hc.2⟩
  refine Spec.bind (Q := fun counter w => (Current nonce expiresAt w ∧ w.clock t = some now) ∧
    w.slots ⟨t.pid, counter⟩ = some t) ?_ fun counter => ?_
  · refine Spec.call hcurrent (fun _ _ _ => trivial) ?_
    rintro counter w w' hw hw' hc ⟨p, hp, rfl, rfl⟩
    exact ⟨hc, Function.update_self ..⟩
  refine Spec.attempt_bind (o := Op.reserveRecord ⟨nonce, t.pid, counter⟩)
    (Q := fun _ => Holds t ⟨nonce, t.pid, counter⟩) rfl ?_ ?_ ?_ fun _ => ?_
  · exact fun w w' hw hw' h hc => ⟨hcurrent w w' hw hw' h hc.1, h.slots _ hc.2⟩
  · rintro w _ ⟨⟨⟨issuer, limit, hissued, hlimit⟩, hclock⟩, hslot⟩
    exact ⟨hslot, now, issuer, limit, hclock, hissued, hle.trans hlimit⟩
  · rintro r w w' _ _ ⟨⟨⟨issuer, limit, hissued, hlimit⟩, hclock⟩, hslot⟩
      (⟨_, rfl, rfl⟩ | ⟨_, ⟨e, rfl⟩, rfl⟩ | ⟨_, ⟨e, rfl⟩, rfl⟩)
    · refine ⟨hslot, Function.update_self .., now, ?_, issuer, limit, hissued, hle.trans hlimit⟩
      simp [hclock]
    · trivial
    · trivial
  have hsync : Handler.All SparesRecords (perform .syncChallengeDir : ServiceM Text String _) :=
    .call trivial
  refine Spec.bind
    (spec_spares formats env hz config hsync fun _ _ _ _ h hh => hh.rely h) fun r => ?_
  refine Spec.bind (Spec.ensure (fun _ _ _ _ h => h) fun _ _ _ _ _ => trivial) fun _ => ?_
  exact Spec.pure fun _ _ hh => ⟨rfl, hh⟩

/-- Where a challenge is required, the call goes on with a reservation it holds. -/
theorem reserveIssued_spec {state : AppState} (hissued : state.requireIssuedChallenge = true)
    {nonce : ByteArr 32} :
    (challengeProtocol formats env hz config).Spec t (fun _ => True)
      (reserveIssued state t.pid nonce)
      (fun r w => ∃ name : ReservedName, r = some name ∧ name.nonce = nonce ∧ Holds t name w)
      fun _ _ => True := by
  rw [reserveIssued, if_pos hissued]
  refine Spec.bind (Q := fun _ _ => True)
    (Spec.ensure (fun _ _ _ _ _ => trivial) fun _ _ _ _ _ => trivial) fun path => ?_
  refine Spec.bind (Spec.mapError reserveChallenge_spec) fun name => ?_
  exact Spec.pure fun _ _ h => ⟨name, rfl, h⟩

/-- A call may give back the record that it holds. -/
theorem restore_spec {name : ReservedName} :
    (challengeProtocol formats env hz config).Spec t (Holds t name) (restore name)
      (fun _ _ => True) fun _ _ => True := by
  refine Spec.bind (Spec.call (R := fun _ _ => True) (fun _ _ _ _ h hh => hh.rely h)
    (fun _ _ hh => hh.slot) fun _ _ _ _ _ _ _ => trivial) fun r => ?_
  refine spec_spares formats env hz config ?_ fun _ _ _ _ _ _ => trivial
  exact .bind (.ensure _) fun _ => .bind (.call trivial) fun _ => .ensure _

/-- A call that consumes the record that it holds has spent the nonce. -/
theorem consume_spec {name : ReservedName} :
    (challengeProtocol formats env hz config).Spec t (Holds t name) (consume name)
      (fun _ => Spent t name.nonce) fun _ _ => True := by
  refine Spec.attempt_bind (o := Op.consumeRecord name) (Q := fun _ => Spent t name.nonce) rfl
    (fun _ _ _ _ h hh => hh.rely h) (fun _ _ hh => hh.slot) ?_ fun _ => ?_
  · rintro r w w' _ _ hh (⟨_, rfl, rfl⟩ | ⟨_, ⟨e, rfl⟩, rfl⟩ | ⟨_, ⟨e, rfl⟩, rfl⟩)
    · exact ⟨Function.update_self .., hh.inTime⟩
    · trivial
    · trivial
  refine spec_spares formats env hz config ?_ fun _ _ _ _ h hs => hs.later h.toRemembers
  exact .bind (.call trivial) fun _ => .ensure _

/-- Persisting leaves the record reserved unless it returns early. -/
theorem persist_holds {state : AppState} {previous : Option ReplayMap} {name : ReservedName} :
    (challengeProtocol formats env hz config).Spec t (Holds t name)
      (persist formats state t.pid previous (some name)) (fun _ => Holds t name)
      fun _ _ => True := by
  unfold persist
  split
  next path _ =>
    have hpersist : Handler.All SparesRecords (outcome
        (persistReplayStateOrRollback formats t.pid path (previous.getD ∅)) :
          ServiceM Text ApiError _) :=
      .outcome (persistReplayStateOrRollback_spares t.pid path _)
    refine Spec.bind (spec_spares formats env hz config hpersist fun _ _ _ _ h hh => hh.rely h) ?_
    intro x
    cases x with
    | ok u => exact Spec.pure fun _ _ hh => hh
    | error e =>
      refine Spec.bind (Spec.mapError restore_spec) fun _ => ?_
      exact Spec.throw fun _ _ _ => trivial
  next => exact Spec.pure fun _ _ hh => hh

/-- Under the locks: a valid answer has spent the record of its nonce. -/
theorem verifyLocked_spends {state : AppState} (hissued : state.requireIssuedChallenge = true)
    {receiptBytes : Bytes} {expected : Expected} :
    (challengeProtocol formats env hz config).Spec t (fun _ => True)
      (verifyLocked formats env state t.pid receiptBytes expected)
      (fun result w => result.valid = true → Spent t expected.nonce w) fun _ _ => True := by
  have hdrop {o : Op Text} (ho : SparesRecords o) {A : World Text → Prop}
      (hA : (challengeProtocol formats env hz config).Stable t A) :
      (challengeProtocol formats env hz config).Spec (ε := ApiError) t A (perform o) (fun _ => A)
        fun _ _ => True :=
    spec_spares formats env hz config (.call ho) hA
  refine Spec.bind (spec_spares formats env hz config (reload_spares state)
    fun _ _ _ _ _ _ => trivial) fun _ => ?_
  refine Spec.bind (reserveIssued_spec hissued) fun reservation => ?_
  rintro w hw ⟨name, rfl, hnonce, hholds⟩
  rw [← hnonce]
  have hstable : (challengeProtocol formats env hz config).Stable t (Holds t name) :=
    fun _ _ _ _ h hh => hh.rely h
  refine Spec.bind (spec_spares formats env hz config (snapshot_spares state) hstable)
    (fun previous => ?_) w hw hholds
  refine Spec.bind (Spec.mapError (spec_spares formats env hz config
    (verify_spares state.verifier receiptBytes expected) hstable)) fun result => ?_
  cases hvalid : result.valid with
  | false =>
    refine Spec.bind (Spec.mapError restore_spec) fun _ => ?_
    refine Spec.bind (hdrop (o := .dropReplayLock) trivial fun _ _ _ _ _ _ => trivial) fun _ => ?_
    refine Spec.bind (hdrop (o := .dropReplayGuard) trivial fun _ _ _ _ _ _ => trivial) fun _ => ?_
    refine Spec.pure ?_
    intro w _ _ htrue
    rw [hvalid] at htrue
    cases htrue
  | true =>
    have hspent : (challengeProtocol formats env hz config).Stable t (Spent t name.nonce) :=
      fun _ _ _ _ h hs => hs.later h.toRemembers
    refine Spec.bind persist_holds fun _ => ?_
    refine Spec.bind (Spec.mapError consume_spec) fun _ => ?_
    refine Spec.bind (hdrop (o := .dropReplayGuard) trivial hspent) fun _ => ?_
    refine Spec.bind (hdrop (o := .dropReplayLock) trivial hspent) fun _ => ?_
    exact Spec.pure fun _ _ hs _ => hs

/-- Giving a lock back behind a part of the handler changes nothing about records. -/
theorem leaving_spec {o : Op Text} (ho : SparesRecords o) {α : Type}
    {m : ServiceM Text ApiError α} {Q : α → World Text → Prop}
    (h : (challengeProtocol formats env hz config).Spec t (fun _ => True) m Q fun _ _ => True) :
    (challengeProtocol formats env hz config).Spec t (fun _ => True) (leaving o m) Q
      fun _ _ => True :=
  Spec.leaving h (fun _ _ _ _ _ _ _ => trivial) (fun _ w _ _ => spares_permitted ho w)
    fun _ _ _ _ _ _ _ _ => trivial

/-- A call of `verify_handler` that answers valid has spent the nonce of its request. -/
theorem verifyHandler_spends {state : AppState} (hissued : state.requireIssuedChallenge = true)
    (payload : VerifyRequest) :
    (challengeProtocol formats env hz config).Spec t (fun _ => True)
      (verifyHandler formats env state t.pid payload)
      (fun result w => result.valid = true → ∃ nonce,
        decodeParameter formats "nonce" payload.nonce = .ok nonce ∧ Spent t nonce w)
      fun _ _ => True := by
  have hfree {ε α : Type} {m : ServiceM Text ε α} (hm : Handler.All SparesRecords m) :
      (challengeProtocol formats env hz config).Spec t (fun _ => True) m (fun _ _ => True)
        fun _ _ => True :=
    spec_spares formats env hz config hm fun _ _ _ _ _ _ => trivial
  refine Spec.bind (Q := fun request _ => decodeRequest formats state payload = .ok request) ?_ ?_
  · exact Spec.ensure (fun _ h _ _ _ => h) fun _ _ _ _ _ => trivial
  rintro ⟨receiptBytes, expected⟩ w hw hdecode
  refine Spec.bind (hfree (acquireGuard_spares state)) (fun _ => ?_) w hw trivial
  refine leaving_spec (o := .dropReplayGuard) trivial ?_
  refine Spec.bind (hfree (acquireFileLock_spares state)) fun _ => ?_
  refine leaving_spec (o := .dropReplayLock) trivial ?_
  refine (verifyLocked_spends hissued).weaken (fun _ _ h => h) ?_ fun _ _ _ h => h
  intro result w _ hspends hvalid
  exact ⟨expected.nonce, decodeRequest_nonce hdecode, hspends hvalid⟩

end Veriai.Service
