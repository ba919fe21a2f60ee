import Veriai.Service.ChallengeParts
import Veriai.Service.Transparent

/-!
# One-time challenges

A call that answers valid has reserved the record of its nonce before the record
expired, and consumed it. A record is consumed once, so no nonce serves two
valid answers, whatever processes are asked, whatever fails and whatever crashes.
-/

namespace Veriai.Service

open Handler Protocol

variable {Text : Type} {formats : Formats Text} {env : Primitives} {hz : Hazards} {config : Config}
variable {t : CallId}

/-- The operation creates no record. -/
def IssuesNothing : Op Text → Prop
  | .createRecord .. => False
  | _ => True

/-- What spares the records issues nothing. -/
theorem SparesRecords.issuesNothing (o : Op Text) (ho : SparesRecords o) : IssuesNothing o := by
  cases o with
  | createRecord nonce expiresAt => exact ho.elim
  | _ => trivial

/-- Reserving a challenge issues nothing. -/
theorem reserveIssued_issuesNothing (state : AppState) (pid : Nat) (nonce : ByteArr 32) :
    Handler.All IssuesNothing
      (reserveIssued state pid nonce : ServiceM Text ApiError (Option ReservedName)) := by
  unfold reserveIssued
  split
  · refine .bind (.ensure _) fun path => .bind (.mapError ?_) fun _ => .pure _
    refine .bind (.ensure _) fun _ => .bind (.call trivial) fun _ => .bind (.ensure _) fun _ =>
      .bind (.ensure _) fun _ => .bind (.call trivial) fun _ => .bind (.ensure _) fun now => ?_
    split
    · exact .bind (.call trivial) fun _ => .throw _
    · exact .bind (.call trivial) fun _ => .bind (.call trivial) fun _ => .bind (.ensure _) fun _ =>
        .bind (.call trivial) fun _ => .bind (.ensure _) fun _ => .pure _
  · exact .pure _

/-- What is done with a reservation issues nothing if it does so with each. -/
theorem withReservation_issuesNothing {reservation : Option ReservedName}
    {f : ReservedName → ServiceM Text String Unit}
    (hf : ∀ name, Handler.All IssuesNothing (f name)) :
    Handler.All IssuesNothing (withReservation reservation f) := by
  cases reservation with
  | none => exact .pure _
  | some name => exact .mapError (hf name)

/-- Giving a challenge back issues nothing. -/
theorem restore_issuesNothing (name : ReservedName) :
    Handler.All IssuesNothing (restore name : ServiceM Text String Unit) :=
  .bind (.call trivial) fun _ => .bind (.ensure _) fun _ => .bind (.call trivial) fun _ => .ensure _

/-- Consuming a challenge issues nothing. -/
theorem consume_issuesNothing (name : ReservedName) :
    Handler.All IssuesNothing (consume name : ServiceM Text String Unit) :=
  .bind (.call trivial) fun _ => .bind (.ensure _) fun _ => .bind (.call trivial) fun _ => .ensure _

/-- Persisting issues nothing. -/
theorem persist_issuesNothing (state : AppState) (pid : Nat) (previous : Option ReplayMap)
    (reservation : Option ReservedName) :
    Handler.All IssuesNothing (persist formats state pid previous reservation) := by
  unfold persist
  split
  · refine .bind (.outcome (.mono SparesRecords.issuesNothing
      (persistReplayStateOrRollback_spares pid _ _))) fun x => ?_
    cases x with
    | ok u => exact .pure _
    | error e => exact .bind (withReservation_issuesNothing restore_issuesNothing) fun _ => .throw _
  · exact .pure _

/-- Only `challenge_handler` creates records. -/
theorem verifyHandler_issuesNothing (state : AppState) (pid : Nat) (payload : VerifyRequest) :
    Handler.All IssuesNothing (verifyHandler formats env state pid payload) := by
  have hspares {ε α : Type} {m : ServiceM Text ε α} (hm : Handler.All SparesRecords m) :
      Handler.All IssuesNothing m := .mono SparesRecords.issuesNothing hm
  refine .bind (.ensure _) fun request => .bind (hspares (acquireGuard_spares state)) fun _ =>
    .leaving trivial (.bind (hspares (acquireFileLock_spares state)) fun _ => .leaving trivial ?_)
  refine .bind (hspares (reload_spares state)) fun _ =>
    .bind (reserveIssued_issuesNothing state pid _) fun reservation =>
      .bind (hspares (snapshot_spares state)) fun previous =>
        .bind (.mapError (hspares (verify_spares _ _ _))) fun result => ?_
  split
  · exact .bind (withReservation_issuesNothing restore_issuesNothing) fun _ =>
      .bind (.call trivial) fun _ => .bind (.call trivial) fun _ => .pure _
  · exact .bind (persist_issuesNothing state pid previous reservation) fun _ =>
      .bind (withReservation_issuesNothing consume_issuesNothing) fun _ =>
        .bind (.call trivial) fun _ => .bind (.call trivial) fun _ => .pure _

variable (formats) in
/-- The answer is valid, for a request with this nonce. -/
def ValidFor (a : CallId × Request × Response) (nonce : ByteArr 32) : Prop :=
  ∃ payload result, a.2 = (.verify payload, .verified (.ok result)) ∧ result.valid = true ∧
    decodeParameter formats "nonce" payload.nonce = .ok nonce

variable (formats) in
/-- What the records and the answers so far guarantee. -/
structure OneTime (w : World Text) (answers : List (CallId × Request × Response)) : Prop where
  /-- A valid answer has spent the record of its nonce. -/
  spent : ∀ a ∈ answers, ∀ payload result, a.2 = (.verify payload, .verified (.ok result)) →
    result.valid = true → ∃ nonce, decodeParameter formats "nonce" payload.nonce = .ok nonce ∧
      Spent a.1 nonce w
  once : answers.Pairwise fun a b => ∀ nonce, ValidFor formats a nonce → ¬ ValidFor formats b nonce
  /-- No record is reserved by a reading of the clock beyond its expiry. -/
  inTime : ∀ t nonce clock, (t, nonce, clock) ∈ w.reservations → ∃ now, clock = some now ∧
    Current nonce now w

variable (formats) in
/-- What an answer promises about the record of its nonce. -/
def PromisedSpent (t : CallId) : Request → Response → World Text → Prop
  | .verify payload, .verified (.ok result), w => result.valid = true → ∃ nonce,
      decodeParameter formats "nonce" payload.nonce = .ok nonce ∧ Spent t nonce w
  | _, _, _ => True

/-- What an answer promises about a nonce stays so. -/
theorem PromisedSpent.later {c : Request} {a : Response} {w w' : World Text}
    (hlater : Remembers w w') (h : PromisedSpent formats t c a w) :
    PromisedSpent formats t c a w' := by
  match c, a with
  | .verify payload, .verified (.ok result) =>
    intro hvalid
    obtain ⟨nonce, hnonce, hspent⟩ := h hvalid
    exact ⟨nonce, hnonce, hspent.later hlater⟩
  | .verify _, .verified (.error _) => trivial
  | .verify _, .challenged _ => trivial
  | .challenge, _ => trivial

/-- Every call keeps to the rules of the records and to its promise. -/
theorem challengeKeeping (hissued : ∀ pid, (config.state pid).requireIssuedChallenge = true) :
    (challengeProtocol formats env hz config).Keeping (PromisedSpent formats) where
  post_later t c a w w' hlater h := h.later hlater
  post_rely t c a w w' _ _ hrely h := h.later hrely.toRemembers
  programs := by
    rintro t c w w' _ _ hw'
    cases c with
    | verify payload =>
      refine Triple.bind (verifyHandler_spends (hissued t.pid) payload) ?_ w' hw' trivial
      intro x
      cases x with
      | ok result => exact Triple.ret fun _ _ h => h
      | error e => exact Triple.ret fun _ _ _ => trivial
    | challenge =>
      refine Triple.bind challengeHandler_spec ?_ w' hw' trivial
      exact fun x => Triple.ret fun _ _ _ => by cases x <;> trivial

/-- A valid answer for a nonce has consumed its record. -/
theorem OneTime.consumed {w : World Text} {answers : List (CallId × Request × Response)}
    (h : OneTime formats w answers) {a : CallId × Request × Response} (ha : a ∈ answers)
    {nonce : ByteArr 32} (hvalid : ValidFor formats a nonce) : w.consumed nonce = some a.1 := by
  obtain ⟨payload, result, heq, hresult, hnonce⟩ := hvalid
  obtain ⟨nonce', hnonce', hspent⟩ := h.spent a ha payload result heq hresult
  obtain rfl := Except.ok.inj (hnonce.symm.trans hnonce')
  exact hspent.consumed

/-- Where issued challenges are required, every valid answer has spent a challenge that was issued
and reserved in time, no challenge serves two of them, and one that another call has consumed
serves none, whatever processes are asked, whatever fails, crashes or is dropped. The calls that
verify issue no challenges. -/
theorem challenges_oneTime (hissued : ∀ pid, (config.state pid).requireIssuedChallenge = true)
    {file : Option Text} {s : MachineState CallId Request Response (World Text) (Res Text)}
    (h : (service formats env hz config).Reachable (World.initial file) s) :
    OneTime formats s.world s.answers ∧
      (∀ s', (service formats env hz config).Steps s s' → ∀ nonce t,
        s.world.consumed nonce = some t → ∀ a ∈ s'.answers, ValidFor formats a nonce → a.1 = t) ∧
      ∀ state pid payload,
        Handler.All IssuesNothing (verifyHandler formats env state pid payload) := by
  have hkeeping : (challengeProtocol formats env hz config).Keeping (PromisedSpent formats) :=
    challengeKeeping hissued
  have honeTime : ∀ s, (service formats env hz config).Reachable (World.initial file) s →
      OneTime formats s.world s.answers := by
    intro s hs
    have hsafe := hkeeping.reachable (World.challengeInv_initial file) hs
    have hspent : ∀ a ∈ s.answers, ∀ payload result,
        a.2 = (.verify payload, .verified (.ok result)) → result.valid = true → ∃ nonce,
          decodeParameter formats "nonce" payload.nonce = .ok nonce ∧ Spent a.1 nonce s.world := by
      rintro ⟨t, c, r⟩ ha payload result heq hvalid
      obtain ⟨rfl, rfl⟩ := Prod.mk.inj heq
      exact hsafe.answers t _ _ ha hvalid
    refine ⟨hspent, ?_, ?_⟩
    · have hne : s.answers.Pairwise fun a b => a.1 ≠ b.1 := List.pairwise_map.mp hs.accounted.once
      refine hne.imp_of_mem ?_
      rintro a b ha hb hne nonce ⟨payload, result, heq, hvalid, hnonce⟩
        ⟨payload', result', heq', hvalid', hnonce'⟩
      obtain ⟨n, hn, hconsumed, -⟩ := hspent a ha payload result heq hvalid
      obtain ⟨n', hn', hconsumed', -⟩ := hspent b hb payload' result' heq' hvalid'
      obtain rfl := Except.ok.inj (hnonce.symm.trans hn)
      obtain rfl := Except.ok.inj (hnonce'.symm.trans hn')
      exact hne (Option.some.inj (hconsumed.symm.trans hconsumed'))
    · intro t nonce clock hmem
      obtain ⟨now, issuer, expiresAt, hclock, hi, hle⟩ := hsafe.inv.inTime t nonce clock hmem
      exact ⟨now, hclock, issuer, expiresAt, hi, hle⟩
  refine ⟨honeTime s h, ?_, verifyHandler_issuesNothing⟩
  intro s' hsteps nonce t hconsumed a ha hvalid
  have hsafe := hkeeping.reachable (World.challengeInv_initial file) h
  have hlater := (hsafe.steps hkeeping hsteps).2.consumed nonce t hconsumed
  have hspent := (honeTime s' (h.trans hsteps)).consumed ha hvalid
  exact Option.some.inj (hspent.symm.trans hlater)

end Veriai.Service

namespace Veriai.Service.Transparent

open Veriai.Transparent Machine

/-- The machine of these runs. -/
abbrev issuing : Machine CallId Request Response (World MemberOrder) (Res MemberOrder) :=
  (service formats primitives faulty issuedConfig).under fun _ _ => True

/-- Process 0 has issued a challenge at the epoch. -/
def challenged : World MemberOrder :=
  { booted with clock := Function.update booted.clock caller (some 0) }.issuedBy caller issuedNonce
    300 (decimal 300 ++ ['\n'])

/-- The challenge is issued with 300 seconds. -/
theorem ends_challenge : issuing.Ends caller (challengeHandler issuedState) booted
    (.ok ⟨hexEncode issuedNonce.toList, 300⟩) challenged := by
  refine Ends.bind (Ends.ensure (y := .ok path) rfl) ?_
  refine .op (r := Except.ok 0) ⟨Or.inl ⟨0, rfl, rfl⟩, trivial⟩ ?_
  refine Ends.bind (Ends.ensure (y := .ok 0) rfl) ?_
  refine Ends.bind (Ends.ensure (y := .ok 300) rfl) ?_
  refine Ends.bind (Ends.ensure (y := .ok "replay.json") rfl) ?_
  refine .op (r := Except.ok ()) ⟨Or.inl ⟨rfl, rfl⟩, trivial⟩ ?_
  refine .op (r := Except.ok ()) ⟨Or.inl ⟨rfl, rfl⟩, trivial⟩ ?_
  exact ends_issueChallenge (fun _ _ _ => trivial) rfl rfl

/-- The call that uses the challenge. -/
def user : CallId := ⟨0, 1⟩

/-- The call holds both locks. -/
def challengedLocked : World MemberOrder := challenged.locked user process

/-- The call has reserved the record. -/
def challengedReserved : World MemberOrder :=
  challengedLocked.reservedBy user { process with guard := some user } issuedNonce 0

/-- The challenge is reserved. -/
theorem ends_reserveIssued_challenged : issuing.Ends user (reserveIssued issuedState 0 issuedNonce)
    challengedLocked (.ok (some ⟨issuedNonce, 0, 0⟩)) challengedReserved := by
  have hany : ∀ w w' : World MemberOrder, w'.commits = w.commits → True := fun _ _ _ => trivial
  have hrecord : challengedLocked.record issuedNonce = ['3', '0', '0', '\n'] := by
    show Function.update booted.record issuedNonce (decimal 300 ++ ['\n']) issuedNonce = _
    rw [Function.update_self]
    rfl
  have havailable : challengedLocked.available issuedNonce = true := by
    show Function.update booted.available issuedNonce true issuedNonce = true
    rw [Function.update_self]
  have hexpires : parseU64 (trim (challengedLocked.record issuedNonce)) = some 300 := by
    rw [hrecord]
    decide
  have hle : (0 : UInt64) ≤ 300 := by decide
  have hproc : challengedLocked.procs user.pid = some { process with guard := some user } := rfl
  exact ends_reserveIssued_some hany rfl rfl rfl hproc havailable hexpires hle

/-- The process under the reservation. -/
def reserving : Process := ⟨1, some (.new ∅), some user⟩

/-- The call has verified the receipt. -/
def challengedRecorded : World MemberOrder :=
  challengedReserved.recorded user reserving (.new ∅) (fill 32 0) 1

/-- The receipt is accepted. -/
theorem ends_verify_challenged : ∃ result : VerificationResult, result.valid = true ∧
    issuing.Ends user (verify primitives issuedState.verifier [1, 1, 7] expected) challengedReserved
      (.ok result) challengedRecorded := by
  have hinspected : Verifier.Inspected primitives { issuedState.verifier with provider } epoch
      [1, 1, 7] expected (receipt (some []) [1, 7]) (claims 1 7) (doc 7) := inspected 1 7
  have hproc : challengedReserved.procs user.pid = some reserving := rfl
  exact ends_verify formats faulty issuedConfig (fun _ _ _ => trivial) hinspected hproc rfl rfl
    (fresh_empty 1 7)

/-- The process under the reservation, once the receipt is verified. -/
def recording : Process :=
  { reserving with verifier := some ((ReplayMutex.new ∅).insert (fill 32 0) 1) }

/-- The state file is replaced by one with the receipt. -/
def challengedSaved (text : MemberOrder) : World MemberOrder :=
  (challengedRecorded.written user recording text).replace user ⟨0, 1⟩ text

/-- The number is persisted. -/
theorem ends_persist_challenged : ∃ text, issuing.Ends user
    (persist formats issuedState 0 (some ∅) (some ⟨issuedNonce, 0, 0⟩)) challengedRecorded (.ok ())
    (challengedSaved text) := by
  obtain ⟨order, horder⟩ := exists_order (encodeMembers ((∅ : ReplayMap).insert (fill 32 0) 1))
  have hproc : challengedRecorded.procs user.pid = some recording := rfl
  have htext : formats.toVecPretty order = .ok order := rfl
  have hpasses : issuing.Passes user (persistReplayState formats user.pid path).run
      challengedRecorded (.renameTemporary ⟨0, 1⟩) (challengedRecorded.written user recording order)
      (Except.ok ()) (challengedSaved order) (.ok ()) (challengedSaved order) :=
    passes_persistReplayState (serves_under fun _ _ _ => trivial) hproc rfl rfl horder htext rfl
      rfl _
  have hpersist : issuing.Ends user (persistReplayState formats user.pid path) challengedRecorded
      (.ok ()) (challengedSaved order) :=
    hpasses.runs ⟨Or.inl ⟨order, rfl, rfl, rfl⟩, trivial⟩
  exact ⟨order, Ends.bind (Ends.outcome (Ends.bind (Ends.outcome hpersist) (Ends.pure ())))
    (Ends.pure ())⟩

/-- The request with the challenge is answered valid. -/
theorem ends_handler_challenged : ∃ (result : VerificationResult) (w : World MemberOrder),
    result.valid = true ∧ issuing.Ends user
      (verifyHandler formats primitives issuedState 0 (payload 1)) challenged (.ok result) w := by
  obtain ⟨result, hvalid, hverify⟩ := ends_verify_challenged
  obtain ⟨text, hpersist⟩ := ends_persist_challenged
  have hany : ∀ w w' : World MemberOrder, w'.commits = w.commits → True := fun _ _ _ => trivial
  have hreserved : (challengedSaved text).reserved ⟨issuedNonce, 0, 0⟩ = true := by
    show Function.update booted.reserved ⟨issuedNonce, 0, 0⟩ true ⟨issuedNonce, 0, 0⟩ = true
    rw [Function.update_self]
  have hdecode : decodeRequest formats issuedState (payload 1) = .ok ([1, 1, 7], expected) :=
    decodeRequest_payload 1
  refine ⟨result, ?w, hvalid, ?run⟩
  case run =>
    refine Ends.bind (Ends.ensure hdecode) ?_
    refine Ends.bind (ends_acquireGuard hany rfl rfl rfl) (Ends.leaving ?_)
    refine Ends.bind (ends_acquireFileLock hany rfl rfl rfl) (Ends.leaving ?_)
    refine Ends.bind (ends_reload hany rfl rfl rfl rfl (Or.inl rfl)) ?_
    refine Ends.bind ends_reserveIssued_challenged ?_
    refine Ends.bind (ends_snapshot hany rfl rfl rfl rfl) ?_
    refine Ends.bind (Ends.mapError hverify) ?_
    rw [hvalid]
    refine Ends.bind hpersist ?_
    refine Ends.bind (Ends.mapError (ends_consume hany hreserved)) ?_
    refine .op (r := ()) ⟨rfl, trivial⟩ ?_
    refine .op (r := ()) ⟨rfl, trivial⟩ ?_
    exact .refl _ _

/-- A challenge is issued, and the request that uses it is answered valid. -/
theorem challenges_oneTime_single : ∃ s result,
    (service formats primitives faulty issuedConfig).Reachable (World.initial none) s ∧
      s.answers = [(caller, .challenge, .challenged (.ok ⟨hexEncode issuedNonce.toList, 300⟩)),
        (user, .verify (payload 1), .verified (.ok result))] ∧
      result.valid = true ∧ OneTime formats s.world s.answers := by
  obtain ⟨result, w, hvalid, hhandler⟩ := ends_handler_challenged
  have hboot : (service formats primitives faulty issuedConfig).ambient (fun _ => false)
      (World.initial none) booted := Ambient.boot rfl ⟨∅, rfl, Or.inl ⟨rfl, rfl⟩⟩
  have hchallenge : issuing.Runs caller (issuing.program caller .challenge) booted
      (.ret (.challenged (.ok ⟨hexEncode issuedNonce.toList, 300⟩))) challenged :=
    (Runs.bind _ ends_challenge).trans (.refl _ _)
  have hverify : issuing.Runs user (issuing.program user (.verify (payload 1))) challenged
      (.ret (.verified (.ok result))) w := (Runs.bind _ hhandler).trans (.refl _ _)
  have hfirst := hchallenge.answered (w := booted) ⟨⟨Option.some_ne_none _, rfl⟩, trivial⟩
    (fun _ => none) List.not_mem_nil []
  have hnew : user ∉ [caller] := by decide
  have hsecond := hverify.answered (w := challenged) ⟨⟨Option.some_ne_none _, rfl⟩, trivial⟩
    (Function.update (fun _ => none) caller none) hnew
    [(caller, .challenge, .challenged (.ok ⟨hexEncode issuedNonce.toList, 300⟩))]
  have hreach := (Steps.of_under (hfirst.trans hsecond)).head
    (Step.ambient (s := Machine.initial (World.initial none)) hboot)
  exact ⟨_, result, hreach, rfl, hvalid, (challenges_oneTime (fun _ => rfl) hreach).1⟩

end Veriai.Service.Transparent
