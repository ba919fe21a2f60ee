import Veriai.Service.Surroundings
import Veriai.Service.Transparent

/-!
# What a verify call alone does to its challenge

Which exits give the record back depends on the receipt, the state file and the
replay mutex. Put together, the parts of the handler say of every call that is
served alone whether the challenge of its nonce is kept.
-/

namespace Veriai.Service

open Machine

variable {Text : Type} {formats : Formats Text} {env : Primitives} {config : Config}
variable {s : Surroundings} {t : CallId}

/-- How a call ends: without an answer, its record spent; with a valid answer; or with everything
as it was. -/
def Settles (t : CallId) (nonce : ByteArr 32) (burns : Prop) (w : World Text)
    (x : Except ApiError VerificationResult) (w' : World Text) : Prop :=
  (burns ∧ (∃ e, x = .error e) ∧ w'.available nonce = false) ∨
    ¬ burns ∧ ((∃ result, x = .ok result ∧ result.valid = true) ∨ Keeps t w w')

variable (formats env) in
/-- Behind the reservation there is an exit that does not give the record back, and the call takes
it: the mutex is poisoned, or `Verifier::verify` returns `Err`. -/
def Surroundings.Burns (s : Surroundings) (t : CallId) (state : AppState) (receiptBytes : Bytes)
    (expected : Expected) (w : World Text) : Prop :=
  Reloads formats t w ∧ (w.poisoned t = true ∨ s.Rejects env state.verifier receiptBytes expected)

/-- Both locks are dropped before an answer is returned. -/
theorem leads_release {o o' : Op Text} {w : World Text} {result : VerificationResult}
    {Q : Except ApiError VerificationResult → World Text → Prop} (ho : SparesRecords o)
    (ho' : SparesRecords o') (hQ : ∀ w', Keeps t w w' → Q (.ok result) w') :
    (s.service formats env config).Leads t
      (do
        let _ ← perform o
        let _ ← perform o'
        return result) w Q := by
  refine Leads.call_bind ?_
  intro r w₁ h
  refine Leads.call_bind ?_
  intro r' w₂ h'
  exact Leads.pure (hQ w₂ ((service_spares ho h).trans (service_spares ho' h')))

/-- Under both locks, a call settles its nonce: it spends the record, answers valid, or leaves
everything as it was. -/
theorem leads_verifyLocked {state : AppState} {path : StatePath} {fileName : String}
    {receiptBytes : Bytes} {expected : Expected} {expiresAt : UInt64} {w : World Text}
    (hissued : state.requireIssuedChallenge = true) (hstate : state.replayStatePath = some path)
    (hname : path.fileName = some fileName) (honly : OnlyAvailable expected.nonce w)
    (hexpires : Expires expected.nonce expiresAt w) (hclock : s.clock ≤ expiresAt) :
    (s.service formats env config).Leads t
      (verifyLocked formats env state t.pid receiptBytes expected) w
      (Settles t expected.nonce (s.Burns formats env t state receiptBytes expected w) w) := by
  refine Leads.bind ((leads_reload hstate).mono ?_)
  rintro x w₁ ⟨hkeeps, hreloads⟩
  cases x with
  | error e =>
    exact Or.inr ⟨fun hburns => Bool.false_ne_true (hreloads.mpr hburns.1), Or.inr hkeeps⟩
  | ok u =>
  have hreloads := hreloads.mp rfl
  have havailable : w₁.available expected.nonce = true := by
    rw [hkeeps.available]
    exact honly.available
  have hexpires₁ : Expires expected.nonce expiresAt w₁ := by
    rw [Expires, hkeeps.record]
    exact hexpires
  refine Leads.bind ((leads_reserveIssued hissued hstate hname havailable hexpires₁ hclock).mono ?_)
  rintro x w₂ ⟨name, hnonce, rfl, htaken₁⟩
  have htaken := hkeeps.taken htaken₁
  have honlyName : OnlyAvailable name.nonce w := by
    rw [hnonce]
    exact honly
  have hspent {w' : World Text} (h : Taken t name w w') : w'.available expected.nonce = false := by
    rw [h.available, hnonce, Function.update_self]
  refine Leads.bind ((leads_snapshot hstate).mono ?_)
  rintro x w₃ ⟨rfl, hsnapshot⟩
  rw [htaken.poisoned] at hsnapshot
  cases x with
  | error e =>
    have hpoisoned : w.poisoned t = true := by
      by_contra hhealthy
      exact Bool.false_ne_true (hsnapshot.mpr (Bool.eq_false_iff.mpr hhealthy))
    exact Or.inl ⟨⟨hreloads, Or.inl hpoisoned⟩, ⟨e, rfl⟩, hspent htaken⟩
  | ok previous =>
  have hhealthy := hsnapshot.mp rfl
  have hhealthy₃ : w₃.poisoned t = false := htaken.poisoned.trans hhealthy
  refine Leads.bind (Leads.mapError ((leads_verify hhealthy₃).mono ?_))
  rintro x w₄ ⟨hkeeps₄, hverified⟩
  have htaken₄ := htaken.keeps hkeeps₄
  cases x with
  | error e =>
    have hrejects : s.Rejects env state.verifier receiptBytes expected := by
      by_contra hnot
      exact Bool.false_ne_true (hverified.mpr hnot)
    exact Or.inl ⟨⟨hreloads, Or.inr hrejects⟩, ⟨_, rfl⟩, hspent htaken₄⟩
  | ok result =>
  have hnot : ¬ s.Burns formats env t state receiptBytes expected w := by
    rintro ⟨-, hpoisoned | hrejects⟩
    · exact Bool.false_ne_true (hhealthy.symm.trans hpoisoned)
    · exact hverified.mp rfl hrejects
  show (s.service formats env config).Leads t (if !result.valid then _ else _) w₄ _
  cases hvalid : result.valid with
  | false =>
    rw [if_pos (by decide)]
    refine Leads.bind (Leads.mapError ((leads_restore honlyName htaken₄).mono ?_))
    rintro x w₅ ⟨rfl, hkeeps₅⟩
    refine leads_release trivial trivial ?_
    intro w₆ hkeeps₆
    exact Or.inr ⟨hnot, Or.inr (hkeeps₅.trans hkeeps₆)⟩
  | true =>
    rw [if_neg (by decide)]
    refine Leads.bind ((leads_persist hstate honlyName htaken₄).mono ?_)
    rintro x w₅ (⟨rfl, htaken₅⟩ | ⟨⟨e, rfl⟩, hkeeps₅⟩)
    · refine Leads.bind (Leads.mapError ((leads_consume htaken₅).mono ?_))
      rintro x w₆ rfl
      refine leads_release trivial trivial ?_
      intro w₇ _
      exact Or.inr ⟨hnot, Or.inl ⟨result, rfl, hvalid⟩⟩
    · exact Or.inr ⟨hnot, Or.inr hkeeps₅⟩

/-- An error settles a nonce whatever is done behind it that keeps the records. -/
theorem Settles.later {nonce : ByteArr 32} {burns : Prop} {e : ApiError} {w w₁ w' : World Text}
    (h : Settles t nonce burns w (.error e) w₁) (hkeeps : Keeps t w₁ w') :
    Settles t nonce burns w (.error e) w' := by
  rcases h with ⟨hburns, herror, hspent⟩ | ⟨hnot, ⟨result, hresult, -⟩ | hkept⟩
  · exact Or.inl ⟨hburns, herror, by rw [hkeeps.available, hspent]⟩
  · cases hresult
  · exact Or.inr ⟨hnot, Or.inr (hkept.trans hkeeps)⟩

/-- What is done before that keeps the records does not matter. -/
theorem Settles.earlier {nonce : ByteArr 32} {burns burns' : Prop}
    {x : Except ApiError VerificationResult} {w w₁ w' : World Text}
    (h : Settles t nonce burns w₁ x w') (hkeeps : Keeps t w w₁) (hiff : burns ↔ burns') :
    Settles t nonce burns' w x w' := by
  rw [Settles, ← hiff]
  rcases h with hspent | ⟨hnot, hvalid | hkept⟩
  · exact Or.inl hspent
  · exact Or.inr ⟨hnot, Or.inl hvalid⟩
  · exact Or.inr ⟨hnot, Or.inr (hkeeps.trans hkept)⟩

/-- What is true of a scope is true of it when it is left. -/
theorem leads_leaving {leave : Op Text} {m : ServiceM Text ApiError VerificationResult}
    {nonce : ByteArr 32} {burns : Prop} {w₀ w : World Text} (hleave : SparesRecords leave)
    (h : (s.service formats env config).Leads t m w (Settles t nonce burns w₀)) :
    (s.service formats env config).Leads t (Handler.leaving leave m) w
      (Settles t nonce burns w₀) := by
  refine Leads.leaving (h.mono ?_)
  intro x w₁ hsettles
  cases x with
  | ok result => exact hsettles
  | error e => exact fun r w' hexec => hsettles.later (service_spares hleave hexec)

variable (formats env) in
/-- The request is one that spends the record of its nonce without a valid answer. -/
def Surroundings.Spends (s : Surroundings) (t : CallId) (state : AppState) (payload : VerifyRequest)
    (w : World Text) : Prop :=
  ∃ receiptBytes expected path fileName,
    decodeRequest formats state payload = .ok (receiptBytes, expected) ∧
      state.replayStatePath = some path ∧ path.fileName = some fileName ∧
        s.Burns formats env t state receiptBytes expected w

/-- A request that decodes spends the record of its nonce when its call burns it. -/
theorem Surroundings.spends_iff {state : AppState} {payload : VerifyRequest} {receiptBytes : Bytes}
    {expected : Expected} {path : StatePath} {fileName : String} {w : World Text}
    (hdecode : decodeRequest formats state payload = .ok (receiptBytes, expected))
    (hstate : state.replayStatePath = some path) (hname : path.fileName = some fileName) :
    s.Spends formats env t state payload w ↔
      s.Burns formats env t state receiptBytes expected w := by
  constructor
  · rintro ⟨receiptBytes', expected', -, -, hdecode', -, -, h⟩
    obtain ⟨rfl, rfl⟩ := Prod.mk.inj (Except.ok.inj (hdecode.symm.trans hdecode'))
    exact h
  · intro h
    exact ⟨receiptBytes, expected, path, fileName, hdecode, hstate, hname, h⟩

/-- A request that does not decode spends nothing. -/
theorem Surroundings.not_spends_undecoded {state : AppState} {payload : VerifyRequest}
    {e : ApiError} {w : World Text} (hdecode : decodeRequest formats state payload = .error e) :
    ¬ s.Spends formats env t state payload w := by
  rintro ⟨receiptBytes, expected, -, -, hok, -⟩
  rw [hok] at hdecode
  cases hdecode

/-- Without a state path with a file name no request spends anything. -/
theorem Surroundings.not_spends_unnamed {state : AppState} {payload : VerifyRequest}
    {w : World Text} (hunnamed : ∀ path, state.replayStatePath = some path → path.fileName = none) :
    ¬ s.Spends formats env t state payload w := by
  rintro ⟨-, -, path, fileName, -, hpath, hname, -⟩
  rw [hunnamed path hpath] at hname
  cases hname

/-- Whether a call burns its record depends on the state file and the health of the mutex. -/
theorem Surroundings.Burns.congr {state : AppState} {receiptBytes : Bytes} {expected : Expected}
    {w w' : World Text} (hfile : w'.file = w.file) (hpoisoned : w'.poisoned t = w.poisoned t) :
    s.Burns formats env t state receiptBytes expected w' ↔
      s.Burns formats env t state receiptBytes expected w := by
  simp only [Burns, Reloads, hfile, hpoisoned]

/-- Without a state path there is no reservation. -/
theorem leads_verifyLocked_pathless {state : AppState} {receiptBytes : Bytes} {expected : Expected}
    {w : World Text} {burns : Prop} (hissued : state.requireIssuedChallenge = true)
    (hstate : state.replayStatePath = none) (hnot : ¬ burns) :
    (s.service formats env config).Leads t
      (verifyLocked formats env state t.pid receiptBytes expected) w
      (Settles t expected.nonce burns w) := by
  have hreload : reload formats state = (return () : ServiceM Text ApiError Unit) := by
    simp only [reload, hstate]
  rw [verifyLocked, hreload, reserveIssued, if_pos hissued, hstate]
  refine Leads.bind (Leads.pure ?_)
  refine Leads.bind (Leads.ensure_bind (by rintro _ ⟨⟩) ?_)
  rintro e -
  exact Or.inr ⟨hnot, Or.inr (.refl w)⟩

/-- The whole handler settles the nonce of its request. -/
theorem leads_verifyHandler {state : AppState} {payload : VerifyRequest} {nonce : ByteArr 32}
    {expiresAt : UInt64} {w : World Text} (hissued : state.requireIssuedChallenge = true)
    (hnonce : decodeParameter formats "nonce" payload.nonce = .ok nonce)
    (honly : OnlyAvailable nonce w) (hexpires : Expires nonce expiresAt w)
    (hclock : s.clock ≤ expiresAt) :
    (s.service formats env config).Leads t (verifyHandler formats env state t.pid payload) w
      (Settles t nonce (s.Spends formats env t state payload w) w) := by
  refine Leads.ensure_bind ?_ ?_
  rotate_left
  · intro e he
    exact Or.inr ⟨s.not_spends_undecoded he, Or.inr (.refl w)⟩
  rintro ⟨receiptBytes, expected⟩ hdecode
  obtain rfl := Except.ok.inj ((decodeRequest_nonce hdecode).symm.trans hnonce)
  cases hstate : state.replayStatePath with
  | none =>
    have hnot : ¬ s.Spends formats env t state payload w := by
      refine s.not_spends_unnamed ?_
      intro path hpath
      cases hstate.symm.trans hpath
    have hguard : acquireGuard state = (return () : ServiceM Text ApiError Unit) := by
      simp only [acquireGuard, hstate]
    have hlock : acquireFileLock state = (return () : ServiceM Text ApiError Unit) := by
      simp only [acquireFileLock, hstate]
    dsimp only
    rw [hguard, hlock]
    refine Leads.bind (Leads.pure ?_)
    refine leads_leaving trivial (Leads.bind (Leads.pure ?_))
    exact leads_leaving trivial (leads_verifyLocked_pathless hissued hstate hnot)
  | some path =>
    have hguard : acquireGuard state =
        (perform .lockReplayGuard : ServiceM Text ApiError Unit) := by
      simp only [acquireGuard, hstate]
    dsimp only
    rw [hguard]
    refine Leads.call_bind ?_
    intro r w₁ hlock
    have hkeeps₁ := service_spares (o := Op.lockReplayGuard) trivial hlock
    obtain ⟨⟨p, -, -, rfl⟩, -⟩ := hlock
    refine leads_leaving trivial ?_
    simp only [acquireFileLock, hstate]
    refine Leads.bind (Leads.ensure_bind ?_ ?_)
    rotate_left
    · intro e he
      refine Or.inr ⟨s.not_spends_unnamed ?_, Or.inr hkeeps₁⟩
      intro path' hpath'
      obtain rfl := Option.some.inj (hstate.symm.trans hpath')
      exact (okOr_eq_error.mp he).1
    intro fileName hsibling
    have hname := okOr_eq_ok.mp hsibling
    have hburns (w' : World Text) (hfile : w'.file = w.file)
        (hpoisoned : w'.poisoned t = w.poisoned t) :
        s.Burns formats env t state receiptBytes expected w' ↔
          s.Spends formats env t state payload w := by
      rw [Surroundings.Burns.congr hfile hpoisoned, s.spends_iff hdecode hstate hname]
    refine Leads.attempt (o := Op.acquireReplayLock) rfl ?_
    rintro r w₂ ⟨⟨rfl, -, rfl⟩ | ⟨hfails, -⟩, -⟩
    rotate_left
    · cases hfails
    have hkeeps₂ : Keeps t w
        { w.setProc t.pid (some { p with guard := some t }) with fileLock := some t } :=
      hkeeps₁.trans ⟨rfl, rfl, rfl, rfl⟩
    refine leads_leaving trivial ?_
    have honly₂ : OnlyAvailable expected.nonce
        { w.setProc t.pid (some { p with guard := some t }) with fileLock := some t } :=
      ⟨honly.available, honly.reserved⟩
    refine (leads_verifyLocked hissued hstate hname honly₂ hexpires hclock).mono ?_
    intro x w' h
    exact h.earlier hkeeps₂ (hburns _ rfl hkeeps₂.poisoned)

/-- A call that is served alone, with every file operation succeeding, gives the record of its
nonce back on every answer other than a valid one, if and only if its request is none that spends
the record: the request does not decode or the state file does not load, or the mutex is healthy
and `Verifier::verify` returns `Ok`. -/
theorem challenge_kept_iff {payload : VerifyRequest} {nonce : ByteArr 32} {expiresAt : UInt64}
    {w w' : World Text} {x : Except ApiError VerificationResult}
    (hissued : (config.state t.pid).requireIssuedChallenge = true)
    (hnonce : decodeParameter formats "nonce" payload.nonce = .ok nonce)
    (honly : OnlyAvailable nonce w) (hexpires : Expires nonce expiresAt w)
    (hclock : s.clock ≤ expiresAt)
    (hrun : (s.service formats env config).Ends t
      (verifyHandler formats env (config.state t.pid) t.pid payload) w x w') :
    ((∀ result, x = .ok result → result.valid = false) →
        OnlyAvailable nonce w' ∧ Expires nonce expiresAt w') ↔
      ¬ s.Spends formats env t (config.state t.pid) payload w := by
  obtain ⟨hburns, ⟨e, rfl⟩, hspent⟩ | ⟨hnot, hsettled⟩ :=
    leads_verifyHandler hissued hnonce honly hexpires hclock x w' hrun
  · refine iff_of_false ?_ fun hnot => hnot hburns
    intro hkept
    obtain ⟨⟨havailable, -⟩, -⟩ := hkept (by rintro _ ⟨⟩)
    rw [hspent] at havailable
    cases havailable
  · refine iff_of_true ?_ hnot
    intro hinvalid
    rcases hsettled with ⟨result, rfl, hvalid⟩ | hkeeps
    · rw [hinvalid result rfl] at hvalid
      cases hvalid
    · refine ⟨⟨?_, ?_⟩, ?_⟩
      · rw [hkeeps.available]
        exact honly.available
      · rw [hkeeps.reserved]
        exact honly.reserved
      · rw [Expires, hkeeps.record]
        exact hexpires

end Veriai.Service

namespace Veriai.Service.Transparent

open Machine Veriai.Transparent

/-- Process 0 has started, and the nonce has a record that expires at second 9. -/
def issued : World MemberOrder :=
  { booted with
    available := Function.update (fun _ => false) issuedNonce true
    record := Function.update (fun _ => []) issuedNonce ['9', '\n'] }

/-- The call is made at the epoch. -/
def atEpoch : Surroundings := ⟨0, provider, epoch⟩

/-- A request with this receipt. -/
def presenting (receipt : Bytes) : VerifyRequest :=
  { payload 0 with receipt := hexEncode receipt }

/-- The request decodes to its receipt and the expected values. -/
theorem decodeRequest_presenting (receipt : Bytes) :
    decodeRequest formats issuedState (presenting receipt) = .ok (receipt, expected) := by
  simp only [decodeRequest, presenting, payload, decodeReceipt_hexEncode,
    decodeParameter_hexEncode]
  rfl

/-- Its nonce is the issued one. -/
theorem decodeParameter_nonce (receipt : Bytes) :
    decodeParameter formats "nonce" (presenting receipt).nonce = .ok issuedNonce := by
  rw [presenting, payload, decodeParameter_hexEncode, issuedNonce]

/-- The nonce has no other record. -/
theorem onlyAvailable_issued : OnlyAvailable issuedNonce issued where
  available := by
    show Function.update (fun _ => false) issuedNonce true issuedNonce = true
    rw [Function.update_self]
  reserved _ _ := rfl

/-- The record holds its expiry and a line break. -/
theorem record_issued : issued.record issuedNonce = ['9', '\n'] := by
  show Function.update (fun _ => []) issuedNonce ['9', '\n'] issuedNonce = _
  rw [Function.update_self]

/-- The record expires at second 9. -/
theorem expires_issued : Expires issuedNonce 9 issued := by
  rw [Expires, record_issued]
  rfl

/-- The call holds both locks. -/
def issuedHeld : World MemberOrder :=
  { issued.setProc 0 (some ⟨0, some (.new ∅), some caller⟩) with fileLock := some caller }

/-- The call holds both locks and has looked for the state file. -/
def issuedLocked : World MemberOrder := issued.locked caller process

/-- The call has reserved the record. -/
def issuedReserved : World MemberOrder :=
  { issuedLocked.setProc 0 (some ⟨1, some (.new ∅), some caller⟩) with
    clock := Function.update issuedLocked.clock caller (some 0)
    slots := Function.update issuedLocked.slots ⟨0, 0⟩ (some caller)
    available := Function.update issued.available issuedNonce false
    reserved := Function.update issued.reserved ⟨issuedNonce, 0, 0⟩ true
    reservations := [(caller, issuedNonce, some 0)] }

/-- The record is reserved. -/
theorem ends_reserveIssued_issued :
    (atEpoch.service formats primitives issuedConfig).Ends caller
      (reserveIssued issuedState 0 issuedNonce) issuedLocked (.ok (some ⟨issuedNonce, 0, 0⟩))
      issuedReserved := by
  have hclock : @Surroundings.Allows MemberOrder atEpoch .unixSeconds (Except.ok 0) := rfl
  refine .op (r := Except.ok (String.ofList ['9', '\n']))
    ⟨Or.inl ⟨onlyAvailable_issued.available, ?_, rfl⟩, trivial⟩ ?_
  · exact congrArg (fun record => Except.ok (String.ofList record)) record_issued.symm
  refine .op ⟨Or.inl ⟨0, rfl, rfl⟩, hclock⟩ ?_
  refine .op (r := (0 : Nat)) ⟨⟨_, rfl, rfl, rfl⟩, trivial⟩ ?_
  refine .op (r := Except.ok ()) ⟨Or.inl ⟨onlyAvailable_issued.available, rfl, rfl⟩, trivial⟩ ?_
  refine .op (r := Except.ok ()) ⟨Or.inl ⟨rfl, rfl⟩, trivial⟩ ?_
  exact .refl _ _

/-- What the provider and the clock are when the receipt is verified. -/
theorem ends_observe :
    (atEpoch.service formats primitives issuedConfig).Ends (ε := VerifyError) caller
      (perform .observe) issuedReserved (.ok (provider, epoch)) issuedReserved := by
  have hobserved : @Surroundings.Allows MemberOrder atEpoch .observe (provider, epoch) := rfl
  exact Ends.call ⟨rfl, hobserved⟩

/-- There is no state file to reload. -/
theorem ends_reload_issued :
    (atEpoch.service formats primitives issuedConfig).Ends caller (reload formats issuedState)
      issuedHeld (.ok ()) issuedLocked :=
  .op (r := false) ⟨⟨rfl, rfl⟩, trivial⟩ (.refl _ _)

/-- The memory is empty. -/
theorem ends_snapshot_issued :
    (atEpoch.service formats primitives issuedConfig).Ends caller (snapshot issuedState)
      issuedReserved (.ok (some ∅)) issuedReserved :=
  .op (r := Except.ok (some ∅)) ⟨⟨_, rfl, rfl, rfl⟩, trivial⟩ (.refl _ _)

/-- The guard is taken. -/
theorem ends_acquireGuard_issued :
    (atEpoch.service formats primitives issuedConfig).Ends caller (acquireGuard issuedState) issued
      (.ok ()) (issued.setProc 0 (some ⟨0, some (.new ∅), some caller⟩)) :=
  .op (r := ()) ⟨⟨process, rfl, rfl, rfl⟩, trivial⟩ (.refl _ _)

/-- The file lock is taken. -/
theorem ends_acquireFileLock_issued :
    (atEpoch.service formats primitives issuedConfig).Ends caller (acquireFileLock issuedState)
      (issued.setProc 0 (some ⟨0, some (.new ∅), some caller⟩)) (.ok ()) issuedHeld :=
  .op (r := Except.ok ()) ⟨Or.inl ⟨rfl, rfl, rfl⟩, trivial⟩ (.refl _ _)

/-- The algorithm of the receipt is not supported. -/
theorem ends_verify_unsupported :
    (atEpoch.service formats primitives issuedConfig).Ends caller
      (verify primitives verifier [7] expected) issuedReserved (.error .unsupportedAlgorithm)
      issuedReserved :=
  Ends.bind ends_observe (.refl _ _)

/-- The receipt cannot be parsed. -/
theorem ends_verify_malformed : ∃ result : VerificationResult, result.valid = false ∧
    (atEpoch.service formats primitives issuedConfig).Ends caller
      (verify primitives verifier [] expected) issuedReserved (.ok result) issuedReserved :=
  ⟨_, rfl, Ends.bind ends_observe (.refl _ _)⟩

/-- The handler of a request under both locks. -/
def handlerLocked (receipt : Bytes) : ServiceM MemberOrder ApiError VerificationResult := do
  acquireFileLock issuedState
  Handler.leaving .dropReplayLock (verifyLocked formats primitives issuedState 0 receipt expected)

/-- The handler ends as its part under the guard does. -/
theorem ends_handler {receipt : Bytes} {x : Except ApiError VerificationResult}
    {w' : World MemberOrder}
    (h : (atEpoch.service formats primitives issuedConfig).Ends caller
      (Handler.leaving .dropReplayGuard (handlerLocked receipt))
      (issued.setProc 0 (some ⟨0, some (.new ∅), some caller⟩)) x w') :
    (atEpoch.service formats primitives issuedConfig).Ends caller
      (verifyHandler formats primitives issuedState 0 (presenting receipt)) issued x w' :=
  Ends.bind (Ends.ensure (decodeRequest_presenting receipt)) (Ends.bind ends_acquireGuard_issued h)

/-- The request with an unsupported receipt ends with an error. -/
theorem ends_unsupported : ∃ e w', (atEpoch.service formats primitives issuedConfig).Ends caller
    (verifyHandler formats primitives issuedState 0 (presenting [7])) issued (.error e) w' := by
  have hlocked : (atEpoch.service formats primitives issuedConfig).Ends caller
      (verifyLocked formats primitives issuedState 0 [7] expected) issuedHeld
      (.error ⟨500, "verification_error", "Infrastructure error: " ++
        formats.debugVerifyError .unsupportedAlgorithm⟩) issuedReserved :=
    Ends.bind ends_reload_issued (Ends.bind ends_reserveIssued_issued
      (Ends.bind ends_snapshot_issued (Ends.bind_early (Ends.mapError ends_verify_unsupported))))
  have hscope : (atEpoch.service formats primitives issuedConfig).Ends caller (handlerLocked [7])
      (issued.setProc 0 (some ⟨0, some (.new ∅), some caller⟩)) _ _ :=
    Ends.bind ends_acquireFileLock_issued (Ends.leaving_early (r := ()) hlocked ⟨rfl, trivial⟩)
  exact ⟨_, _, ends_handler (Ends.leaving_early (r := ()) hscope ⟨rfl, trivial⟩)⟩

/-- The request with a malformed receipt is answered invalid. -/
theorem ends_malformed : ∃ (result : VerificationResult) (w' : World MemberOrder),
    result.valid = false ∧ (atEpoch.service formats primitives issuedConfig).Ends caller
      (verifyHandler formats primitives issuedState 0 (presenting [])) issued (.ok result) w' := by
  obtain ⟨result, hvalid, hverify⟩ := ends_verify_malformed
  have hreserved : issuedReserved.reserved ⟨issuedNonce, 0, 0⟩ = true := by
    show Function.update issued.reserved ⟨issuedNonce, 0, 0⟩ true ⟨issuedNonce, 0, 0⟩ = true
    rw [Function.update_self]
  have hlocked : ∃ w', (atEpoch.service formats primitives issuedConfig).Ends caller
      (verifyLocked formats primitives issuedState 0 [] expected) issuedHeld (.ok result) w' := by
    refine ⟨?w, ?run⟩
    case run =>
      refine Ends.bind ends_reload_issued (Ends.bind ends_reserveIssued_issued
        (Ends.bind ends_snapshot_issued (Ends.bind (Ends.mapError hverify) ?_)))
      rw [if_pos (by rw [hvalid]; rfl)]
      refine .op (r := Except.ok ()) ⟨Or.inl ⟨hreserved, rfl, rfl⟩, trivial⟩ ?_
      refine .op (r := Except.ok ()) ⟨Or.inl ⟨rfl, rfl⟩, trivial⟩ ?_
      refine .op (r := ()) ⟨rfl, trivial⟩ ?_
      refine .op (r := ()) ⟨rfl, trivial⟩ ?_
      exact .refl _ _
  obtain ⟨w', hlocked⟩ := hlocked
  have hscope : (atEpoch.service formats primitives issuedConfig).Ends caller (handlerLocked [])
      (issued.setProc 0 (some ⟨0, some (.new ∅), some caller⟩)) _ _ :=
    Ends.bind ends_acquireFileLock_issued (Ends.leaving hlocked)
  exact ⟨result, w', hvalid, ends_handler (Ends.leaving hscope)⟩

/-- The epoch is before the expiry. -/
theorem clock_atEpoch : atEpoch.clock ≤ 9 := by decide

/-- After the invalid answer to a malformed receipt the record is available as before. -/
theorem challenge_kept_malformed : ∃ (result : VerificationResult) (w' : World MemberOrder),
    result.valid = false ∧
      (atEpoch.service formats primitives issuedConfig).Ends caller
        (verifyHandler formats primitives issuedState 0 (presenting [])) issued (.ok result) w' ∧
      OnlyAvailable issuedNonce w' ∧ Expires issuedNonce 9 w' := by
  obtain ⟨result, w', hvalid, hrun⟩ := ends_malformed
  have hkept := (challenge_kept_iff rfl (decodeParameter_nonce [])
    onlyAvailable_issued expires_issued clock_atEpoch hrun).mpr ?_ ?_
  · exact ⟨result, w', hvalid, hrun, hkept⟩
  · rintro ⟨receiptBytes, expected', path', -, hdecode, -, -, -, hpoisoned | ⟨e, he⟩⟩
    · cases hpoisoned
    · obtain ⟨rfl, rfl⟩ :=
        Prod.mk.inj (Except.ok.inj ((decodeRequest_presenting []).symm.trans hdecode))
      cases he
  · intro result' hresult'
    rw [← Except.ok.inj hresult']
    exact hvalid

/-- A request whose receipt has an unsupported algorithm is answered with an error, and the record
of its nonce is spent. -/
theorem challenge_spent_unsupported : ∃ e w',
    (atEpoch.service formats primitives issuedConfig).Ends caller
        (verifyHandler formats primitives issuedState 0 (presenting [7])) issued (.error e) w' ∧
      OnlyAvailable issuedNonce issued ∧ Expires issuedNonce 9 issued ∧
      w'.available issuedNonce = false := by
  obtain ⟨e, w', hrun⟩ := ends_unsupported
  refine ⟨e, w', hrun, onlyAvailable_issued, expires_issued, ?_⟩
  obtain ⟨-, -, hspent⟩ | ⟨hnot, -⟩ := leads_verifyHandler rfl
    (decodeParameter_nonce [7]) onlyAvailable_issued expires_issued clock_atEpoch _ _ hrun
  · exact hspent
  · refine absurd
      ⟨[7], expected, path, "replay.json", decodeRequest_presenting [7], rfl, rfl, ?_, ?_⟩
      hnot
    · rintro text ⟨⟩
    · exact Or.inr ⟨.unsupportedAlgorithm, rfl⟩

end Veriai.Service.Transparent
