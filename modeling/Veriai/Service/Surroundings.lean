import Veriai.Service.Records

/-!
# What the exits of a verify call do to its challenge

A call of `verify_handler` that is served alone, with every file operation
succeeding, reserves the record of its nonce and then leaves by one of many
exits. What each part of the handler does to the record and to the health of the
mutex depends on the state file, the receipt and the surroundings.
-/

namespace Veriai.Service

open Machine

variable {Text : Type}

/-- What the call finds of its surroundings: the clock at the reservation, and the provider and
the clock as `verify` finds them. -/
structure Surroundings where
  clock : UInt64
  provider : AttestationProvider
  now : SystemTime

/-- The results in these surroundings. -/
def Surroundings.Allows (s : Surroundings) : (o : Op Text) → Res Text o → Prop
  | .unixSeconds, r => r = .ok s.clock
  | .observe, r => r = (s.provider, s.now)
  | _, _ => True

/-- No file operation fails for reasons outside the model. -/
def undisturbed : Hazards := ⟨false, false, false⟩

variable (formats : Formats Text) (env : Primitives) (config : Config)

/-- The service in these surroundings. -/
def Surroundings.service (s : Surroundings) :
    Machine CallId Request Response (World Text) (Res Text) :=
  (Service.service formats env undisturbed config).obeying s.Allows

/-- The records and the health of the mutex are as they were. -/
structure Keeps (t : CallId) (w w' : World Text) : Prop where
  available : w'.available = w.available
  reserved : w'.reserved = w.reserved
  record : w'.record = w.record
  poisoned : w'.poisoned t = w.poisoned t

/-- The record of the name is reserved under it; the rest is as it was. -/
structure Taken (t : CallId) (name : ReservedName) (w w' : World Text) : Prop where
  available : w'.available = Function.update w.available name.nonce false
  reserved : w'.reserved = Function.update w.reserved name true
  record : w'.record = w.record
  poisoned : w'.poisoned t = w.poisoned t

variable {formats env config} {s : Surroundings} {t : CallId}

theorem Keeps.refl (w : World Text) : Keeps t w w := ⟨rfl, rfl, rfl, rfl⟩

/-- Records that are kept twice are kept. -/
theorem Keeps.trans {w w₁ w' : World Text} (h : Keeps t w w₁) (h' : Keeps t w₁ w') :
    Keeps t w w' where
  available := h'.available.trans h.available
  reserved := h'.reserved.trans h.reserved
  record := h'.record.trans h.record
  poisoned := h'.poisoned.trans h.poisoned

/-- A record is reserved after a step that kept the records. -/
theorem Keeps.taken {name : ReservedName} {w w₁ w' : World Text} (h : Keeps t w w₁)
    (h' : Taken t name w₁ w') : Taken t name w w' where
  available := by rw [h'.available, h.available]
  reserved := by rw [h'.reserved, h.reserved]
  record := h'.record.trans h.record
  poisoned := h'.poisoned.trans h.poisoned

/-- A reserved record stays reserved over a step that keeps the records. -/
theorem Taken.keeps {name : ReservedName} {w w₁ w' : World Text} (h : Taken t name w w₁)
    (h' : Keeps t w₁ w') : Taken t name w w' where
  available := h'.available.trans h.available
  reserved := h'.reserved.trans h.reserved
  record := h'.record.trans h.record
  poisoned := h'.poisoned.trans h.poisoned

/-- What spares the records keeps them. -/
theorem Spares.keeps {w w' : World Text} (h : Spares t w w') : Keeps t w w' :=
  ⟨h.available, h.reserved, h.record, h.poisoned⟩

/-- An operation that spares the records keeps them in these surroundings. -/
theorem service_spares {o : Op Text} {r : Res Text o} {w w' : World Text} (ho : SparesRecords o)
    (h : (s.service formats env config).exec t o r w w') : Keeps t w w' :=
  (exec_spares ho h.1).keeps

/-- A part of a handler that spares the records keeps them. -/
theorem leads_spares {ε α : Type} {m : ServiceM Text ε α} {w : World Text}
    (hm : Handler.All SparesRecords m) :
    (s.service formats env config).Leads t m w fun _ w' => Keeps t w w' :=
  Leads.of_all hm .refl (fun _ _ _ => .trans) fun _ _ _ _ => service_spares

variable (formats) in
/-- The text is one that `load_replay_state` accepts. -/
def Loadable (text : Text) : Prop :=
  ∃ saved, formats.fromSlice text = .ok saved ∧
    ∀ name ∈ saved, ∃ fingerprint, decodeHex32 formats name = .ok fingerprint

variable (formats) in
/-- The state file, if there is one, can be reloaded into the memory of the process. -/
def Reloads (t : CallId) (w : World Text) : Prop :=
  ∀ text, w.file = some text → Loadable formats text ∧ w.poisoned t = false

/-- The state file loads if and only if its text is one that the loader accepts. -/
theorem leads_loadReplayState {w : World Text} {text : Text} (hfile : w.file = some text) :
    (s.service formats env config).Leads t (loadReplayState formats) w fun x _ =>
      x.isOk = true ↔ Loadable formats text := by
  refine Leads.attempt_bind (o := Op.readState) rfl ?_
  rintro r w₁ ⟨⟨text', htext', rfl, rfl⟩ | ⟨hnone, -, -⟩ | ⟨hfails, -, -⟩, -⟩
  rotate_left
  · rw [hfile] at hnone
    cases hnone
  · cases hfails
  obtain rfl := Option.some.inj (htext'.symm.trans hfile)
  refine Leads.ensure_bind ?_ ?_
  rotate_left
  · intro e he
    refine iff_of_false Bool.false_ne_true ?_
    rintro ⟨saved, hsaved, -⟩
    rw [hsaved] at he
    cases he
  intro saved hsaved
  have hsaved := mapError_eq_ok.mp hsaved
  refine Leads.call_bind (o := Op.intoIter saved) ?_
  rintro order w₂ ⟨⟨hmembers, -⟩, -⟩
  refine Leads.ensure ?_
  have hsucceeds := @collectReplayMap_succeeds _ formats order
  rw [hmembers] at hsucceeds
  cases hcollect : collectReplayMap formats order with
  | ok state =>
    rw [hcollect] at hsucceeds
    exact iff_of_true rfl ⟨saved, hsaved, hsucceeds.mp ⟨state, rfl⟩⟩
  | error e =>
    rw [hcollect] at hsucceeds
    refine iff_of_false Bool.false_ne_true ?_
    rintro ⟨saved', hsaved', hdecode⟩
    obtain rfl := Except.ok.inj (hsaved.symm.trans hsaved')
    obtain ⟨state, hstate⟩ := hsucceeds.mpr hdecode
    cases hstate

/-- A mutex that is not poisoned lets `set_state` succeed. -/
theorem setState_isOk (state : ReplayMap) (replay : Option ReplayMutex) :
    (setState state replay).1.isOk = !replay.any ReplayMutex.poisoned := by
  cases replay with
  | none => rfl
  | some m =>
    cases hpoisoned : m.poisoned <;> simp [setState, hpoisoned, Except.isOk, Except.toBool]

/-- The health of the mutex is read off the process. -/
theorem World.poisoned_eq {w : World Text} {p : Process} (hp : w.procs t.pid = some p) :
    w.poisoned t = p.verifier.any ReplayMutex.poisoned := by
  rw [World.poisoned, hp]
  rfl

/-- Reloading keeps the records, and succeeds if and only if the state file can be reloaded. -/
theorem leads_reload {state : AppState} {path : StatePath}
    (hstate : state.replayStatePath = some path) {w : World Text} :
    (s.service formats env config).Leads t (reload formats state) w fun x w' =>
      Keeps t w w' ∧ (x.isOk = true ↔ Reloads formats t w) := by
  refine (leads_spares (reload_spares state)).and ?_
  simp only [reload, hstate]
  refine Leads.call_bind (o := Op.pathExists) ?_
  rintro r w₁ ⟨⟨rfl, rfl⟩, -⟩
  cases hfile : w.file with
  | none =>
    refine Leads.pure (iff_of_true rfl ?_)
    intro text htext
    rw [hfile] at htext
    cases htext
  | some text =>
    have hreloads : Reloads formats t w ↔ Loadable formats text ∧ w.poisoned t = false := by
      simp [Reloads, hfile]
    rw [hreloads]
    have hlooked : (w.looked t).file = some text := hfile
    refine Leads.bind (Leads.mapError ?_)
    refine ((leads_loadReplayState hlooked).and (leads_spares loadReplayState_spares)).mono ?_
    rintro x w₂ ⟨hloaded, hkeeps⟩
    cases x with
    | error e => exact iff_of_false Bool.false_ne_true fun h => Bool.false_ne_true (hloaded.mpr h.1)
    | ok saved =>
      have hloadable := hloaded.mp rfl
      refine Leads.attempt (o := Op.setState saved) rfl ?_
      rintro r w₃ ⟨⟨p, hp, rfl, -⟩, -⟩
      have hpoisoned : w.poisoned t = p.verifier.any ReplayMutex.poisoned := by
        rw [← World.poisoned_eq hp, hkeeps.poisoned]
        rfl
      have hset := setState_isOk saved p.verifier
      rw [hpoisoned]
      cases hr : (setState saved p.verifier).1 with
      | ok u =>
        rw [hr] at hset
        exact iff_of_true rfl ⟨hloadable, (Bool.not_eq_true' _).mp hset.symm⟩
      | error e =>
        rw [hr] at hset
        refine iff_of_false Bool.false_ne_true ?_
        rintro ⟨-, hhealthy⟩
        rw [hhealthy] at hset
        cases hset

/-- The nonce has a record under its own name and no reserved copy. -/
structure OnlyAvailable (nonce : ByteArr 32) (w : World Text) : Prop where
  available : w.available nonce = true
  reserved : ∀ name : ReservedName, name.nonce = nonce → w.reserved name = false

/-- The record of the nonce holds this expiry. -/
def Expires (nonce : ByteArr 32) (expiresAt : UInt64) (w : World Text) : Prop :=
  parseU64 (trim (w.record nonce)) = some expiresAt

/-- An available record that has not expired is reserved. -/
theorem leads_reserveChallenge {w : World Text} {path : StatePath} {fileName : String}
    {nonce : ByteArr 32} {expiresAt : UInt64} (hname : path.fileName = some fileName)
    (havailable : w.available nonce = true) (hexpires : Expires nonce expiresAt w)
    (hclock : s.clock ≤ expiresAt) :
    (s.service formats env config).Leads t (reserveChallenge t.pid path nonce) w fun x w' =>
      ∃ name : ReservedName, name.nonce = nonce ∧ x = .ok name ∧ Taken t name w w' := by
  refine Leads.ensure_bind (fun _ _ => ?_) ?_
  rotate_left
  · intro e he
    rw [siblingPath, hname] at he
    cases he
  refine Leads.attempt_bind (o := Op.readRecord nonce) rfl ?_
  rintro r w₁ ⟨⟨-, rfl, rfl⟩ | ⟨hnone, -, -⟩ | ⟨hfails, -, -⟩, -⟩
  rotate_left
  · rw [havailable] at hnone
    cases hnone
  · cases hfails
  refine Leads.ensure_bind ?_ ?_
  rotate_left
  · intro e he
    rw [String.toList_ofList, hexpires] at he
    cases he
  intro expiresAt' hexpiresAt
  rw [String.toList_ofList, hexpires] at hexpiresAt
  obtain rfl := Except.ok.inj hexpiresAt
  refine Leads.call_bind (o := Op.unixSeconds) ?_
  rintro r w₂ ⟨hread, rfl⟩
  have hkeeps : Keeps t w₁ w₂ := by
    rcases hread with ⟨_, -, rfl⟩ | ⟨-, rfl⟩
    · exact ⟨rfl, rfl, rfl, rfl⟩
    · exact .refl _
  refine Leads.ensure_bind ?_ (by rintro _ ⟨⟩)
  intro now hnow
  obtain rfl := Except.ok.inj hnow
  rw [if_neg (UInt64.not_lt.mpr hclock)]
  refine Leads.call_bind (o := Op.nextTempFile) ?_
  intro counter w₃ hnext
  have hkeeps₃ := hkeeps.trans (service_spares (o := Op.nextTempFile) trivial hnext)
  have havailable₃ : w₃.available nonce = true := by
    rw [hkeeps₃.available]
    exact havailable
  refine Leads.attempt_bind (o := Op.reserveRecord ⟨nonce, t.pid, counter⟩) rfl ?_
  rintro r w₄ ⟨⟨-, rfl, rfl⟩ | ⟨hnone, -, -⟩ | ⟨hfails, -, -⟩, -⟩
  rotate_left
  · rw [havailable₃] at hnone
    cases hnone
  · cases hfails
  refine Leads.call_bind (o := Op.syncChallengeDir) ?_
  rintro r w₅ ⟨⟨rfl, rfl⟩ | ⟨hfails, -⟩, -⟩
  rotate_left
  · cases hfails
  refine Leads.ensure_bind (fun _ _ => ?_) (by rintro _ ⟨⟩)
  exact Leads.pure ⟨⟨nonce, t.pid, counter⟩, rfl, rfl, hkeeps₃.taken ⟨rfl, rfl, rfl, rfl⟩⟩

/-- So it is where a challenge is required. -/
theorem leads_reserveIssued {state : AppState} {w : World Text} {path : StatePath}
    {fileName : String} {nonce : ByteArr 32} {expiresAt : UInt64}
    (hissued : state.requireIssuedChallenge = true) (hstate : state.replayStatePath = some path)
    (hname : path.fileName = some fileName) (havailable : w.available nonce = true)
    (hexpires : Expires nonce expiresAt w) (hclock : s.clock ≤ expiresAt) :
    (s.service formats env config).Leads t (reserveIssued state t.pid nonce) w fun x w' =>
      ∃ name : ReservedName, name.nonce = nonce ∧ x = .ok (some name) ∧ Taken t name w w' := by
  rw [reserveIssued, if_pos hissued]
  refine Leads.ensure_bind ?_ ?_
  rotate_left
  · intro e he
    rw [hstate] at he
    cases he
  intro path' hpath'
  rw [hstate] at hpath'
  obtain rfl := Except.ok.inj hpath'
  refine Leads.bind (Leads.mapError ?_)
  refine (leads_reserveChallenge hname havailable hexpires hclock).mono ?_
  rintro x w' ⟨name, hnonce, rfl, htaken⟩
  exact Leads.pure ⟨name, hnonce, rfl, htaken⟩

/-- Restoring the reserved record gives everything back. -/
theorem leads_restore {w w₁ : World Text} {name : ReservedName}
    (honly : OnlyAvailable name.nonce w) (htaken : Taken t name w w₁) :
    (s.service formats env config).Leads t (restore name) w₁ fun x w' =>
      x = .ok () ∧ Keeps t w w' := by
  have hreserved : w₁.reserved name = true := by rw [htaken.reserved, Function.update_self]
  refine Leads.attempt_bind (o := Op.restoreRecord name) rfl ?_
  rintro r w₂ ⟨⟨-, rfl, rfl⟩ | ⟨hnone, -, -⟩ | ⟨hfails, -, -⟩, -⟩
  rotate_left
  · rw [hreserved] at hnone
    cases hnone
  · cases hfails
  refine Leads.call_bind (o := Op.syncChallengeDir) ?_
  rintro r w₃ ⟨⟨rfl, rfl⟩ | ⟨hfails, -⟩, -⟩
  rotate_left
  · cases hfails
  refine Leads.ensure ⟨rfl, ?_, ?_, htaken.record, htaken.poisoned⟩
  · show Function.update w₁.available name.nonce true = w.available
    rw [htaken.available, Function.update_idem, ← honly.available, Function.update_eq_self]
  · show Function.update w₁.reserved name false = w.reserved
    rw [htaken.reserved, Function.update_idem, ← honly.reserved name rfl, Function.update_eq_self]

/-- Consuming the reserved record succeeds. -/
theorem leads_consume {w w₁ : World Text} {name : ReservedName} (htaken : Taken t name w w₁) :
    (s.service formats env config).Leads t (consume name) w₁ fun x _ => x = .ok () := by
  have hreserved : w₁.reserved name = true := by rw [htaken.reserved, Function.update_self]
  refine Leads.attempt_bind (o := Op.consumeRecord name) rfl ?_
  rintro r w₂ ⟨⟨-, rfl, rfl⟩ | ⟨hnone, -, -⟩ | ⟨hfails, -, -⟩, -⟩
  rotate_left
  · rw [hreserved] at hnone
    cases hnone
  · cases hfails
  refine Leads.call_bind (o := Op.syncChallengeDir) ?_
  rintro r w₃ ⟨⟨rfl, rfl⟩ | ⟨hfails, -⟩, -⟩
  rotate_left
  · cases hfails
  exact Leads.ensure rfl

/-- A mutex that is not poisoned lets `get_state` succeed. -/
theorem getState_isOk (replay : Option ReplayMutex) :
    (getState replay).isOk = !replay.any ReplayMutex.poisoned := by
  cases replay with
  | none => rfl
  | some m =>
    cases hpoisoned : m.poisoned <;> simp [getState, hpoisoned, Except.isOk, Except.toBool]

/-- The memory is taken down if and only if the mutex is healthy. -/
theorem leads_snapshot {state : AppState} {path : StatePath} {w : World Text}
    (hstate : state.replayStatePath = some path) :
    (s.service formats env config).Leads t (snapshot state) w fun x w' =>
      w' = w ∧ (x.isOk = true ↔ w.poisoned t = false) := by
  simp only [snapshot, hstate]
  refine Leads.attempt (o := Op.getState) rfl ?_
  rintro r w₁ ⟨⟨p, hp, rfl, rfl⟩, -⟩
  have hget := getState_isOk p.verifier
  rw [World.poisoned_eq hp]
  cases hr : getState p.verifier with
  | ok replay =>
    rw [hr] at hget
    exact ⟨rfl, iff_of_true rfl ((Bool.not_eq_true' _).mp hget.symm)⟩
  | error e =>
    rw [hr] at hget
    refine ⟨rfl, iff_of_false Bool.false_ne_true ?_⟩
    intro hhealthy
    rw [hhealthy] at hget
    cases hget

/-- A mutex that is not poisoned lets the locked section answer. -/
theorem checkSequence_isOk (v : Verifier) (claims : VeriClaims) (doc : AttestationDoc)
    (report : Report) (replay : Option ReplayMutex) :
    (v.checkSequence env claims doc report replay).1.isOk =
      !replay.any ReplayMutex.poisoned := by
  cases replay with
  | none => rfl
  | some m =>
    cases hpoisoned : m.poisoned with
    | true => simp [Verifier.checkSequence, hpoisoned, Except.isOk, Except.toBool]
    | false =>
      simp only [Verifier.checkSequence, hpoisoned, Bool.false_eq_true, ite_false, Option.any_some]
      split
      · rfl
      · rfl

variable (env) in
/-- `Verifier::verify` returns `Err` before its locked section. -/
def Surroundings.Rejects (s : Surroundings) (v : Verifier) (receiptBytes : Bytes)
    (expected : Expected) : Prop :=
  ∃ e, (({ v with provider := s.provider } : Verifier).inspect env s.now receiptBytes
    expected).run {} = .error (.err e)

/-- `Verifier::verify` keeps the records, and returns `Ok` unless it rejects the receipt with `Err`.
-/
theorem leads_verify {v : Verifier} {receiptBytes : Bytes} {expected : Expected} {w : World Text}
    (hhealthy : w.poisoned t = false) :
    (s.service formats env config).Leads t
      (verify env v receiptBytes expected : ServiceM Text VerifyError VerificationResult) w
      fun x w' => Keeps t w w' ∧ (x.isOk = true ↔ ¬ s.Rejects env v receiptBytes expected) := by
  refine Leads.call_bind (o := Op.observe) ?_
  rintro r w₁ ⟨rfl, hobserved⟩
  obtain rfl : r = (s.provider, s.now) := hobserved
  dsimp only
  cases hinspect : (({ v with provider := s.provider } : Verifier).inspect env s.now receiptBytes
    expected).run {} with
  | error exit =>
    cases exit with
    | err e =>
      refine Leads.throw ⟨.refl w₁, iff_of_false Bool.false_ne_true ?_⟩
      exact fun hnot => hnot ⟨e, hinspect⟩
    | failed result =>
      refine Leads.pure ⟨.refl w₁, iff_of_true rfl ?_⟩
      rintro ⟨e, he⟩
      rw [hinspect] at he
      cases he
  | ok found =>
    obtain ⟨⟨claims, doc⟩, report⟩ := found
    refine Leads.call_bind ?_
    intro r w₂ hcheck
    have hkeeps := service_spares (o := Op.checkSequence _ claims doc report) trivial hcheck
    obtain ⟨⟨p, hp, rfl, -⟩, -⟩ := hcheck
    refine Leads.ensure ⟨hkeeps, iff_of_true ?_ ?_⟩
    · rw [checkSequence_isOk, ← World.poisoned_eq hp, hhealthy]
      rfl
    · rintro ⟨e, he⟩
      rw [hinspect] at he
      cases he

/-- Persisting either succeeds and leaves the record reserved, or gives it back with an error. -/
theorem leads_persist {state : AppState} {path : StatePath} {previous : Option ReplayMap}
    {name : ReservedName} {w w₁ : World Text} (hstate : state.replayStatePath = some path)
    (honly : OnlyAvailable name.nonce w) (htaken : Taken t name w w₁) :
    (s.service formats env config).Leads t (persist formats state t.pid previous (some name)) w₁
      fun x w' => (x = .ok () ∧ Taken t name w w') ∨ (∃ e, x = .error e) ∧ Keeps t w w' := by
  simp only [persist, hstate]
  refine Leads.bind (Leads.outcome ?_)
  refine (leads_spares (persistReplayStateOrRollback_spares t.pid path (previous.getD ∅))).mono ?_
  intro x w₂ hkeeps
  cases x with
  | ok u => exact Leads.pure (Or.inl ⟨rfl, htaken.keeps hkeeps⟩)
  | error e =>
    refine Leads.bind (Leads.mapError ((leads_restore honly (htaken.keeps hkeeps)).mono ?_))
    rintro x w₃ ⟨rfl, hkeeps'⟩
    exact Leads.throw (Or.inr ⟨⟨_, rfl⟩, hkeeps'⟩)

end Veriai.Service
