import Veriai.Service.Ledger
import Veriai.Service.Spending

/-!
# One desk

To its clients the service is a desk that hands out challenges and judges
receipts. Behind it there are a ledger and the challenges that are out, and no
processes, locks or files. A world represents a desk when no call is served in
it; while one call is served alone, the world is that of the desk up to what the
call has in hand.
-/

namespace Veriai.Service

variable {Text : Type}

/-- The numbers recorded, and the challenges that can be taken back, each with the expiry that its
record states. -/
structure Desk where
  ledger : ReplayMap
  challenges : ByteArr 32 → Option (Option UInt64)
  /-- The nonces handed out. -/
  issued : ByteArr 32 → Bool

namespace Desk

/-- The challenge is not out any more. -/
def without (nonce : ByteArr 32) (d : Desk) : Desk :=
  { d with challenges := Function.update d.challenges nonce none }

/-- Hand out a challenge. -/
def issue (clock : UInt64) (nonce : ByteArr 32) (d : Desk) :
    Except ApiError ChallengeResponse × Desk :=
  match checkedAdd clock challengeTtlSeconds with
  | none => (.error (apiReplayError "challenge expiry overflow"), d)
  | some expiresAt => (.ok ⟨hexEncode nonce.toList, expiresAt⟩,
      { d with
        challenges := Function.update d.challenges nonce (some (some expiresAt))
        issued := Function.update d.issued nonce true })

/-- Take a challenge back. -/
def take (clock : UInt64) (nonce : ByteArr 32) (d : Desk) : Except String Unit × Desk :=
  match d.challenges nonce with
  | none => (.error "challenge was not issued or was already consumed", d)
  | some none => (.error "challenge record is invalid", d)
  | some (some expiresAt) =>
    if clock > expiresAt then (.error "challenge has expired", d.without nonce)
    else (.ok (), d.without nonce)

@[simp] theorem take_ledger (clock : UInt64) (nonce : ByteArr 32) (d : Desk) :
    (d.take clock nonce).2.ledger = d.ledger := by
  unfold take
  split
  · rfl
  · rfl
  · split <;> rfl

/-- Take the challenge back where one is required. -/
def takeIssued (state : AppState) (clock : UInt64) (nonce : ByteArr 32) (d : Desk) :
    Except ApiError Unit × Desk :=
  if state.requireIssuedChallenge then
    ((d.take clock nonce).1.mapError (badRequest "invalid_challenge"), (d.take clock nonce).2)
  else (.ok (), d)

@[simp] theorem takeIssued_ledger (state : AppState) (clock : UInt64) (nonce : ByteArr 32)
    (d : Desk) : (d.takeIssued state clock nonce).2.ledger = d.ledger := by
  unfold takeIssued
  split
  · exact take_ledger ..
  · rfl

variable (formats : Formats Text) (env : Primitives)

/-- Judge a receipt whose challenge was taken: the answer of one verifier on the ledger. The
challenge stays taken by an acceptance, and by an error of the verifier. -/
def judge (state : AppState) (s : Surroundings) (saves : Bool) (receiptBytes : Bytes)
    (expected : Expected) (taken d : Desk) : Except ApiError VerificationResult × Desk :=
  match ({ state.verifier with provider := s.provider } : Verifier).verify env s.now receiptBytes
    expected (some (.new d.ledger)) with
  | (.error e, _) =>
    (.error ⟨500, "verification_error", "Infrastructure error: " ++ formats.debugVerifyError e⟩,
      taken)
  | (.ok result, replay) =>
    if !result.valid then (.ok result, d)
    else if saves then (.ok result, { taken with ledger := replay.elim d.ledger ReplayMutex.map })
    else
      (.error (apiReplayError "Verification succeeded but replay state could not be persisted"), d)

/-- Take the challenge and judge the receipt. -/
def receive (state : AppState) (s : Surroundings) (saves : Bool) (receiptBytes : Bytes)
    (expected : Expected) (d : Desk) : Except ApiError VerificationResult × Desk :=
  match d.takeIssued state s.clock expected.nonce with
  | (.error e, taken) => (.error e, taken)
  | (.ok (), taken) => judge formats env state s saves receiptBytes expected taken d

/-- Answer a presentation; the flag says whether an acceptance can be saved. -/
def present (state : AppState) (s : Surroundings) (saves : Bool) (payload : VerifyRequest)
    (d : Desk) : Except ApiError VerificationResult × Desk :=
  match decodeRequest formats state payload with
  | .error e => (.error e, d)
  | .ok (receiptBytes, expected) => d.receive formats env state s saves receiptBytes expected

section Challenges

variable {formats env} {state : AppState} {s : Surroundings} {saves : Bool} {d : Desk}
variable {payload : VerifyRequest} {receiptBytes : Bytes} {expected : Expected}
variable {clock expiresAt : UInt64}

theorem issue_of_expires (d : Desk) (nonce : ByteArr 32)
    (h : checkedAdd clock challengeTtlSeconds = some expiresAt) :
    (d.issue clock nonce).1 = .ok ⟨hexEncode nonce.toList, expiresAt⟩ ∧
      (d.issue clock nonce).2.challenges nonce = some (some expiresAt) ∧
        (d.issue clock nonce).2.ledger = d.ledger := by
  rw [issue, h]
  exact ⟨rfl, Function.update_self .., rfl⟩

/-- The challenge is out, and the receipt is one that the verifier accepts on the ledger. -/
theorem present_of_out (hrequired : state.requireIssuedChallenge = true)
    (hdecode : decodeRequest formats state payload = .ok (receiptBytes, expected))
    (hout : d.challenges expected.nonce = some (some expiresAt)) (htimely : s.clock ≤ expiresAt)
    (haccepts : Verifier.Accepts (({ state.verifier with provider := s.provider } : Verifier).verify
      env s.now receiptBytes expected (some (.new d.ledger))).1) :
    (∃ result, (d.present formats env state s true payload).1 = .ok result ∧
      result.valid = true) ∧
      (d.present formats env state s true payload).2.challenges expected.nonce = none := by
  have htake : d.takeIssued state s.clock expected.nonce = (.ok (), d.without expected.nonce) := by
    rw [takeIssued, if_pos hrequired, take, hout]
    simp [UInt64.not_lt.mpr htimely]
  obtain ⟨result, hresult, hvalid⟩ := haccepts
  rw [present, hdecode]
  dsimp only
  rw [receive, htake]
  dsimp only
  rw [judge]
  generalize ({ state.verifier with provider := s.provider } : Verifier).verify env s.now
    receiptBytes expected (some (.new d.ledger)) = verdict at hresult ⊢
  obtain ⟨answer, replay⟩ := verdict
  obtain rfl : answer = .ok result := hresult
  dsimp only
  rw [hvalid]
  exact ⟨⟨result, rfl, hvalid⟩, Function.update_self ..⟩

/-- The challenge is not out. -/
theorem present_of_not_out (hrequired : state.requireIssuedChallenge = true)
    (hdecode : decodeRequest formats state payload = .ok (receiptBytes, expected))
    (hout : d.challenges expected.nonce = none) :
    d.present formats env state s saves payload = (.error (badRequest "invalid_challenge"
      "challenge was not issued or was already consumed"), d) := by
  rw [present, hdecode]
  dsimp only
  rw [receive, takeIssued, if_pos hrequired, take, hout]
  rfl

end Challenges

end Desk

/-- The expiry that the record of a nonce states, where there is a record. -/
def World.challenge (w : World Text) (nonce : ByteArr 32) : Option (Option UInt64) :=
  if w.available nonce then some (parseU64 (trim (w.record nonce))) else none

/-- The process serves nothing: its guard is free and its memory sound, and empty if there is no
state file. -/
def Resting (file : Option Text) (p : Process) : Prop :=
  p.guard = none ∧ ∃ m, p.verifier = some (.new m) ∧ (file = none → m = ∅)

variable (formats : Formats Text)

/-- No call is served in the world, which contains what is behind the desk. -/
structure Represents (w : World Text) (d : Desk) : Prop where
  procs : ∀ pid p, w.procs pid = some p → Resting w.file p
  fileLock : w.fileLock = none
  file : Contents formats w.file d.ledger
  challenges : w.challenge = d.challenges
  issued : ∀ nonce, (w.issued nonce).isSome = d.issued nonce

/-- Call `t` alone is served: it holds the guard of its process, whose memory is `m`, and possibly
the file lock. -/
structure Attends (t : CallId) (lock : Option CallId) (counter : Nat) (m : ReplayMap)
    (temps : TempName → Option Text) (w : World Text) (d : Desk) : Prop where
  own : w.procs t.pid = some ⟨counter, some (.new m), some t⟩
  others : ∀ pid p, pid ≠ t.pid → w.procs pid = some p → Resting w.file p
  fileLock : w.fileLock = lock
  file : Contents formats w.file d.ledger
  temps : w.temps = temps
  challenges : w.challenge = d.challenges
  issued : ∀ nonce, (w.issued nonce).isSome = d.issued nonce

/-- No file stands under the name that the next call of the process draws for its temporary file.
Where challenges are required the number before it goes to the reservation. -/
def World.hasRoom (w : World Text) (state : AppState) (pid : Nat) : Bool :=
  match w.procs pid with
  | some p => (w.temps ⟨pid, p.counter + if state.requireIssuedChallenge then 1 else 0⟩).isNone
  | none => true

variable {formats} {t : CallId} {lock : Option CallId} {counter : Nat} {m : ReplayMap}
variable {temps : TempName → Option Text} {w : World Text} {d : Desk}

theorem Resting.of_some {file : Option Text} {p : Process} (h : Resting file p) (text : Text) :
    Resting (some text) p := by
  obtain ⟨hguard, m, hm, -⟩ := h
  exact ⟨hguard, m, hm, nofun⟩

/-- The memory is the ledger, and empty if there is no state file. -/
theorem Contents.eq_empty {file : Option Text} (h : Contents formats file m) (hfile : file = none) :
    m = ∅ := by
  subst hfile
  exact h

variable (formats) in
/-- The call is about to leave with an error. -/
def Leaving (t : CallId) (w : World Text) (d : Desk) : Prop :=
  ∃ counter m temps, Attends formats t (some t) counter m temps w d ∧ (w.file = none → m = ∅)

/-- A call enters: it takes the guard of a process. -/
theorem Represents.enter {p : Process} (h : Represents formats w d) (hp : w.procs t.pid = some p) :
    ∃ m, Attends formats t none p.counter m w.temps
      (w.setProc t.pid (some { p with guard := some t })) d ∧ (w.file = none → m = ∅) := by
  obtain ⟨-, m, hm, hempty⟩ := h.procs _ _ hp
  refine ⟨m, ⟨?_, ?_, h.fileLock, h.file, rfl, h.challenges, h.issued⟩, hempty⟩
  · rw [← hm]
    exact Function.update_self ..
  · intro pid q hpid hq
    exact h.procs pid q ((Function.update_of_ne hpid _ _).symm.trans hq)

/-- The memory of the process changes. -/
theorem Attends.setMemory (h : Attends formats t lock counter m temps w d) (m' : ReplayMap) :
    Attends formats t lock counter m' temps
      (w.setProc t.pid (some ⟨counter, some (.new m'), some t⟩)) d :=
  { h with
    own := Function.update_self ..
    others := fun pid p hpid hp =>
      h.others pid p hpid ((Function.update_of_ne hpid _ _).symm.trans hp) }

/-- The process draws a number. -/
theorem Attends.draw (h : Attends formats t lock counter m temps w d) :
    Attends formats t lock (counter + 1) m temps
      { w.setProc t.pid (some ⟨counter + 1, some (.new m), some t⟩) with
        slots := Function.update w.slots ⟨t.pid, counter⟩ (some t) } d :=
  { h with
    own := Function.update_self ..
    others := fun pid p hpid hp =>
      h.others pid p hpid ((Function.update_of_ne hpid _ _).symm.trans hp) }

/-- The call leaves. -/
theorem Leaving.leave (h : Leaving formats t w d) :
    Represents formats ((w.dropLock t).dropGuard t) d := by
  obtain ⟨counter, m, temps, h, hmemory⟩ := h
  have hleft : (w.dropLock t).dropGuard t =
      { w.setProc t.pid (some ⟨counter, some (.new m), none⟩) with fileLock := none } := by
    rw [World.dropLock, if_pos h.fileLock]
    simp [World.dropGuard, h.own, World.setProc]
  rw [hleft]
  refine ⟨?_, rfl, h.file, h.challenges, h.issued⟩
  intro pid p hp
  by_cases hpid : pid = t.pid
  · subst hpid
    have hself : Function.update w.procs t.pid (some ⟨counter, some (.new m), none⟩) t.pid =
        some ⟨counter, some (.new m), none⟩ := Function.update_self ..
    obtain rfl := Option.some.inj (hself.symm.trans hp)
    exact ⟨rfl, m, rfl, hmemory⟩
  · exact h.others pid p hpid ((Function.update_of_ne hpid _ _).symm.trans hp)

/-- The locks are given back in either order. -/
theorem Attends.dropLock_dropGuard (h : Attends formats t (some t) counter m temps w d) :
    (w.dropGuard t).dropLock t = (w.dropLock t).dropGuard t := by
  simp [World.dropLock, World.dropGuard, World.setProc, h.own, h.fileLock]

end Veriai.Service
