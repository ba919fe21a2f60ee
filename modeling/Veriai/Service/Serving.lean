import Veriai.Service.Desk
import Veriai.Service.Outcomes
import Veriai.Service.Standstill

/-!
# The desk is served

A call that is served alone, with no file operation failing, does with locks,
files and memories what the desk does in one step: it answers what the desk
answers and leaves the world that of the desk after it. The handlers are followed
part by part, from the world of the desk to the world of the next.
-/

namespace Veriai.Service

open Machine

variable {Text : Type} {formats : Formats Text} {env : Primitives} {config : Config}
variable {s : Surroundings} {t : CallId} {lock : Option CallId} {counter : Nat} {m : ReplayMap}
variable {temps : TempName → Option Text} {w : World Text} {d taken : Desk}
variable {state : AppState} {path : StatePath} {fileName : String}

/-- The guard is taken, and the call attends to the desk. -/
theorem acquireGuard_desk {p : Process} (hstate : state.replayStatePath = some path)
    (h : Represents formats w d) (hp : w.procs t.pid = some p) :
    (s.service formats env config).Delivers t (acquireGuard state) w fun x w' => x = .ok () ∧
      ∃ m, Attends formats t none p.counter m w.temps w' d ∧ (w'.file = none → m = ∅) := by
  simp only [acquireGuard, hstate]
  have htaken : (s.service formats env config).Only t .lockReplayGuard w ()
      (w.setProc t.pid (some { p with guard := some t })) :=
    only_lockReplayGuard hp (h.procs _ _ hp).1
  refine Delivers.call ⟨_, _, htaken.can⟩ ?_
  intro r w' he
  obtain ⟨rfl, rfl⟩ := htaken.only r w' he
  exact ⟨rfl, h.enter hp⟩

/-- The file lock is taken. -/
theorem acquireFileLock_desk (hstate : state.replayStatePath = some path)
    (hname : path.fileName = some fileName) (h : Attends formats t none counter m temps w d) :
    (s.service formats env config).Delivers t (acquireFileLock state) w fun x w' =>
      x = .ok () ∧ w'.file = w.file ∧ Attends formats t (some t) counter m temps w' d := by
  simp only [acquireFileLock, hstate]
  refine Delivers.ensure_bind (fun _ _ => ?_) ?_
  · exact Delivers.success rfl (only_acquireReplayLock h.fileLock) rfl
      ⟨rfl, rfl, { h with fileLock := rfl }⟩
  · intro e he
    rw [siblingPath, hname] at he
    cases he

/-- The state file loads as the ledger, in whatever order its members are iterated. -/
theorem loadReplayState_desk {text : Text} (hfile : w.file = some text)
    (hcontents : Contents formats w.file m) :
    (s.service formats env config).Delivers t (loadReplayState formats) w fun x w' =>
      x = .ok m ∧ w' = w.looked t := by
  rw [hfile] at hcontents
  obtain ⟨order, hslice, hcollect⟩ := (hcontents m).mpr rfl
  refine Delivers.success_bind rfl (only_readState hfile) rfl ?_
  rw [hslice]
  refine Delivers.ensure_bind ?_ (by rintro _ ⟨⟩)
  intro saved hsaved
  obtain rfl := Except.ok.inj hsaved
  refine Delivers.call_bind (o := Op.intoIter order.toFinmap) ⟨order, _, ⟨rfl, rfl⟩, trivial⟩ ?_
  rintro order' w₂ ⟨⟨hmembers, rfl⟩, -⟩
  have hdecode := collectReplayMap_succeeds.mp ⟨m, hcollect⟩
  rw [← hmembers] at hdecode
  obtain ⟨m', hm'⟩ := collectReplayMap_succeeds.mpr hdecode
  obtain rfl := (hcontents m').mp ⟨order', by rw [hmembers, hslice], hm'⟩
  exact Delivers.ensure ⟨hm', rfl⟩

/-- After the reload the memory is the ledger. -/
theorem reload_desk (hstate : state.replayStatePath = some path)
    (h : Attends formats t lock counter m temps w d) (hempty : w.file = none → m = ∅) :
    (s.service formats env config).Delivers t (reload formats state) w fun x w' =>
      x = .ok () ∧ Attends formats t lock counter d.ledger temps w' d := by
  simp only [reload, hstate]
  refine Delivers.only_bind only_pathExists ?_
  cases hfile : w.file with
  | none =>
    have hm : m = d.ledger := by rw [hempty hfile, h.file.eq_empty hfile]
    exact Delivers.pure ⟨rfl, hm ▸ { h with }⟩
  | some text =>
    refine Delivers.bind (Delivers.mapError ?_)
    refine (loadReplayState_desk (w := w.looked t) hfile h.file).mono ?_
    rintro x w₂ ⟨rfl, rfl⟩
    have hlooked : Attends formats t lock counter m temps ((w.looked t).looked t) d := { h with }
    exact Delivers.success rfl (only_setState hlooked.own d.ledger) rfl
      ⟨rfl, hlooked.setMemory d.ledger⟩

/-- A record that appears or goes changes the challenge of its nonce. -/
theorem World.challenge_update (w : World Text) (nonce : ByteArr 32) (available : Bool) :
    ({ w with available := Function.update w.available nonce available } : World Text).challenge =
      Function.update w.challenge nonce
        (if available then some (parseU64 (trim (w.record nonce))) else none) := by
  funext nonce'
  by_cases hnonce : nonce' = nonce
  · subst hnonce
    simp [World.challenge]
  · simp [World.challenge, hnonce]

/-- The challenge that was taken can be given back. -/
def Held (reservation : Option ReservedName) (d taken : Desk) (w : World Text) : Prop :=
  match reservation with
  | none => taken = d
  | some name => taken = d.without name.nonce ∧ w.reserved name = true ∧
      d.challenges name.nonce = some (parseU64 (trim (w.record name.nonce)))

/-- The reserved records are as they were. -/
def SameReserved (w w' : World Text) : Prop := w'.reserved = w.reserved ∧ w'.record = w.record

/-- A reservation is held as long as the records are the same. -/
theorem Held.same {reservation : Option ReservedName} {w' : World Text}
    (h : Held reservation d taken w) (hsame : SameReserved w w') : Held reservation d taken w' := by
  obtain ⟨hreserved, hrecord⟩ := hsame
  cases reservation with
  | none => exact h
  | some name => rwa [Held, hreserved, hrecord]

variable (formats) in
/-- How the reservation of a nonce ends that the desk answers like this. -/
def Reserves (t : CallId) (lock : Option CallId) (counter : Nat) (m : ReplayMap)
    (temps : TempName → Option Text) (d : Desk) (x : Except String ReservedName)
    (w' : World Text) : Except String Unit × Desk → Prop
  | (.error e, taken) => x = .error e ∧ Attends formats t lock counter m temps w' taken
  | (.ok (), taken) => ∃ name : ReservedName, x = .ok name ∧
      Attends formats t lock (counter + 1) m temps w' taken ∧ Held (some name) d taken w'

/-- There is no record to be read. -/
theorem readRecord_desk {β : Type} {nonce : ByteArr 32} {f : String → String}
    {k : String → ServiceM Text String β} {Q : Except String β → World Text → Prop}
    (hnone : w.available nonce = false) (hQ : ∀ e, Q (.error (f e)) w) :
    (s.service formats env config).Delivers t
      (do
        let text ← Handler.ensure ((← perform (.readRecord nonce)).mapError f)
        k text) w Q := by
  refine Delivers.attempt_bind (o := Op.readRecord nonce) rfl
    ⟨.error "", _, Or.inr (Or.inl ⟨hnone, ⟨_, rfl⟩, rfl⟩), trivial⟩ ?_
  rintro r w₁ ⟨⟨havailable, -, -⟩ | ⟨-, ⟨e, rfl⟩, rfl⟩ | ⟨hfails, -, -⟩, -⟩
  · cases havailable.symm.trans hnone
  · exact hQ e
  · cases hfails

/-- A challenge is reserved as the desk takes it back. -/
theorem reserveChallenge_desk (hname : path.fileName = some fileName)
    (h : Attends formats t lock counter m temps w d) (nonce : ByteArr 32) :
    (s.service formats env config).Delivers t (reserveChallenge t.pid path nonce) w fun x w' =>
      Reserves formats t lock counter m temps d x w' (d.take s.clock nonce) := by
  have hchallenge : w.challenge nonce = d.challenges nonce := congrFun h.challenges nonce
  have hgone : Function.update w.challenge nonce none = (d.without nonce).challenges := by
    rw [h.challenges]
    rfl
  rw [World.challenge] at hchallenge
  refine Delivers.ensure_bind (fun _ _ => ?_) ?_
  rotate_left
  · intro e he
    rw [siblingPath, hname] at he
    cases he
  cases havailable : w.available nonce with
  | false =>
    rw [havailable, if_neg Bool.false_ne_true] at hchallenge
    refine readRecord_desk havailable ?_
    intro e
    rw [Desk.take, ← hchallenge]
    exact ⟨rfl, h⟩
  | true =>
  rw [havailable, if_pos rfl] at hchallenge
  refine Delivers.success_bind rfl (only_readRecord havailable) rfl ?_
  rw [String.toList_ofList]
  cases hexpires : parseU64 (trim (w.record nonce)) with
  | none =>
    rw [hexpires] at hchallenge
    refine Delivers.bind (Delivers.ensure ?_)
    rw [Desk.take, ← hchallenge]
    exact ⟨rfl, h⟩
  | some expiresAt =>
  rw [hexpires] at hchallenge
  refine Delivers.bind (Delivers.ensure ?_)
  refine Delivers.only_bind only_unixSeconds ?_
  refine Delivers.bind (Delivers.ensure ?_)
  rw [Desk.take, ← hchallenge]
  dsimp only
  by_cases hlate : s.clock > expiresAt
  · -- the record of an expired challenge is removed
    rw [if_pos hlate, if_pos hlate]
    refine Delivers.only_bind (only_removeAvailable havailable) ?_
    refine Delivers.throw ⟨rfl, { h with challenges := ?_ }⟩
    exact (World.challenge_update w nonce false).trans hgone
  · rw [if_neg hlate, if_neg hlate]
    have hdrawn := Attends.draw (w := { w with clock := Function.update w.clock t (some s.clock) })
      { h with }
    refine Delivers.only_bind (only_nextTempFile h.own) ?_
    refine Delivers.success_bind rfl
      (only_reserveRecord ⟨nonce, t.pid, counter⟩ havailable) rfl ?_
    refine Delivers.only_bind only_syncChallengeDir ?_
    refine Delivers.bind (Delivers.ensure ?_)
    refine Delivers.pure ⟨⟨nonce, t.pid, counter⟩, rfl, { hdrawn with challenges := ?_ }, ?_⟩
    · exact (World.challenge_update w nonce false).trans hgone
    · exact ⟨rfl, Function.update_self .., hchallenge.symm.trans (congrArg some hexpires.symm)⟩

variable (formats) in
/-- How the reservation ends, where one is required, that the desk answers like this. -/
def ReservesIssued (state : AppState) (t : CallId) (lock : Option CallId) (counter : Nat)
    (m : ReplayMap) (temps : TempName → Option Text) (d : Desk)
    (x : Except ApiError (Option ReservedName)) (w' : World Text) :
    Except ApiError Unit × Desk → Prop
  | (.error e, taken) => x = .error e ∧ Attends formats t lock counter m temps w' taken
  | (.ok (), taken) => ∃ reservation, x = .ok reservation ∧
      Attends formats t lock (counter + if state.requireIssuedChallenge then 1 else 0) m temps w'
        taken ∧ Held reservation d taken w'

/-- So it is where a challenge is required. -/
theorem reserveIssued_desk (hstate : state.replayStatePath = some path)
    (hname : path.fileName = some fileName) (h : Attends formats t lock counter m temps w d)
    (nonce : ByteArr 32) :
    (s.service formats env config).Delivers t (reserveIssued state t.pid nonce) w fun x w' =>
      ReservesIssued formats state t lock counter m temps d x w'
        (d.takeIssued state s.clock nonce) := by
  rw [reserveIssued, Desk.takeIssued]
  cases hissued : state.requireIssuedChallenge with
  | false => exact Delivers.pure ⟨none, rfl, by simpa [hissued] using h, rfl⟩
  | true =>
  rw [if_pos rfl, if_pos rfl, hstate]
  refine Delivers.bind (Delivers.ensure ?_)
  refine Delivers.bind (Delivers.mapError ?_)
  refine (reserveChallenge_desk hname h nonce).mono ?_
  intro x w₁ hreserves
  generalize d.take s.clock nonce = taking at hreserves ⊢
  obtain ⟨answer, taken⟩ := taking
  cases answer with
  | error e =>
    obtain ⟨rfl, htaken⟩ := hreserves
    exact ⟨rfl, htaken⟩
  | ok u =>
    obtain ⟨name, rfl, htaken, hheld⟩ := hreserves
    exact Delivers.pure ⟨some name, rfl, by simpa [hissued] using htaken, hheld⟩

/-- The record goes back under its own name. -/
theorem restore_desk {reservation : Option ReservedName}
    (h : Attends formats t lock counter m temps w taken) (hheld : Held reservation d taken w) :
    (s.service formats env config).Delivers t (withReservation reservation restore) w fun x w' =>
      x = .ok () ∧ Attends formats t lock counter m temps w' d := by
  cases reservation with
  | none =>
    obtain rfl : taken = d := hheld
    exact Delivers.pure ⟨rfl, h⟩
  | some name =>
    obtain ⟨rfl, hreserved, hrecord⟩ := hheld
    refine Delivers.mapError ?_
    refine Delivers.success_bind rfl (only_restoreRecord hreserved) rfl ?_
    refine Delivers.only_bind only_syncChallengeDir ?_
    refine Delivers.ensure ⟨rfl, { h with challenges := ?_ }⟩
    refine (World.challenge_update w name.nonce true).trans ?_
    rw [h.challenges, if_pos rfl, ← hrecord]
    exact (Function.update_idem ..).trans (Function.update_eq_self ..)

/-- The reserved record is removed. -/
theorem consume_desk {reservation : Option ReservedName} {d' : Desk}
    (h : Attends formats t lock counter m temps w d') (hheld : Held reservation d taken w) :
    (s.service formats env config).Delivers t (withReservation reservation consume) w fun x w' =>
      x = .ok () ∧ Attends formats t lock counter m temps w' d' := by
  cases reservation with
  | none => exact Delivers.pure ⟨rfl, h⟩
  | some name =>
    obtain ⟨-, hreserved, -⟩ := hheld
    refine Delivers.mapError ?_
    refine Delivers.success_bind rfl (only_consumeRecord hreserved) rfl ?_
    refine Delivers.only_bind only_syncChallengeDir ?_
    exact Delivers.ensure ⟨rfl, { h with }⟩

/-- The memory that is taken down is the ledger. -/
theorem snapshot_desk (hstate : state.replayStatePath = some path)
    (h : Attends formats t lock counter m temps w taken) :
    (s.service formats env config).Delivers t (snapshot state) w fun x w' =>
      x = .ok (some m) ∧ w' = w := by
  simp only [snapshot, hstate]
  exact Delivers.success rfl (only_getState h.own) rfl ⟨rfl, rfl⟩

/-- Verifying is the answer of one verifier on the memory, which is as it leaves it. -/
theorem verify_desk {v : Verifier} {receiptBytes : Bytes} {expected : Expected}
    (h : Attends formats t lock counter m temps w taken) :
    (s.service formats env config).Delivers t
      (verify env v receiptBytes expected : ServiceM Text VerifyError VerificationResult) w
      fun x w' => ∃ m', ({ v with provider := s.provider } : Verifier).verify env s.now receiptBytes
          expected (some (.new m)) = (x, some (.new m')) ∧
        (¬ Verifier.Accepts x → m' = m) ∧ Attends formats t lock counter m' temps w' taken ∧
          SameReserved w w' := by
  refine Delivers.only_bind only_observe ?_
  dsimp only
  cases hinspect : (({ v with provider := s.provider } : Verifier).inspect env s.now receiptBytes
    expected).run {} with
  | error exit =>
    cases exit with
    | err e =>
      refine Delivers.throw ⟨m, ?_, fun _ => rfl, h, rfl, rfl⟩
      simp only [Verifier.verify, hinspect]
    | failed result =>
      refine Delivers.pure ⟨m, ?_, fun _ => rfl, h, rfl, rfl⟩
      simp only [Verifier.verify, hinspect]
  | ok found =>
    obtain ⟨⟨claims, doc⟩, report⟩ := found
    obtain ⟨m', hm'⟩ := checkSequence_new env { v with provider := s.provider } claims doc report m
    refine Delivers.only_bind (only_checkSequence h.own _ claims doc report) ?_
    refine Delivers.ensure ⟨m', ?_, ?_, ?_, rfl, rfl⟩
    · simp only [Verifier.verify, hinspect]
      exact Prod.ext rfl hm'
    · intro hrefused
      rcases Verifier.checkSequence_effect (Prod.ext rfl hm') with ⟨haccepts, -⟩ | ⟨-, hsame⟩
      · exact (hrefused haccepts).elim
      · exact congrArg ReplayMutex.map hsame
    · rw [hm']
      exact { h.setMemory m' with }

/-- The temporary file is filled and becomes the state file. -/
theorem writeState_desk {name : TempName} {text : Text} (htemp : w.temps name ≠ none) :
    (s.service formats env config).Delivers t (writeState name text) w fun x w' =>
      x = .ok () ∧ w' = (w.setTemp name (some text)).replace t name text := by
  refine Delivers.success_bind rfl only_setTemporaryPermissions rfl ?_
  refine Delivers.success_bind rfl (only_writeTemporary htemp text) rfl ?_
  refine Delivers.success_bind rfl only_syncTemporary rfl ?_
  refine Delivers.success_bind rfl (only_renameTemporary (Function.update_self ..)) rfl ?_
  exact Delivers.success rfl only_syncParent rfl ⟨rfl, rfl⟩

variable (formats) in
/-- How saving the memory ends, from a world of the desk `taken`: where there is room, the state
file contains the memory; elsewhere it is as it was, and the memory is `previous`. -/
def Saves (t : CallId) (lock : Option CallId) (counter : Nat) (m previous : ReplayMap)
    (temps : TempName → Option Text) (taken : Desk) (w : World Text) (x : Except String Unit)
    (w' : World Text) : Bool → Prop
  | true => x = .ok () ∧ SameReserved w w' ∧
      Attends formats t lock (counter + 1) m temps w' { taken with ledger := m }
  | false => (∃ e, x = .error e) ∧ SameReserved w w' ∧
      Attends formats t lock (counter + 1) previous temps w' taken

/-- The text of the memory takes the place of the state file. -/
theorem Attends.save {text part : Text} (hlawful : formats.Lawful)
    (h : Attends formats t lock (counter + 1) m temps w taken) {order : MemberOrder}
    (horder : order.toFinmap = encodeMembers m) (htext : formats.toVecPretty order = .ok text)
    (hroom : temps ⟨t.pid, counter⟩ = none) :
    Attends formats t lock (counter + 1) m temps
      (((w.setTemp ⟨t.pid, counter⟩ (some part)).setTemp ⟨t.pid, counter⟩ (some text)).replace t
        ⟨t.pid, counter⟩ text) { taken with ledger := m } where
  own := h.own
  others pid p hpid hp := (h.others pid p hpid hp).of_some text
  fileLock := h.fileLock
  file := by
    have hread := hlawful.roundTrip order text htext
    rw [horder] at hread
    have hsaved : Saved formats (some text) m := hread
    exact hsaved.contents
  temps := by
    have htemps := h.temps
    show Function.update (Function.update (Function.update w.temps _ _) _ _) _ none = temps
    rw [Function.update_idem, Function.update_idem, ← htemps, ← hroom, ← htemps,
      Function.update_eq_self]
  challenges := h.challenges
  issued := h.issued

/-- Persisting saves the memory where there is room for the temporary file. -/
theorem persistReplayState_desk (hlawful : formats.Lawful)
    (hencodes : ∀ order, ∃ text, formats.toVecPretty order = .ok text)
    (hname : path.fileName = some fileName)
    (h : Attends formats t lock counter m temps w taken) :
    (s.service formats env config).Delivers t (persistReplayState formats t.pid path) w fun x w' =>
      Saves formats t lock counter m m temps taken w x w' (temps ⟨t.pid, counter⟩).isNone := by
  obtain ⟨order₀, horder₀⟩ := exists_order (encodeMembers m)
  refine Delivers.success_bind rfl (only_getState h.own) rfl ?_
  refine Delivers.bind (Delivers.ensure ?_)
  refine Delivers.call_bind (o := Op.intoIter (encodeMembers m))
    ⟨order₀, _, ⟨horder₀, rfl⟩, trivial⟩ ?_
  rintro order w₁ ⟨⟨horder, rfl⟩, -⟩
  obtain ⟨text, htext⟩ := hencodes order
  rw [htext, hname]
  refine Delivers.bind (Delivers.ensure ?_)
  refine Delivers.bind (Delivers.ensure ?_)
  refine Delivers.only_bind (only_nextTempFile h.own) ?_
  have hdrawn := h.draw
  cases hroom : temps ⟨t.pid, counter⟩ with
  | some old =>
    -- a file stands under the name, and nothing is written
    have htaken : w₁.temps ⟨t.pid, counter⟩ ≠ none := by
      rw [h.temps, hroom]
      exact Option.some_ne_none old
    refine Delivers.attempt_bind (o := Op.createTemporary ⟨t.pid, counter⟩) rfl
      ⟨.error "", _, Or.inr (Or.inl ⟨⟨_, rfl⟩, htaken, rfl⟩), trivial⟩ ?_
    rintro r w₂ ⟨⟨-, hfree, -⟩ | ⟨⟨e, rfl⟩, -, rfl⟩ | ⟨hfails, -, -⟩, -⟩
    · exact (htaken hfree).elim
    · exact ⟨⟨_, rfl⟩, ⟨rfl, rfl⟩, hdrawn⟩
    · cases hfails
  | none =>
    have hfree : w₁.temps ⟨t.pid, counter⟩ = none := by rw [h.temps, hroom]
    refine Delivers.attempt_bind (o := Op.createTemporary ⟨t.pid, counter⟩) rfl
      ⟨.ok (), _, Or.inl ⟨rfl, hfree, text, rfl⟩, trivial⟩ ?_
    rintro r w₂ ⟨⟨rfl, -, part, rfl⟩ | ⟨-, htaken, -⟩ | ⟨hfails, -, -⟩, -⟩
    rotate_left
    · exact (htaken hfree).elim
    · cases hfails
    refine Delivers.bind (Delivers.outcome ((writeState_desk ?_).mono ?_))
    · show Function.update w₁.temps ⟨t.pid, counter⟩ (some part) ⟨t.pid, counter⟩ ≠ none
      rw [Function.update_self]
      exact Option.some_ne_none part
    · rintro x w₃ ⟨rfl, rfl⟩
      exact Delivers.pure ⟨rfl, ⟨rfl, rfl⟩, hdrawn.save hlawful horder htext hroom⟩

/-- Where there is no room, the memory goes back. -/
theorem persistReplayStateOrRollback_desk (hlawful : formats.Lawful)
    (hencodes : ∀ order, ∃ text, formats.toVecPretty order = .ok text)
    (hname : path.fileName = some fileName) {previous : ReplayMap}
    (h : Attends formats t lock counter m temps w taken) :
    (s.service formats env config).Delivers t
      (persistReplayStateOrRollback formats t.pid path previous) w fun x w' =>
        Saves formats t lock counter m previous temps taken w x w'
          (temps ⟨t.pid, counter⟩).isNone := by
  refine Delivers.bind (Delivers.outcome ?_)
  refine (persistReplayState_desk hlawful hencodes hname h).mono ?_
  intro x w₁ hsaves
  cases hroom : (temps ⟨t.pid, counter⟩).isNone with
  | true =>
    rw [hroom] at hsaves
    obtain ⟨rfl, hsaved⟩ := hsaves
    exact Delivers.pure ⟨rfl, hsaved⟩
  | false =>
    rw [hroom] at hsaves
    obtain ⟨⟨e, rfl⟩, hsame, hkept⟩ := hsaves
    refine Delivers.success_bind rfl (only_setState hkept.own previous) rfl ?_
    exact Delivers.throw ⟨⟨e, rfl⟩, hsame, hkept.setMemory previous⟩

/-- An acceptance is made durable, or taken back with its challenge. -/
theorem persist_desk (hlawful : formats.Lawful)
    (hencodes : ∀ order, ∃ text, formats.toVecPretty order = .ok text)
    (hstate : state.replayStatePath = some path) (hname : path.fileName = some fileName)
    {reservation : Option ReservedName} {previous : ReplayMap}
    (h : Attends formats t lock counter m temps w taken) (hheld : Held reservation d taken w) :
    (s.service formats env config).Delivers t
      (persist formats state t.pid (some previous) reservation) w fun x w' =>
        if (temps ⟨t.pid, counter⟩).isNone then
          x = .ok () ∧ Held reservation d taken w' ∧
            Attends formats t lock (counter + 1) m temps w' { taken with ledger := m }
        else
          x = .error (apiReplayError
              "Verification succeeded but replay state could not be persisted") ∧
            Attends formats t lock (counter + 1) previous temps w' d := by
  simp only [persist, hstate]
  refine Delivers.bind (Delivers.outcome ?_)
  refine (persistReplayStateOrRollback_desk hlawful hencodes hname h).mono ?_
  intro x w₁ hsaves
  cases hroom : (temps ⟨t.pid, counter⟩).isNone with
  | true =>
    rw [hroom] at hsaves
    obtain ⟨rfl, hsame, hsaved⟩ := hsaves
    exact Delivers.pure ⟨rfl, hheld.same hsame, hsaved⟩
  | false =>
    rw [hroom] at hsaves
    obtain ⟨⟨e, rfl⟩, hsame, hkept⟩ := hsaves
    refine Delivers.bind ((restore_desk hkept (hheld.same hsame)).mono ?_)
    rintro x w₂ ⟨rfl, hrestored⟩
    exact Delivers.throw ⟨rfl, hrestored⟩

variable (formats) in
/-- How the part under the locks ends that the desk answers like this: with an answer behind them,
or with an error under them. -/
def Concludes (t : CallId) (x : Except ApiError VerificationResult) (w' : World Text) :
    Except ApiError VerificationResult × Desk → Prop
  | (.ok result, d') => x = .ok result ∧ Represents formats w' d'
  | (.error e, d') => x = .error e ∧ Leaving formats t w' d'

/-- The part under the locks concludes as the desk judges. -/
theorem verifyLocked_desk (hlawful : formats.Lawful)
    (hencodes : ∀ order, ∃ text, formats.toVecPretty order = .ok text)
    (hstate : state.replayStatePath = some path) (hname : path.fileName = some fileName)
    {receiptBytes : Bytes} {expected : Expected} {saves : Bool}
    (h : Attends formats t (some t) counter m temps w d) (hempty : w.file = none → m = ∅)
    (hsaves : (temps ⟨t.pid, counter + if state.requireIssuedChallenge then 1 else 0⟩).isNone =
      saves) :
    (s.service formats env config).Delivers t
      (verifyLocked formats env state t.pid receiptBytes expected) w fun x w' =>
        Concludes formats t x w' (d.receive formats env state s saves receiptBytes expected) := by
  refine Delivers.bind ((reload_desk hstate h hempty).mono ?_)
  rintro x w₁ ⟨rfl, h₁⟩
  refine Delivers.bind ((reserveIssued_desk hstate hname h₁ expected.nonce).mono ?_)
  intro x w₂ hreserves
  have hledger := Desk.takeIssued_ledger state s.clock expected.nonce d
  rw [Desk.receive]
  generalize d.takeIssued state s.clock expected.nonce = taking at hreserves hledger ⊢
  obtain ⟨answer, taken⟩ := taking
  cases answer with
  | error e =>
    obtain ⟨rfl, h₂⟩ := hreserves
    exact ⟨rfl, _, _, _, h₂, fun hnone => hledger.symm.trans (h₂.file.eq_empty hnone)⟩
  | ok u =>
  obtain ⟨reservation, rfl, h₂, hheld⟩ := hreserves
  refine Delivers.bind ((snapshot_desk hstate h₂).mono ?_)
  rintro x w₃ ⟨rfl, rfl⟩
  refine Delivers.bind (Delivers.mapError ((verify_desk h₂).mono ?_))
  rintro x w₄ ⟨m', hverify, hrefused, h₄, hsame⟩
  have hheld₄ := hheld.same hsame
  dsimp only
  rw [Desk.judge, hverify]
  cases x with
  | error e =>
    obtain rfl : m' = d.ledger := hrefused (by rintro ⟨_, ⟨⟩, -⟩)
    exact ⟨rfl, _, _, _, h₄, fun hnone => hledger.symm.trans (h₄.file.eq_empty hnone)⟩
  | ok result =>
  show (s.service formats env config).Delivers t (if !result.valid then _ else _) w₄ _
  cases hvalid : result.valid with
  | false =>
    obtain rfl : m' = d.ledger := by
      refine hrefused ?_
      rintro ⟨result', hresult, haccepted⟩
      obtain rfl := Except.ok.inj hresult
      cases hvalid.symm.trans haccepted
    simp only [hvalid, Bool.not_false, if_true]
    refine Delivers.bind ((restore_desk h₄ hheld₄).mono ?_)
    rintro x w₅ ⟨rfl, h₅⟩
    refine Delivers.only_bind only_dropReplayLock ?_
    refine Delivers.only_bind only_dropReplayGuard ?_
    exact Delivers.pure ⟨rfl, Leaving.leave ⟨_, _, _, h₅, h₅.file.eq_empty⟩⟩
  | true =>
    simp only [hvalid, Bool.not_true, Bool.false_eq_true, if_false]
    refine Delivers.bind ((persist_desk hlawful hencodes hstate hname h₄ hheld₄).mono ?_)
    intro x w₅ hpersisted
    rw [hsaves] at hpersisted
    cases saves with
    | false =>
      obtain ⟨rfl, h₅⟩ := hpersisted
      exact ⟨rfl, _, _, _, h₅, h₅.file.eq_empty⟩
    | true =>
      obtain ⟨rfl, hheld₅, h₅⟩ := hpersisted
      refine Delivers.bind ((consume_desk h₅ hheld₅).mono ?_)
      rintro x w₆ ⟨rfl, h₆⟩
      refine Delivers.only_bind only_dropReplayGuard ?_
      refine Delivers.only_bind only_dropReplayLock ?_
      refine Delivers.pure ⟨rfl, ?_⟩
      rw [h₆.dropLock_dropGuard]
      exact Leaving.leave ⟨_, _, _, h₆, h₆.file.eq_empty⟩

/-- A call that is served alone does what the desk does. -/
theorem verifyHandler_desk (hlawful : formats.Lawful)
    (hencodes : ∀ order, ∃ text, formats.toVecPretty order = .ok text)
    (hstate : state.replayStatePath = some path) (hname : path.fileName = some fileName)
    {payload : VerifyRequest} (h : Represents formats w d) (hproc : w.procs t.pid ≠ none) :
    (s.service formats env config).Delivers t (verifyHandler formats env state t.pid payload) w
      fun x w' =>
        x = (d.present formats env state s (w.hasRoom state t.pid) payload).1 ∧
          Represents formats w'
            (d.present formats env state s (w.hasRoom state t.pid) payload).2 := by
  obtain ⟨p, hp⟩ := Option.ne_none_iff_exists'.mp hproc
  rw [Desk.present]
  refine Delivers.ensure_bind ?_ ?_
  rotate_left
  · intro e he
    rw [he]
    exact ⟨rfl, h⟩
  rintro ⟨receiptBytes, expected⟩ hdecode
  rw [hdecode]
  refine Delivers.bind ((acquireGuard_desk hstate h hp).mono ?_)
  rintro x w₁ ⟨rfl, m, h₁, hempty⟩
  refine Delivers.leaving (fun _ => ⟨_, _, only_dropReplayGuard.can⟩) ?_
  refine Delivers.bind ((acquireFileLock_desk hstate hname h₁).mono ?_)
  rintro x w₂ ⟨rfl, hfile, h₂⟩
  refine Delivers.leaving (fun _ => ⟨_, _, only_dropReplayLock.can⟩) ?_
  have hsaves :
      (w.temps ⟨t.pid, p.counter + if state.requireIssuedChallenge then 1 else 0⟩).isNone =
        w.hasRoom state t.pid := by rw [World.hasRoom, hp]
  have hempty₂ : w₂.file = none → m = ∅ := fun hnone => hempty (hfile.symm.trans hnone)
  refine (verifyLocked_desk hlawful hencodes hstate hname h₂ hempty₂ hsaves).mono ?_
  intro x w₃ hconcludes
  dsimp only
  generalize d.receive formats env state s (w.hasRoom state t.pid) receiptBytes expected = answer
    at hconcludes ⊢
  obtain ⟨result, d'⟩ := answer
  cases result with
  | ok result =>
    obtain ⟨rfl, hrepresents⟩ := hconcludes
    exact ⟨rfl, hrepresents⟩
  | error e =>
    obtain ⟨rfl, hleaving⟩ := hconcludes
    rintro r w₄ ⟨rfl, -⟩ r' w₅ ⟨rfl, -⟩
    exact ⟨rfl, hleaving.leave⟩

end Veriai.Service
