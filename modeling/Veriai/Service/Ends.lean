import Veriai.Service.Recorded

/-!
# How the parts of the handlers end

Where nothing fails and nobody else acts, each part of a handler comes to one end:
the locks are taken, the state file is read as it was written, a receipt with a fresh
number is recorded, and the temporary file is written up to its rename.
-/

namespace Veriai.Service

open Machine

variable {Text : Type} {formats : Formats Text} {env : Primitives} {hz : Hazards} {config : Config}
variable {cond : World Text → World Text → Prop} {t : CallId}

/-- The process of the call has drawn a number, and the file under it holds the text. -/
def World.written (w : World Text) (t : CallId) (p : Process) (text : Text) : World Text :=
  { w.setProc t.pid (some { p with counter := p.counter + 1 }) with
    slots := Function.update w.slots ⟨t.pid, p.counter⟩ (some t) }.setTemp ⟨t.pid, p.counter⟩
      (some text)

/-- The number is recorded in the memory of the process, which the call has looked at. -/
def World.recorded (w : World Text) (t : CallId) (p : Process) (m : ReplayMutex) (f : Fingerprint)
    (n : UInt64) : World Text :=
  { w.setProc t.pid (some { p with verifier := some (m.insert f n) }) with
    pending := Function.update w.pending t (some (f, n)) }

/-- The call holds both locks and has looked at the state file. -/
def World.locked (w : World Text) (t : CallId) (p : Process) : World Text :=
  { w.setProc t.pid (some { p with guard := some t }) with fileLock := some t }.looked t

variable (formats env hz config) in
/-- An operation that can be performed in the runs considered. -/
theorem ends_perform {ε : Type} {o : Op Text} {r : Res Text o} {w w' : World Text}
    (h : exec env hz t o r w w') (hcond : cond w w') :
    ((service formats env hz config).under cond).Ends (ε := ε) t (perform o) w (.ok r) w' :=
  Ends.call ⟨h, hcond⟩

section Writing

variable {M : Machine CallId Request Response (World Text) (Res Text)} {w : World Text}
variable {name : TempName} {members : Members} {order : MemberOrder} {text : Text}

/-- The results of a save in which nothing fails. -/
def Unfailing (name : TempName) (members : Members) (order : MemberOrder) :
    (o : Op Text) → Res Text o → Prop
  | .getState, _ | .nextTempFile, _ => True
  | .intoIter members', order' => members' = members ∧ order' = order
  | .createTemporary name', r => name' = name ∧ r = .ok ()
  | .setTemporaryPermissions _, r | .writeTemporary _ _, r | .syncTemporary _, r | .syncParent, r =>
    r = .ok ()
  | _, _ => False

variable (env hz t) in
/-- The machine takes the steps of such a save. -/
def Serves (M : Machine CallId Request Response (World Text) (Res Text)) (name : TempName)
    (members : Members) (order : MemberOrder) : Prop :=
  ∀ o r w w', Unfailing name members order o r → exec env hz t o r w w' →
    w'.commits = w.commits → M.exec t o r w w'

theorem serves_under (hcond : ∀ w w', w'.commits = w.commits → cond w w') :
    Serves env hz t ((service formats env hz config).under cond) name members order :=
  fun _ _ w w' _ he hcommits => ⟨he, hcond w w' hcommits⟩

/-- Writing comes to the replacement of the state file, and ends after it. -/
theorem passes_writeState (hserves : Serves env hz t M name members order)
    (htemp : w.temps name ≠ none) (w₂ : World Text) :
    M.Passes t (writeState name text).run w (.renameTemporary name) (w.setTemp name (some text))
      (Except.ok ()) w₂ (.ok ()) w₂ := by
  apply Ends.passes (a := Except.ok ())
  · exact Ends.call (hserves _ _ _ _ rfl (Or.inl ⟨rfl, rfl⟩) rfl)
  apply Ends.passes (Ends.ensure rfl)
  apply Ends.passes (a := Except.ok ())
  · exact Ends.call (hserves _ _ _ _ rfl ⟨htemp, Or.inl ⟨rfl, rfl⟩⟩ rfl)
  apply Ends.passes (Ends.ensure rfl)
  apply Ends.passes (a := Except.ok ())
  · exact Ends.call (hserves _ _ _ _ rfl (Or.inl ⟨rfl, rfl⟩) rfl)
  apply Ends.passes (Ends.ensure rfl)
  apply Passes.bind Passes.call
  apply Ends.bind (Ends.ensure rfl)
  apply Ends.bind (a := Except.ok ())
  · exact Ends.call (hserves _ _ _ _ rfl (Or.inl ⟨rfl, rfl⟩) rfl)
  exact Ends.ensure rfl

/-- Persisting comes to the replacement of the state file, and ends after it. -/
theorem passes_persistReplayState {p : Process} {m : ReplayMutex} {path : StatePath}
    {fileName : String}
    (hserves : Serves env hz t M ⟨t.pid, p.counter⟩ (encodeMembers m.map) order)
    (hp : w.procs t.pid = some p) (hm : p.verifier = some m) (hhealthy : m.poisoned = false)
    (horder : order.toFinmap = encodeMembers m.map) (htext : formats.toVecPretty order = .ok text)
    (hname : path.fileName = some fileName) (hfree : w.temps ⟨t.pid, p.counter⟩ = none)
    (w₂ : World Text) :
    M.Passes t (persistReplayState formats t.pid path).run w (.renameTemporary ⟨t.pid, p.counter⟩)
      (w.written t p text) (Except.ok ()) w₂ (.ok ()) w₂ := by
  have hget : getState p.verifier = .ok (some m.map) := by simp [getState, hm, hhealthy]
  have hwrite : ∀ w' : World Text, M.Passes t (writeState ⟨t.pid, p.counter⟩ text).run
      (w'.setTemp ⟨t.pid, p.counter⟩ (some text)) (.renameTemporary ⟨t.pid, p.counter⟩)
      (w'.setTemp ⟨t.pid, p.counter⟩ (some text)) (Except.ok ()) w₂ (.ok ()) w₂ := by
    intro w'
    have hidem : (w'.setTemp ⟨t.pid, p.counter⟩ (some text)).setTemp ⟨t.pid, p.counter⟩
        (some text) = w'.setTemp ⟨t.pid, p.counter⟩ (some text) := by
      simp [World.setTemp]
    nth_rewrite 2 [← hidem]
    refine passes_writeState hserves ?_ w₂
    simp [World.setTemp]
  apply Ends.passes (a := .ok (some m.map))
  · exact Ends.call (hserves _ _ _ _ trivial ⟨p, hp, hget.symm, rfl⟩ rfl)
  apply Ends.passes (Ends.ensure rfl)
  apply Ends.passes (Ends.ensure rfl)
  apply Ends.passes (a := order)
  · exact Ends.call (hserves _ _ _ _ ⟨rfl, rfl⟩ ⟨horder, rfl⟩ rfl)
  apply Ends.passes (Ends.ensure (y := .ok text) (by rw [htext]; rfl))
  apply Ends.passes (Ends.ensure (y := .ok fileName) (by rw [hname]; rfl))
  apply Ends.passes (a := p.counter)
  · exact Ends.call (hserves _ _ _ _ trivial ⟨p, hp, rfl, rfl⟩ rfl)
  apply Ends.passes (a := Except.ok ())
  · exact Ends.call (hserves _ _ _ _ ⟨rfl, rfl⟩ (Or.inl ⟨rfl, hfree, text, rfl⟩) rfl)
  apply Ends.passes (Ends.ensure rfl)
  exact Passes.bind (Passes.outcome (hwrite _)) (Ends.pure ())

end Writing

section Handler

variable {w : World Text} {p : Process} {m : ReplayMutex} {state : AppState} {path : StatePath}

variable (formats hz config) in
/-- A receipt that passes the inspection with a fresh number is recorded. -/
theorem ends_verify {provider : AttestationProvider} {now : SystemTime} {receiptBytes : Bytes}
    {expected : Expected} {cose : CoseSign1} {claims : VeriClaims} {doc : AttestationDoc}
    {v : Verifier} (hcond : ∀ w w', w'.commits = w.commits → cond w w')
    (hinspected : Verifier.Inspected env { v with provider } now receiptBytes expected cose claims
      doc)
    (hp : w.procs t.pid = some p) (hm : p.verifier = some m) (hopen : m.poisoned = false)
    (hfresh : Verifier.SequenceFresh env claims doc m.map) :
    ∃ result, result.valid = true ∧ ((service formats env hz config).under cond).Ends t
      (verify env v receiptBytes expected) w (.ok result)
      (w.recorded t p m (computeIdentityFingerprint env doc) claims.sequenceNum) := by
  have hrun := Verifier.yields_inspect.mpr ⟨⟨cose, hinspected⟩, rfl⟩
  have hcheck : Verifier.checkSequence env { v with provider } claims doc
      (Verifier.inspectedReport claims) (some m) =
      (.ok (Verifier.accepted { v with provider }
          ((Verifier.inspectedReport claims).passed "Sequence Check")),
        some (m.insert (computeIdentityFingerprint env doc) claims.sequenceNum)) := by
    exact Verifier.checkSequence_fresh hopen hfresh
  refine ⟨Verifier.accepted { v with provider }
    ((Verifier.inspectedReport claims).passed "Sequence Check"), rfl, ?_⟩
  apply Ends.bind
  · exact ends_perform formats env hz config (o := Op.observe) (r := (provider, now)) rfl
      (hcond _ _ rfl)
  simp only [Checked.Yields] at hrun
  dsimp only
  rw [hrun]
  apply Ends.bind
  · exact ends_perform formats env hz config
      (o := Op.checkSequence { v with provider } claims doc (Verifier.inspectedReport claims))
      (r := .ok (Verifier.accepted { v with provider }
        ((Verifier.inspectedReport claims).passed "Sequence Check")))
      ⟨p, hp, by rw [hm, hcheck], rfl⟩ (hcond _ _ rfl)
  rw [hm, hcheck]
  exact Ends.ensure rfl

/-- With both locks free the call takes them. -/
theorem ends_acquireGuard (hcond : ∀ w w', w'.commits = w.commits → cond w w')
    (hstate : state.replayStatePath = some path) (hp : w.procs t.pid = some p)
    (hfree : p.guard = none) :
    ((service formats env hz config).under cond).Ends t (acquireGuard state) w (.ok ())
      (w.setProc t.pid (some { p with guard := some t })) := by
  simp only [acquireGuard, hstate]
  exact ends_perform formats env hz config (o := Op.lockReplayGuard) ⟨p, hp, hfree, rfl⟩
    (hcond _ _ rfl)

/-- A free file lock is taken. -/
theorem ends_acquireFileLock {fileName : String}
    (hcond : ∀ w w', w'.commits = w.commits → cond w w')
    (hstate : state.replayStatePath = some path) (hname : path.fileName = some fileName)
    (hfree : w.fileLock = none) :
    ((service formats env hz config).under cond).Ends t (acquireFileLock state) w (.ok ())
      { w with fileLock := some t } := by
  simp only [acquireFileLock, hstate]
  apply Ends.bind (Ends.ensure (y := .ok fileName) (by rw [siblingPath, hname]; rfl))
  apply Ends.bind
  · exact ends_perform formats env hz config (o := Op.acquireReplayLock) (r := Except.ok ())
      (Or.inl ⟨rfl, hfree, rfl⟩) (hcond _ _ rfl)
  exact Ends.ensure rfl

variable (formats env hz config) in
/-- The state file is read as what the service wrote to it. -/
theorem ends_loadReplayState {text : Text} {saved : ReplayMap}
    (hcond : ∀ w w', w'.commits = w.commits → cond w w') (hfile : w.file = some text)
    (hsaved : Saved formats (some text) saved) :
    ((service formats env hz config).under cond).Ends t (loadReplayState formats) w (.ok saved)
      (w.looked t) := by
  obtain ⟨order, horder⟩ := exists_order (encodeMembers saved)
  apply Ends.bind
  · exact ends_perform formats env hz config (o := Op.readState) (r := .ok text)
      (Or.inl ⟨text, hfile, rfl, rfl⟩) (hcond _ _ rfl)
  apply Ends.bind (Ends.ensure (y := .ok text) rfl)
  apply Ends.bind
  · refine Ends.ensure (y := .ok (encodeMembers saved)) ?_
    rw [show formats.fromSlice text = .ok (encodeMembers saved) from hsaved]
    rfl
  apply Ends.bind
  · exact ends_perform formats env hz config (o := Op.intoIter (encodeMembers saved)) (r := order)
      ⟨horder, rfl⟩ (hcond _ _ rfl)
  exact Ends.ensure (collectReplayMap_encodeMembers horder)

/-- The reload gives back the memory of a process that is up to date. -/
theorem ends_reload (hcond : ∀ w w', w'.commits = w.commits → cond w w')
    (hstate : state.replayStatePath = some path) (hp : w.procs t.pid = some p)
    (hm : p.verifier = some m) (hopen : m.poisoned = false)
    (hfile : w.file = none ∨ Saved formats w.file m.map) :
    ((service formats env hz config).under cond).Ends t (reload formats state) w (.ok ())
      (w.looked t) := by
  simp only [reload, hstate]
  cases hf : w.file with
  | none =>
    apply Ends.bind
    · exact ends_perform formats env hz config (o := Op.pathExists) (r := false)
        ⟨by rw [hf]; rfl, rfl⟩ (hcond _ _ rfl)
    exact Ends.pure ()
  | some text =>
    have hsaved : Saved formats (some text) m.map := by
      rw [hf] at hfile
      exact hfile.resolve_left (Option.some_ne_none text)
    have hset : setState m.map p.verifier = (.ok (), some m) := by
      rw [hm]
      exact if_neg (by simp [hopen])
    have hsame : (w.looked t).setProc t.pid (some p) = w.looked t := by
      rw [World.setProc, ← hp]
      exact congrArg (fun procs => { w.looked t with procs }) (Function.update_eq_self _ _)
    apply Ends.bind
    · exact ends_perform formats env hz config (o := Op.pathExists) (r := true)
        ⟨by rw [hf]; rfl, rfl⟩ (hcond _ (w.looked t) rfl)
    apply Ends.bind
    · have hload := ends_loadReplayState formats env hz config (t := t) (w := w.looked t) hcond
        hf hsaved
      exact hload.mapError
    have htwice : (w.looked t).looked t = w.looked t := by
      simp only [World.looked, Function.update_idem]
    rw [htwice]
    apply Ends.bind
    · refine ends_perform formats env hz config (o := Op.setState m.map) (r := .ok ())
        ⟨p, hp, by rw [hset], ?_⟩ (hcond _ (w.looked t) rfl)
      rw [hset, ← hm]
      exact hsame.symm
    exact Ends.ensure rfl

/-- Where no challenge is required, none is reserved. -/
theorem ends_reserveIssued (hissued : state.requireIssuedChallenge = false) (nonce : ByteArr 32) :
    ((service formats env hz config).under cond).Ends t (reserveIssued state t.pid nonce) w
      (.ok none) w := by
  simp only [reserveIssued, hissued]
  exact Ends.pure none

/-- The call has drawn a number and reserved the record of the nonce under it. -/
def World.reservedBy (w : World Text) (t : CallId) (p : Process) (nonce : ByteArr 32)
    (now : UInt64) : World Text :=
  { w.setProc t.pid (some { p with counter := p.counter + 1 }) with
    clock := Function.update w.clock t (some now)
    slots := Function.update w.slots ⟨t.pid, p.counter⟩ (some t)
    available := Function.update w.available nonce false
    reserved := Function.update w.reserved ⟨nonce, t.pid, p.counter⟩ true
    reservations := w.reservations ++ [(t, nonce, some now)] }

/-- A record that has not expired is reserved. -/
theorem ends_reserveIssued_some {fileName : String} {nonce : ByteArr 32} {now expiresAt : UInt64}
    (hcond : ∀ w w', w'.commits = w.commits → cond w w')
    (hissued : state.requireIssuedChallenge = true) (hstate : state.replayStatePath = some path)
    (hname : path.fileName = some fileName) (hp : w.procs t.pid = some p)
    (havailable : w.available nonce = true)
    (hexpires : parseU64 (trim (w.record nonce)) = some expiresAt) (hle : now ≤ expiresAt) :
    ((service formats env hz config).under cond).Ends t (reserveIssued state t.pid nonce) w
      (.ok (some ⟨nonce, t.pid, p.counter⟩)) (w.reservedBy t p nonce now) := by
  rw [reserveIssued, if_pos hissued]
  apply Ends.bind (Ends.ensure (y := .ok path) (by rw [hstate]; rfl))
  refine Ends.bind (Ends.mapError (x := .ok ⟨nonce, t.pid, p.counter⟩) ?_) (Ends.pure _)
  apply Ends.bind (Ends.ensure (y := .ok fileName) (by rw [siblingPath, hname]; rfl))
  apply Ends.bind
  · exact ends_perform formats env hz config (o := Op.readRecord nonce)
      (Or.inl ⟨havailable, rfl, rfl⟩) (hcond _ _ rfl)
  apply Ends.bind (Ends.ensure rfl)
  apply Ends.bind
  · refine Ends.ensure (y := .ok expiresAt) ?_
    rw [String.toList_ofList, hexpires]
    rfl
  apply Ends.bind
  · exact ends_perform formats env hz config (o := Op.unixSeconds) (r := .ok now)
      (Or.inl ⟨now, rfl, rfl⟩) (hcond _ _ rfl)
  apply Ends.bind (Ends.ensure rfl)
  rw [if_neg (UInt64.not_lt.mpr hle)]
  apply Ends.bind
  · exact ends_perform formats env hz config (o := Op.nextTempFile) (r := p.counter)
      ⟨p, hp, rfl, rfl⟩ (hcond _ _ rfl)
  apply Ends.bind
  · refine ends_perform formats env hz config (o := Op.reserveRecord ⟨nonce, t.pid, p.counter⟩)
      (r := Except.ok ()) (Or.inl ⟨havailable, rfl, ?_⟩) (hcond _ (w.reservedBy t p nonce now) rfl)
    simp [World.reservedBy, World.setProc]
  apply Ends.bind (Ends.ensure rfl)
  apply Ends.bind
  · exact ends_perform formats env hz config (o := Op.syncChallengeDir) (r := Except.ok ())
      (Or.inl ⟨rfl, rfl⟩) (hcond _ _ rfl)
  apply Ends.bind (Ends.ensure rfl)
  exact Ends.pure _

/-- A reserved record is consumed. -/
theorem ends_consume {name : ReservedName} (hcond : ∀ w w', w'.commits = w.commits → cond w w')
    (hreserved : w.reserved name = true) :
    ((service formats env hz config).under cond).Ends t (consume name) w (.ok ())
      { w with
        reserved := Function.update w.reserved name false
        consumed := Function.update w.consumed name.nonce (some t) } := by
  apply Ends.bind
  · exact ends_perform formats env hz config (o := Op.consumeRecord name) (r := Except.ok ())
      (Or.inl ⟨hreserved, rfl, rfl⟩) (hcond _ _ rfl)
  apply Ends.bind (Ends.ensure rfl)
  apply Ends.bind
  · exact ends_perform formats env hz config (o := Op.syncChallengeDir) (r := Except.ok ())
      (Or.inl ⟨rfl, rfl⟩) (hcond _ _ rfl)
  exact Ends.ensure rfl

/-- The record of the nonce has this text. -/
def World.setRecord (w : World Text) (nonce : ByteArr 32) (text : List Char) : World Text :=
  { w with record := Function.update w.record nonce text }

/-- The characters are written one by one. -/
theorem ends_writeExpiry {nonce : ByteArr 32} {written rest : List Char}
    (hcond : ∀ w w', w'.commits = w.commits → cond w w') :
    ((service formats env hz config).under cond).Ends t (writeExpiry nonce rest)
      (w.setRecord nonce written) (.ok ()) (w.setRecord nonce (written ++ rest)) := by
  induction rest generalizing written with
  | nil =>
    rw [List.append_nil]
    exact Ends.pure ()
  | cons c rest ih =>
    apply Ends.bind
    · refine ends_perform formats env hz config (o := Op.writeRecord nonce c) (r := Except.ok ())
        (Or.inl ⟨rfl, ?_⟩) (hcond _ (w.setRecord nonce (written ++ [c])) rfl)
      simp [World.setRecord]
    apply Ends.bind (Ends.ensure rfl)
    simpa using @ih (written ++ [c])

/-- The call has issued a nonce, and its record has this text. -/
def World.issuedBy (w : World Text) (t : CallId) (nonce : ByteArr 32) (expiresAt : UInt64)
    (text : List Char) : World Text :=
  { w with
    available := Function.update w.available nonce true
    issued := Function.update w.issued nonce (some (t, expiresAt)) }.setRecord nonce text

/-- A new nonce gets its record at the first attempt. -/
theorem ends_issueChallenge {nonce : ByteArr 32} {expiresAt : UInt64} {attempts : Nat}
    (hcond : ∀ w w', w'.commits = w.commits → cond w w') (havailable : w.available nonce = false)
    (hnew : w.issued nonce = none) :
    ((service formats env hz config).under cond).Ends t (issueChallenge expiresAt (attempts + 1)) w
      (.ok ⟨hexEncode nonce.toList, expiresAt⟩) 
      (w.issuedBy t nonce expiresAt (decimal expiresAt ++ ['\n'])) := by
  have hwrite : ((service formats env hz config).under cond).Ends t
      (writeExpiry nonce (decimal expiresAt ++ ['\n'])) (w.issuedBy t nonce expiresAt []) (.ok ())
      (w.issuedBy t nonce expiresAt ([] ++ (decimal expiresAt ++ ['\n']))) := ends_writeExpiry hcond
  apply Ends.bind
  · exact ends_perform formats env hz config (o := Op.fillBytes) (r := nonce) rfl (hcond _ _ rfl)
  apply Ends.bind
  · exact ends_perform formats env hz config (o := Op.createRecord nonce expiresAt)
      (r := Except.ok ()) (Or.inl ⟨rfl, havailable, hnew, rfl⟩) (hcond _ _ rfl)
  apply Ends.bind
  · exact ends_perform formats env hz config (o := Op.setRecordPermissions nonce)
      (r := Except.ok ()) (Or.inl ⟨rfl, rfl⟩) (hcond _ _ rfl)
  apply Ends.bind (Ends.ensure rfl)
  apply Ends.bind hwrite
  apply Ends.bind
  · exact ends_perform formats env hz config (o := Op.syncRecord nonce) (r := Except.ok ())
      (Or.inl ⟨rfl, rfl⟩) (hcond _ _ rfl)
  apply Ends.bind (Ends.ensure rfl)
  apply Ends.bind
  · exact ends_perform formats env hz config (o := Op.syncChallengeDir) (r := Except.ok ())
      (Or.inl ⟨rfl, rfl⟩) (hcond _ _ rfl)
  apply Ends.bind (Ends.ensure rfl)
  exact Ends.pure _

/-- A healthy memory is taken down. -/
theorem ends_snapshot (hcond : ∀ w w', w'.commits = w.commits → cond w w')
    (hstate : state.replayStatePath = some path) (hp : w.procs t.pid = some p)
    (hm : p.verifier = some m) (hopen : m.poisoned = false) :
    ((service formats env hz config).under cond).Ends t (snapshot state) w
      (.ok (some m.map)) w := by
  simp only [snapshot, hstate]
  apply Ends.bind
  · exact ends_perform formats env hz config (o := Op.getState) (r := .ok (some m.map))
      ⟨p, hp, by simp [getState, hm, hopen], rfl⟩ (hcond _ _ rfl)
  exact Ends.ensure rfl

end Handler

end Veriai.Service
