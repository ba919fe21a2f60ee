import Veriai.Service.Ends

/-!
# A call that is served alone

Without failures, a call whose receipt passes the inspection with a fresh number
comes to the replacement of the state file, makes it, and answers that the receipt
is valid. The next call finds its process idle again, and the state file up to date.
-/

namespace Veriai.Service

open Machine

section Handler

variable {Text : Type} {formats : Formats Text} {env : Primitives} {hz : Hazards} {config : Config}
variable {cond : World Text → World Text → Prop} {t : CallId}
variable {w : World Text} {p : Process} {m : ReplayMutex} {state : AppState} {path : StatePath}

/-- What a call brings along that is answered valid if its number is fresh. -/
structure Presentable (formats : Formats Text) (env : Primitives) (state : AppState)
    (payload : VerifyRequest) (claims : VeriClaims) (doc : AttestationDoc) : Prop where
  decodes : ∃ receiptBytes expected provider now cose,
    decodeRequest formats state payload = .ok (receiptBytes, expected) ∧
      Verifier.Inspected env { state.verifier with provider } now receiptBytes expected cose claims
        doc
  path : ∃ path fileName, state.replayStatePath = some path ∧ path.fileName = some fileName
  issued : state.requireIssuedChallenge = false

variable (formats) in
/-- The process of a call is idle with its memory up to date, and the file lock is free. -/
structure Idle (t : CallId) (p : Process) (m : ReplayMutex) (w : World Text) : Prop where
  proc : w.procs t.pid = some p
  guard : p.guard = none
  verifier : p.verifier = some m
  healthy : m.poisoned = false
  fileLock : w.fileLock = none
  file : w.file = none ∨ Saved formats w.file m.map
  temps : ∀ counter, p.counter ≤ counter → w.temps ⟨t.pid, counter⟩ = none

/-- The world in which a call served alone is about to replace the state file. -/
def World.prepared (w : World Text) (t : CallId) (p : Process) (m : ReplayMutex) (f : Fingerprint)
    (n : UInt64) (text : Text) : World Text :=
  ((w.locked t p).recorded t { p with guard := some t } m f n).written t
    { p with guard := some t, verifier := some (m.insert f n) } text

variable (hz) in
/-- A call served alone comes to the replacement of the state file. When it has made it, it
releases the locks and answers that the receipt is valid. -/
theorem passes_verify {payload : VerifyRequest} {claims : VeriClaims} {doc : AttestationDoc}
    {order : MemberOrder} {text : Text} (hcond : ∀ w w', w'.commits = w.commits → cond w w')
    (hpresent : Presentable formats env (config.state t.pid) payload claims doc)
    (hidle : Idle formats t p m w) (hfresh : Verifier.SequenceFresh env claims doc m.map)
    (horder : order.toFinmap =
      encodeMembers (m.map.insert (computeIdentityFingerprint env doc) claims.sequenceNum))
    (htext : formats.toVecPretty order = .ok text) (w₂ : World Text) :
    ∃ result, result.valid = true ∧ ((service formats env hz config).under cond).Passes t
      (((service formats env hz config).under cond).program t (.verify payload)) w
      (.renameTemporary ⟨t.pid, p.counter⟩)
      (w.prepared t p m (computeIdentityFingerprint env doc) claims.sequenceNum text) (Except.ok ())
      w₂ (.verified (.ok result)) ((w₂.dropGuard t).dropLock t) := by
  obtain ⟨⟨receiptBytes, expected, provider, now, cose, hdecode, hinspected⟩,
    ⟨path, fileName, hstate, hname⟩, hissued⟩ := hpresent
  have hproc : (w.locked t p).procs t.pid = some { p with guard := some t } :=
    Function.update_self ..
  obtain ⟨result, hvalid, hverify⟩ := ends_verify formats hz config hcond hinspected hproc
    hidle.verifier hidle.healthy hfresh
  refine ⟨result, hvalid, Passes.prog_bind ?_ (.refl _ _)⟩
  apply Ends.passes (Ends.ensure hdecode)
  apply Ends.passes (ends_acquireGuard hcond hstate hidle.proc hidle.guard)
  apply Passes.leaving
  apply Ends.passes
  · exact ends_acquireFileLock hcond hstate hname hidle.fileLock
  apply Passes.leaving
  apply Ends.passes
  · exact ends_reload hcond hstate hproc hidle.verifier hidle.healthy hidle.file
  apply Ends.passes (ends_reserveIssued hissued _)
  apply Ends.passes
  · exact ends_snapshot hcond hstate hproc hidle.verifier hidle.healthy
  apply Ends.passes (Ends.mapError hverify)
  rw [hvalid]
  apply Passes.bind (a := ())
  · simp only [persist, hstate]
    apply Passes.bind (a := .ok ())
    · apply Passes.outcome
      apply Passes.bind (a := .ok ())
      · apply Passes.outcome
        exact passes_persistReplayState
          (w := (w.locked t p).recorded t { p with guard := some t } m _ _) (serves_under hcond)
          (Function.update_self ..) rfl hidle.healthy horder htext hname
          (hidle.temps _ le_rfl) w₂
      · exact Ends.pure ()
    · exact Ends.pure ()
  apply Ends.bind (Ends.pure ())
  apply Ends.bind
  · exact ends_perform formats env hz config (o := Op.dropReplayGuard) (r := ()) rfl
      (hcond _ _ (World.dropGuard_commits _ t))
  apply Ends.bind
  · exact ends_perform formats env hz config (o := Op.dropReplayLock) (r := ()) rfl
      (hcond _ _ (World.dropLock_commits _ t))
  exact Ends.pure result

@[simp] theorem World.prepared_temps (w : World Text) (t : CallId) (p : Process) (m : ReplayMutex)
    (f : Fingerprint) (n : UInt64) (text : Text) :
    (w.prepared t p m f n text).temps ⟨t.pid, p.counter⟩ = some text := Function.update_self ..

/-- The call has looked at the file it is about to replace. -/
theorem World.prepared_base (w : World Text) (t : CallId) (p : Process) (m : ReplayMutex)
    (f : Fingerprint) (n : UInt64) (text : Text) :
    (w.prepared t p m f n text).base t = (w.prepared t p m f n text).version :=
  Function.update_self ..

variable (hz) in
/-- A call served alone runs to its end and is answered valid. -/
theorem runs_verify {payload : VerifyRequest} {claims : VeriClaims} {doc : AttestationDoc}
    {order : MemberOrder} {text : Text} {w₁ w₂ : World Text}
    (hcond : ∀ w w', w'.commits = w.commits → cond w w')
    (hpresent : Presentable formats env (config.state t.pid) payload claims doc)
    (hidle : Idle formats t p m w) (hfresh : Verifier.SequenceFresh env claims doc m.map)
    (horder : order.toFinmap =
      encodeMembers (m.map.insert (computeIdentityFingerprint env doc) claims.sequenceNum))
    (htext : formats.toVecPretty order = .ok text)
    (hw₁ : w₁ = w.prepared t p m (computeIdentityFingerprint env doc) claims.sequenceNum text)
    (hw₂ : w₂ = w₁.replace t ⟨t.pid, p.counter⟩ text) (hrename : cond w₁ w₂) :
    ∃ result, result.valid = true ∧ ((service formats env hz config).under cond).Runs t
      (((service formats env hz config).under cond).program t (.verify payload)) w
      (.ret (.verified (.ok result)))
      ((w₂.dropGuard t).dropLock t) := by
  obtain ⟨result, hvalid, hpasses⟩ := passes_verify hz hcond hpresent hidle hfresh horder htext w₂
  refine ⟨result, hvalid, hpasses.runs ⟨Or.inl ⟨text, World.prepared_temps .., rfl, ?_⟩, ?_⟩⟩
  · rw [← hw₁, hw₂]
  · rw [← hw₁]
    exact hrename

variable (hz) in
/-- A call served alone takes the guard and comes to the file lock. -/
theorem reaches_lock {payload : VerifyRequest} {claims : VeriClaims} {doc : AttestationDoc}
    (hcond : ∀ w w', w'.commits = w.commits → cond w w')
    (hpresent : Presentable formats env (config.state t.pid) payload claims doc)
    (hp : w.procs t.pid = some p) (hfree : p.guard = none) :
    ((service formats env hz config).under cond).Reaches t
      (((service formats env hz config).under cond).program t (.verify payload)) w
      .acquireReplayLock (w.setProc t.pid (some { p with guard := some t })) := by
  obtain ⟨⟨receiptBytes, expected, _, _, _, hdecode, _⟩, ⟨path, fileName, hstate, hname⟩, _⟩ :=
    hpresent
  apply Reaches.bind
  apply Ends.reaches (Ends.ensure hdecode)
  apply Ends.reaches (ends_acquireGuard hcond hstate hp hfree)
  apply Reaches.bind
  apply Reaches.bind
  simp only [acquireFileLock, hstate]
  apply Ends.reaches (Ends.ensure (y := .ok fileName) (by rw [siblingPath, hname]; rfl))
  exact Reaches.bind _ Reaches.call

/-- The world after a call served alone was answered valid. -/
def World.answered (w : World Text) (t : CallId) (p : Process) (m : ReplayMutex) (f : Fingerprint)
    (n : UInt64) (text : Text) : World Text :=
  (((w.prepared t p m f n text).replace t ⟨t.pid, p.counter⟩ text).dropGuard t).dropLock t

/-- The process has drawn a number, remembers the receipt, and has its guard free. -/
theorem World.answered_procs (w : World Text) (t : CallId) (p : Process) (m : ReplayMutex)
    (f : Fingerprint) (n : UInt64) (text : Text) :
    (w.answered t p m f n text).procs =
      Function.update w.procs t.pid (some ⟨p.counter + 1, some (m.insert f n), none⟩) := by
  simp [answered, prepared, written, recorded, locked, looked, setProc, setTemp, replace, dropGuard,
    dropLock]

/-- The file lock is free again. -/
theorem World.answered_fileLock (w : World Text) (t : CallId) (p : Process) (m : ReplayMutex)
    (f : Fingerprint) (n : UInt64) (text : Text) :
    (w.answered t p m f n text).fileLock = none := by
  simp [answered, prepared, written, recorded, locked, looked, setProc, setTemp, replace, dropGuard,
    dropLock]

/-- The temporary file is gone, and the others are as they were. -/
theorem World.answered_temps (w : World Text) (t : CallId) (p : Process) (m : ReplayMutex)
    (f : Fingerprint) (n : UInt64) (text : Text) :
    (w.answered t p m f n text).temps = Function.update w.temps ⟨t.pid, p.counter⟩ none := by
  simp [answered, prepared, written, recorded, locked, looked, setProc, setTemp, replace, dropGuard,
    dropLock]

/-- The state file holds what was saved. -/
theorem World.answered_file (w : World Text) (t : CallId) (p : Process) (m : ReplayMutex)
    (f : Fingerprint) (n : UInt64) (text : Text) :
    (w.answered t p m f n text).file = some text := by
  simp [answered, replace]

/-- The process is idle again for its next call. -/
theorem Idle.answered (h : Idle formats t p m w) {f : Fingerprint} {n : UInt64} {text : Text}
    (hsaved : Saved formats (some text) (m.map.insert f n)) {t' : CallId} (ht : t'.pid = t.pid) :
    Idle formats t' ⟨p.counter + 1, some (m.insert f n), none⟩ (m.insert f n)
      (w.answered t p m f n text) where
  proc := by rw [World.answered_procs, ht, Function.update_self]
  guard := rfl
  verifier := rfl
  healthy := h.healthy
  fileLock := World.answered_fileLock ..
  file := Or.inr <| by
    rw [World.answered_file]
    exact hsaved
  temps := by
    intro counter (hle : p.counter + 1 ≤ counter)
    have hne : (⟨t'.pid, counter⟩ : TempName) ≠ ⟨t.pid, p.counter⟩ := by
      intro he
      have hcounter : counter = p.counter := congrArg TempName.counter he
      omega
    rw [World.answered_temps, Function.update_of_ne hne, ht]
    exact h.temps counter (by omega)

/-- Another process that starts then loads what was saved, and is idle. -/
theorem idle_joined {f : Fingerprint} {n : UInt64} {text : Text}
    (hsaved : Saved formats (some text) (m.map.insert f n)) {t' : CallId} (ht : t'.pid ≠ t.pid)
    (hfree : ∀ counter, w.temps ⟨t'.pid, counter⟩ = none) :
    Idle formats t' ⟨0, some (.new (m.map.insert f n)), none⟩ (.new (m.map.insert f n))
      ((w.answered t p m f n text).setProc t'.pid
        (some ⟨0, some (.new (m.map.insert f n)), none⟩)) where
  proc := Function.update_self ..
  guard := rfl
  verifier := rfl
  healthy := rfl
  fileLock := World.answered_fileLock ..
  file := Or.inr <| by
    show Saved formats (w.answered t p m f n text).file (m.map.insert f n)
    rw [World.answered_file]
    exact hsaved
  temps := by
    intro counter _
    have hne : (⟨t'.pid, counter⟩ : TempName) ≠ ⟨t.pid, p.counter⟩ :=
      fun he => ht (congrArg TempName.pid he)
    show (w.answered t p m f n text).temps _ = none
    rw [World.answered_temps, Function.update_of_ne hne]
    exact hfree counter

variable (hz) in
/-- A call that arrives is served alone to its end and answered valid. -/
theorem steps_verify {payload : VerifyRequest} {claims : VeriClaims} {doc : AttestationDoc}
    {order : MemberOrder} {text : Text} (hcond : ∀ w w', w'.commits = w.commits → cond w w')
    (hpresent : Presentable formats env (config.state t.pid) payload claims doc)
    (hidle : Idle formats t p m w) (hfresh : Verifier.SequenceFresh env claims doc m.map)
    (horder : order.toFinmap =
      encodeMembers (m.map.insert (computeIdentityFingerprint env doc) claims.sequenceNum))
    (htext : formats.toVecPretty order = .ok text)
    (hrename : ∀ w : World Text, w.base t = w.version →
      cond w (w.replace t ⟨t.pid, p.counter⟩ text))
    (threads : CallId → Option (Thread Request Response (Res Text))) (started : List CallId)
    (ht : t ∉ started) (answers : List (CallId × Request × Response)) :
    ∃ result, result.valid = true ∧ ((service formats env hz config).under cond).Steps
      ⟨w, threads, started, answers⟩
      ⟨w.answered t p m (computeIdentityFingerprint env doc) claims.sequenceNum text,
        Function.update threads t none, started ++ [t],
        answers ++ [(t, .verify payload, .verified (.ok result))]⟩ := by
  obtain ⟨result, hvalid, hruns⟩ := runs_verify hz hcond hpresent hidle hfresh horder htext rfl rfl
    (hrename _ (World.prepared_base ..))
  have hstart : ((service formats env hz config).under cond).start t (.verify payload) w w :=
    ⟨⟨by rw [hidle.proc]; exact Option.some_ne_none p, rfl⟩, hcond _ _ rfl⟩
  exact ⟨result, hvalid, hruns.answered hstart threads ht answers⟩

/-- The world after the call was dropped at the replacement of the state file. -/
def World.droppedAt (w : World Text) (t : CallId) (p : Process) (m : ReplayMutex) (f : Fingerprint)
    (n : UInt64) (text : Text) : World Text :=
  ((w.prepared t p m f n text).dropLock t).dropGuard t

variable (hz) in
/-- A call that arrives comes to its rename and is dropped there; the rename goes on. -/
theorem steps_dropped {payload : VerifyRequest} {claims : VeriClaims} {doc : AttestationDoc}
    {order : MemberOrder} {text : Text} (hcond : ∀ w w', w'.commits = w.commits → cond w w')
    (hdrops : hz.drops = true)
    (hpresent : Presentable formats env (config.state t.pid) payload claims doc)
    (hidle : Idle formats t p m w) (hfresh : Verifier.SequenceFresh env claims doc m.map)
    (horder : order.toFinmap =
      encodeMembers (m.map.insert (computeIdentityFingerprint env doc) claims.sequenceNum))
    (htext : formats.toVecPretty order = .ok text)
    (threads : CallId → Option (Thread Request Response (Res Text))) (started : List CallId)
    (ht : t ∉ started) (answers : List (CallId × Request × Response)) :
    ((service formats env hz config).under cond).Steps ⟨w, threads, started, answers⟩
      ⟨w.droppedAt t p m (computeIdentityFingerprint env doc) claims.sequenceNum text,
        Function.update threads t
          (some (.detached (leftover (.renameTemporary ⟨t.pid, p.counter⟩)))),
        started ++ [t], answers⟩ := by
  obtain ⟨_, _, k, hk, _⟩ := passes_verify hz hcond hpresent hidle hfresh horder htext w
  have hstart : ((service formats env hz config).under cond).start t (.verify payload) w w :=
    ⟨⟨by rw [hidle.proc]; exact Option.some_ne_none p, rfl⟩, hcond _ _ rfl⟩
  have habandon : ((service formats env hz config).under cond).abandon t
      (.renameTemporary ⟨t.pid, p.counter⟩) true
      (w.prepared t p m (computeIdentityFingerprint env doc) claims.sequenceNum text)
      (w.droppedAt t p m (computeIdentityFingerprint env doc) claims.sequenceNum text) :=
    ⟨⟨hdrops, trivial, fun _ => trivial, rfl⟩, hcond _ _ (by simp [World.droppedAt])⟩
  exact (hk.arrives hstart threads ht answers).tail (Step.abandoned habandon threads _ answers)

end Handler

end Veriai.Service
