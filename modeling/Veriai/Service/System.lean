import Veriai.Core.Protocol
import Veriai.Service.Handlers

/-!
# The service as a machine

Any number of processes serve calls on one state path. A process starts by
loading the state file; it may crash, which releases its locks and ends its
calls. A dropped call releases its locks as well, while an operation it has
already handed to the blocking pool goes on: a file operation takes effect, and
an attempt to lock the file still takes the lock, to give it back at once.
-/

namespace Veriai.Service

variable {Text : Type} (formats : Formats Text) (env : Primitives) (hz : Hazards)

/-- What the processes are configured with: their `AppState`, and `STATEFUL_VERIFICATION`. -/
structure Config where
  state : Nat → AppState
  statefulVerification : Nat → Bool

variable (config : Config)

inductive Request where
  | verify (payload : VerifyRequest)
  | challenge

inductive Response where
  | verified (answer : Except ApiError VerificationResult)
  | challenged (answer : Except ApiError ChallengeResponse)

/-- What serves a request. -/
def program (t : CallId) : Request → Prog (Res Text) Response
  | .verify payload =>
    (verifyHandler formats env (config.state t.pid) t.pid payload).run >>= fun answer =>
      .ret (.verified answer)
  | .challenge =>
    (challengeHandler (config.state t.pid)).run >>= fun answer => .ret (.challenged answer)

/-- A replay state the text of a state file can be loaded as. -/
def Loads (text : Text) (state : ReplayMap) : Prop :=
  ∃ order : MemberOrder, formats.fromSlice text = .ok order.toFinmap ∧
    collectReplayMap formats order = .ok state

/-- The replay state `main` gives its verifier, if it gets that far. -/
def Boots (pid : Nat) (file : Option Text) (replay : Option ReplayMutex) : Prop :=
  match (config.state pid).replayStatePath with
  | none => replay = if config.statefulVerification pid then some (.new ∅) else none
  | some _ => ∃ state, replay = some (.new state) ∧
      (file = none ∧ state = ∅ ∨ ∃ text, file = some text ∧ Loads formats text state)

/-- The process is gone, and with it its locks and its memory. -/
def World.crash (w : World Text) (pid : Nat) : World Text :=
  { w.setProc pid none with
    fileLock := w.fileLock.filter fun t => t.pid ≠ pid
    slots := fun name => if name.pid = pid then none else w.slots name }

/-- What happens to processes. -/
inductive Ambient : (CallId → Bool) → World Text → World Text → Prop
  | boot {w : World Text} {pid : Nat} {replay : Option ReplayMutex} : w.procs pid = none →
      Boots formats config pid w.file replay →
      Ambient (fun _ => false) w (w.setProc pid (some ⟨0, replay, none⟩))
  | crash {w : World Text} {pid : Nat} : hz.crashes = true → w.procs pid ≠ none →
      Ambient (fun t => t.pid == pid) w (w.crash pid)

/-- The verifier service. -/
def service : Machine CallId Request Response (World Text) (Res Text) where
  exec := exec env hz
  program := program formats env config
  start t _ w w' := w.procs t.pid ≠ none ∧ w' = w
  abandon t o goesOn w w' := hz.drops = true ∧ Awaits o ∧ (goesOn = true → UsesPool o) ∧
    w' = (w.dropLock t).dropGuard t
  leftover := leftover
  ambient := Ambient formats hz config

/-- What goes on of a dropped call is in order when its operation stays permitted. -/
theorem wp_leftover {C : Contract CallId (World Text) (Op Text)}
    {M : Machine CallId Request Response (World Text) (Res Text)} {t : CallId} {o : Op Text}
    {w : World Text} (hpermit : ∀ w₁, C.inv w₁ → C.rely t w w₁ → C.permit t o w₁)
    (hdrop : ∀ w₁, C.inv w₁ → C.permit t .dropReplayLock w₁) :
    C.wp M t (leftover o) (fun _ _ => True) w := by
  cases o with
  | acquireReplayLock =>
    intro w₁ hw₁ hrely
    refine ⟨hpermit w₁ hw₁ hrely, ?_⟩
    intro r w₂ _ _
    cases r with
    | ok u => exact fun w₃ hw₃ _ => ⟨hdrop w₃ hw₃, fun _ _ _ _ => trivial⟩
    | error e => trivial
  | _ => exact fun w₁ hw₁ hrely => ⟨hpermit w₁ hw₁ hrely, fun _ _ _ _ => trivial⟩

/-- No process runs and nothing is recorded; there may be files from earlier times. -/
structure World.AtRest (w : World Text) : Prop where
  procs : ∀ pid, w.procs pid = none
  fileLock : w.fileLock = none
  version : w.version = 0
  base : ∀ t, w.base t = 0
  slots : ∀ name, w.slots name = none
  commits : w.commits = []

/-- At rest with the given state file, no other files and no challenge. -/
def World.initial (file : Option Text) : World Text where
  procs _ := none
  fileLock := none
  file := file
  temps _ := none
  available _ := false
  reserved _ := false
  record _ := []
  version := 0
  base _ := 0
  pending _ := none
  slots _ := none
  commits := []
  issued _ := none
  clock _ := none
  reservations := []
  consumed _ := none

theorem World.atRest_initial (file : Option Text) : (World.initial file).AtRest :=
  ⟨fun _ => rfl, rfl, rfl, fun _ => rfl, fun _ => rfl, rfl⟩

/-- Every name drawn has a number that its process, which is running, has left behind. -/
def World.NamesDrawn (w : World Text) : Prop :=
  ∀ name t, w.slots name = some t → name.pid = t.pid ∧
    ∃ p, w.procs name.pid = some p ∧ name.counter < p.counter

section Names

variable {w : World Text} {pid : Nat}

/-- The next number of a process was not drawn before. -/
theorem World.NamesDrawn.next_free (hw : w.NamesDrawn) {p : Process} (hp : w.procs pid = some p) :
    w.slots ⟨pid, p.counter⟩ = none := by
  cases hslot : w.slots ⟨pid, p.counter⟩ with
  | none => rfl
  | some t =>
    obtain ⟨_, q, hq, hlt⟩ := hw _ t hslot
    obtain rfl := Option.some.inj (hp.symm.trans hq)
    exact (lt_irrefl _ hlt).elim

theorem World.NamesDrawn.setProc (hw : w.NamesDrawn) {p p' : Process} (hp : w.procs pid = some p)
    (hcounter : p.counter ≤ p'.counter) : (w.setProc pid (some p')).NamesDrawn := by
  intro name t hs
  obtain ⟨hname, q, hq, hlt⟩ := hw name t hs
  refine ⟨hname, ?_⟩
  by_cases hpid : name.pid = pid
  · rw [hpid, hp] at hq
    obtain rfl := Option.some.inj hq
    exact ⟨p', by rw [hpid]; exact Function.update_self .., by omega⟩
  · exact ⟨q, (Function.update_of_ne hpid _ _).trans hq, hlt⟩

/-- The names drawn for a process that crashes are given up with it. -/
theorem World.NamesDrawn.crash (hw : w.NamesDrawn) (pid : Nat) : (w.crash pid).NamesDrawn := by
  intro name t hs
  by_cases hname : name.pid = pid
  · simp [World.crash, hname] at hs
  · obtain ⟨hpid, p, hp, hlt⟩ := hw name t (by simpa [World.crash, hname] using hs)
    exact ⟨hpid, p, (Function.update_of_ne hname _ _).trans hp, hlt⟩

theorem World.NamesDrawn.boot (hw : w.NamesDrawn) (hfree : w.procs pid = none) (p : Process) :
    (w.setProc pid (some p)).NamesDrawn := by
  intro name t hs
  obtain ⟨hpid, q, hq, hlt⟩ := hw name t hs
  have hname : name.pid ≠ pid := by
    rintro rfl
    rw [hfree] at hq
    cases hq
  exact ⟨hpid, q, (Function.update_of_ne hname _ _).trans hq, hlt⟩

/-- A crash leaves the names of the other processes. -/
theorem World.NamesDrawn.slots_crash (hw : w.NamesDrawn) {t : CallId} (ht : t.pid ≠ pid)
    {name : TempName} (hs : w.slots name = some t) : (w.crash pid).slots name = some t := by
  have hname : name.pid ≠ pid := (hw name t hs).1 ▸ ht
  simpa [World.crash, hname] using hs

end Names

end Veriai.Service
