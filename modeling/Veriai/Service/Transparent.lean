import Veriai.Receipt.Generate
import Veriai.Receipt.Tolerance
import Veriai.Service.Replay
import Veriai.Service.Solo

/-!
# A transparent instance of the service

The members of a state file stand for its text. All processes share one state
path, and the requests present the receipts of the transparent generator with
key byte 7.
-/

namespace Veriai.Service.Transparent

open Veriai.Transparent

/-- Texts that are member lists. -/
def formats : Formats MemberOrder where
  base64Decode _ := .error "invalid"
  debugHexError _ := "invalid"
  debugVerifyError e := e.toString
  fromSlice order := .ok order.toFinmap
  toVecPretty order := .ok order

theorem lawful : formats.Lawful where
  roundTrip order text h := by
    obtain rfl := Except.ok.inj h
    rfl

def path : StatePath := ⟨some "replay.json"⟩

/-- The state of every process; challenges are not required. -/
def state : AppState where
  expectedPcr0 := List.replicate 48 0
  verifier := verifier
  replayStatePath := some path
  requireIssuedChallenge := false

def config : Config := ⟨fun _ => state, fun _ => true⟩

/-- Every process requires issued challenges. -/
def issuedState : AppState := { state with requireIssuedChallenge := true }

def issuedConfig : Config := ⟨fun _ => issuedState, fun _ => true⟩

/-- The nonce of the transparent requests. -/
def issuedNonce : ByteArr 32 := fill 32 4

/-- Files may fail and processes may crash. -/
def faulty : Hazards := ⟨true, true, false⟩

/-- The request that presents receipt number `seq`. -/
def payload (seq : UInt8) : VerifyRequest where
  receipt := hexEncode [1, seq, 7]
  modelHash := hexEncode (fill 32 1).toList
  inputHash := hexEncode (fill 32 2).toList
  outputHash := hexEncode (fill 32 3).toList
  nonce := hexEncode (fill 32 4).toList

theorem decodeRequest_payload (seq : UInt8) :
    decodeRequest formats state (payload seq) = .ok ([1, seq, 7], expected) := by
  simp only [decodeRequest, payload, decodeReceipt_hexEncode, decodeParameter_hexEncode]
  rfl

theorem docSec_doc (key : UInt8) : Verifier.docSec (doc key) = 0 := by
  show ((0 : UInt64) / 1000).toInt64 = 0
  decide

/-- At the epoch the transparent times agree. -/
theorem timestampsPass (seq key : UInt8) :
    Verifier.TimestampsPass verifier.config epoch (claims seq key) (doc key) := by
  refine ⟨0, rfl, ?_, ⟨0, by rfl, by decide⟩, ?_⟩
  · rw [Verifier.SkewPasses, docSec_doc]
    exact ⟨0, by decide, by decide⟩
  · rw [Verifier.AlignmentPasses, docSec_doc]
    exact ⟨0, by rfl, by decide⟩

/-- Every transparent receipt passes the inspection. -/
theorem inspected (seq key : UInt8) :
    Verifier.Inspected primitives verifier epoch [1, seq, key] expected
      (receipt (some []) [seq, key]) (claims seq key) (doc key) :=
  Verifier.inspected_iff.mpr ⟨passesOtherChecks rfl, timestampsPass seq key⟩

theorem presentable (pid : Nat) (seq : UInt8) :
    Presentable formats primitives (config.state pid) (payload seq) (claims seq 7) (doc 7) where
  decodes := ⟨_, _, provider, epoch, _, decodeRequest_payload seq, inspected seq 7⟩
  path := ⟨_, _, rfl, rfl⟩
  issued := rfl

/-- The process a call finds when the first process has just started. -/
def process : Process := ⟨0, some (.new ∅), none⟩

/-- The first call of process 0. -/
def caller : CallId := ⟨0, 0⟩

/-- Process 0 has started and there is no state file. -/
def booted : World MemberOrder := (World.initial none).setProc 0 (some process)

/-- The first step of the runs considered. -/
theorem boots (hz : Hazards) {cond : World MemberOrder → World MemberOrder → Prop}
    (hcond : cond (World.initial none) booted) :
    ((service formats primitives hz config).under cond).Step
      (Machine.initial (World.initial none)) ⟨booted, fun _ => none, [], []⟩ := by
  have hboot : Ambient formats hz config (fun _ => false) (World.initial none) booted :=
    .boot rfl ⟨∅, rfl, Or.inl ⟨rfl, rfl⟩⟩
  exact Machine.Step.ambient (M := (service formats primitives hz config).under cond)
    (s := Machine.initial (World.initial none)) ⟨hboot, hcond⟩

/-- The process that was just started is idle. -/
theorem idle_booted (number : Nat) : Idle formats ⟨0, number⟩ process (.new ∅) booted :=
  ⟨rfl, rfl, rfl, rfl, rfl, Or.inl rfl, fun _ _ => rfl⟩

/-- Nothing has been accepted yet. -/
theorem fresh_empty (seq key : UInt8) :
    Verifier.SequenceFresh primitives (claims seq key) (doc key) (∅ : ReplayMap) := by
  intro last hlast
  cases hlast

/-- The ledger after number 1 was accepted. -/
def ledgerOne : ReplayMap := (∅ : ReplayMap).insert (fill 32 0) 1

/-- The ledger after number 2 was accepted as well. -/
def ledgerTwo : ReplayMap := ledgerOne.insert (fill 32 0) 2

/-- Number 2 is above number 1. -/
theorem fresh_second : Verifier.SequenceFresh primitives (claims 2 7) (doc 7) ledgerOne := by
  intro last hlast
  have hone : ledgerOne.lookup (fill 32 0) = some 1 := Finmap.lookup_insert _
  obtain rfl := Option.some.inj (hone.symm.trans hlast)
  decide

/-- Process 0 has accepted number 1 and saved it. -/
def first (text : MemberOrder) : World MemberOrder :=
  booted.answered ⟨0, 0⟩ process (.new ∅) (fill 32 0) 1 text

/-- The process that has loaded number 1. -/
def processOne : Process := ⟨0, some (.new ledgerOne), none⟩

/-- Process 1 has started, too. -/
def joined (text : MemberOrder) : World MemberOrder := (first text).setProc 1 (some processOne)

/-- Process 1 has accepted number 2 and saved it. -/
def second (text text' : MemberOrder) : World MemberOrder :=
  (joined text).answered ⟨1, 0⟩ processOne (.new ledgerOne) (fill 32 0) 2 text'

section Two

variable (hz : Hazards) {cond : World MemberOrder → World MemberOrder → Prop}
variable {text text' : MemberOrder}

/-- The call to process 0 is answered valid. -/
theorem steps_first (hcond : ∀ w w' : World MemberOrder, w'.commits = w.commits → cond w w')
    (hrename : ∀ (w : World MemberOrder) t name text, w.base t = w.version →
      cond w (w.replace t name text))
    (htext : text.toFinmap = encodeMembers ledgerOne)
    (threads : CallId → Option (Thread Request Response (Res MemberOrder))) :
    ∃ result, result.valid = true ∧ ((service formats primitives hz config).under cond).Steps
      ⟨booted, threads, [], []⟩ ⟨first text, Function.update threads ⟨0, 0⟩ none, [⟨0, 0⟩],
        [(⟨0, 0⟩, .verify (payload 1), .verified (.ok result))]⟩ :=
  steps_verify hz hcond (presentable 0 1) (idle_booted 0) (fresh_empty 1 7) htext rfl
    (fun w => hrename w _ _ _) threads [] List.not_mem_nil []

/-- Process 1 starts and loads what process 0 has saved. -/
theorem steps_joined (hcond : ∀ w w' : World MemberOrder, w'.commits = w.commits → cond w w')
    (htext : text.toFinmap = encodeMembers ledgerOne)
    (threads : CallId → Option (Thread Request Response (Res MemberOrder)))
    (started : List CallId) (answers : List (CallId × Request × Response)) :
    ((service formats primitives hz config).under cond).Step
      ⟨first text, threads, started, answers⟩ ⟨joined text, threads, started, answers⟩ := by
  have hloads : Loads formats text ledgerOne := ⟨text, rfl, collectReplayMap_encodeMembers htext⟩
  have hfile : (first text).file = some text := World.answered_file ..
  have hboot : Ambient formats hz config (fun _ => false) (first text) (joined text) :=
    .boot rfl ⟨ledgerOne, rfl, Or.inr ⟨text, hfile, hloads⟩⟩
  exact Machine.Step.ambient (M := (service formats primitives hz config).under cond)
    (s := ⟨first text, threads, started, answers⟩) ⟨hboot, hcond _ _ rfl⟩

omit hz in
/-- The process that joined is idle. -/
theorem idle_joined_one (htext : text.toFinmap = encodeMembers ledgerOne) (number : Nat) :
    Idle formats ⟨1, number⟩ processOne (.new ledgerOne) (joined text) := by
  have hsaved : Saved formats (some text) ((ReplayMutex.new ∅).map.insert (fill 32 0) 1) :=
    congrArg Except.ok htext
  exact idle_joined hsaved Nat.one_ne_zero fun _ => rfl

/-- The call to process 1 is answered valid. -/
theorem steps_second (hcond : ∀ w w' : World MemberOrder, w'.commits = w.commits → cond w w')
    (hrename : ∀ (w : World MemberOrder) t name text, w.base t = w.version →
      cond w (w.replace t name text))
    (htext : text.toFinmap = encodeMembers ledgerOne)
    (htext' : text'.toFinmap = encodeMembers ledgerTwo)
    (threads : CallId → Option (Thread Request Response (Res MemberOrder)))
    (answers : List (CallId × Request × Response)) :
    ∃ result, result.valid = true ∧ ((service formats primitives hz config).under cond).Steps
      ⟨joined text, threads, [⟨0, 0⟩], answers⟩
      ⟨second text text', Function.update threads ⟨1, 0⟩ none, [⟨0, 0⟩, ⟨1, 0⟩],
        answers ++ [(⟨1, 0⟩, .verify (payload 2), .verified (.ok result))]⟩ :=
  steps_verify hz hcond (presentable 1 2) (idle_joined_one htext 0) fresh_second htext' rfl
    (fun w => hrename w _ _ _) threads [⟨0, 0⟩] (by decide) answers

/-- Two processes answer two calls, the second one on what the first one has saved. -/
theorem reaches_second (hcond : ∀ w w' : World MemberOrder, w'.commits = w.commits → cond w w')
    (hrename : ∀ (w : World MemberOrder) t name text, w.base t = w.version →
      cond w (w.replace t name text)) :
    ∃ text text' result result', text.toFinmap = encodeMembers ledgerOne ∧
      text'.toFinmap = encodeMembers ledgerTwo ∧ result.valid = true ∧ result'.valid = true ∧
      ((service formats primitives hz config).under cond).Reachable (World.initial none)
        ⟨second text text', fun _ => none, [⟨0, 0⟩, ⟨1, 0⟩],
          [(⟨0, 0⟩, .verify (payload 1), .verified (.ok result)),
            (⟨1, 0⟩, .verify (payload 2), .verified (.ok result'))]⟩ := by
  obtain ⟨text, htext⟩ := exists_order (encodeMembers ledgerOne)
  obtain ⟨text', htext'⟩ := exists_order (encodeMembers ledgerTwo)
  obtain ⟨result, hvalid, hfirst⟩ := steps_first hz hcond hrename htext fun _ => none
  obtain ⟨result', hvalid', hsecond⟩ := steps_second hz hcond hrename htext htext'
    (fun _ => none) [(⟨0, 0⟩, .verify (payload 1), .verified (.ok result))]
  have hidle (t : CallId) : Function.update (fun _ => none) t none =
      (fun _ => none : CallId → Option (Thread Request Response (Res MemberOrder))) :=
    Function.update_eq_self t _
  rw [hidle] at hfirst hsecond
  refine ⟨text, text', result, result', htext, htext', hvalid, hvalid', ?_⟩
  exact ((hfirst.head (boots hz (hcond _ _ rfl))).tail (steps_joined hz hcond htext _ _ _)).trans
    hsecond

end Two

end Veriai.Service.Transparent
