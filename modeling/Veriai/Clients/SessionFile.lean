import Mathlib.Data.List.TakeDrop
import Veriai.Clients.Session
import Veriai.Core.Alone
import Veriai.Core.Protocol
import Veriai.Receipt.Restart

/-!
# Command line runs that share a session file

`veriai verify --stateful` reads the session file, verifies and reports, and then
rewrites the file in place, piece by piece. Nothing keeps runs apart: each file
operation is a step of its own, and may fail.
-/

namespace Veriai.Session

open Cli (Surroundings VerifyArgs)
open Service (Members MemberOrder)

/-- What `serde_json` reads from a session file and writes to it. The pieces of a file are its
bytes, or whatever is written at once. -/
structure SessionFormat (Piece : Type) where
  /-- `serde_json::from_reader`; an error is its display text. -/
  fromReader : List Piece → Except String Members
  /-- What `serde_json::to_writer_pretty` writes for the members in this order. -/
  toWriterPretty : MemberOrder → List Piece
  /-- What a hole in a file reads as. -/
  hole : Piece

/-- What is written reads as the members it was written for. -/
structure SessionFormat.Lawful {Piece : Type} (format : SessionFormat Piece) : Prop where
  roundTrip : ∀ order, format.fromReader (format.toWriterPretty order) = .ok order.toFinmap

/-- A run of the command. -/
abbrev RunId := Nat

/-- What a run is given, apart from the session file. -/
structure Inputs where
  surroundings : Surroundings
  provider : AttestationProvider
  now : SystemTime
  args : VerifyArgs

/-- One step of a run. -/
inductive FileOp (Piece : Type) where
  | pathExists
  /-- `File::open`, and what there is to read. -/
  | read
  /-- Iterate over a `HashMap`. -/
  | intoIter (members : Members)
  /-- Print the checks and the result. -/
  | report (result : VerificationResult)
  /-- `File::create`. -/
  | create
  | write (piece : Piece)
  /-- The process ends. -/
  | exit

/-- The result of a step; file errors are display texts. -/
@[reducible] def FileRes (Piece : Type) : FileOp Piece → Type
  | .pathExists => Bool
  | .read => Except String (List Piece)
  | .intoIter _ => MemberOrder
  | .report _ | .exit => Unit
  | .create | .write _ => Except String Unit

/-- A save that has failed: the file before the save, and the file it leaves. -/
structure Failure (Piece : Type) where
  run : RunId
  before : Option (List Piece)
  after : Option (List Piece)

/-- The session file and the runs. The last three fields record the past and steer nothing. -/
structure Shared (Piece : Type) where
  file : Option (List Piece)
  /-- Where the handle of a run writes next. -/
  offset : RunId → Nat
  /-- The run has looked for the session file and has not ended. -/
  underWay : RunId → Bool
  /-- The file before the save of a run. -/
  before : RunId → Option (List Piece)
  /-- The runs that have reported `VERIFIED`, in order. -/
  verified : List RunId
  failures : List (Failure Piece)

namespace Shared

variable {Piece : Type}

/-- No run yet. -/
def initial (file : Option (List Piece)) : Shared Piece where
  file := file
  offset _ := 0
  underWay _ := false
  before _ := none
  verified := []
  failures := []

def setUnderWay (w : Shared Piece) (t : RunId) (b : Bool) : Shared Piece :=
  { w with underWay := Function.update w.underWay t b }

@[simp] theorem setUnderWay_self (w : Shared Piece) (t : RunId) (b : Bool) :
    (w.setUnderWay t b).underWay t = b := Function.update_self _ _ _

theorem setUnderWay_of_ne (w : Shared Piece) {t t' : RunId} (b : Bool) (h : t' ≠ t) :
    (w.setUnderWay t b).underWay t' = w.underWay t' := Function.update_of_ne h _ _

/-- The file is truncated, or created empty. -/
def truncate (w : Shared Piece) (t : RunId) : Shared Piece :=
  { w with
    file := some []
    offset := Function.update w.offset t 0
    before := Function.update w.before t w.file }

/-- One piece written through the handle of the run; a hole in front of it is filled. -/
def put (w : Shared Piece) (t : RunId) (hole piece : Piece) : Shared Piece :=
  { w with
    file := some ((w.file.getD []).takeD (w.offset t) hole ++
      piece :: (w.file.getD []).drop (w.offset t + 1))
    offset := Function.update w.offset t (w.offset t + 1) }

def reported (w : Shared Piece) (t : RunId) : Shared Piece :=
  { w with verified := w.verified ++ [t] }

/-- The save of the run, begun with the file as it was before, has failed. -/
def failSave (w : Shared Piece) (t : RunId) (before : Option (List Piece)) : Shared Piece :=
  { w with failures := w.failures ++ [⟨t, before, w.file⟩] }

end Shared

section Model

variable {Piece : Type} (format : SessionFormat Piece)

/-- Run `t` takes a step with this result. -/
def exec (t : RunId) :
    (o : FileOp Piece) → FileRes Piece o → Shared Piece → Shared Piece → Prop
  | .pathExists, r, w, w' => r = w.file.isSome ∧ w' = w.setUnderWay t true
  | .read, r, w, w' => ((∃ pieces, w.file = some pieces ∧ r = .ok pieces) ∨ ∃ e, r = .error e) ∧
      w' = w
  | .intoIter members, r, w, w' => r.toFinmap = members ∧ w' = w
  | .report result, _, w, w' => w' = if result.valid then w.reported t else w
  | .create, r, w, w' => r = .ok () ∧ w' = w.truncate t ∨
      (∃ e, r = .error e) ∧ w' = w.failSave t w.file
  | .write piece, r, w, w' => r = .ok () ∧ w' = w.put t format.hole piece ∨
      (∃ e, r = .error e) ∧ w' = w.failSave t (w.before t)
  | .exit, _, w, w' => w' = w.setUnderWay t false

/-- A part of the command that returns `Result<α, ε>`. -/
abbrev CliM (Piece ε α : Type) := Handler (FileRes Piece) ε α

open Handler (ensure)

def perform {ε : Type} (o : FileOp Piece) : CliM Piece ε (FileRes Piece o) := Handler.call o

/-- What the run finds in the place of the session file: the members, if there is a file. -/
def loadSession {ε : Type} : CliM Piece ε (Option (Except String MemberOrder)) := do
  if ← perform .pathExists then
    match ← perform .read with
    | .error e => return some (.error e)
    | .ok pieces =>
      match format.fromReader pieces with
      | .error e => return some (.error e)
      | .ok members => do
        let order ← perform (.intoIter members)
        return some (.ok order)
  else return none

/-- The surroundings with what was found. -/
def Inputs.finding (inputs : Inputs) (found : Option (Except String MemberOrder)) : Surroundings :=
  { inputs.surroundings with
    pathExists := fun _ => found.isSome
    readSession := fun _ => found.getD (.error "no session file") }

/-- Write the pieces one after another. -/
def writeAll : List Piece → CliM Piece String Unit
  | [] => return ()
  | piece :: rest => do
    ensure (← perform (.write piece))
    writeAll rest

/-- `File::create` and `serde_json::to_writer_pretty`. -/
def saveSession (members : Members) : CliM Piece String Unit := do
  let order ← perform (.intoIter members)
  ensure (← perform .create)
  writeAll (format.toWriterPretty order)

variable (codec : PemCodec) (env : Primitives)

/-- Verify with what was found, report, and save. -/
def conclude (inputs : Inputs) (found : Option (Except String MemberOrder)) :
    CliM Piece String Unit := do
  let outcome ← ensure (Cli.verify codec env (inputs.finding found) inputs.provider inputs.now
    inputs.args)
  perform (.report outcome.result)
  match outcome.session with
  | some (_, members) => saveSession format members
  | none => return ()

/-- `Commands::Verify` with its effects on the session file. -/
def verifyStateful (inputs : Inputs) : CliM Piece String Unit := do
  let found ← loadSession format
  conclude format codec env inputs found

/-- The process ends, with this outcome. -/
def exiting (x : Except String Unit) : Prog (FileRes Piece) (Except String Unit) :=
  .op .exit fun _ => .ret x

/-- The process of a run. -/
def main (inputs : Inputs) : Prog (FileRes Piece) (Except String Unit) :=
  (verifyStateful format codec env inputs).run >>= exiting

/-- Any number of runs. -/
def runs (inputs : RunId → Inputs) :
    Machine RunId Unit (Except String Unit) (Shared Piece) (FileRes Piece) where
  exec := exec format
  program t _ := main format codec env (inputs t)
  start t _ w w' := w.underWay t = false ∧ w' = w
  abandon _ _ _ _ _ := False
  ambient _ _ _ := False

/-- A run looks for the session file only while no other is under way. -/
def Exclusive (w w' : Shared Piece) : Prop :=
  ∀ t, w'.underWay t = true → w.underWay t = true ∨ ∀ t', w.underWay t' = false

/-- No save fails once the file is truncated. -/
def Untorn : (o : FileOp Piece) → FileRes Piece o → Prop
  | .write _, r => r.isOk = true
  | _, _ => True

/-- The runs in which both hold. -/
def carefulRuns (inputs : RunId → Inputs) :
    Machine RunId Unit (Except String Unit) (Shared Piece) (FileRes Piece) :=
  ((runs format codec env inputs).obeying Untorn).under Exclusive

end Model

end Veriai.Session
