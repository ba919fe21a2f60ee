import Veriai.Chat.Handler
import Veriai.Receipt.Shared

/-!
# Calls of the chat handler under concurrency

Any number of handler calls share one application: its inference slots, its
generator and its stateful inline verifier. A call holds a slot while it awaits
the runtime and the generation lock while it awaits the provider; between the
number it was given and the check of that number it holds nothing.
-/

namespace Veriai.Chat

open Verifier

/-- Where a call of the handler is. -/
inductive ChatStage where
  /-- It holds an inference slot and awaits the runtime. -/
  | inferring (canonicalInput : Bytes) (clientNonce : ByteArr 32)
  /-- It is inside `generate_receipt`. -/
  | generating (work : Work)
  | generated (work : Work) (receiptBytes : Bytes)
  /-- The inline verifier has inspected the receipt; only its locked section is left. -/
  | inspected (work : Work) (receiptBytes : Bytes) (claims : VeriClaims) (doc : AttestationDoc)
      (report : Report)

/-- The shared application state with the calls under way, what happened in the generator, the
identities and numbers checked, the calls dropped and the answers given, each in its order. -/
structure ChatState where
  slots : Nat
  generator : SharedGenerator
  replay : ReplayMutex
  calls : Nat → Option ChatStage := fun _ => none
  started : List Nat := []
  events : List GenerationEvent := []
  checked : List (Nat × Fingerprint × UInt64) := []
  dropped : List Nat := []
  answers : List (Nat × Answer) := []

/-- What happens to a call. -/
inductive ChatEvent where
  | arrived (t : Nat) (call : ChatCall)
  /-- The runtime has answered. -/
  | inferred (t : Nat) (result : Except String InferenceResult)
  /-- Something happens inside `generate_receipt`. -/
  | generation (event : GenerationEvent)
  | inspected (t : Nat) (now : SystemTime)
  | checked (t : Nat)
  | dropped (t : Nat)

/-- How `generate_receipt` ends, if it does. -/
def outcome? : GenerationEvent → Option (Except VerifyError Bytes)
  | .unattested _ error => some (.error error)
  | .exhausted _ => some (.error .sequenceNumberExhausted)
  | .returned _ _ result => some result
  | _ => none

/-- The event neither begins nor drops a call of `generate_receipt`. -/
def Inside : GenerationEvent → Prop
  | .called _ _ | .dropped _ => False
  | _ => True

namespace ChatState

/-- The call goes on to a stage. -/
def move (s : ChatState) (t : Nat) (stage : ChatStage) : ChatState :=
  { s with calls := Function.update s.calls t (some stage) }

/-- The call ends with an answer. -/
def answer (s : ChatState) (t : Nat) (answer : Answer) : ChatState :=
  { s with calls := Function.update s.calls t none, answers := s.answers ++ [(t, answer)] }

/-- The call ends without an answer: its future is dropped. -/
def drop (s : ChatState) (t : Nat) : ChatState :=
  { s with calls := Function.update s.calls t none, dropped := s.dropped ++ [t] }

/-- The generator takes a step. -/
def generate (s : ChatState) (event : GenerationEvent) (generator : SharedGenerator) : ChatState :=
  { s with generator, events := s.events ++ [event] }

end ChatState

variable (env : Primitives) (app : App)

/-- One step of one call of `chat_completions_handler`. -/
inductive ChatStep : ChatState → ChatEvent → ChatState → Prop
  | refused {s t call error} : t ∉ s.started → prepare app call = .error error →
      ChatStep s (.arrived t call)
        { s.answer t (.error error) with started := s.started ++ [t] }
  | busy {s t call prepared} : t ∉ s.started → prepare app call = .ok prepared → s.slots = 0 →
      ChatStep s (.arrived t call)
        { s.answer t (.error inferenceBusy) with started := s.started ++ [t] }
  | admitted {s t call request canonicalInput clientNonce slots} : t ∉ s.started →
      prepare app call = .ok (request, canonicalInput, clientNonce) → s.slots = slots + 1 →
      ChatStep s (.arrived t call)
        { s.move t (.inferring canonicalInput clientNonce) with
          slots, started := s.started ++ [t] }
  | inferenceFailed {s t canonicalInput clientNonce error} :
      s.calls t = some (.inferring canonicalInput clientNonce) →
      ChatStep s (.inferred t (.error error))
        { s.answer t (.error ⟨500, "inference_error", error⟩) with slots := s.slots + 1 }
  | inferred {s t canonicalInput clientNonce result generator} :
      s.calls t = some (.inferring canonicalInput clientNonce) →
      s.generator.Step env (.called t (work env app canonicalInput clientNonce result).request)
        generator →
      ChatStep s (.inferred t (.ok result))
        { (s.move t (.generating (work env app canonicalInput clientNonce result))).generate
            (.called t (work env app canonicalInput clientNonce result).request) generator with
          slots := s.slots + 1 }
  | generating {s work event generator} : s.calls event.thread = some (.generating work) →
      Inside event → outcome? event = none → s.generator.Step env event generator →
      ChatStep s (.generation event) (s.generate event generator)
  | generationFailed {s work event generator error} :
      s.calls event.thread = some (.generating work) → outcome? event = some (.error error) →
      s.generator.Step env event generator →
      ChatStep s (.generation event)
        ((s.generate event generator).answer event.thread (.error (receiptGenerationError error)))
  | generated {s work event generator receiptBytes v expectedPcr0} :
      s.calls event.thread = some (.generating work) → outcome? event = some (.ok receiptBytes) →
      s.generator.Step env event generator → app.verifier = some v →
      app.expectedPcr0 = some expectedPcr0 →
      ChatStep s (.generation event)
        ((s.generate event generator).move event.thread (.generated work receiptBytes))
  | unverified {s work event generator receiptBytes} (clock : SystemTime) :
      s.calls event.thread = some (.generating work) → outcome? event = some (.ok receiptBytes) →
      s.generator.Step env event generator → app.verifier = none ∨ app.expectedPcr0 = none →
      ChatStep s (.generation event)
        ((s.generate event generator).answer event.thread
          (.ok (response app work receiptBytes none clock)))
  | inspected {s t work receiptBytes v expectedPcr0 now claims doc report} :
      s.calls t = some (.generated work receiptBytes) → app.verifier = some v →
      app.expectedPcr0 = some expectedPcr0 →
      (v.inspect env now receiptBytes (work.request.expected expectedPcr0)).run {} =
        .ok ((claims, doc), report) →
      ChatStep s (.inspected t now) (s.move t (.inspected work receiptBytes claims doc report))
  | inspectionFailed {s t work receiptBytes v expectedPcr0 now exit} (clock : SystemTime) :
      s.calls t = some (.generated work receiptBytes) → app.verifier = some v →
      app.expectedPcr0 = some expectedPcr0 →
      (v.inspect env now receiptBytes (work.request.expected expectedPcr0)).run {} = .error exit →
      ChatStep s (.inspected t now)
        (s.answer t (verifiedAnswer app work receiptBytes clock exit.answer))
  | checked {s t work receiptBytes claims doc report v result replay} (clock : SystemTime) :
      s.calls t = some (.inspected work receiptBytes claims doc report) → app.verifier = some v →
      v.checkSequence env claims doc report (some s.replay) = (result, some replay) →
      ChatStep s (.checked t)
        { s.answer t (verifiedAnswer app work receiptBytes clock result) with
          replay
          checked := s.checked ++ [(t, computeIdentityFingerprint env doc, claims.sequenceNum)] }
  | droppedInferring {s t canonicalInput clientNonce} :
      s.calls t = some (.inferring canonicalInput clientNonce) →
      ChatStep s (.dropped t) { s.drop t with slots := s.slots + 1 }
  | droppedGenerating {s t work generator} : s.calls t = some (.generating work) →
      s.generator.Step env (.dropped t) generator →
      ChatStep s (.dropped t) ((s.generate (.dropped t) generator).drop t)
  | droppedGenerated {s t work receiptBytes} : s.calls t = some (.generated work receiptBytes) →
      ChatStep s (.dropped t) (s.drop t)

/-- The state of a new application whose inline verifier is stateful. -/
def ChatState.initial (signingKey : ByteArr 32) : ChatState where
  slots := app.maxConcurrentInferences
  generator := .fresh signingKey
  replay := .new ∅

/-- The runs of an application whose steps all meet a condition on the state before the step and
the event. -/
inductive ChatRun (signingKey : ByteArr 32) (cond : ChatState → ChatEvent → Prop) :
    ChatState → Prop
  | initial : ChatRun signingKey cond (.initial app signingKey)
  | step {s event s'} : ChatRun signingKey cond s → cond s event → ChatStep env app s event s' →
      ChatRun signingKey cond s'

/-- A call that has started adds nothing to those started. -/
theorem started_of_mem {s : ChatState} {t : Nat} (h : t ∈ s.started) (t' : Nat) :
    t' ∈ s.started ↔ t' ∈ s.started ∨ t' = t := by
  constructor
  · exact Or.inl
  · rintro (hmem | rfl)
    · exact hmem
    · exact h

/-- Those started after a new call has. -/
theorem mem_started_append (s : ChatState) (t t' : Nat) :
    t' ∈ s.started ++ [t] ↔ t' ∈ s.started ∨ t' = t := by
  rw [List.mem_append, List.mem_singleton]

end Veriai.Chat
