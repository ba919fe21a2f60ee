import Mathlib.Data.List.Range
import Veriai.Receipt.Restart

/-!
# A generator shared by concurrent calls

Any number of `generate_receipt` calls share a generator. A call waits for the
generation lock, has the provider attest, allocates a number, and returns with
the receipt it builds; it holds the lock from the first of these to the last.
A call may be dropped at its two await points. A history records the events of
a run.
-/

namespace Veriai

/-- Where a call of `generate_receipt` is. -/
inductive GenerationStage where
  /-- It awaits the generation lock. -/
  | waiting (request : ReceiptRequest)
  /-- It holds the lock and awaits the provider. -/
  | attesting (request : ReceiptRequest)
  | attested (request : ReceiptRequest) (report : Bytes)
  | numbered (request : ReceiptRequest) (report : Bytes) (sequence : UInt64)

/-- The lock is held from the second stage on. -/
def GenerationStage.Locked : GenerationStage → Prop
  | .waiting _ => False
  | _ => True

/-- The number that a call has allocated and not yet returned. -/
def GenerationStage.number? : GenerationStage → Option UInt64
  | .numbered _ _ sequence => some sequence
  | _ => none

/-- A generator shared by calls: its key and counter, the holder of its lock, its calls, and
those made so far. -/
structure SharedGenerator where
  gen : ReceiptGenerator
  holder : Option Nat := none
  calls : Nat → Option GenerationStage := fun _ => none
  started : List Nat := []

/-- What happens to a call. -/
inductive GenerationEvent where
  | called (t : Nat) (request : ReceiptRequest)
  | locked (t : Nat)
  | attested (t : Nat) (report : Bytes)
  /-- `provider.generate` failed; the call returns the error. -/
  | unattested (t : Nat) (error : VerifyError)
  | allocated (t : Nat) (sequence : UInt64)
  /-- The counter cannot grow; the call returns `SequenceNumberExhausted`. -/
  | exhausted (t : Nat)
  /-- The call returns what it built. -/
  | returned (t : Nat) (now : SystemTime) (result : Except VerifyError Bytes)
  | dropped (t : Nat)

namespace SharedGenerator

variable (env : Primitives)

/-- The call goes on to a stage. -/
def move (s : SharedGenerator) (t : Nat) (stage : GenerationStage) : SharedGenerator :=
  { s with calls := Function.update s.calls t (some stage) }

/-- The call ends, and the guard it holds is dropped. -/
def leave (s : SharedGenerator) (t : Nat) : SharedGenerator :=
  { s with holder := none, calls := Function.update s.calls t none }

/-- One step of one call. The provider may answer anything, and the clock may read anything. -/
inductive Step : SharedGenerator → GenerationEvent → SharedGenerator → Prop
  | called {s t request} : t ∉ s.started →
      Step s (.called t request)
        { s.move t (.waiting request) with started := s.started ++ [t] }
  | locked {s t request} : s.calls t = some (.waiting request) → s.holder = none →
      Step s (.locked t) { s.move t (.attesting request) with holder := some t }
  | attested {s t request report} {provider : AttestationProvider} :
      s.calls t = some (.attesting request) →
      s.gen.requestAttestation env provider request = .ok report →
      Step s (.attested t report) (s.move t (.attested request report))
  | unattested {s t request error} {provider : AttestationProvider} :
      s.calls t = some (.attesting request) →
      s.gen.requestAttestation env provider request = .error error →
      Step s (.unattested t error) (s.leave t)
  | allocated {s t request report sequence gen} : s.calls t = some (.attested request report) →
      s.gen.allocateSequence = some (sequence, gen) →
      Step s (.allocated t sequence) { s.move t (.numbered request report sequence) with gen }
  | exhausted {s t request report} : s.calls t = some (.attested request report) →
      s.gen.allocateSequence = none → Step s (.exhausted t) (s.leave t)
  | returned {s t request report sequence} :
      s.calls t = some (.numbered request report sequence) → (now : SystemTime) →
      Step s (.returned t now (s.gen.buildReceipt env now request sequence report)) (s.leave t)
  | droppedWaiting {s t request} : s.calls t = some (.waiting request) →
      Step s (.dropped t) { s with calls := Function.update s.calls t none }
  | droppedAttesting {s t request} : s.calls t = some (.attesting request) →
      Step s (.dropped t) (s.leave t)

theorem step_returned {env} {s : SharedGenerator} {t : Nat} {request : ReceiptRequest}
    {report : Bytes} {sequence : UInt64} {now : SystemTime} {result : Except VerifyError Bytes}
    (hstage : s.calls t = some (.numbered request report sequence))
    (hbuild : s.gen.buildReceipt env now request sequence report = result) :
    Step env s (.returned t now result) (s.leave t) := by
  rw [← hbuild]
  exact .returned hstage now

/-- The events of a run, in their order. -/
inductive History (start : SharedGenerator) : List GenerationEvent → SharedGenerator → Prop
  | nil : History start [] start
  | snoc {events s event s'} : History start events s → Step env s event s' →
      History start (events ++ [event]) s'

end SharedGenerator

/-- The receipt that an event returns. -/
def GenerationEvent.receipt? : GenerationEvent → Option Bytes
  | .returned _ _ (.ok receiptBytes) => some receiptBytes
  | _ => none

/-- The number that an event allocates. -/
def GenerationEvent.number? : GenerationEvent → Option UInt64
  | .allocated _ sequence => some sequence
  | _ => none

/-- The receipts returned, in completion order. -/
def returnedReceipts (events : List GenerationEvent) : List Bytes :=
  events.filterMap GenerationEvent.receipt?

/-- The numbers allocated, in their order. -/
def allocatedNumbers (events : List GenerationEvent) : List UInt64 :=
  events.filterMap GenerationEvent.number?

/-- The sequence number that a receipt carries. -/
def receiptNumber (env : Primitives) (receiptBytes : Bytes) : Option UInt64 := do
  let cose ← (env.coseFromSlice receiptBytes).toOption
  let claims ← (env.claimsFromBinary (← cose.payload)).toOption
  return claims.sequenceNum

/-- Neither the clock nor an encoder failed a call. -/
def BuildsSucceed (events : List GenerationEvent) : Prop :=
  ∀ t now error, .returned t now (.error error) ∉ events

variable {env : Primitives}

/-- A built receipt carries the number it was built for. -/
theorem ReceiptGenerator.number_of_buildReceipt (hlawful : env.Lawful) {gen : ReceiptGenerator}
    {now : SystemTime} {request : ReceiptRequest} {sequence : UInt64} {report receiptBytes : Bytes}
    (h : gen.buildReceipt env now request sequence report = .ok receiptBytes) :
    receiptNumber env receiptBytes = some sequence := by
  simp only [buildReceipt, bind_eq_ok, mapError_eq_ok] at h
  obtain ⟨nowSec, -, payload, hclaims, hcose⟩ := h
  have hparse := hlawful.cose_roundTrip _ _ rfl hcose
  have hdecode := hlawful.claims_roundTrip _ _ hclaims
  rw [receiptNumber, hparse]
  show (do
    let claims ← (env.claimsFromBinary payload).toOption
    return claims.sequenceNum) = some sequence
  rw [hdecode]
  rfl

/-- The call that an event belongs to. -/
def GenerationEvent.thread : GenerationEvent → Nat
  | .called t _ | .locked t | .attested t _ | .unattested t _ | .allocated t _ | .exhausted t
  | .returned t _ _ | .dropped t => t

/-- The call failed in `provider.generate` or was dropped. -/
def FailedOrDropped (events : List GenerationEvent) (t : Nat) : Prop :=
  (∃ error, .unattested t error ∈ events) ∨ .dropped t ∈ events

/-- What is built depends on the key, not on the counter. -/
theorem ReceiptGenerator.buildReceipt_congr {gen gen' : ReceiptGenerator}
    (h : gen.signingKey = gen'.signingKey) : gen.buildReceipt env = gen'.buildReceipt env := by
  obtain ⟨key, counter⟩ := gen
  obtain ⟨key', counter'⟩ := gen'
  obtain rfl : key = key' := h
  rfl

namespace SharedGenerator

/-- A step leaves the key; the counter changes by allocation only. -/
theorem Step.gen_eq {s s' : SharedGenerator} {event : GenerationEvent} (h : Step env s event s') :
    (event.number? = none ∧ s'.gen = s.gen) ∨
      (event.number? = some s.gen.sequenceNum ∧ s.gen.sequenceNum.toNat + 1 < 2 ^ 64 ∧
        s'.gen = { s.gen with sequenceNum := s.gen.sequenceNum + 1 }) := by
  cases h with
  | @allocated t request report sequence gen hstage halloc =>
    rw [ReceiptGenerator.allocateSequence] at halloc
    split at halloc
    next hroom =>
      obtain ⟨rfl, rfl⟩ := Prod.mk.inj (Option.some.inj halloc)
      exact Or.inr ⟨rfl, hroom, rfl⟩
    next => cases halloc
  | _ => exact Or.inl ⟨rfl, rfl⟩

/-- The key never changes. -/
theorem History.signingKey {start s : SharedGenerator} {events : List GenerationEvent}
    (h : History env start events s) : s.gen.signingKey = start.gen.signingKey := by
  induction h with
  | nil => rfl
  | snoc _ hstep ih =>
    rcases hstep.gen_eq with ⟨-, hgen⟩ | ⟨-, -, hgen⟩
    · rw [hgen, ih]
    · rw [hgen]
      exact ih

/-- The allocated numbers count up from the first counter to the last. -/
theorem History.allocations {start s : SharedGenerator} {events : List GenerationEvent}
    (h : History env start events s) :
    (allocatedNumbers events).map UInt64.toNat =
        List.range' start.gen.sequenceNum.toNat (allocatedNumbers events).length ∧
      s.gen.sequenceNum.toNat =
        start.gen.sequenceNum.toNat + (allocatedNumbers events).length := by
  induction h with
  | nil => exact ⟨rfl, rfl⟩
  | @snoc events s event s' hist hstep ih =>
    obtain ⟨hnumbers, hcounter⟩ := ih
    rcases hstep.gen_eq with ⟨hnone, hgen⟩ | ⟨hsome, hroom, hgen⟩
    · have hsame : allocatedNumbers (events ++ [event]) = allocatedNumbers events := by
        simp [allocatedNumbers, List.filterMap_append, hnone]
      rw [hsame, hgen]
      exact ⟨hnumbers, hcounter⟩
    · have hmore : allocatedNumbers (events ++ [event]) =
          allocatedNumbers events ++ [s.gen.sequenceNum] := by
        simp [allocatedNumbers, List.filterMap_append, hsome]
      have hone : (1 : UInt64).toNat = 1 := rfl
      have hnext : s'.gen.sequenceNum.toNat = s.gen.sequenceNum.toNat + 1 := by
        rw [hgen]
        simp only [UInt64.toNat_add, hone, Nat.mod_eq_of_lt hroom]
      rw [hmore, List.map_append, List.length_append, List.length_singleton, List.range'_concat,
        hnumbers, hnext, hcounter]
      refine ⟨?_, by omega⟩
      simp only [List.map_cons, List.map_nil, hcounter, Nat.one_mul]

/-- A step of another call leaves a call as it was. -/
theorem Step.other {s s' : SharedGenerator} {event : GenerationEvent} (h : Step env s event s')
    {t : Nat} (ht : event.thread ≠ t) :
    s'.calls t = s.calls t ∧ (t ∈ s'.started ↔ t ∈ s.started) := by
  have hne : t ≠ event.thread := ht.symm
  cases h with
  | called _ =>
    refine ⟨Function.update_of_ne hne _ _, ?_⟩
    rw [List.mem_append, List.mem_singleton]
    exact or_iff_left hne
  | _ => exact ⟨Function.update_of_ne hne _ _, Iff.rfl⟩

/-- A generator that `new` or `with_key` made: no number was allocated and no call was made. -/
def fresh (signingKey : ByteArr 32) : SharedGenerator := { gen := { signingKey } }

end SharedGenerator

/-- A number is allocated to one call. -/
theorem SharedGenerator.History.allocated_once {start s : SharedGenerator}
    {events : List GenerationEvent} (h : History env start events s) {t t' : Nat}
    {sequence : UInt64} (ht : .allocated t sequence ∈ events)
    (ht' : .allocated t' sequence ∈ events) : t = t' := by
  have hnodup : (allocatedNumbers events).Nodup := by
    have hmap : ((allocatedNumbers events).map UInt64.toNat).Nodup := by
      rw [h.allocations.1]
      exact List.nodup_range'
    exact hmap.of_map
  have hpairs : events.Pairwise fun e e' =>
      ∀ n, e.number? = some n → ∀ n', e'.number? = some n' → n ≠ n' := by
    rw [allocatedNumbers, List.Nodup, List.pairwise_filterMap] at hnodup
    exact hnodup
  by_contra hne
  have hdiff : GenerationEvent.allocated t sequence ≠ .allocated t' sequence := by
    intro heq
    exact hne (GenerationEvent.allocated.inj heq).1
  have hsymm : Std.Symm fun e e' : GenerationEvent =>
      ∀ n, e.number? = some n → ∀ n', e'.number? = some n' → n ≠ n' :=
    ⟨fun e e' hee' n hn n' hn' heq => hee' n' hn' n hn heq.symm⟩
  exact hpairs.forall ht ht' hdiff sequence rfl sequence rfl rfl

/-- A call that nothing interleaves with does what `generate_receipt` computes. -/
theorem SharedGenerator.alone {start : SharedGenerator} {t : Nat} {provider : AttestationProvider}
    {now : SystemTime} {request : ReceiptRequest} {receiptBytes : Bytes} {gen : ReceiptGenerator}
    (hnew : t ∉ start.started) (hfree : start.holder = none)
    (h : start.gen.generateReceipt env provider now request = (.ok receiptBytes, gen)) :
    ∃ report sequence s, History env start
      [.called t request, .locked t, .attested t report, .allocated t sequence,
        .returned t now (.ok receiptBytes)] s ∧ s.gen = gen := by
  rw [ReceiptGenerator.generateReceipt] at h
  split at h
  next => cases h
  next report hreport =>
    rw [ReceiptGenerator.complete] at h
    split at h
    next => cases h
    next sequence gen' halloc =>
      obtain ⟨hbuild, rfl⟩ := Prod.mk.inj h
      -- the built receipt depends on the key only, which an allocation keeps
      have hsame : gen'.buildReceipt env now request sequence report = .ok receiptBytes := by
        rw [ReceiptGenerator.allocateSequence] at halloc
        split at halloc
        next =>
          obtain ⟨-, rfl⟩ := Prod.mk.inj (Option.some.inj halloc)
          exact hbuild
        next => cases halloc
      have hcall : Step env start (.called t request)
          { start.move t (.waiting request) with started := start.started ++ [t] } := .called hnew
      have hcalled := (@History.nil env start).snoc hcall
      have hlocked := hcalled.snoc (.locked (Function.update_self _ _ _) hfree)
      have hattested := hlocked.snoc (.attested (Function.update_self _ _ _) hreport)
      have hallocated := hattested.snoc (.allocated (Function.update_self _ _ _) halloc)
      have hreturned := hallocated.snoc (.returned (Function.update_self _ _ _) now)
      simp only [hsame] at hreturned
      exact ⟨report, sequence, _, hreturned, rfl⟩

end Veriai
