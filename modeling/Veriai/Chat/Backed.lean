import Veriai.Chat.Calls
import Veriai.Receipt.Replay

/-!
# What holds of calls in an orderly run

The receipts come to the check in the order of their numbers, and the provider's
documents verify. Each call then stands on its own receipt: the one built for its
request and its number from a report that a document backs. One lemma for each
step that does more than move a call on.
-/

namespace Veriai.Chat

open Verifier

variable (env : Primitives) (app : App)

/-- The provider's documents verify, and the clocks and sizes are within their bounds. -/
def Undisturbed (v : Verifier) (expectedPcr0 : Bytes) (s : ChatState) : ChatEvent → Prop
  | .generation (.attested t report) =>
    ∀ request, s.generator.calls t = some (.attesting request) →
      ∃ doc, Vouches env v expectedPcr0 (s.generator.gen.computeReportData env).toList
        request.clientNonce.toList (s.generator.gen.publicKeyBytes env).toList report doc
  | .generation (.returned _ now (.ok receiptBytes)) =>
    receiptBytes.length ≤ v.config.maxReceiptSize ∧
      ∀ claims doc, ReceiptContent env receiptBytes claims doc → ReadBefore now doc
  | .inspected t now =>
    ∀ work receiptBytes, s.calls t = some (.generated work receiptBytes) →
      ∀ claims doc, ReceiptContent env receiptBytes claims doc →
        WithinWindows v.config now claims doc
  | _ => True

/-- No receipt of the same identity with a larger number was checked before the one that comes
to the check. -/
def InOrder (s : ChatState) : ChatEvent → Prop
  | .checked t =>
    ∀ work receiptBytes claims doc report,
      s.calls t = some (.inspected work receiptBytes claims doc report) →
        ∀ entry ∈ s.checked, entry.2.1 = computeIdentityFingerprint env doc →
          ¬ claims.sequenceNum < entry.2.2
  | _ => True

/-- The answer carries the receipt and says that it is valid. -/
def AnsweredValid (receiptBytes : Bytes) (answer : Answer) : Prop :=
  ∃ response result, answer = .ok response ∧
    response.receipt = some (app.base64Encode receiptBytes) ∧
    response.verification = some result ∧ result.valid = true

/-- The events of one call. -/
def own (events : List GenerationEvent) (t : Nat) : List GenerationEvent :=
  events.filter fun event => event.thread = t

/-- The events of a call are those with its number. -/
theorem mem_own {events : List GenerationEvent} {event : GenerationEvent} {t : Nat} :
    event ∈ own events t ↔ event ∈ events ∧ event.thread = t := by
  rw [own, List.mem_filter, decide_eq_true_eq]

/-- An event of the call is its last. -/
theorem own_append_self {events : List GenerationEvent} {event : GenerationEvent} {t : Nat}
    (h : event.thread = t) : own (events ++ [event]) t = own events t ++ [event] := by
  simp [own, h]

/-- An event of another call is none of its events. -/
theorem own_append_other {events : List GenerationEvent} {event : GenerationEvent} {t : Nat}
    (h : event.thread ≠ t) : own (events ++ [event]) t = own events t := by
  simp [own, h]

/-- The generator with a key and a counter. -/
def keyed (signingKey : ByteArr 32) (sequence : UInt64) : ReceiptGenerator :=
  { signingKey, sequenceNum := sequence }

section Invariant

variable (v : Verifier) (expectedPcr0 : Bytes) (signingKey : ByteArr 32)

/-- Some document backs the report of a request. -/
def Backs (request : ReceiptRequest) (report : Bytes) (doc : AttestationDoc) : Prop :=
  Vouches env v expectedPcr0 ((keyed signingKey 0).computeReportData env).toList
    request.clientNonce.toList ((keyed signingKey 0).publicKeyBytes env).toList report doc

/-- What holds of a call inside `generate_receipt`, by its stage and its events. -/
def StageBacked (events : List GenerationEvent) (t : Nat) (request : ReceiptRequest) :
    GenerationStage → Prop
  | .waiting request' | .attesting request' => request' = request
  | .attested request' report =>
    request' = request ∧ ∃ doc, Backs env v expectedPcr0 signingKey request report doc
  | .numbered request' report sequence =>
    request' = request ∧ (∃ doc, Backs env v expectedPcr0 signingKey request report doc) ∧
      .allocated t sequence ∈ events ∧ sequence.toNat + 1 < 2 ^ 64

/-- The call's own receipt: built for its request and its number from a backed report. -/
def OwnReceipt (events : List GenerationEvent) (t : Nat) (request : ReceiptRequest)
    (receiptBytes : Bytes) : Prop :=
  ∃ sequence report doc now gen, .allocated t sequence ∈ events ∧
    (keyed signingKey sequence).complete env now request report = (.ok receiptBytes, gen) ∧
    Backs env v expectedPcr0 signingKey request report doc ∧ ReadBefore now doc ∧
    receiptBytes.length ≤ v.config.maxReceiptSize

/-- The events return this receipt and no other. -/
def ReturnsOnly (events : List GenerationEvent) (t : Nat) (receiptBytes : Bytes) : Prop :=
  ∀ now receiptBytes', .returned t now (.ok receiptBytes') ∈ events → receiptBytes' = receiptBytes

/-- What holds of a call by its stage, its events and its stage in the generator. -/
def Stands (events : List GenerationEvent) (t : Nat) (stage : Option GenerationStage) :
    Option ChatStage → Prop
  | none => True
  | some (.inferring _ _) => events = []
  | some (.generating work) =>
    (∀ now result, .returned t now result ∉ events) ∧
      ∃ stage', stage = some stage' ∧
        StageBacked env v expectedPcr0 signingKey events t work.request stage'
  | some (.generated work receiptBytes) =>
    ReturnsOnly events t receiptBytes ∧
      OwnReceipt env v expectedPcr0 signingKey events t work.request receiptBytes
  | some (.inspected _ receiptBytes claims _ _) =>
    ReturnsOnly events t receiptBytes ∧ .allocated t claims.sequenceNum ∈ events

/-- The invariant of a run. -/
structure Inv (s : ChatState) : Prop where
  history : SharedGenerator.History env (.fresh signingKey) s.events s.generator
  calls : ∀ t, Stands env v expectedPcr0 signingKey (own s.events t) t (s.generator.calls t)
    (s.calls t)
  unstarted : ∀ t, t ∉ s.started → s.calls t = none ∧ own s.events t = []
  answered : ∀ a ∈ s.answers, a.1 ∈ s.started ∧ s.calls a.1 = none
  valid : ∀ a ∈ s.answers, ∀ now receiptBytes,
    .returned a.1 now (.ok receiptBytes) ∈ own s.events a.1 → AnsweredValid app receiptBytes a.2
  /-- A call ends by its answer or by being dropped. -/
  ended : ∀ t ∈ s.started, s.calls t = none → t ∈ s.dropped ∨ ∃ answer, (t, answer) ∈ s.answers
  checked : ∀ c ∈ s.checked, (c.1 ∈ s.started ∧ s.calls c.1 = none) ∧
    .allocated c.1 c.2.2 ∈ own s.events c.1
  locked : s.replay.poisoned = false
  log : Ledger.Log ∅ s.replay.map (s.checked.map Prod.snd)

end Invariant

section Steps

variable {env : Primitives} {app : App} {v : Verifier} {expectedPcr0 : Bytes}
  {signingKey : ByteArr 32} {s s' : ChatState} {t : Nat}

/-- A step of one call leaves the others as they were. -/
structure Frame (t : Nat) (s s' : ChatState) : Prop where
  calls : ∀ t', t' ≠ t → s'.calls t' = s.calls t'
  stages : ∀ t', t' ≠ t → s'.generator.calls t' = s.generator.calls t'
  events : ∀ t', t' ≠ t → own s'.events t' = own s.events t'
  started : ∀ t', t' ∈ s'.started ↔ t' ∈ s.started ∨ t' = t

/-- The call is under way or not yet made. -/
def Live (s : ChatState) (t : Nat) : Prop := t ∈ s.started → s.calls t ≠ none

/-- A call with a stage is live. -/
theorem Live.of_stage {stage : ChatStage} (h : s.calls t = some stage) : Live s t := by
  intro _ hnone
  rw [hnone] at h
  cases h

/-- A call with a stage has begun. -/
theorem Inv.mem_started (h : Inv env app v expectedPcr0 signingKey s) {stage : ChatStage}
    (hstage : s.calls t = some stage) : t ∈ s.started := by
  by_contra hnot
  rw [(h.unstarted t hnot).1] at hstage
  cases hstage

/-- A live call has neither been answered nor checked. -/
theorem Inv.of_live (h : Inv env app v expectedPcr0 signingKey s) (hlive : Live s t) :
    (∀ a ∈ s.answers, a.1 ≠ t) ∧ ∀ c ∈ s.checked, c.1 ≠ t := by
  constructor
  · rintro a ha rfl
    obtain ⟨hstarted, hnone⟩ := h.answered a ha
    exact hlive hstarted hnone
  · rintro c hc rfl
    obtain ⟨⟨hstarted, hnone⟩, -⟩ := h.checked c hc
    exact hlive hstarted hnone

/-- A step of a live call keeps the invariant when the call stands after it, and its answer, if
it gives one, is valid for the receipt it returned. -/
theorem Inv.step (h : Inv env app v expectedPcr0 signingKey s) (hlive : Live s t)
    (hframe : Frame t s s')
    (hhistory : SharedGenerator.History env (.fresh signingKey) s'.events s'.generator)
    (hself : Stands env v expectedPcr0 signingKey (own s'.events t) t (s'.generator.calls t)
      (s'.calls t))
    (hanswers : s'.answers = s.answers ∨ ∃ answer, s'.answers = s.answers ++ [(t, answer)] ∧
      s'.calls t = none ∧ ∀ now receiptBytes,
        .returned t now (.ok receiptBytes) ∈ own s'.events t →
          AnsweredValid app receiptBytes answer)
    (hdropped : s'.dropped = s.dropped ∨ s'.dropped = s.dropped ++ [t])
    (hended : s'.calls t = none → t ∈ s'.dropped ∨ ∃ answer, (t, answer) ∈ s'.answers)
    (hchecked : ∀ c ∈ s'.checked, c ∈ s.checked ∨ c.1 = t ∧ s'.calls t = none ∧
      .allocated t c.2.2 ∈ own s'.events t)
    (hlocked : s'.replay.poisoned = false)
    (hlog : Ledger.Log ∅ s'.replay.map (s'.checked.map Prod.snd)) :
    Inv env app v expectedPcr0 signingKey s' := by
  obtain ⟨hliveAnswers, hliveChecked⟩ := h.of_live hlive
  have hkept : ∀ a ∈ s.answers, a ∈ s'.answers := by
    intro a ha
    rcases hanswers with heq | ⟨answer, heq, -⟩
    · rw [heq]
      exact ha
    · rw [heq]
      exact List.mem_append_left _ ha
  -- an answer is an earlier one, or that of the call
  have hgiven : ∀ a ∈ s'.answers, a ∈ s.answers ∨ a.1 = t ∧ s'.calls t = none ∧
      ∀ now receiptBytes, .returned t now (.ok receiptBytes) ∈ own s'.events t →
        AnsweredValid app receiptBytes a.2 := by
    intro a ha
    rcases hanswers with heq | ⟨answer, heq, hnone, hvalid⟩
    · rw [heq] at ha
      exact Or.inl ha
    · rw [heq] at ha
      rcases List.mem_append.mp ha with ha | ha
      · exact Or.inl ha
      · obtain rfl := List.mem_singleton.mp ha
        exact Or.inr ⟨rfl, hnone, hvalid⟩
  constructor
  · exact hhistory
  · intro t'
    by_cases ht : t' = t
    · rw [ht]
      exact hself
    · rw [hframe.calls t' ht, hframe.stages t' ht, hframe.events t' ht]
      exact h.calls t'
  · intro t' hnot
    rw [hframe.started] at hnot
    obtain ⟨hunstarted, ht⟩ := not_or.mp hnot
    rw [hframe.calls t' ht, hframe.events t' ht]
    exact h.unstarted t' hunstarted
  · intro a ha
    rw [hframe.started]
    rcases hgiven a ha with ha | ⟨ht, hnone, -⟩
    · obtain ⟨hstarted, hnone⟩ := h.answered a ha
      exact ⟨Or.inl hstarted, (hframe.calls _ (hliveAnswers a ha)).trans hnone⟩
    · rw [ht]
      exact ⟨Or.inr rfl, hnone⟩
  · intro a ha now receiptBytes hreturned
    rcases hgiven a ha with ha | ⟨ht, -, hvalid⟩
    · rw [hframe.events _ (hliveAnswers a ha)] at hreturned
      exact h.valid a ha now receiptBytes hreturned
    · rw [ht] at hreturned
      exact hvalid now receiptBytes hreturned
  · intro t' hstarted hnone
    by_cases ht : t' = t
    · subst ht
      exact hended hnone
    · rw [hframe.started] at hstarted
      rw [hframe.calls t' ht] at hnone
      rcases h.ended t' (hstarted.resolve_right ht) hnone with hdrop | ⟨answer, hanswer⟩
      · refine Or.inl ?_
        rcases hdropped with heq | heq
        · rw [heq]
          exact hdrop
        · rw [heq]
          exact List.mem_append_left _ hdrop
      · exact Or.inr ⟨answer, hkept _ hanswer⟩
  · intro c hc
    rw [hframe.started]
    rcases hchecked c hc with hc | ⟨ht, hnone, hallocated⟩
    · obtain ⟨⟨hstarted, hnone⟩, hallocated⟩ := h.checked c hc
      have hne := hliveChecked c hc
      rw [hframe.calls _ hne, hframe.events _ hne]
      exact ⟨⟨Or.inl hstarted, hnone⟩, hallocated⟩
    · rw [ht]
      exact ⟨⟨Or.inr rfl, hnone⟩, hallocated⟩
  · exact hlocked
  · exact hlog

/-- The key of the generator never changes. -/
theorem Inv.publicKeyBytes (h : Inv env app v expectedPcr0 signingKey s) :
    s.generator.gen.publicKeyBytes env = (keyed signingKey 0).publicKeyBytes env := by
  have hkey : s.generator.gen.signingKey = signingKey := h.history.signingKey
  simp only [ReceiptGenerator.publicKeyBytes, hkey]
  rfl

/-- Nor does what the generator reports of it. -/
theorem Inv.computeReportData (h : Inv env app v expectedPcr0 signingKey s) :
    s.generator.gen.computeReportData env = (keyed signingKey 0).computeReportData env := by
  simp only [ReceiptGenerator.computeReportData, h.publicKeyBytes]

/-- A receipt built for an allocated number completes the generation of that number. -/
theorem Inv.complete_of_build (h : Inv env app v expectedPcr0 signingKey s) {now : SystemTime}
    {request : ReceiptRequest} {sequence : UInt64} {report receiptBytes : Bytes}
    (hroom : sequence.toNat + 1 < 2 ^ 64)
    (hbuild : s.generator.gen.buildReceipt env now request sequence report = .ok receiptBytes) :
    ∃ gen, (keyed signingKey sequence).complete env now request report =
      (.ok receiptBytes, gen) := by
  have hkey : s.generator.gen.signingKey = signingKey := h.history.signingKey
  have hroom' : (keyed signingKey sequence).sequenceNum.toNat + 1 < 2 ^ 64 := hroom
  rw [@ReceiptGenerator.buildReceipt_congr env _ (keyed signingKey sequence) hkey] at hbuild
  rw [ReceiptGenerator.complete, ReceiptGenerator.allocateSequence, if_pos hroom']
  exact ⟨_, Prod.ext hbuild rfl⟩

/-- A step inside `generate_receipt` that does not end it keeps the call backed. -/
theorem Inv.stage_goesOn (h : Inv env app v expectedPcr0 signingKey s) {event : GenerationEvent}
    {generator : SharedGenerator} {request : ReceiptRequest}
    (hstep : s.generator.Step env event generator) (hinside : Inside event)
    (hgoesOn : outcome? event = none)
    (hcalm : Undisturbed env v expectedPcr0 s (.generation event)) {stage : GenerationStage}
    (hstage : s.generator.calls event.thread = some stage)
    (hbacked : StageBacked env v expectedPcr0 signingKey (own s.events event.thread) event.thread
      request stage) :
    ∃ stage', generator.calls event.thread = some stage' ∧
      StageBacked env v expectedPcr0 signingKey (own s.events event.thread ++ [event]) event.thread
        request stage' := by
  cases hstep with
  | called _ => exact hinside.elim
  | droppedWaiting _ => exact hinside.elim
  | droppedAttesting _ => exact hinside.elim
  | unattested _ _ => cases hgoesOn
  | exhausted _ _ => cases hgoesOn
  | returned _ _ => cases hgoesOn
  | @locked t request' hwaiting _ =>
    obtain rfl := Option.some.inj (hwaiting.symm.trans hstage)
    exact ⟨_, Function.update_self _ _ _, hbacked⟩
  | @attested t request' report _ hattesting _ =>
    obtain rfl := Option.some.inj (hattesting.symm.trans hstage)
    obtain ⟨doc, hdoc⟩ := hcalm request' hattesting
    rw [h.computeReportData, h.publicKeyBytes] at hdoc
    have hsame : request' = request := hbacked
    rw [hsame] at hdoc
    exact ⟨_, Function.update_self _ _ _, hsame, doc, hdoc⟩
  | @allocated t request' report sequence gen hattested halloc =>
    obtain rfl := Option.some.inj (hattested.symm.trans hstage)
    obtain ⟨hsame, hdoc⟩ := hbacked
    have hroom : sequence.toNat + 1 < 2 ^ 64 := by
      rw [ReceiptGenerator.allocateSequence] at halloc
      split at halloc
      next hroom =>
        obtain ⟨rfl, -⟩ := Prod.mk.inj (Option.some.inj halloc)
        exact hroom
      next => cases halloc
    exact ⟨_, Function.update_self _ _ _, hsame, hdoc,
      List.mem_append_right _ (List.mem_singleton_self _), hroom⟩

/-- The receipt that `generate_receipt` returns is the call's own. -/
theorem Inv.ownReceipt (hlawful : env.Lawful) (h : Inv env app v expectedPcr0 signingKey s)
    {event : GenerationEvent} {generator : SharedGenerator} {request : ReceiptRequest}
    {receiptBytes : Bytes} (hstep : s.generator.Step env event generator)
    (houtcome : outcome? event = some (.ok receiptBytes))
    (hcalm : Undisturbed env v expectedPcr0 s (.generation event)) {stage : GenerationStage}
    (hstage : s.generator.calls event.thread = some stage)
    (hbacked : StageBacked env v expectedPcr0 signingKey (own s.events event.thread) event.thread
      request stage) :
    (∃ now, event = .returned event.thread now (.ok receiptBytes)) ∧
      OwnReceipt env v expectedPcr0 signingKey (own s.events event.thread ++ [event]) event.thread
        request receiptBytes := by
  cases hstep with
  | called _ => cases houtcome
  | locked _ _ => cases houtcome
  | attested _ _ => cases houtcome
  | allocated _ _ => cases houtcome
  | unattested _ _ => cases houtcome
  | exhausted _ _ => cases houtcome
  | droppedWaiting _ => cases houtcome
  | droppedAttesting _ => cases houtcome
  | @returned t request' report sequence hnumbered now =>
    obtain rfl := Option.some.inj (hnumbered.symm.trans hstage)
    obtain ⟨rfl, ⟨doc, hdoc⟩, hallocated, hroom⟩ := hbacked
    have hbuild : s.generator.gen.buildReceipt env now request' sequence report =
        .ok receiptBytes := Option.some.inj houtcome
    obtain ⟨gen, hcomplete⟩ := h.complete_of_build hroom hbuild
    have hcontent := ReceiptGenerator.complete_content hlawful hdoc hcomplete
    rw [hbuild] at hcalm
    obtain ⟨hsize, hread⟩ := hcalm
    refine ⟨⟨now, by rw [hbuild]; rfl⟩, sequence, report, doc, now, gen,
      List.mem_append_left _ hallocated, hcomplete, hdoc, hread _ _ hcontent, hsize⟩

/-- What a call in the generator knows: it has returned nothing, and it is backed. -/
theorem Inv.of_generating (h : Inv env app v expectedPcr0 signingKey s) {work : Work}
    (hstage : s.calls t = some (.generating work)) :
    (∀ now result, .returned t now result ∉ own s.events t) ∧
      ∃ stage, s.generator.calls t = some stage ∧
        StageBacked env v expectedPcr0 signingKey (own s.events t) t work.request stage := by
  have hstands := h.calls t
  rw [hstage] at hstands
  exact hstands

/-- A generated receipt is the only one of its call and carries its values. -/
theorem Inv.of_generated (h : Inv env app v expectedPcr0 signingKey s) {work : Work}
    {receiptBytes : Bytes} (hstage : s.calls t = some (.generated work receiptBytes)) :
    ReturnsOnly (own s.events t) t receiptBytes ∧
      OwnReceipt env v expectedPcr0 signingKey (own s.events t) t work.request receiptBytes := by
  have hstands := h.calls t
  rw [hstage] at hstands
  exact hstands

/-- A call in its inference has not asked for a receipt. -/
theorem Inv.of_inferring (h : Inv env app v expectedPcr0 signingKey s) {canonicalInput : Bytes}
    {clientNonce : ByteArr 32} (hstage : s.calls t = some (.inferring canonicalInput clientNonce)) :
    own s.events t = [] := by
  have hstands := h.calls t
  rw [hstage] at hstands
  exact hstands

/-- The inspection of a call's own receipt completes. -/
theorem OwnReceipt.inspected (hlawful : env.Lawful) (hlength : expectedPcr0.length = 48)
    {events : List GenerationEvent} {request : ReceiptRequest} {receiptBytes : Bytes}
    (h : OwnReceipt env v expectedPcr0 signingKey events t request receiptBytes)
    {verifyNow : SystemTime}
    (hwindows : ∀ claims doc, ReceiptContent env receiptBytes claims doc →
      WithinWindows v.config verifyNow claims doc) :
    ∃ cose claims doc, .allocated t claims.sequenceNum ∈ events ∧
      v.Inspected env verifyNow receiptBytes (request.expected expectedPcr0) cose claims doc := by
  obtain ⟨sequence, report, doc, now, gen, hallocated, hcomplete, hdoc, hread, hsize⟩ := h
  have hvouches : Vouches env v expectedPcr0
      ((keyed signingKey sequence).computeReportData env).toList request.clientNonce.toList
      ((keyed signingKey sequence).publicKeyBytes env).toList report doc := hdoc
  have hcontent := ReceiptGenerator.complete_content hlawful hvouches hcomplete
  obtain ⟨cose, hinspected⟩ := ReceiptGenerator.complete_inspected hlawful hvouches hread hlength
    hcomplete hsize (hwindows _ _ hcontent)
  exact ⟨cose, _, doc, hallocated, hinspected⟩

/-- The claims inspected in a call's own receipt have the number of the call. -/
theorem OwnReceipt.allocated_of_content (hlawful : env.Lawful) {events : List GenerationEvent}
    {request : ReceiptRequest} {receiptBytes : Bytes}
    (h : OwnReceipt env v expectedPcr0 signingKey events t request receiptBytes)
    {claims : VeriClaims} {doc : AttestationDoc}
    (hcontent : ReceiptContent env receiptBytes claims doc) :
    .allocated t claims.sequenceNum ∈ events := by
  obtain ⟨sequence, report, doc', now, gen, hallocated, hcomplete, hdoc, -, -⟩ := h
  have hown := ReceiptGenerator.complete_content hlawful hdoc hcomplete
  obtain ⟨rfl, -⟩ := hcontent.unique hown
  exact hallocated

/-- A receipt that comes to the check in order is fresh. -/
theorem Inv.fresh (h : Inv env app v expectedPcr0 signingKey s) {stage : ChatStage}
    (hstage : s.calls t = some stage) {claims : VeriClaims} {doc : AttestationDoc}
    (hallocated : .allocated t claims.sequenceNum ∈ own s.events t)
    (horder : ∀ entry ∈ s.checked, entry.2.1 = computeIdentityFingerprint env doc →
      ¬ claims.sequenceNum < entry.2.2) :
    SequenceFresh env claims doc s.replay.map := by
  rw [SequenceFresh, h.log.fresh_iff]
  refine ⟨fun last hlast => by simp at hlast, ?_⟩
  intro entry hentry hfingerprint
  obtain ⟨c, hc, rfl⟩ := List.mem_map.mp hentry
  obtain ⟨⟨-, hnone⟩, hother⟩ := h.checked c hc
  have hnot := horder c hc hfingerprint
  -- the number of another call is another number
  have hne : c.2.2 ≠ claims.sequenceNum := by
    intro hsame
    rw [hsame] at hother
    have ht := h.history.allocated_once (mem_own.mp hother).1 (mem_own.mp hallocated).1
    rw [ht, hstage] at hnone
    cases hnone
  rw [UInt64.lt_iff_toNat_lt] at hnot ⊢
  have hnat : c.2.2.toNat ≠ claims.sequenceNum.toNat := fun hsame => hne (UInt64.toNat_inj.mp hsame)
  omega

end Steps

end Veriai.Chat
