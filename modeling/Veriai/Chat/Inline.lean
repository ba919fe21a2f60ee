import Veriai.Chat.Transparent

/-!
# Inline verification under concurrency

Numbers are allocated under the generation lock and checked under the verifier's
mutex, with nothing held in between, so receipts may come to the check in another
order. While they come in the order of their numbers, every generated receipt is
answered valid.
-/

namespace Veriai.Chat

open Verifier

section Steps

variable {env : Primitives} {app : App} {v : Verifier} {expectedPcr0 : Bytes}
  {signingKey : ByteArr 32} {s s' : ChatState} {t : Nat}

theorem Frame.of_calls {stage : Option ChatStage}
    (hcalls : s'.calls = Function.update s.calls t stage)
    (hgenerator : s'.generator = s.generator) (hevents : s'.events = s.events)
    (hstarted : ∀ t', t' ∈ s'.started ↔ t' ∈ s.started ∨ t' = t) : Frame t s s' where
  calls t' ht := by rw [hcalls, Function.update_of_ne ht]
  stages t' _ := by rw [hgenerator]
  events t' _ := by rw [hevents]
  started := hstarted

theorem Frame.of_generation {event : GenerationEvent} {stage : Option ChatStage}
    (hstep : s.generator.Step env event s'.generator) (hthread : event.thread = t)
    (hcalls : s'.calls = Function.update s.calls t stage)
    (hevents : s'.events = s.events ++ [event])
    (hstarted : ∀ t', t' ∈ s'.started ↔ t' ∈ s.started ∨ t' = t) : Frame t s s' where
  calls t' ht := by rw [hcalls, Function.update_of_ne ht]
  stages t' ht := (hstep.other (by rw [hthread]; exact ht.symm)).1
  events t' ht := by rw [hevents, own_append_other (by rw [hthread]; exact ht.symm)]
  started := hstarted

/-- An answer given before the call reached the generator. -/
theorem not_returned_of_nil {events : List GenerationEvent} (h : events = []) (answer : Answer) :
    ∀ now receiptBytes, .returned t now (.ok receiptBytes) ∈ events →
      AnsweredValid app receiptBytes answer := by
  intro now receiptBytes hmem
  rw [h] at hmem
  exact absurd hmem List.not_mem_nil

/-- A step of a live call that makes no check. -/
theorem Inv.unchecked (h : Inv env app v expectedPcr0 signingKey s) (hlive : Live s t)
    (hframe : Frame t s s')
    (hhistory : SharedGenerator.History env (.fresh signingKey) s'.events s'.generator)
    (hself : Stands env v expectedPcr0 signingKey (own s'.events t) t (s'.generator.calls t)
      (s'.calls t))
    (hanswers : s'.answers = s.answers ∨ ∃ answer, s'.answers = s.answers ++ [(t, answer)] ∧
      s'.calls t = none ∧ ∀ now receiptBytes,
        .returned t now (.ok receiptBytes) ∈ own s'.events t →
          AnsweredValid app receiptBytes answer)
    (hdropped : s'.dropped = s.dropped ∨ s'.dropped = s.dropped ++ [t])
    (hended : s'.calls t = none → t ∈ s'.dropped ∨ ∃ answer, (t, answer) ∈ s'.answers)
    (hchecked : s'.checked = s.checked) (hreplay : s'.replay = s.replay) :
    Inv env app v expectedPcr0 signingKey s' := by
  refine h.step hlive hframe hhistory hself hanswers hdropped hended ?_ ?_ ?_
  · rw [hchecked]
    exact fun c hc => Or.inl hc
  · rw [hreplay]
    exact h.locked
  · rw [hreplay, hchecked]
    exact h.log

/-- The call goes on, without an answer and without a check. -/
theorem Inv.goesOn (h : Inv env app v expectedPcr0 signingKey s) (hlive : Live s t)
    (hframe : Frame t s s')
    (hhistory : SharedGenerator.History env (.fresh signingKey) s'.events s'.generator)
    {stage : ChatStage} (hstage : s'.calls t = some stage)
    (hself : Stands env v expectedPcr0 signingKey (own s'.events t) t (s'.generator.calls t)
      (some stage))
    (hanswers : s'.answers = s.answers) (hdropped : s'.dropped = s.dropped)
    (hchecked : s'.checked = s.checked) (hreplay : s'.replay = s.replay) :
    Inv env app v expectedPcr0 signingKey s' := by
  refine h.unchecked hlive hframe hhistory (by rw [hstage]; exact hself) (Or.inl hanswers)
    (Or.inl hdropped) ?_ hchecked hreplay
  intro hnone
  rw [hstage] at hnone
  cases hnone

/-- The call is dropped. -/
theorem Inv.drops (h : Inv env app v expectedPcr0 signingKey s) (hlive : Live s t)
    (hframe : Frame t s s')
    (hhistory : SharedGenerator.History env (.fresh signingKey) s'.events s'.generator)
    (hnone : s'.calls t = none) (hanswers : s'.answers = s.answers)
    (hdropped : s'.dropped = s.dropped ++ [t]) (hchecked : s'.checked = s.checked)
    (hreplay : s'.replay = s.replay) : Inv env app v expectedPcr0 signingKey s' := by
  refine h.unchecked hlive hframe hhistory (by rw [hnone]; trivial) (Or.inl hanswers)
    (Or.inr hdropped) ?_ hchecked hreplay
  intro _
  rw [hdropped]
  exact Or.inl (List.mem_append_right _ (List.mem_singleton_self t))

/-- The call ends with an answer and without a check. -/
theorem Inv.ends (h : Inv env app v expectedPcr0 signingKey s) (hlive : Live s t)
    (hframe : Frame t s s')
    (hhistory : SharedGenerator.History env (.fresh signingKey) s'.events s'.generator)
    (hnone : s'.calls t = none) {answer : Answer}
    (hanswers : s'.answers = s.answers ++ [(t, answer)])
    (hvalid : ∀ now receiptBytes, .returned t now (.ok receiptBytes) ∈ own s'.events t →
      AnsweredValid app receiptBytes answer)
    (hdropped : s'.dropped = s.dropped) (hchecked : s'.checked = s.checked)
    (hreplay : s'.replay = s.replay) : Inv env app v expectedPcr0 signingKey s' := by
  refine h.unchecked hlive hframe hhistory (by rw [hnone]; trivial)
    (Or.inr ⟨answer, hanswers, hnone, hvalid⟩) (Or.inl hdropped) ?_ hchecked hreplay
  intro _
  rw [hanswers]
  exact Or.inr ⟨answer, List.mem_append_right _ (List.mem_singleton_self _)⟩

/-- The events of a call after a step of its own. -/
theorem mem_own_snoc {events : List GenerationEvent} {event a : GenerationEvent} :
    a ∈ own (events ++ [event]) event.thread ↔ a ∈ own events event.thread ∨ a = event := by
  rw [own_append_self rfl, List.mem_append, List.mem_singleton]

/-- What a call that had returned nothing has returned after a step is what the step returned. -/
theorem outcome_of_returned {events : List GenerationEvent} {event : GenerationEvent}
    (hnothing : ∀ now result, .returned event.thread now result ∉ own events event.thread)
    {now : SystemTime} {result : Except VerifyError Bytes}
    (hmem : .returned event.thread now result ∈ own (events ++ [event]) event.thread) :
    outcome? event = some result := by
  rcases mem_own_snoc.mp hmem with hmem | hmem
  · exact absurd hmem (hnothing now result)
  · rw [← hmem]
    rfl

/-- The runtime has answered, and the call enters the generator. -/
theorem Inv.called (h : Inv env app v expectedPcr0 signingKey s) {canonicalInput : Bytes}
    {clientNonce : ByteArr 32} {work : Work} {generator : SharedGenerator} {slots : Nat}
    (hstage : s.calls t = some (.inferring canonicalInput clientNonce))
    (hgen : s.generator.Step env (.called t work.request) generator) :
    Inv env app v expectedPcr0 signingKey
      { (s.move t (.generating work)).generate (.called t work.request) generator with slots } := by
  have hnothing : ∀ now result, .returned t now result ∉ own s.events t := by
    rw [h.of_inferring hstage]
    exact fun _ _ => List.not_mem_nil
  refine h.goesOn (.of_stage hstage)
    (.of_generation hgen rfl rfl rfl (started_of_mem (h.mem_started hstage)))
    (h.history.snoc hgen) (Function.update_self _ _ _) ⟨?_, ?_⟩ rfl rfl rfl rfl
  · intro now result hmem
    cases @outcome_of_returned s.events (.called t work.request) hnothing now result hmem
  · cases hgen with
    | called _ => exact ⟨_, Function.update_self _ _ _, rfl⟩

/-- The call goes on inside the generator. -/
theorem Inv.generating (h : Inv env app v expectedPcr0 signingKey s) {work : Work}
    {event : GenerationEvent} {generator : SharedGenerator}
    (hstage : s.calls event.thread = some (.generating work)) (hinside : Inside event)
    (hgoesOn : outcome? event = none)
    (hcalm : Undisturbed env v expectedPcr0 s (.generation event))
    (hgen : s.generator.Step env event generator) :
    Inv env app v expectedPcr0 signingKey (s.generate event generator) := by
  obtain ⟨hnothing, stage, hgstage, hbacked⟩ := h.of_generating hstage
  obtain ⟨stage', hnext, hbacked'⟩ := h.stage_goesOn hgen hinside hgoesOn hcalm hgstage hbacked
  refine h.goesOn (.of_stage hstage)
    ⟨fun _ _ => rfl, fun t' ht => (hgen.other ht.symm).1, fun t' ht => own_append_other ht.symm,
      started_of_mem (h.mem_started hstage)⟩
    (h.history.snoc hgen) hstage ⟨?_, stage', hnext, ?_⟩ rfl rfl rfl rfl
  · intro now result hmem
    cases hgoesOn.symm.trans (outcome_of_returned hnothing hmem)
  · show StageBacked _ _ _ _ (own (s.events ++ [event]) event.thread) _ _ _
    rw [own_append_self rfl]
    exact hbacked'

/-- A call whose generation fails has returned no receipt. -/
theorem Inv.generationFailed (h : Inv env app v expectedPcr0 signingKey s) {work : Work}
    {event : GenerationEvent} {generator : SharedGenerator} {error : VerifyError}
    (hstage : s.calls event.thread = some (.generating work))
    (houtcome : outcome? event = some (.error error))
    (hgen : s.generator.Step env event generator) :
    Inv env app v expectedPcr0 signingKey
      ((s.generate event generator).answer event.thread
        (.error (receiptGenerationError error))) := by
  obtain ⟨hnothing, -⟩ := h.of_generating hstage
  refine h.ends (.of_stage hstage)
    (.of_generation hgen rfl rfl rfl (started_of_mem (h.mem_started hstage)))
    (h.history.snoc hgen) (Function.update_self _ _ _) rfl ?_ rfl rfl rfl
  intro now receiptBytes hmem
  cases houtcome.symm.trans (outcome_of_returned hnothing hmem)

/-- A call whose generation succeeds has returned its own receipt and no other. -/
theorem Inv.generated (hlawful : env.Lawful) (h : Inv env app v expectedPcr0 signingKey s)
    {work : Work} {event : GenerationEvent} {generator : SharedGenerator} {receiptBytes : Bytes}
    (hstage : s.calls event.thread = some (.generating work))
    (houtcome : outcome? event = some (.ok receiptBytes))
    (hcalm : Undisturbed env v expectedPcr0 s (.generation event))
    (hgen : s.generator.Step env event generator) :
    Inv env app v expectedPcr0 signingKey
      ((s.generate event generator).move event.thread (.generated work receiptBytes)) := by
  obtain ⟨hnothing, stage, hgstage, hbacked⟩ := h.of_generating hstage
  obtain ⟨-, hown⟩ := h.ownReceipt hlawful hgen houtcome hcalm hgstage hbacked
  refine h.goesOn (.of_stage hstage)
    (.of_generation hgen rfl rfl rfl (started_of_mem (h.mem_started hstage)))
    (h.history.snoc hgen) (Function.update_self _ _ _) ⟨?_, ?_⟩ rfl rfl rfl rfl
  · intro now' receiptBytes' hmem
    have hsame := houtcome.symm.trans (outcome_of_returned hnothing hmem)
    exact (Except.ok.inj (Option.some.inj hsame)).symm
  · show OwnReceipt _ _ _ _ (own (s.events ++ [event]) event.thread) _ _ _
    rw [own_append_self rfl]
    exact hown

/-- The inspection of a call's own receipt has passed. -/
theorem Inv.inspected (hlawful : env.Lawful) (h : Inv env app v expectedPcr0 signingKey s)
    {work : Work} {receiptBytes : Bytes} {now : SystemTime} {expected : Expected}
    {claims : VeriClaims} {doc : AttestationDoc} {report : Report}
    (hstage : s.calls t = some (.generated work receiptBytes))
    (hrun : (v.inspect env now receiptBytes expected).run {} = .ok ((claims, doc), report)) :
    Inv env app v expectedPcr0 signingKey
      (s.move t (.inspected work receiptBytes claims doc report)) := by
  obtain ⟨hreturns, hown⟩ := h.of_generated hstage
  obtain ⟨⟨cose, hinspected⟩, -⟩ := yields_inspect.mp hrun
  exact h.goesOn (.of_stage hstage)
    (.of_calls rfl rfl rfl (started_of_mem (h.mem_started hstage))) h.history
    (Function.update_self _ _ _)
    ⟨hreturns, hown.allocated_of_content hlawful hinspected.content⟩ rfl rfl rfl rfl

/-- The inspection of a call's own receipt does not fail. -/
theorem Inv.inspection_passes (hlawful : env.Lawful) (hlength : expectedPcr0.length = 48)
    (h : Inv env app v expectedPcr0 signingKey s) {work : Work} {receiptBytes : Bytes}
    {now : SystemTime} (hstage : s.calls t = some (.generated work receiptBytes))
    (hcalm : Undisturbed env v expectedPcr0 s (.inspected t now)) {exit : Exit} :
    (v.inspect env now receiptBytes (work.request.expected expectedPcr0)).run {} ≠ .error exit := by
  obtain ⟨-, hown⟩ := h.of_generated hstage
  obtain ⟨cose, claims, doc, -, hinspected⟩ :=
    hown.inspected hlawful hlength (hcalm work receiptBytes hstage)
  have hyields := yields_inspect.mpr ⟨⟨cose, hinspected⟩, rfl⟩
  intro hrun
  rw [Checked.Yields, hrun] at hyields
  cases hyields

/-- A receipt that is checked in order is answered valid, and its number is entered. -/
theorem Inv.checks (h : Inv env app v expectedPcr0 signingKey s) {work : Work}
    {receiptBytes : Bytes} {claims : VeriClaims} {doc : AttestationDoc} {report : Report}
    (hstage : s.calls t = some (.inspected work receiptBytes claims doc report))
    (horder : InOrder env s (.checked t)) {clock : SystemTime}
    {result : Except VerifyError VerificationResult}
    {replay : ReplayMutex}
    (hcheck : v.checkSequence env claims doc report (some s.replay) = (result, some replay)) :
    Inv env app v expectedPcr0 signingKey
      { s.answer t (verifiedAnswer app work receiptBytes clock result) with
        replay
        checked :=
          s.checked ++ [(t, computeIdentityFingerprint env doc, claims.sequenceNum)] } := by
  have hstands := h.calls t
  rw [hstage] at hstands
  obtain ⟨hreturns, hallocated⟩ := hstands
  have hfresh := h.fresh hstage hallocated (horder work receiptBytes claims doc report hstage)
  rw [checkSequence_fresh h.locked hfresh] at hcheck
  obtain ⟨rfl, hreplay⟩ := Prod.mk.inj hcheck
  obtain rfl := Option.some.inj hreplay
  have hnone : Function.update s.calls t none t = none := Function.update_self _ _ _
  refine h.step (.of_stage hstage)
    (.of_calls rfl rfl rfl (started_of_mem (h.mem_started hstage))) h.history ?_
    (Or.inr ⟨_, rfl, hnone, ?_⟩) (Or.inl rfl) ?_ ?_ h.locked ?_
  · show Stands _ _ _ _ _ _ _ (Function.update s.calls t none t)
    rw [hnone]
    trivial
  · intro now' receiptBytes' hreturned
    rw [hreturns now' receiptBytes' hreturned]
    exact ⟨_, _, rfl, rfl, rfl, rfl⟩
  · intro _
    exact Or.inr ⟨_, List.mem_append_right _ (List.mem_singleton_self _)⟩
  · intro c hc
    rcases List.mem_append.mp hc with hc | hc
    · exact Or.inl hc
    · rw [List.mem_singleton.mp hc]
      exact Or.inr ⟨rfl, hnone, hallocated⟩
  · show Ledger.Log ∅ _ ((s.checked ++ [_]).map Prod.snd)
    rw [List.map_append]
    exact h.log.snoc hfresh

/-- Every step of an orderly run keeps the invariant. -/
theorem Inv.chatStep (hlawful : env.Lawful) (hverifier : app.verifier = some v)
    (hpcr0 : app.expectedPcr0 = some expectedPcr0) (hlength : expectedPcr0.length = 48)
    {event : ChatEvent} (h : Inv env app v expectedPcr0 signingKey s)
    (hcalm : Undisturbed env v expectedPcr0 s event) (horder : InOrder env s event)
    (hstep : ChatStep env app s event s') : Inv env app v expectedPcr0 signingKey s' := by
  cases hstep with
  | @refused t call error hnot _ =>
    exact h.ends (fun hstarted => absurd hstarted hnot)
      (.of_calls rfl rfl rfl (mem_started_append s t)) h.history (Function.update_self _ _ _) rfl
      (not_returned_of_nil (h.unstarted t hnot).2 _) rfl rfl rfl
  | @busy t call prepared hnot _ _ =>
    exact h.ends (fun hstarted => absurd hstarted hnot)
      (.of_calls rfl rfl rfl (mem_started_append s t)) h.history (Function.update_self _ _ _) rfl
      (not_returned_of_nil (h.unstarted t hnot).2 _) rfl rfl rfl
  | @admitted t call request canonicalInput clientNonce slots hnot _ _ =>
    exact h.goesOn (fun hstarted => absurd hstarted hnot)
      (.of_calls rfl rfl rfl (mem_started_append s t)) h.history (Function.update_self _ _ _)
      (h.unstarted t hnot).2 rfl rfl rfl rfl
  | @inferenceFailed t canonicalInput clientNonce error hstage =>
    exact h.ends (.of_stage hstage)
      (.of_calls rfl rfl rfl (started_of_mem (h.mem_started hstage))) h.history
      (Function.update_self _ _ _) rfl (not_returned_of_nil (h.of_inferring hstage) _) rfl rfl rfl
  | inferred hstage hgen => exact h.called hstage hgen
  | generating hstage hinside hgoesOn hgen => exact h.generating hstage hinside hgoesOn hcalm hgen
  | generationFailed hstage houtcome hgen => exact h.generationFailed hstage houtcome hgen
  | generated hstage houtcome hgen _ _ => exact h.generated hlawful hstage houtcome hcalm hgen
  | unverified clock hstage houtcome hgen hnone =>
    rw [hverifier, hpcr0] at hnone
    rcases hnone with hnone | hnone
    · cases hnone
    · cases hnone
  | inspected hstage hv _ hrun =>
    obtain rfl := Option.some.inj (hverifier.symm.trans hv)
    exact h.inspected hlawful hstage hrun
  | inspectionFailed clock hstage hv hp hrun =>
    obtain rfl := Option.some.inj (hverifier.symm.trans hv)
    obtain rfl := Option.some.inj (hpcr0.symm.trans hp)
    exact (h.inspection_passes hlawful hlength hstage hcalm hrun).elim
  | checked clock hstage hv hcheck =>
    obtain rfl := Option.some.inj (hverifier.symm.trans hv)
    exact h.checks hstage horder hcheck
  | @droppedInferring t canonicalInput clientNonce hstage =>
    exact h.drops (.of_stage hstage)
      (.of_calls rfl rfl rfl (started_of_mem (h.mem_started hstage))) h.history
      (Function.update_self _ _ _) rfl rfl rfl rfl
  | @droppedGenerating t work generator hstage hgen =>
    exact h.drops (.of_stage hstage)
      (.of_generation hgen rfl rfl rfl (started_of_mem (h.mem_started hstage)))
      (h.history.snoc hgen) (Function.update_self _ _ _) rfl rfl rfl rfl
  | @droppedGenerated t work receiptBytes hstage =>
    exact h.drops (.of_stage hstage)
      (.of_calls rfl rfl rfl (started_of_mem (h.mem_started hstage))) h.history
      (Function.update_self _ _ _) rfl rfl rfl rfl

end Steps

section Runs

variable {env : Primitives} {app : App} {v : Verifier} {expectedPcr0 : Bytes}
  {signingKey : ByteArr 32} {s : ChatState}

theorem Inv.initial : Inv env app v expectedPcr0 signingKey (.initial app signingKey) where
  history := .nil
  calls _ := trivial
  unstarted _ _ := ⟨rfl, rfl⟩
  answered _ ha := absurd ha List.not_mem_nil
  valid _ ha := absurd ha List.not_mem_nil
  ended _ ht := absurd ht List.not_mem_nil
  checked _ hc := absurd hc List.not_mem_nil
  locked := rfl
  log := .nil

/-- Undisturbed runs in which the receipts are checked in order keep the invariant. -/
theorem ChatRun.inv (hlawful : env.Lawful) (hverifier : app.verifier = some v)
    (hpcr0 : app.expectedPcr0 = some expectedPcr0) (hlength : expectedPcr0.length = 48)
    (h : ChatRun env app signingKey
      (fun s event => Undisturbed env v expectedPcr0 s event ∧ InOrder env s event) s) :
    Inv env app v expectedPcr0 signingKey s := by
  induction h with
  | initial => exact .initial
  | step _ hcond hstep ih =>
    exact ih.chatStep hlawful hverifier hpcr0 hlength hcond.1 hcond.2 hstep

/-- In every undisturbed run in which each receipt comes to the check before the larger numbers
of its identity are checked, a call whose receipt was generated gets its own receipt back as
valid: it is under way, was dropped, or has been answered, and whatever answer it got is that. -/
theorem inline_valid_in_order (hlawful : env.Lawful) (hverifier : app.verifier = some v)
    (hpcr0 : app.expectedPcr0 = some expectedPcr0) (hlength : expectedPcr0.length = 48)
    (h : ChatRun env app signingKey
      (fun s event => Undisturbed env v expectedPcr0 s event ∧ InOrder env s event) s)
    {t : Nat} {now : SystemTime} {receiptBytes : Bytes}
    (hgenerated : .returned t now (.ok receiptBytes) ∈ s.events) :
    (∀ answer, (t, answer) ∈ s.answers → AnsweredValid app receiptBytes answer) ∧
      (s.calls t ≠ none ∨ t ∈ s.dropped ∨ ∃ answer, (t, answer) ∈ s.answers) := by
  have hinv := h.inv hlawful hverifier hpcr0 hlength
  have hown : .returned t now (.ok receiptBytes) ∈ own s.events t := mem_own.mpr ⟨hgenerated, rfl⟩
  constructor
  · intro answer hanswer
    exact hinv.valid (t, answer) hanswer now receiptBytes hown
  · have hstarted : t ∈ s.started := by
      by_contra hnot
      rw [(hinv.unstarted t hnot).2] at hown
      exact List.not_mem_nil hown
    by_cases hcall : s.calls t = none
    · exact Or.inr (hinv.ended t hstarted hcall)
    · exact Or.inl hcall

end Runs

end Veriai.Chat

namespace Veriai.Transparent

open Chat Verifier

/-- Two calls get the numbers 0 and 1 and are checked in this order: both are answered valid. -/
theorem inline_valid_in_order_both : ∃ s : ChatState,
    ChatRun chatPrimitives chatApp (fill 32 7)
      (fun s event => Calm s event ∧ InOrder chatPrimitives s event) s ∧
      s.answers = [(0, chatAccepted 0), (1, chatAccepted 1)] ∧
      AnsweredValid chatApp [1, 0, 7] (chatAccepted 0) ∧
      AnsweredValid chatApp [1, 1, 7] (chatAccepted 1) := by
  have hcalm : ∀ s t, Calm s (.checked t) := fun _ _ => trivial
  have hatCheck := @chatRun_both
    (fun s event => Calm s event ∧ InOrder chatPrimitives s event)
    fun s event hcalm hnot => ⟨hcalm, by
      cases event with
      | checked t => exact absurd rfl (hnot t)
      | _ => trivial⟩
  have hfirst : InOrder chatPrimitives bothAtCheck (.checked 0) := by
    intro _ _ _ _ _ _ entry hentry
    exact absurd hentry List.not_mem_nil
  have hchecked : ChatRun chatPrimitives chatApp (fill 32 7) _ zeroChecked :=
    hatCheck.step ⟨hcalm _ 0, hfirst⟩
      (.checked epoch (rfl : bothAtCheck.calls 0 = some (chatStage 0)) rfl rfl)
  have hsecond : InOrder chatPrimitives zeroChecked (.checked 1) := by
    intro work receiptBytes claims doc report hstage entry hentry _
    obtain rfl := List.mem_singleton.mp hentry
    cases Option.some.inj hstage
    decide
  have hboth := hchecked.step ⟨hcalm _ 1, hsecond⟩
    (.checked epoch (rfl : zeroChecked.calls 1 = some (chatStage 1)) rfl rfl)
  obtain ⟨hvalid, -⟩ := @inline_valid_in_order _ _ _ _ _ _ chatLawful rfl rfl (by decide) hboth 0
    epoch [1, 0, 7] (List.mem_append_left _ (List.mem_of_getLast? rfl))
  obtain ⟨hvalid', -⟩ := inline_valid_in_order chatLawful rfl rfl (by decide) hboth
    (List.mem_of_getLast? rfl)
  refine ⟨_, hboth, rfl, hvalid _ (List.mem_cons_self), ?_⟩
  exact hvalid' _ (List.mem_cons_of_mem _ (List.mem_singleton_self _))

/-- Two calls get the numbers 0 and 1, and number 1 is checked first: the call with number 0 is
told that its receipt is invalid. -/
theorem inline_invalid_out_of_order : ∃ (s : ChatState) (answer : Chat.Answer),
    ChatRun chatPrimitives chatApp (fill 32 7) Calm s ∧
      .returned 0 epoch (.ok [1, 0, 7]) ∈ s.events ∧ (0, answer) ∈ s.answers ∧
      ¬ AnsweredValid chatApp [1, 0, 7] answer := by
  have hatCheck := @chatRun_both Calm fun _ _ hcalm _ => hcalm
  have hcalm : ∀ s t, Calm s (.checked t) := fun _ _ => trivial
  have hlater := hatCheck.step (hcalm _ 1) (.checked epoch (atCheck_calls _ 1 1 1) rfl rfl)
  have hwaiting : Function.update bothAtCheck.calls 1 none 0 = some (chatStage 0) := rfl
  have hearlier := hlater.step (hcalm _ 0) (.checked epoch hwaiting rfl rfl)
  refine ⟨_, _, hearlier, ?_, List.mem_append_right _ (List.mem_singleton_self _), ?_⟩
  · exact List.mem_append_left _ (List.mem_of_getLast? rfl)
  · rintro ⟨response, result, hanswer, -, hresult, hvalid⟩
    obtain rfl := Except.ok.inj hanswer
    obtain rfl := Option.some.inj hresult
    cases hvalid

end Veriai.Transparent
