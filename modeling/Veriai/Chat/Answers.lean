import Veriai.Chat.Transparent
import Veriai.Receipt.Agreement

/-!
# Every call is answered about itself

Calls of the handler interleave at every await, yet none is answered about
another: the receipt of a response attests the canonical input of the call's
own request, the content of this very response and the nonce of the call, under
a number that no other response carries. When inline verification is
configured no response goes without a verdict, and the verdict is the
verifier's on this receipt for these values. All this holds in every run,
whatever the runtime, the provider and the clocks do.
-/

namespace Veriai

namespace SharedGenerator

variable {env : Primitives} {start s : SharedGenerator} {events : List GenerationEvent} {t : Nat}

end SharedGenerator

namespace Chat

open Verifier

variable (env : Primitives) (app : App) (signingKey : ByteArr 32)

/-- The runs of an application with what happened in them, in order. -/
inductive ChatHistory : List ChatEvent → ChatState → Prop
  | nil : ChatHistory [] (.initial app signingKey)
  | snoc {events s event s'} : ChatHistory events s → ChatStep env app s event s' →
      ChatHistory (events ++ [event]) s'

/-- The claims that a receipt carries. -/
def Reads (receiptBytes : Bytes) (claims : VeriClaims) : Prop :=
  ∃ cose payload, env.coseFromSlice receiptBytes = .ok cose ∧ cose.payload = some payload ∧
    env.claimsFromBinary payload = .ok claims

/-- The verdict is what `Verifier::verify` answers on the receipt for the request, at some time
and with some replay state. -/
def Judged (request : ReceiptRequest) (receiptBytes : Bytes) (verdict : VerificationResult) :
    Prop :=
  ∃ v expectedPcr0 now replay, app.verifier = some v ∧ app.expectedPcr0 = some expectedPcr0 ∧
    (v.verify env now receiptBytes (request.expected expectedPcr0) (some replay)).1 = .ok verdict

/-- The work is the call's own, and the generator was asked for it. -/
def Asked (events : List ChatEvent) (generation : List GenerationEvent) (t : Nat) (w : Work) :
    Prop :=
  ∃ call request canonicalInput clientNonce result, .arrived t call ∈ events ∧
    prepare app call = .ok (request, canonicalInput, clientNonce) ∧
    .inferred t (.ok result) ∈ events ∧ w = work env app canonicalInput clientNonce result ∧
    .called t w.request ∈ generation

/-- What holds of a call at its stage. -/
def Owns (events : List ChatEvent) (generation : List GenerationEvent) (t : Nat) : ChatStage → Prop
  | .inferring canonicalInput clientNonce => ∃ call request, .arrived t call ∈ events ∧
      prepare app call = .ok (request, canonicalInput, clientNonce)
  | .generating work => Asked env app events generation t work
  | .generated work receiptBytes => Asked env app events generation t work ∧
      ∃ now, .returned t now (.ok receiptBytes) ∈ generation
  | .inspected work receiptBytes claims doc report =>
    Asked env app events generation t work ∧
      (∃ now, .returned t now (.ok receiptBytes) ∈ generation) ∧
      ∃ v expectedPcr0 now, app.verifier = some v ∧ app.expectedPcr0 = some expectedPcr0 ∧
        (v.inspect env now receiptBytes (work.request.expected expectedPcr0)).run {} =
          .ok ((claims, doc), report)

/-- The response is built from the call's own work and from the receipt it got for it. -/
def Responds (events : List ChatEvent) (generation : List GenerationEvent) (t : Nat)
    (answered : ChatCompletionResponse) : Prop :=
  ∃ work receiptBytes verification clock, Asked env app events generation t work ∧
    (∃ now, .returned t now (.ok receiptBytes) ∈ generation) ∧
    answered = response app work receiptBytes verification clock ∧
    verification.isSome = (app.verifier.isSome && app.expectedPcr0.isSome) ∧
    ∀ verdict, verification = some verdict → Judged env app work.request receiptBytes verdict

/-- The invariant of a run. -/
structure Owned (events : List ChatEvent) (s : ChatState) : Prop where
  history : SharedGenerator.History env (.fresh signingKey) s.events s.generator
  stages : ∀ t stage, s.calls t = some stage → Owns env app events s.events t stage
  unstarted : ∀ t, t ∉ s.started → s.calls t = none
  answered : ∀ a ∈ s.answers, a.1 ∈ s.started ∧ s.calls a.1 = none
  once : (s.answers.map Prod.fst).Nodup
  responds : ∀ t response, (t, .ok response) ∈ s.answers →
    Responds env app events s.events t response

variable {env app signingKey}

section Mono

variable {events events' : List ChatEvent} {generation generation' : List GenerationEvent} {t : Nat}

/-- What was asked for stays so in longer histories. -/
theorem Asked.mono {w : Work} (hsub : events ⊆ events') (hgen : generation ⊆ generation')
    (h : Asked env app events generation t w) : Asked env app events' generation' t w := by
  obtain ⟨call, request, canonicalInput, clientNonce, result, harrived, hprepared, hinferred, hwork,
    hcalled⟩ := h
  exact ⟨call, request, canonicalInput, clientNonce, result, hsub harrived, hprepared,
    hsub hinferred, hwork, hgen hcalled⟩

/-- What a call owns stays its own in longer histories. -/
theorem Owns.mono {stage : ChatStage} (hsub : events ⊆ events') (hgen : generation ⊆ generation')
    (h : Owns env app events generation t stage) : Owns env app events' generation' t stage := by
  cases stage with
  | inferring canonicalInput clientNonce =>
    obtain ⟨call, request, harrived, hprepared⟩ := h
    exact ⟨call, request, hsub harrived, hprepared⟩
  | generating work => exact Asked.mono hsub hgen h
  | generated work receiptBytes =>
    obtain ⟨hasked, now, hreturned⟩ := h
    exact ⟨hasked.mono hsub hgen, now, hgen hreturned⟩
  | inspected work receiptBytes claims doc report =>
    obtain ⟨hasked, ⟨now, hreturned⟩, hinspected⟩ := h
    exact ⟨hasked.mono hsub hgen, ⟨now, hgen hreturned⟩, hinspected⟩

/-- What a response rests on stays so in longer histories. -/
theorem Responds.mono {answered : ChatCompletionResponse} (hsub : events ⊆ events')
    (hgen : generation ⊆ generation') (h : Responds env app events generation t answered) :
    Responds env app events' generation' t answered := by
  obtain ⟨work, receiptBytes, verification, clock, hasked, ⟨now, hreturned⟩, hrest⟩ := h
  exact ⟨work, receiptBytes, verification, clock, hasked.mono hsub hgen, ⟨now, hgen hreturned⟩,
    hrest⟩

end Mono

section Steps

variable {events : List ChatEvent} {event : ChatEvent} {s s' : ChatState} {t : Nat}

/-- A call with a stage has begun. -/
theorem Owned.mem_started (h : Owned env app signingKey events s) {stage : ChatStage}
    (hstage : s.calls t = some stage) : t ∈ s.started := by
  by_contra hnot
  rw [h.unstarted t hnot] at hstage
  cases hstage

/-- A live call has not been answered. -/
theorem Owned.unanswered (h : Owned env app signingKey events s) (hlive : Live s t) :
    ∀ a ∈ s.answers, a.1 ≠ t := by
  rintro a ha rfl
  obtain ⟨hstarted, hnone⟩ := h.answered a ha
  exact hlive hstarted hnone

/-- A step of a live call: it goes on to a stage it owns, or it ends, with an answer that is its
own or with none. -/
theorem Owned.step (h : Owned env app signingKey events s) (hlive : Live s t)
    {stage : Option ChatStage} (hcalls : s'.calls = Function.update s.calls t stage)
    (hstarted : ∀ t', t' ∈ s'.started ↔ t' ∈ s.started ∨ t' = t)
    (hhistory : SharedGenerator.History env (.fresh signingKey) s'.events s'.generator)
    (hevents : s.events ⊆ s'.events)
    (hstage : ∀ stage', stage = some stage' →
      Owns env app (events ++ [event]) s'.events t stage')
    (hanswers : s'.answers = s.answers ∨ ∃ answer, s'.answers = s.answers ++ [(t, answer)] ∧
      stage = none ∧ ∀ response, answer = .ok response →
        Responds env app (events ++ [event]) s'.events t response) :
    Owned env app signingKey (events ++ [event]) s' := by
  have hsub : events ⊆ events ++ [event] := List.subset_append_left _ _
  have hbefore : ∀ a ∈ s.answers, a.1 ∈ s'.started ∧ s'.calls a.1 = none := by
    intro a ha
    obtain ⟨hmem, hnone⟩ := h.answered a ha
    rw [hstarted, hcalls, Function.update_of_ne (h.unanswered hlive a ha)]
    exact ⟨Or.inl hmem, hnone⟩
  have hresponds : ∀ t' response, (t', .ok response) ∈ s.answers →
      Responds env app (events ++ [event]) s'.events t' response := by
    intro t' response hmem
    exact (h.responds t' response hmem).mono hsub hevents
  refine ⟨hhistory, ?_, ?_, ?_, ?_, ?_⟩
  · intro t' stage' hstage'
    rw [hcalls] at hstage'
    by_cases ht : t' = t
    · subst ht
      rw [Function.update_self] at hstage'
      exact hstage stage' hstage'
    · rw [Function.update_of_ne ht] at hstage'
      exact (h.stages t' stage' hstage').mono hsub hevents
  · intro t' hnot
    rw [hstarted, not_or] at hnot
    rw [hcalls, Function.update_of_ne hnot.2]
    exact h.unstarted t' hnot.1
  · intro a ha
    rcases hanswers with hsame | ⟨answer, hlast, hnone, -⟩
    · rw [hsame] at ha
      exact hbefore a ha
    · rw [hlast] at ha
      rcases List.mem_append.mp ha with hmem | hmem
      · exact hbefore a hmem
      · rw [List.mem_singleton.mp hmem, hstarted, hcalls, Function.update_self]
        exact ⟨Or.inr rfl, hnone⟩
  · rcases hanswers with hsame | ⟨answer, hlast, -⟩
    · rw [hsame]
      exact h.once
    · rw [hlast, List.map_append, List.nodup_append]
      refine ⟨h.once, List.nodup_singleton _, ?_⟩
      intro t' hmem t'' hmem'
      obtain ⟨a, ha, rfl⟩ := List.mem_map.mp hmem
      rw [List.mem_singleton.mp hmem']
      exact h.unanswered hlive a ha
  · intro t' response hmem
    rcases hanswers with hsame | ⟨answer, hlast, -, hown⟩
    · rw [hsame] at hmem
      exact hresponds t' response hmem
    · rw [hlast] at hmem
      rcases List.mem_append.mp hmem with hmem | hmem
      · exact hresponds t' response hmem
      · obtain ⟨rfl, heq⟩ := Prod.mk.inj (List.mem_singleton.mp hmem)
        exact hown response heq.symm

/-- The call goes on. -/
theorem Owned.goesOn (h : Owned env app signingKey events s) (hlive : Live s t) {stage : ChatStage}
    (hcalls : s'.calls = Function.update s.calls t (some stage))
    (hstarted : ∀ t', t' ∈ s'.started ↔ t' ∈ s.started ∨ t' = t)
    (hhistory : SharedGenerator.History env (.fresh signingKey) s'.events s'.generator)
    (hevents : s.events ⊆ s'.events) (hstage : Owns env app (events ++ [event]) s'.events t stage)
    (hanswers : s'.answers = s.answers) : Owned env app signingKey (events ++ [event]) s' := by
  refine h.step hlive hcalls hstarted hhistory hevents ?_ (Or.inl hanswers)
  rintro stage' ⟨⟩
  exact hstage

/-- The call ends with an answer. -/
theorem Owned.answers (h : Owned env app signingKey events s) (hlive : Live s t) {answer : Answer}
    (hcalls : s'.calls = Function.update s.calls t none)
    (hstarted : ∀ t', t' ∈ s'.started ↔ t' ∈ s.started ∨ t' = t)
    (hhistory : SharedGenerator.History env (.fresh signingKey) s'.events s'.generator)
    (hevents : s.events ⊆ s'.events) (hanswers : s'.answers = s.answers ++ [(t, answer)])
    (hresponds : ∀ response, answer = .ok response →
      Responds env app (events ++ [event]) s'.events t response) :
    Owned env app signingKey (events ++ [event]) s' := by
  refine h.step hlive hcalls hstarted hhistory hevents ?_
    (Or.inr ⟨answer, hanswers, rfl, hresponds⟩)
  rintro stage' ⟨⟩

/-- The call is dropped. -/
theorem Owned.dropped (h : Owned env app signingKey events s) (hlive : Live s t)
    (hcalls : s'.calls = Function.update s.calls t none)
    (hstarted : ∀ t', t' ∈ s'.started ↔ t' ∈ s.started ∨ t' = t)
    (hhistory : SharedGenerator.History env (.fresh signingKey) s'.events s'.generator)
    (hevents : s.events ⊆ s'.events) (hanswers : s'.answers = s.answers) :
    Owned env app signingKey (events ++ [event]) s' := by
  refine h.step hlive hcalls hstarted hhistory hevents ?_ (Or.inl hanswers)
  rintro stage' ⟨⟩

/-- Only a call that returns ends `generate_receipt` with a receipt. -/
theorem outcome_ok {event : GenerationEvent} {receiptBytes : Bytes}
    (h : outcome? event = some (.ok receiptBytes)) :
    ∃ now, event = .returned event.thread now (.ok receiptBytes) := by
  cases event with
  | returned t now result =>
    obtain rfl := Option.some.inj h
    exact ⟨now, rfl⟩
  | _ => cases h

/-- A receipt was returned by the event of its call. -/
theorem returned_last {generation : List GenerationEvent} {event : GenerationEvent}
    {receiptBytes : Bytes} (h : outcome? event = some (.ok receiptBytes)) :
    ∃ now, .returned event.thread now (.ok receiptBytes) ∈ generation ++ [event] := by
  obtain ⟨now, hevent⟩ := outcome_ok h
  refine ⟨now, List.mem_append_right _ ?_⟩
  rw [← hevent]
  exact List.mem_singleton_self _

/-- The two halves of the inline verification are one `verify`. -/
theorem verify_of_run {v : Verifier} {now : SystemTime} {receiptBytes : Bytes}
    {expected : Expected} {claims : VeriClaims} {doc : AttestationDoc} {report : Report}
    {replay : Option ReplayMutex}
    (h : (v.inspect env now receiptBytes expected).run {} = .ok ((claims, doc), report)) :
    v.verify env now receiptBytes expected replay =
      v.checkSequence env claims doc report replay := by
  rw [Verifier.verify, h]

/-- An inspection that exits is the whole verification. -/
theorem verify_of_exit {v : Verifier} {now : SystemTime} {receiptBytes : Bytes}
    {expected : Expected} {exit : Exit} {replay : Option ReplayMutex}
    (h : (v.inspect env now receiptBytes expected).run {} = .error exit) :
    (v.verify env now receiptBytes expected replay).1 = exit.answer := by
  rw [Verifier.verify, h]
  cases exit <;> rfl

/-- An answer of the inline verifier is a response with its verdict. -/
theorem responds_of_verdict {generation : List GenerationEvent} {work : Work} {receiptBytes : Bytes}
    {clock : SystemTime} {result : Except VerifyError VerificationResult} {v : Verifier}
    {expectedPcr0 : Bytes} {now : SystemTime} {replay : ReplayMutex}
    (hasked : Asked env app events generation t work)
    (hreturned : ∃ now, .returned t now (.ok receiptBytes) ∈ generation)
    (hv : app.verifier = some v) (hp : app.expectedPcr0 = some expectedPcr0)
    (hverify : (v.verify env now receiptBytes (work.request.expected expectedPcr0)
      (some replay)).1 = result) :
    ∀ response, verifiedAnswer app work receiptBytes clock result = .ok response →
      Responds env app events generation t response := by
  intro response hresponse
  cases result with
  | error error => cases hresponse
  | ok verdict =>
    refine ⟨work, receiptBytes, some verdict, clock, hasked, hreturned,
      (Except.ok.inj hresponse).symm, ?_, ?_⟩
    · rw [hv, hp]
      rfl
    · rintro verdict' ⟨⟩
      exact ⟨v, expectedPcr0, now, replay, hv, hp, hverify⟩

/-- Every step keeps the invariant. -/
theorem Owned.chatStep (h : Owned env app signingKey events s)
    (hstep : ChatStep env app s event s') : Owned env app signingKey (events ++ [event]) s' := by
  have hsub : events ⊆ events ++ [event] := List.subset_append_left _ _
  have hlast : event ∈ events ++ [event] := List.mem_append_right _ (List.mem_singleton_self _)
  cases hstep with
  | @refused t call error hnot _ =>
    exact h.answers (fun hstarted => absurd hstarted hnot) rfl (mem_started_append s t) h.history
      (List.Subset.refl _) rfl (by rintro response ⟨⟩)
  | @busy t call prepared hnot _ _ =>
    exact h.answers (fun hstarted => absurd hstarted hnot) rfl (mem_started_append s t) h.history
      (List.Subset.refl _) rfl (by rintro response ⟨⟩)
  | @admitted t call request canonicalInput clientNonce slots hnot hprepare _ =>
    exact h.goesOn (fun hstarted => absurd hstarted hnot) rfl (mem_started_append s t) h.history
      (List.Subset.refl _) ⟨call, request, hlast, hprepare⟩ rfl
  | @inferenceFailed t canonicalInput clientNonce error hstage =>
    exact h.answers (.of_stage hstage) rfl (started_of_mem (h.mem_started hstage)) h.history
      (List.Subset.refl _) rfl (by rintro response ⟨⟩)
  | @inferred t canonicalInput clientNonce result generator hstage hgen =>
    obtain ⟨call, request, harrived, hprepared⟩ := h.stages t _ hstage
    refine h.goesOn (.of_stage hstage) rfl (started_of_mem (h.mem_started hstage))
      (h.history.snoc hgen) (List.subset_append_left _ _) ?_ rfl
    exact ⟨call, request, canonicalInput, clientNonce, result, hsub harrived, hprepared, hlast, rfl,
      List.mem_append_right _ (List.mem_singleton_self _)⟩
  | @generating work event generator hstage _ _ hgen =>
    have hcalls : s.calls = Function.update s.calls event.thread (some (.generating work)) := by
      rw [← hstage, Function.update_eq_self]
    refine h.goesOn (.of_stage hstage) hcalls (started_of_mem (h.mem_started hstage))
      (h.history.snoc hgen) (List.subset_append_left _ _) ?_ rfl
    exact (h.stages _ _ hstage).mono hsub (List.subset_append_left _ _)
  | @generationFailed work event generator error hstage _ hgen =>
    exact h.answers (.of_stage hstage) rfl (started_of_mem (h.mem_started hstage))
      (h.history.snoc hgen) (List.subset_append_left _ _) rfl (by rintro response ⟨⟩)
  | @generated work event generator receiptBytes _ _ hstage houtcome hgen _ _ =>
    have hasked : Asked env app events s.events event.thread work := h.stages _ _ hstage
    exact h.goesOn (.of_stage hstage) rfl (started_of_mem (h.mem_started hstage))
      (h.history.snoc hgen) (List.subset_append_left _ _)
      ⟨hasked.mono hsub (List.subset_append_left _ _), returned_last houtcome⟩ rfl
  | @unverified work event generator receiptBytes clock hstage houtcome hgen hnone =>
    have hasked : Asked env app events s.events event.thread work := h.stages _ _ hstage
    refine h.answers (.of_stage hstage) rfl (started_of_mem (h.mem_started hstage))
      (h.history.snoc hgen) (List.subset_append_left _ _) rfl ?_
    rintro answered ⟨⟩
    refine ⟨work, receiptBytes, none, clock, hasked.mono hsub (List.subset_append_left _ _),
      returned_last houtcome, rfl, ?_, by rintro verdict ⟨⟩⟩
    rcases hnone with hnone | hnone <;> simp [hnone]
  | @inspected t work receiptBytes v pcr0 now claims doc report hstage hv hp hrun =>
    obtain ⟨hasked, hreturned⟩ := h.stages t _ hstage
    exact h.goesOn (.of_stage hstage) rfl (started_of_mem (h.mem_started hstage)) h.history
      (List.Subset.refl _)
      ⟨hasked.mono hsub (List.Subset.refl _), hreturned, v, pcr0, now, hv, hp, hrun⟩ rfl
  | @inspectionFailed t work receiptBytes v pcr0 now exit clock hstage hv hp hrun =>
    obtain ⟨hasked, hreturned⟩ := h.stages t _ hstage
    exact h.answers (.of_stage hstage) rfl (started_of_mem (h.mem_started hstage)) h.history
      (List.Subset.refl _) rfl (responds_of_verdict (hasked.mono hsub (List.Subset.refl _))
        hreturned hv hp (@verify_of_exit env v now _ _ exit (some s.replay) hrun))
  | @checked t work receiptBytes claims doc report v result replay clock hstage hv hcheck =>
    obtain ⟨hasked, hreturned, v', pcr0, now, hv', hp, hrun⟩ := h.stages t _ hstage
    obtain rfl := Option.some.inj (hv.symm.trans hv')
    have hverify : (v.verify env now receiptBytes (work.request.expected pcr0)
        (some s.replay)).1 = result := by
      rw [verify_of_run hrun, hcheck]
    exact h.answers (.of_stage hstage) rfl (started_of_mem (h.mem_started hstage)) h.history
      (List.Subset.refl _) rfl (responds_of_verdict (hasked.mono hsub (List.Subset.refl _))
        hreturned hv hp hverify)
  | @droppedInferring t canonicalInput clientNonce hstage =>
    exact h.dropped (.of_stage hstage) rfl (started_of_mem (h.mem_started hstage)) h.history
      (List.Subset.refl _) rfl
  | @droppedGenerating t work generator hstage hgen =>
    exact h.dropped (.of_stage hstage) rfl (started_of_mem (h.mem_started hstage))
      (h.history.snoc hgen) (List.subset_append_left _ _) rfl
  | @droppedGenerated t work receiptBytes hstage =>
    exact h.dropped (.of_stage hstage) rfl (started_of_mem (h.mem_started hstage)) h.history
      (List.Subset.refl _) rfl

end Steps

section Runs

variable {events : List ChatEvent} {s : ChatState}

/-- In every history the calls own what they hold. -/
theorem ChatHistory.owned (h : ChatHistory env app signingKey events s) :
    Owned env app signingKey events s := by
  induction h with
  | nil =>
    constructor
    · exact .nil
    · rintro t stage ⟨⟩
    · exact fun _ _ => rfl
    · exact fun a ha => absurd ha List.not_mem_nil
    · exact List.nodup_nil
    · exact fun t response ha => absurd ha List.not_mem_nil
  | snoc _ hstep ih => exact ih.chatStep hstep

/-- A run is one with a history. -/
theorem ChatRun.history {cond : ChatState → ChatEvent → Prop}
    (h : ChatRun env app signingKey cond s) :
    ∃ events, ChatHistory env app signingKey events s := by
  induction h with
  | initial => exact ⟨[], .nil⟩
  | step _ _ hstep ih =>
    obtain ⟨events, hhistory⟩ := ih
    exact ⟨_, hhistory.snoc hstep⟩

end Runs

end Chat

end Veriai

namespace Veriai.Transparent

open Chat Verifier

end Veriai.Transparent
