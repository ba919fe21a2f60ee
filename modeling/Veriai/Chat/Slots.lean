import Mathlib.Data.Finset.Card
import Veriai.Chat.Transparent

/-!
# The inference slots

`try_acquire_owned` takes a slot, and every way out of the inference gives it
back: the answer of the runtime, its failure, and the drop of the call. So in
every run, whatever happens in it, the free slots and the calls that await the
runtime make up the configured capacity, and a call is turned away as busy
exactly while that many calls await the runtime.
-/

namespace Veriai.Chat

/-- The call holds an inference slot. -/
def ChatStage.awaits : ChatStage → Bool
  | .inferring _ _ => true
  | _ => false

/-- Only a call in its inference waits for the runtime. -/
theorem ChatStage.awaits_iff {stage : ChatStage} :
    stage.awaits = true ↔ ∃ canonicalInput clientNonce,
      stage = .inferring canonicalInput clientNonce := by
  cases stage <;> simp [ChatStage.awaits]

/-- The calls that await the runtime. -/
def ChatState.awaiting (s : ChatState) : Finset Nat :=
  s.started.toFinset.filter fun t => (s.calls t).any ChatStage.awaits

variable {env : Primitives} {app : App} {signingKey : ByteArr 32} {s s' : ChatState} {t : Nat}

/-- A call waits for the runtime if it has begun and its stage says so. -/
theorem mem_awaiting :
    t ∈ s.awaiting ↔ t ∈ s.started ∧ (s.calls t).any ChatStage.awaits = true := by
  rw [ChatState.awaiting, Finset.mem_filter, List.mem_toFinset]

/-- A call that goes on, or ends, awaits the runtime after it or not; the others as before. -/
theorem awaiting_update {stage : Option ChatStage}
    (hcalls : s'.calls = Function.update s.calls t stage)
    (hstarted : ∀ t', t' ∈ s'.started ↔ t' ∈ s.started ∨ t' = t) :
    s'.awaiting =
      if stage.any ChatStage.awaits then insert t s.awaiting else s.awaiting.erase t := by
  ext t'
  rw [mem_awaiting, hstarted, hcalls]
  by_cases ht : t' = t
  · subst ht
    rw [Function.update_self]
    split <;> simp [*]
  · rw [Function.update_of_ne ht]
    split <;> simp [ht, mem_awaiting]

/-- The slots of a state: none is lost, and none is given back twice. -/
structure Slotted (app : App) (s : ChatState) : Prop where
  conserved : s.slots + s.awaiting.card = app.maxConcurrentInferences
  unstarted : ∀ t, t ∉ s.started → s.calls t = none
  answered : ∀ a ∈ s.answers, a.1 ∈ s.started

namespace Slotted

/-- At first all slots are free. -/
theorem initial : Slotted app (.initial app signingKey) where
  conserved := by simp [ChatState.initial, ChatState.awaiting]
  unstarted _ _ := rfl
  answered _ ha := absurd ha List.not_mem_nil

/-- A call with a stage has begun. -/
theorem mem_started (h : Slotted app s) {stage : ChatStage} (hstage : s.calls t = some stage) :
    t ∈ s.started := by
  by_contra hnot
  rw [h.unstarted t hnot] at hstage
  cases hstage

/-- A call waits for the runtime exactly in its inference. -/
theorem mem_awaiting_iff (h : Slotted app s) : t ∈ s.awaiting ↔
    ∃ canonicalInput clientNonce, s.calls t = some (.inferring canonicalInput clientNonce) := by
  rw [mem_awaiting]
  constructor
  · rintro ⟨-, hawaits⟩
    cases hstage : s.calls t with
    | none => simp [hstage] at hawaits
    | some stage =>
      rw [hstage, Option.any_some, ChatStage.awaits_iff] at hawaits
      obtain ⟨canonicalInput, clientNonce, rfl⟩ := hawaits
      exact ⟨canonicalInput, clientNonce, rfl⟩
  · rintro ⟨canonicalInput, clientNonce, hstage⟩
    refine ⟨h.mem_started hstage, ?_⟩
    rw [hstage]
    rfl

/-- A call in its inference waits for the runtime. -/
theorem mem_awaiting_of (h : Slotted app s) {canonicalInput : Bytes} {clientNonce : ByteArr 32}
    (hstage : s.calls t = some (.inferring canonicalInput clientNonce)) : t ∈ s.awaiting :=
  h.mem_awaiting_iff.mpr ⟨canonicalInput, clientNonce, hstage⟩

/-- A call in another stage does not. -/
theorem not_awaiting_of {stage : ChatStage} (hstage : s.calls t = some stage)
    (hawaits : stage.awaits = false) : t ∉ s.awaiting := by
  rw [mem_awaiting, hstage]
  simp [hawaits]

/-- A call that has not begun does not. -/
theorem not_awaiting_new (hnot : t ∉ s.started) : t ∉ s.awaiting := by
  rw [mem_awaiting]
  simp [hnot]

/-- What a step does to its own call, whatever it does to the slots. -/
theorem update (h : Slotted app s) {stage : Option ChatStage}
    (hcalls : s'.calls = Function.update s.calls t stage)
    (hstarted : ∀ t', t' ∈ s'.started ↔ t' ∈ s.started ∨ t' = t)
    (hanswers : ∀ a ∈ s'.answers, a ∈ s.answers ∨ a.1 = t)
    (hconserved : s'.slots + s'.awaiting.card = s.slots + s.awaiting.card) : Slotted app s' where
  conserved := hconserved.trans h.conserved
  unstarted t' hnot := by
    rw [hstarted, not_or] at hnot
    rw [hcalls, Function.update_of_ne hnot.2]
    exact h.unstarted t' hnot.1
  answered a ha := by
    rw [hstarted]
    rcases hanswers a ha with hbefore | hlast
    · exact Or.inl (h.answered a hbefore)
    · exact Or.inr hlast

/-- The call takes a slot. -/
theorem acquires (h : Slotted app s) {stage : ChatStage} (hawaits : stage.awaits = true)
    (hnot : t ∉ s.awaiting) (hcalls : s'.calls = Function.update s.calls t (some stage))
    (hstarted : ∀ t', t' ∈ s'.started ↔ t' ∈ s.started ∨ t' = t)
    (hanswers : ∀ a ∈ s'.answers, a ∈ s.answers ∨ a.1 = t) (hslots : s.slots = s'.slots + 1) :
    Slotted app s' := by
  refine h.update hcalls hstarted hanswers ?_
  have hawaiting := awaiting_update hcalls hstarted
  rw [Option.any_some, if_pos hawaits] at hawaiting
  rw [hawaiting, Finset.card_insert_of_notMem hnot]
  omega

/-- The call gives its slot back. -/
theorem releases (h : Slotted app s) {stage : Option ChatStage}
    (hawaits : stage.any ChatStage.awaits = false) (hmem : t ∈ s.awaiting)
    (hcalls : s'.calls = Function.update s.calls t stage)
    (hstarted : ∀ t', t' ∈ s'.started ↔ t' ∈ s.started ∨ t' = t)
    (hanswers : ∀ a ∈ s'.answers, a ∈ s.answers ∨ a.1 = t) (hslots : s'.slots = s.slots + 1) :
    Slotted app s' := by
  refine h.update hcalls hstarted hanswers ?_
  have hawaiting := awaiting_update hcalls hstarted
  rw [hawaits, if_neg Bool.false_ne_true] at hawaiting
  have hcard := Finset.card_erase_add_one hmem
  rw [hawaiting]
  omega

/-- The call has no slot, neither before nor after. -/
theorem keeps (h : Slotted app s) {stage : Option ChatStage}
    (hawaits : stage.any ChatStage.awaits = false) (hnot : t ∉ s.awaiting)
    (hcalls : s'.calls = Function.update s.calls t stage)
    (hstarted : ∀ t', t' ∈ s'.started ↔ t' ∈ s.started ∨ t' = t)
    (hanswers : ∀ a ∈ s'.answers, a ∈ s.answers ∨ a.1 = t) (hslots : s'.slots = s.slots) :
    Slotted app s' := by
  refine h.update hcalls hstarted hanswers ?_
  have hawaiting := awaiting_update hcalls hstarted
  rw [hawaits, if_neg Bool.false_ne_true, Finset.erase_eq_of_notMem hnot] at hawaiting
  rw [hawaiting, hslots]

theorem answers_same {answers : List (Nat × Answer)} :
    ∀ a ∈ answers, a ∈ answers ∨ a.1 = t := fun _ => Or.inl

/-- An answer that is new is the answer of the call that moves. -/
theorem answers_last {answer : Answer} :
    ∀ a ∈ s.answers ++ [(t, answer)], a ∈ s.answers ∨ a.1 = t := by
  intro a ha
  rw [List.mem_append, List.mem_singleton] at ha
  rcases ha with hbefore | rfl
  · exact Or.inl hbefore
  · exact Or.inr rfl

/-- Every step keeps the slots. -/
theorem chatStep (h : Slotted app s) {event : ChatEvent} (hstep : ChatStep env app s event s') :
    Slotted app s' := by
  cases hstep with
  | refused hnot _ =>
    exact h.keeps rfl (not_awaiting_new hnot) rfl (mem_started_append s _) answers_last rfl
  | busy hnot _ _ =>
    exact h.keeps rfl (not_awaiting_new hnot) rfl (mem_started_append s _) answers_last rfl
  | admitted hnot _ hslots =>
    exact h.acquires rfl (not_awaiting_new hnot) rfl (mem_started_append s _) answers_same hslots
  | inferenceFailed hstage =>
    exact h.releases rfl (h.mem_awaiting_of hstage) rfl (started_of_mem (h.mem_started hstage))
      answers_last rfl
  | inferred hstage _ =>
    exact h.releases rfl (h.mem_awaiting_of hstage) rfl (started_of_mem (h.mem_started hstage))
      answers_same rfl
  | generating _ _ _ _ => exact ⟨h.conserved, h.unstarted, h.answered⟩
  | generationFailed hstage _ _ =>
    exact h.keeps rfl (not_awaiting_of hstage rfl) rfl (started_of_mem (h.mem_started hstage))
      answers_last rfl
  | generated hstage _ _ _ _ =>
    exact h.keeps rfl (not_awaiting_of hstage rfl) rfl (started_of_mem (h.mem_started hstage))
      answers_same rfl
  | unverified clock hstage _ _ _ =>
    exact h.keeps rfl (not_awaiting_of hstage rfl) rfl (started_of_mem (h.mem_started hstage))
      answers_last rfl
  | inspected hstage _ _ _ =>
    exact h.keeps rfl (not_awaiting_of hstage rfl) rfl (started_of_mem (h.mem_started hstage))
      answers_same rfl
  | inspectionFailed clock hstage _ _ _ =>
    exact h.keeps rfl (not_awaiting_of hstage rfl) rfl (started_of_mem (h.mem_started hstage))
      answers_last rfl
  | checked clock hstage _ _ =>
    exact h.keeps rfl (not_awaiting_of hstage rfl) rfl (started_of_mem (h.mem_started hstage))
      answers_last rfl
  | droppedInferring hstage =>
    exact h.releases rfl (h.mem_awaiting_of hstage) rfl (started_of_mem (h.mem_started hstage))
      answers_same rfl
  | droppedGenerating hstage _ =>
    exact h.keeps rfl (not_awaiting_of hstage rfl) rfl (started_of_mem (h.mem_started hstage))
      answers_same rfl
  | droppedGenerated hstage =>
    exact h.keeps rfl (not_awaiting_of hstage rfl) rfl (started_of_mem (h.mem_started hstage))
      answers_same rfl

end Slotted

/-- The slots are accounted for in every run. -/
theorem ChatRun.slotted {cond : ChatState → ChatEvent → Prop}
    (h : ChatRun env app signingKey cond s) : Slotted app s := by
  induction h with
  | initial => exact .initial
  | step _ _ hstep ih => exact ih.chatStep hstep

/-- A nonce that is refused is a bad request. -/
theorem requestNonce_status {call : ChatCall} {required : Bool} {error : ApiError}
    (h : requestNonceWithPolicy call required = .error error) : error.status = 400 := by
  unfold requestNonceWithPolicy at h
  split at h
  · split at h
    · obtain rfl := Except.error.inj h
      rfl
    · cases h
  · simp only [bind_eq_error, mapError_eq_error, okOr_eq_error] at h
    rcases h with ⟨-, rfl⟩ | ⟨_, -, ⟨_, -, rfl⟩ | ⟨_, -, -, rfl⟩⟩
    all_goals rfl

/-- A request that is refused is wrong, or cannot be coded. -/
theorem prepare_status {call : ChatCall} {error : ApiError} (h : prepare app call = .error error) :
    error.status = 400 ∨ error.status = 500 := by
  simp only [prepare, bind_eq_error, mapError_eq_error, refuseIf_eq_error] at h
  rcases h with ⟨_, -, rfl⟩ |
    ⟨_, -, ⟨-, rfl⟩ | ⟨_, -, ⟨_, -, rfl⟩ | ⟨_, -, hnonce | ⟨_, -, hpure⟩⟩⟩⟩
  · exact Or.inl rfl
  · exact Or.inl rfl
  · exact Or.inr rfl
  · exact Or.inl (requestNonce_status hnonce)
  · cases hpure

/-- No refusal of a request says that the slots are taken. -/
theorem prepare_not_busy {call : ChatCall} : prepare app call ≠ .error inferenceBusy := by
  intro h
  have hstatus := prepare_status h
  simp [inferenceBusy] at hstatus

/-- In every run, the free slots and the calls that await the runtime make up the capacity; and a
call that arrives is answered busy exactly when its request is in order and all slots are taken. -/
theorem chat_slots {cond : ChatState → ChatEvent → Prop}
    (h : ChatRun env app signingKey cond s) :
    s.slots + s.awaiting.card = app.maxConcurrentInferences ∧
      (∀ t, t ∈ s.awaiting ↔
        ∃ canonicalInput clientNonce, s.calls t = some (.inferring canonicalInput clientNonce)) ∧
      ∀ t call s', ChatStep env app s (.arrived t call) s' →
        ((t, .error inferenceBusy) ∈ s'.answers ↔
          (∃ prepared, prepare app call = .ok prepared) ∧
            s.awaiting.card = app.maxConcurrentInferences) := by
  have hslotted := h.slotted
  refine ⟨hslotted.conserved, fun t => hslotted.mem_awaiting_iff, ?_⟩
  intro t call s' hstep
  have hconserved := hslotted.conserved
  have hnew : t ∉ s.started → ∀ answer, (t, answer) ∉ s.answers := by
    intro hnot answer hanswer
    exact hnot (hslotted.answered _ hanswer)
  cases hstep with
  | @refused _ _ error hnot hprepare =>
    constructor
    · intro hanswer
      rcases List.mem_append.mp hanswer with hbefore | hlast
      · exact absurd hbefore (hnew hnot _)
      · have herror := Except.error.inj (Prod.mk.inj (List.mem_singleton.mp hlast)).2
        rw [← herror] at hprepare
        exact absurd hprepare prepare_not_busy
    · rintro ⟨⟨prepared, hprepared⟩, -⟩
      rw [hprepare] at hprepared
      cases hprepared
  | busy hnot hprepare hslots =>
    constructor
    · intro _
      exact ⟨⟨_, hprepare⟩, by omega⟩
    · intro _
      exact List.mem_append_right _ (List.mem_singleton_self _)
  | admitted hnot hprepare hslots =>
    constructor
    · intro hanswer
      exact absurd hanswer (hnew hnot _)
    · rintro ⟨-, hfull⟩
      omega

end Veriai.Chat

namespace Veriai.Transparent

open Chat

/-- One call takes the only slot, and the next is turned away. -/
theorem chat_slots_busy : ∃ s : ChatState,
    ChatRun chatPrimitives chatApp (fill 32 7) (fun _ _ => True) s ∧ s.awaiting = {0} ∧
      ∀ s', ChatStep chatPrimitives chatApp s (.arrived 1 chatCall) s' →
        (1, .error inferenceBusy) ∈ s'.answers := by
  have hadmitted := (@ChatRun.initial chatPrimitives chatApp (fill 32 7) fun _ _ => True).step
    trivial (.admitted (@List.not_mem_nil Nat 0) (rfl : prepare chatApp chatCall = .ok _) rfl)
  refine ⟨_, hadmitted, rfl, ?_⟩
  intro s' hstep
  obtain ⟨-, -, hbusy⟩ := chat_slots hadmitted
  exact (hbusy 1 chatCall s' hstep).mpr ⟨⟨_, rfl⟩, rfl⟩

end Veriai.Transparent
