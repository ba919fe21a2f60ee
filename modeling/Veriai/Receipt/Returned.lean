import Veriai.Receipt.Concurrent

/-!
# What the events of a generator say

Each receipt that a generator returns goes back to a call with its request, the
number allocated to the call and the report the provider gave for it, and no
number is returned twice.
-/

namespace Veriai

variable {env : Primitives}

namespace SharedGenerator

/-- What the events say of a call at its stage. -/
def Documented (events : List GenerationEvent) (t : Nat) : GenerationStage → Prop
  | .waiting request => .called t request ∈ events
  | .attesting request => .called t request ∈ events
  | .attested request report => .called t request ∈ events ∧ .attested t report ∈ events
  | .numbered request report sequence =>
    .called t request ∈ events ∧ .attested t report ∈ events ∧ .allocated t sequence ∈ events

theorem Documented.mono {events events' : List GenerationEvent} {t : Nat} {stage : GenerationStage}
    (hsub : events ⊆ events') (h : Documented events t stage) : Documented events' t stage := by
  cases stage with
  | waiting request => exact hsub h
  | attesting request => exact hsub h
  | attested request report => exact ⟨hsub h.1, hsub h.2⟩
  | numbered request report sequence => exact ⟨hsub h.1, hsub h.2.1, hsub h.2.2⟩

/-- The call goes on to a stage that the events document; the others stay where they are. -/
theorem Documented.update {events : List GenerationEvent} {event : GenerationEvent}
    {calls : Nat → Option GenerationStage} {t : Nat} {stage : Option GenerationStage}
    (h : ∀ t stage, calls t = some stage → Documented events t stage)
    (hstage : ∀ stage', stage = some stage' → Documented (events ++ [event]) t stage') :
    ∀ t' stage', Function.update calls t stage t' = some stage' →
      Documented (events ++ [event]) t' stage' := by
  intro t' stage' hcall
  by_cases he : t' = t
  · subst he
    rw [Function.update_self] at hcall
    exact hstage stage' hcall
  · rw [Function.update_of_ne he] at hcall
    exact (h t' stage' hcall).mono (List.subset_append_left _ _)

/-- The stage of a call is documented by the events. -/
theorem History.documented {signingKey : ByteArr 32} {events : List GenerationEvent}
    {s : SharedGenerator} (h : History env (fresh signingKey) events s) :
    ∀ t stage, s.calls t = some stage → Documented events t stage := by
  induction h with
  | nil =>
    intro t stage hstage
    cases hstage
  | @snoc events s event s' _ hstep ih =>
    have hlast : event ∈ events ++ [event] :=
      List.mem_append_right _ (List.mem_singleton_self _)
    have hsub : events ⊆ events ++ [event] := List.subset_append_left _ _
    have hended : ∀ (t : Nat) (stage' : GenerationStage), none = some stage' →
        Documented (events ++ [event]) t stage' := by
      intro t stage' hnone
      cases hnone
    cases hstep with
    | called hnew =>
      refine Documented.update ih ?_
      rintro stage' ⟨⟩
      exact hlast
    | locked hstage _ =>
      refine Documented.update ih ?_
      rintro stage' ⟨⟩
      exact hsub (ih _ _ hstage)
    | attested hstage _ =>
      refine Documented.update ih ?_
      rintro stage' ⟨⟩
      exact ⟨hsub (ih _ _ hstage), hlast⟩
    | allocated hstage _ =>
      refine Documented.update ih ?_
      rintro stage' ⟨⟩
      obtain ⟨hcalled, hattested⟩ := ih _ _ hstage
      exact ⟨hsub hcalled, hsub hattested, hlast⟩
    | unattested hstage _ => exact Documented.update ih (hended _)
    | exhausted hstage _ => exact Documented.update ih (hended _)
    | returned hstage => exact Documented.update ih (hended _)
    | droppedWaiting hstage => exact Documented.update ih (hended _)
    | droppedAttesting hstage => exact Documented.update ih (hended _)

/-- The call was asked for these values, attested by this report, numbered, and returned this
receipt. -/
structure Returns (env : Primitives) (signingKey : ByteArr 32) (events : List GenerationEvent)
    (t : Nat) (request : ReceiptRequest) (report : Bytes) (sequence : UInt64) (now : SystemTime)
    (receiptBytes : Bytes) : Prop where
  called : .called t request ∈ events
  attested : .attested t report ∈ events
  allocated : .allocated t sequence ∈ events
  returned : .returned t now (.ok receiptBytes) ∈ events
  built : ReceiptGenerator.buildReceipt env { signingKey } now request sequence report =
    .ok receiptBytes

theorem Returns.mono {signingKey : ByteArr 32} {events events' : List GenerationEvent} {t : Nat}
    {request : ReceiptRequest} {report receiptBytes : Bytes} {sequence : UInt64} {now : SystemTime}
    (hsub : events ⊆ events')
    (h : Returns env signingKey events t request report sequence now receiptBytes) :
    Returns env signingKey events' t request report sequence now receiptBytes :=
  ⟨hsub h.called, hsub h.attested, hsub h.allocated, hsub h.returned, h.built⟩

theorem Step.built {s s' : SharedGenerator} {t : Nat} {now : SystemTime}
    {result : Except VerifyError Bytes} (h : Step env s (.returned t now result) s') :
    ∃ request report sequence, s.calls t = some (.numbered request report sequence) ∧
      s.gen.buildReceipt env now request sequence report = result := by
  cases h with
  | returned hstage => exact ⟨_, _, _, hstage, rfl⟩

/-- A receipt was returned by a call that was asked for it. -/
theorem History.returns {signingKey : ByteArr 32} {events : List GenerationEvent}
    {s : SharedGenerator} (h : History env (fresh signingKey) events s) {t : Nat} {now : SystemTime}
    {receiptBytes : Bytes} (hreturned : .returned t now (.ok receiptBytes) ∈ events) :
    ∃ request report sequence,
      Returns env signingKey events t request report sequence now receiptBytes := by
  induction h with
  | nil => cases hreturned
  | @snoc events s event s' hist hstep ih =>
    have hsub : events ⊆ events ++ [event] := List.subset_append_left _ _
    rcases List.mem_append.mp hreturned with hbefore | hlast
    · obtain ⟨request, report, sequence, hreturns⟩ := ih hbefore
      exact ⟨request, report, sequence, hreturns.mono hsub⟩
    · obtain rfl := List.mem_singleton.mp hlast
      obtain ⟨request, report, sequence, hstage, hbuilt⟩ := hstep.built
      obtain ⟨hcalled, hattested, hallocated⟩ := hist.documented t _ hstage
      have hsame : s.gen.buildReceipt env = ReceiptGenerator.buildReceipt env { signingKey } :=
        ReceiptGenerator.buildReceipt_congr hist.signingKey
      rw [hsame] at hbuilt
      exact ⟨request, report, sequence, hsub hcalled, hsub hattested, hsub hallocated, hreturned,
        hbuilt⟩

/-- A call that has returned is over. -/
theorem History.returned_over {signingKey : ByteArr 32} {events : List GenerationEvent}
    {s : SharedGenerator} (h : History env (fresh signingKey) events s) {t : Nat} {now : SystemTime}
    {result : Except VerifyError Bytes} (hreturned : .returned t now result ∈ events) :
    s.calls t = none ∧ t ∈ s.started := by
  induction h with
  | nil => cases hreturned
  | @snoc events s event s' hist hstep ih =>
    rcases List.mem_append.mp hreturned with hbefore | hlast
    · obtain ⟨hnone, hstarted⟩ := ih hbefore
      by_cases ht : event.thread = t
      · subst ht
        cases hstep with
        | called hnew => exact (hnew hstarted).elim
        | locked hstage _ => cases hnone.symm.trans hstage
        | attested hstage _ => cases hnone.symm.trans hstage
        | allocated hstage _ => cases hnone.symm.trans hstage
        | unattested hstage _ => cases hnone.symm.trans hstage
        | exhausted hstage _ => cases hnone.symm.trans hstage
        | returned hstage => cases hnone.symm.trans hstage
        | droppedWaiting hstage => cases hnone.symm.trans hstage
        | droppedAttesting hstage => cases hnone.symm.trans hstage
      · obtain ⟨hcalls, hsame⟩ := hstep.other ht
        exact ⟨hcalls.trans hnone, hsame.mpr hstarted⟩
    · obtain rfl := List.mem_singleton.mp hlast
      cases hstep with
      | @returned t request report sequence hstage now =>
        refine ⟨Function.update_self .., ?_⟩
        by_contra hnew
        cases ((hist.tracked t).unstarted hnew).1.symm.trans hstage

/-- A call returns once. -/
theorem History.returned_once {signingKey : ByteArr 32} {events : List GenerationEvent}
    {s : SharedGenerator} (h : History env (fresh signingKey) events s) {t : Nat}
    {now now' : SystemTime} {result result' : Except VerifyError Bytes}
    (hreturned : .returned t now result ∈ events)
    (hreturned' : .returned t now' result' ∈ events) : now = now' ∧ result = result' := by
  induction h with
  | nil => cases hreturned
  | @snoc events s event s' hist hstep ih =>
    have hfirst : ∀ {now result}, .returned t now result ∈ events →
        ∀ {now' result'}, event ≠ .returned t now' result' := by
      rintro now result hbefore now' result' rfl
      obtain ⟨request, report, sequence, hstage⟩ := hstep.of_returned
      cases (hist.returned_over hbefore).1.symm.trans hstage
    rcases List.mem_append.mp hreturned with hbefore | hlast
    · rcases List.mem_append.mp hreturned' with hbefore' | hlast'
      · exact ih hbefore hbefore'
      · exact (hfirst hbefore (List.mem_singleton.mp hlast').symm).elim
    · rcases List.mem_append.mp hreturned' with hbefore' | hlast'
      · exact (hfirst hbefore' (List.mem_singleton.mp hlast).symm).elim
      · have heq := (List.mem_singleton.mp hlast).trans (List.mem_singleton.mp hlast').symm
        obtain ⟨_, hnow, hresult⟩ := GenerationEvent.returned.inj heq
        exact ⟨hnow, hresult⟩

end SharedGenerator

end Veriai
