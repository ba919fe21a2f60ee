import Veriai.Receipt.Shared

/-!
# The numbers of concurrent calls

The lock of the generator makes allocations and returns alternate, so the
returned receipts carry the allocated numbers in their order. A call that fails
or is dropped has allocated none.
-/

namespace Veriai

variable {env : Primitives}

namespace SharedGenerator

/-- Only the holder of the lock is past it. -/
def Exclusive (s : SharedGenerator) : Prop :=
  ∀ t stage, s.calls t = some stage → stage.Locked → s.holder = some t

/-- The call of a thread changes; the other calls keep the lock as they had it. -/
theorem Exclusive.update {s : SharedGenerator} (h : s.Exclusive) {t : Nat}
    {stage : Option GenerationStage} {holder : Option Nat} {gen : ReceiptGenerator}
    {started : List Nat} (hself : ∀ stage', stage = some stage' → stage'.Locked → holder = some t)
    (hother : ∀ t', t' ≠ t → s.holder = some t' → holder = some t') :
    Exclusive { gen, holder, calls := Function.update s.calls t stage, started } := by
  intro t' stage' hstage hlocked
  have hstage : Function.update s.calls t stage t' = some stage' := hstage
  by_cases he : t' = t
  · subst he
    rw [Function.update_self] at hstage
    exact hself stage' hstage hlocked
  · rw [Function.update_of_ne he] at hstage
    exact hother t' he (h t' stage' hstage hlocked)

/-- A call past the lock is its holder, and there is no other. -/
theorem Exclusive.only {s : SharedGenerator} (h : s.Exclusive) {t t' : Nat}
    {stage : GenerationStage} (hstage : s.calls t = some stage) (hlocked : stage.Locked)
    (hne : t' ≠ t) : s.holder ≠ some t' := by
  rw [h t stage hstage hlocked]
  exact fun hsame => hne (Option.some.inj hsame).symm

/-- A step keeps the calls apart. -/
theorem Exclusive.step {s s' : SharedGenerator} {event : GenerationEvent} (h : s.Exclusive)
    (hstep : Step env s event s') : s'.Exclusive := by
  cases hstep with
  | called _ => exact h.update (by rintro _ ⟨⟩ ⟨⟩) fun _ _ hkeep => hkeep
  | locked _ hfree =>
    exact h.update (fun _ _ _ => rfl) fun t' _ hheld => absurd (hheld.symm.trans hfree) (by simp)
  | attested hstage _ =>
    exact h.update (fun _ _ _ => h _ _ hstage trivial) fun _ _ hkeep => hkeep
  | allocated hstage _ =>
    exact h.update (fun _ _ _ => h _ _ hstage trivial) fun _ _ hkeep => hkeep
  | unattested hstage _ =>
    exact h.update (by rintro _ ⟨⟩) fun _ hne hheld => absurd hheld (h.only hstage trivial hne)
  | exhausted hstage _ =>
    exact h.update (by rintro _ ⟨⟩) fun _ hne hheld => absurd hheld (h.only hstage trivial hne)
  | returned hstage =>
    exact h.update (by rintro _ ⟨⟩) fun _ hne hheld => absurd hheld (h.only hstage trivial hne)
  | droppedAttesting hstage =>
    exact h.update (by rintro _ ⟨⟩) fun _ hne hheld => absurd hheld (h.only hstage trivial hne)
  | droppedWaiting _ => exact h.update (by rintro _ ⟨⟩) fun _ _ hkeep => hkeep

/-- Some call has allocated the number and not yet returned. -/
def Pending (s : SharedGenerator) (sequence : UInt64) : Prop :=
  ∃ t, (s.calls t).bind GenerationStage.number? = some sequence

/-- The call whose number is pending. -/
theorem Pending.stage {s : SharedGenerator} {sequence : UInt64} (h : s.Pending sequence) :
    ∃ t request report, s.calls t = some (.numbered request report sequence) := by
  obtain ⟨t, ht⟩ := h
  obtain ⟨stage, hstage, hnumber⟩ := Option.bind_eq_some_iff.mp ht
  cases stage with
  | numbered request report sequence' =>
    obtain rfl := Option.some.inj hnumber
    exact ⟨t, request, report, hstage⟩
  | _ => cases hnumber

/-- While a call is past the lock, a pending number is its own. -/
theorem Exclusive.pending {s : SharedGenerator} (h : s.Exclusive) {t : Nat}
    {stage : GenerationStage} (hstage : s.calls t = some stage) (hlocked : stage.Locked)
    {sequence : UInt64} (hpending : s.Pending sequence) : stage.number? = some sequence := by
  obtain ⟨t', request, report, hstage'⟩ := hpending.stage
  have hholder := h t stage hstage hlocked
  rw [h t' _ hstage' trivial] at hholder
  obtain rfl := Option.some.inj hholder
  obtain rfl := Option.some.inj (hstage'.symm.trans hstage)
  rfl

/-- A call that goes between stages without a number leaves the pending numbers. -/
theorem pending_update {s s' : SharedGenerator} {t : Nat} {stage : Option GenerationStage}
    (hcalls : s'.calls = Function.update s.calls t stage)
    (hbefore : (s.calls t).bind GenerationStage.number? = none)
    (hafter : stage.bind GenerationStage.number? = none) (sequence : UInt64) :
    s'.Pending sequence ↔ s.Pending sequence := by
  have hsame (t' : Nat) : (s'.calls t').bind GenerationStage.number? =
      (s.calls t').bind GenerationStage.number? := by
    rw [hcalls]
    by_cases he : t' = t
    · rw [he, Function.update_self, hbefore, hafter]
    · rw [Function.update_of_ne he]
  simp only [Pending, hsame]

/-- The returned receipts carry allocated numbers in their order. A number is settled when its
call has returned; the numbers of the receipts are all of them when every receipt was built. -/
structure Settled (env : Primitives) (events : List GenerationEvent) (s : SharedGenerator)
    (numbers settled : List UInt64) : Prop where
  receipts : (returnedReceipts events).map (receiptNumber env) = numbers.map some
  sublist : numbers.Sublist settled
  complete : BuildsSucceed events → numbers = settled
  allocations : (allocatedNumbers events = settled ∧ ∀ sequence, ¬ s.Pending sequence) ∨
    ∃ sequence, s.Pending sequence ∧ allocatedNumbers events = settled ++ [sequence]

/-- Builds that succeed in a history succeed before its last event. -/
theorem buildsSucceed_before {events : List GenerationEvent} {event : GenerationEvent}
    (h : BuildsSucceed (events ++ [event])) : BuildsSucceed events :=
  fun t now error hmem => h t now error (List.mem_append_left _ hmem)

/-- An event that neither allocates nor returns a built receipt settles nothing. -/
theorem Settled.quiet {events : List GenerationEvent} {event : GenerationEvent}
    {s s' : SharedGenerator} {numbers settled : List UInt64}
    (h : Settled env events s numbers settled)
    (hreceipt : event.receipt? = none) (hnumber : event.number? = none)
    (hpending : ∀ sequence, s'.Pending sequence ↔ s.Pending sequence) :
    Settled env (events ++ [event]) s' numbers settled := by
  have hreceipts : returnedReceipts (events ++ [event]) = returnedReceipts events := by
    simp [returnedReceipts, List.filterMap_append, hreceipt]
  have hnumbers : allocatedNumbers (events ++ [event]) = allocatedNumbers events := by
    simp [allocatedNumbers, List.filterMap_append, hnumber]
  refine ⟨?_, h.sublist, fun hsound => h.complete (buildsSucceed_before hsound), ?_⟩
  · rw [hreceipts]
    exact h.receipts
  · simp only [hnumbers, hpending]
    exact h.allocations

/-- Allocating the next number keeps the account of the numbers. -/
theorem Settled.allocated {events : List GenerationEvent} {s : SharedGenerator}
    {numbers settled : List UInt64} {t : Nat} {request : ReceiptRequest} {report : Bytes}
    {sequence : UInt64} {gen : ReceiptGenerator} (h : Settled env events s numbers settled)
    (hexclusive : s.Exclusive) (hstage : s.calls t = some (.attested request report)) :
    Settled env (events ++ [.allocated t sequence])
      { s.move t (.numbered request report sequence) with gen } numbers settled := by
  have hreceipts : returnedReceipts (events ++ [.allocated t sequence]) =
      returnedReceipts events := by
    simp [returnedReceipts, List.filterMap_append, GenerationEvent.receipt?]
  have hnumbers : allocatedNumbers (events ++ [.allocated t sequence]) =
      allocatedNumbers events ++ [sequence] := by
    simp [allocatedNumbers, List.filterMap_append, GenerationEvent.number?]
  have hnone : ∀ n, ¬ s.Pending n := by
    intro n hpending
    cases hexclusive.pending hstage trivial hpending
  rcases h.allocations with ⟨hallocated, -⟩ | ⟨n, hpending, -⟩
  · refine ⟨?_, h.sublist, fun hsound => h.complete (buildsSucceed_before hsound),
      Or.inr ⟨sequence, ⟨t, ?_⟩, ?_⟩⟩
    · rw [hreceipts]
      exact h.receipts
    · show (Function.update s.calls t (some (.numbered request report sequence)) t).bind _ = _
      rw [Function.update_self]
      rfl
    · rw [hnumbers, hallocated]
  · exact absurd hpending (hnone n)

/-- Returning settles the number of the call. -/
theorem Settled.returned (hlawful : env.Lawful) {events : List GenerationEvent}
    {s : SharedGenerator} {numbers settled : List UInt64} {t : Nat} {request : ReceiptRequest}
    {report : Bytes} {sequence : UInt64} {now : SystemTime}
    (h : Settled env events s numbers settled) (hexclusive : s.Exclusive)
    (hstage : s.calls t = some (.numbered request report sequence)) :
    ∃ numbers', Settled env
      (events ++ [.returned t now (s.gen.buildReceipt env now request sequence report)]) (s.leave t)
      numbers' (settled ++ [sequence]) := by
  have hallocations : allocatedNumbers
      (events ++ [.returned t now (s.gen.buildReceipt env now request sequence report)]) =
        allocatedNumbers events := by
    simp [allocatedNumbers, List.filterMap_append, GenerationEvent.number?]
  have hpending : s.Pending sequence := ⟨t, by rw [hstage]; rfl⟩
  have hsettled : allocatedNumbers events = settled ++ [sequence] := by
    rcases h.allocations with ⟨-, hnone⟩ | ⟨n, hn, hallocated⟩
    · exact absurd hpending (hnone sequence)
    · obtain rfl := Option.some.inj (hexclusive.pending hstage trivial hn)
      exact hallocated
  -- the returning call was the only one past the lock
  have hnone : ∀ n, ¬ (s.leave t).Pending n := by
    intro n hn
    obtain ⟨t', request', report', hstage'⟩ := hn.stage
    have hstage' : Function.update s.calls t none t' = some (.numbered request' report' n) :=
      hstage'
    by_cases he : t' = t
    · rw [he, Function.update_self] at hstage'
      cases hstage'
    · rw [Function.update_of_ne he] at hstage'
      exact hexclusive.only hstage trivial he (hexclusive t' _ hstage' trivial)
  cases hbuild : s.gen.buildReceipt env now request sequence report with
  | error e =>
    refine ⟨numbers, ?_, h.sublist.trans (List.sublist_append_left _ _), ?_, Or.inl ⟨?_, hnone⟩⟩
    · rw [← h.receipts]
      simp [returnedReceipts, List.filterMap_append, GenerationEvent.receipt?]
    · intro hsound
      exact absurd (List.mem_append_right _ (List.mem_singleton_self _)) (hsound t now e)
    · rw [← hsettled, ← hallocations, hbuild]
  | ok receiptBytes =>
    refine ⟨numbers ++ [sequence], ?_, h.sublist.append (List.Sublist.refl _), ?_,
      Or.inl ⟨?_, hnone⟩⟩
    · have hnumber := ReceiptGenerator.number_of_buildReceipt hlawful hbuild
      simp only [returnedReceipts, List.filterMap_append, List.map_append, List.map_cons,
        List.filterMap_cons, List.filterMap_nil, GenerationEvent.receipt?, List.map_nil, hnumber]
      rw [← h.receipts]
      rfl
    · intro hsound
      rw [h.complete (buildsSucceed_before hsound)]
    · rw [← hsettled, ← hallocations, hbuild]

/-- What the events so far say about a call. -/
structure Tracked (events : List GenerationEvent) (s : SharedGenerator) (t : Nat) : Prop where
  unstarted : t ∉ s.started → s.calls t = none ∧ ∀ event ∈ events, event.thread ≠ t
  /-- A call under way without a number has allocated none. -/
  unnumbered : ∀ stage, s.calls t = some stage → stage.number? = none →
    ∀ sequence, .allocated t sequence ∉ events
  ended : FailedOrDropped events t → s.calls t = none ∧ ∀ sequence, .allocated t sequence ∉ events

/-- A call failed or was dropped before the last event, or by it. -/
theorem FailedOrDropped.of_snoc {events : List GenerationEvent} {event : GenerationEvent} {t : Nat}
    (h : FailedOrDropped (events ++ [event]) t) :
    FailedOrDropped events t ∨ (∃ error, event = .unattested t error) ∨ event = .dropped t := by
  rcases h with ⟨error, hmem⟩ | hmem
  · rcases List.mem_append.mp hmem with hmem | hmem
    · exact Or.inl (Or.inl ⟨error, hmem⟩)
    · exact Or.inr (Or.inl ⟨error, (List.mem_singleton.mp hmem).symm⟩)
  · rcases List.mem_append.mp hmem with hmem | hmem
    · exact Or.inl (Or.inr hmem)
    · exact Or.inr (Or.inr (List.mem_singleton.mp hmem).symm)

/-- The events of other calls leave what is known of a call. -/
theorem Tracked.other {events : List GenerationEvent} {event : GenerationEvent}
    {s s' : SharedGenerator} {t : Nat} (h : Tracked events s t) (hstep : Step env s event s')
    (ht : event.thread ≠ t) : Tracked (events ++ [event]) s' t := by
  obtain ⟨hcalls, hstarted⟩ := hstep.other ht
  have hallocated (sequence : UInt64) :
      .allocated t sequence ∈ events ++ [event] → .allocated t sequence ∈ events := by
    intro hmem
    rcases List.mem_append.mp hmem with hmem | hmem
    · exact hmem
    · rw [← List.mem_singleton.mp hmem] at ht
      exact absurd rfl ht
  constructor
  · intro hnot
    obtain ⟨hnone, hevents⟩ := h.unstarted (mt hstarted.mpr hnot)
    refine ⟨hcalls.trans hnone, ?_⟩
    intro e he
    rcases List.mem_append.mp he with he | he
    · exact hevents e he
    · rw [List.mem_singleton.mp he]
      exact ht
  · intro stage hstage hnumber sequence hmem
    rw [hcalls] at hstage
    exact h.unnumbered stage hstage hnumber sequence (hallocated sequence hmem)
  · intro hended
    rcases FailedOrDropped.of_snoc hended with hended | ⟨error, rfl⟩ | rfl
    · obtain ⟨hnone, hfree⟩ := h.ended hended
      exact ⟨hcalls.trans hnone, fun sequence hmem => hfree sequence (hallocated sequence hmem)⟩
    · exact absurd rfl ht
    · exact absurd rfl ht

/-- The call itself goes on without allocating, from a stage without a number. -/
theorem Tracked.goesOn {events : List GenerationEvent} {event : GenerationEvent}
    {s s' : SharedGenerator} {t : Nat} {stage : GenerationStage} (h : Tracked events s t)
    (hstage : s.calls t = some stage) (hbefore : stage.number? = none)
    (hevent : event.number? = none) (hstarted : s'.started = s.started)
    (hnext : ¬ FailedOrDropped (events ++ [event]) t ∨ s'.calls t = none) :
    Tracked (events ++ [event]) s' t := by
  have hnot (sequence : UInt64) : .allocated t sequence ∉ events ++ [event] := by
    intro hmem
    rcases List.mem_append.mp hmem with hmem | hmem
    · exact h.unnumbered stage hstage hbefore sequence hmem
    · rw [← List.mem_singleton.mp hmem] at hevent
      cases hevent
  have hmem : t ∈ s.started := by
    by_contra hunstarted
    rw [(h.unstarted hunstarted).1] at hstage
    cases hstage
  constructor
  · intro hunstarted
    rw [hstarted] at hunstarted
    exact absurd hmem hunstarted
  · exact fun _ _ _ => hnot
  · intro hended
    rcases hnext with hnone | hnone
    · exact absurd hended hnone
    · exact ⟨hnone, hnot⟩

/-- A call under way has not failed; an event that is no failure keeps it so. -/
theorem Tracked.not_ended {events : List GenerationEvent} {event : GenerationEvent}
    {s : SharedGenerator} {t : Nat} {stage : GenerationStage} (h : Tracked events s t)
    (hstage : s.calls t = some stage) (hfail : ∀ error, event ≠ .unattested t error)
    (hdrop : event ≠ .dropped t) : ¬ FailedOrDropped (events ++ [event]) t := by
  intro hended
  rcases FailedOrDropped.of_snoc hended with hended | ⟨error, heq⟩ | heq
  · rw [(h.ended hended).1] at hstage
    cases hstage
  · exact hfail error heq
  · exact hdrop heq

/-- A call that begins has no number. -/
theorem Tracked.called {events : List GenerationEvent} {s : SharedGenerator} {t : Nat}
    {request : ReceiptRequest} (h : Tracked events s t) (hnew : t ∉ s.started) :
    Tracked (events ++ [.called t request])
      { s.move t (.waiting request) with started := s.started ++ [t] } t := by
  obtain ⟨-, hevents⟩ := h.unstarted hnew
  constructor
  · intro hunstarted
    exact absurd (List.mem_append_right _ (List.mem_singleton_self t)) hunstarted
  · intro stage _ _ sequence hmem
    rcases List.mem_append.mp hmem with hmem | hmem
    · exact hevents _ hmem rfl
    · cases List.mem_singleton.mp hmem
  · intro hended
    rcases FailedOrDropped.of_snoc hended with (⟨error, hmem⟩ | hmem) | ⟨error, heq⟩ | heq
    · exact absurd rfl (hevents _ hmem)
    · exact absurd rfl (hevents _ hmem)
    · cases heq
    · cases heq

/-- A call that has allocated a number has this one. -/
theorem Tracked.allocated {events : List GenerationEvent} {s : SharedGenerator} {t : Nat}
    {request : ReceiptRequest} {report : Bytes} {sequence : UInt64} {gen : ReceiptGenerator}
    (h : Tracked events s t) (hstage : s.calls t = some (.attested request report)) :
    Tracked (events ++ [.allocated t sequence])
      { s.move t (.numbered request report sequence) with gen } t := by
  constructor
  · intro hunstarted
    rw [(h.unstarted hunstarted).1] at hstage
    cases hstage
  · intro stage hnext hnumber
    have hnext : Function.update s.calls t (some (.numbered request report sequence)) t =
        some stage := hnext
    rw [Function.update_self] at hnext
    obtain rfl := Option.some.inj hnext
    cases hnumber
  · intro hended
    exact absurd hended (h.not_ended hstage (by rintro _ ⟨⟩) (by rintro ⟨⟩))

/-- One step keeps what the events say about every call. -/
theorem Tracked.step {events : List GenerationEvent} {event : GenerationEvent}
    {s s' : SharedGenerator} (h : ∀ t, Tracked events s t) (hstep : Step env s event s') (t : Nat) :
    Tracked (events ++ [event]) s' t := by
  by_cases ht : event.thread = t
  · have hself := h t
    subst ht
    cases hstep with
    | called hnew => exact hself.called hnew
    | allocated hstage _ => exact hself.allocated hstage
    | locked hstage _ =>
      exact hself.goesOn hstage rfl rfl rfl
        (Or.inl (hself.not_ended hstage (by rintro _ ⟨⟩) (by rintro ⟨⟩)))
    | attested hstage _ =>
      exact hself.goesOn hstage rfl rfl rfl
        (Or.inl (hself.not_ended hstage (by rintro _ ⟨⟩) (by rintro ⟨⟩)))
    | unattested hstage _ =>
      exact hself.goesOn hstage rfl rfl rfl (Or.inr (Function.update_self _ _ _))
    | exhausted hstage _ =>
      exact hself.goesOn hstage rfl rfl rfl (Or.inr (Function.update_self _ _ _))
    | droppedWaiting hstage =>
      exact hself.goesOn hstage rfl rfl rfl (Or.inr (Function.update_self _ _ _))
    | droppedAttesting hstage =>
      exact hself.goesOn hstage rfl rfl rfl (Or.inr (Function.update_self _ _ _))
    | @returned t request report sequence hstage now =>
      have hself : Tracked events s t := h t
      constructor
      · intro hunstarted
        rw [(hself.unstarted hunstarted).1] at hstage
        cases hstage
      · intro stage hnext
        have hnext : Function.update s.calls t none t = some stage := hnext
        rw [Function.update_self] at hnext
        cases hnext
      · intro hended
        exact absurd hended (hself.not_ended hstage (by rintro _ ⟨⟩) (by rintro ⟨⟩))
  · exact (h t).other hstep ht

/-- One step keeps the receipts among the allocated numbers. -/
theorem Settled.step (hlawful : env.Lawful) {events : List GenerationEvent}
    {event : GenerationEvent} {s s' : SharedGenerator} {numbers settled : List UInt64}
    (h : Settled env events s numbers settled) (hexclusive : s.Exclusive)
    (htracked : ∀ t, Tracked events s t) (hstep : Step env s event s') :
    ∃ numbers' settled', Settled env (events ++ [event]) s' numbers' settled' := by
  cases hstep with
  | called hnew =>
    have hstage := ((htracked _).unstarted hnew).1
    exact ⟨_, _, h.quiet rfl rfl (pending_update rfl (by rw [hstage]; rfl) rfl)⟩
  | locked hstage _ =>
    exact ⟨_, _, h.quiet rfl rfl (pending_update rfl (by rw [hstage]; rfl) rfl)⟩
  | attested hstage _ =>
    exact ⟨_, _, h.quiet rfl rfl (pending_update rfl (by rw [hstage]; rfl) rfl)⟩
  | unattested hstage _ =>
    exact ⟨_, _, h.quiet rfl rfl (pending_update rfl (by rw [hstage]; rfl) rfl)⟩
  | exhausted hstage _ =>
    exact ⟨_, _, h.quiet rfl rfl (pending_update rfl (by rw [hstage]; rfl) rfl)⟩
  | droppedWaiting hstage =>
    exact ⟨_, _, h.quiet rfl rfl (pending_update rfl (by rw [hstage]; rfl) rfl)⟩
  | droppedAttesting hstage =>
    exact ⟨_, _, h.quiet rfl rfl (pending_update rfl (by rw [hstage]; rfl) rfl)⟩
  | allocated hstage _ => exact ⟨_, _, h.allocated hexclusive hstage⟩
  | returned hstage =>
    obtain ⟨numbers', hsettled⟩ := h.returned hlawful hexclusive hstage
    exact ⟨numbers', _, hsettled⟩

/-- Calls are kept apart in every history. -/
theorem History.exclusive {signingKey : ByteArr 32} {events : List GenerationEvent}
    {s : SharedGenerator} (h : History env (fresh signingKey) events s) : s.Exclusive := by
  induction h with
  | nil => intro t stage hstage; cases hstage
  | snoc _ hstep ih => exact ih.step hstep

/-- In every history each call has the numbers that its events say. -/
theorem History.tracked {signingKey : ByteArr 32} {events : List GenerationEvent}
    {s : SharedGenerator} (h : History env (fresh signingKey) events s) (t : Nat) :
    Tracked events s t := by
  induction h generalizing t with
  | nil =>
    refine ⟨fun _ => ⟨rfl, fun _ hmem => absurd hmem List.not_mem_nil⟩, ?_, ?_⟩
    · intro stage hstage
      cases hstage
    · rintro (⟨error, hmem⟩ | hmem)
      · exact absurd hmem List.not_mem_nil
      · exact absurd hmem List.not_mem_nil
  | snoc _ hstep ih => exact Tracked.step ih hstep t

/-- In every history the numbers are accounted for. -/
theorem History.settled (hlawful : env.Lawful) {signingKey : ByteArr 32}
    {events : List GenerationEvent} {s : SharedGenerator}
    (h : History env (fresh signingKey) events s) :
    ∃ numbers settled, Settled env events s numbers settled := by
  induction h with
  | nil =>
    refine ⟨[], [], rfl, List.Sublist.refl _, fun _ => rfl, Or.inl ⟨rfl, ?_⟩⟩
    rintro sequence ⟨t, ht⟩
    cases ht
  | snoc hist hstep ih =>
    obtain ⟨numbers, settled, hsettled⟩ := ih
    exact hsettled.step hlawful hist.exclusive hist.tracked hstep

/-- A call reaches the stage with a number by allocating it. -/
theorem Step.numbered {s s' : SharedGenerator} {event : GenerationEvent} (h : Step env s event s')
    (hevent : event.number? = none) {t : Nat} {request : ReceiptRequest} {report : Bytes}
    {sequence : UInt64} (hnext : s'.calls t = some (.numbered request report sequence)) :
    s.calls t = some (.numbered request report sequence) := by
  by_cases ht : event.thread = t
  · subst ht
    have hself (stage : Option GenerationStage)
        (hcalls : s'.calls = Function.update s.calls event.thread stage) :
        stage = some (.numbered request report sequence) := by
      rw [hcalls, Function.update_self] at hnext
      exact hnext
    cases h with
    | allocated _ _ => cases hevent
    | called _ => cases hself _ rfl
    | locked _ _ => cases hself _ rfl
    | attested _ _ => cases hself _ rfl
    | unattested _ _ => cases hself _ rfl
    | exhausted _ _ => cases hself _ rfl
    | returned _ => cases hself _ rfl
    | droppedWaiting _ => cases hself _ rfl
    | droppedAttesting _ => cases hself _ rfl
  · rw [← (h.other ht).1]
    exact hnext

/-- A call that returns has been allocated a number. -/
theorem Step.of_returned {s s' : SharedGenerator} {t : Nat} {now : SystemTime}
    {result : Except VerifyError Bytes} (h : Step env s (.returned t now result) s') :
    ∃ request report sequence, s.calls t = some (.numbered request report sequence) := by
  cases h with
  | returned hstage => exact ⟨_, _, _, hstage⟩

/-- With the counter at its maximum no number is allocated any more, and only calls that already
have a number return a receipt. -/
theorem History.exhausted {start s : SharedGenerator} {events : List GenerationEvent}
    (h : History env start events s) (hmax : start.gen.sequenceNum.toNat + 1 = 2 ^ 64) :
    allocatedNumbers events = [] ∧ s.gen = start.gen ∧
      (∀ t request report sequence, s.calls t = some (.numbered request report sequence) →
        start.calls t = some (.numbered request report sequence)) ∧
      ∀ t now receiptBytes, .returned t now (.ok receiptBytes) ∈ events →
        ∃ request report sequence, start.calls t = some (.numbered request report sequence) := by
  induction h with
  | nil => exact ⟨rfl, rfl, fun _ _ _ _ h => h, fun _ _ _ hmem => absurd hmem List.not_mem_nil⟩
  | @snoc events s event s' hist hstep ih =>
    obtain ⟨hnone, hsame, hnumbered, hreturned⟩ := ih
    rcases hstep.gen_eq with ⟨hevent, hgen⟩ | ⟨-, hroom, -⟩
    · refine ⟨?_, hgen.trans hsame, ?_, ?_⟩
      · rw [allocatedNumbers, List.filterMap_append, List.filterMap_cons_none hevent,
          List.filterMap_nil, List.append_nil]
        exact hnone
      · intro t request report sequence hstage
        exact hnumbered t request report sequence (hstep.numbered hevent hstage)
      · intro t now receiptBytes hmem
        rcases List.mem_append.mp hmem with hmem | hmem
        · exact hreturned t now receiptBytes hmem
        · rw [← List.mem_singleton.mp hmem] at hstep
          obtain ⟨request, report, sequence, hstage⟩ := hstep.of_returned
          exact ⟨request, report, sequence, hnumbered t request report sequence hstage⟩
    · rw [hsame] at hroom
      omega

end SharedGenerator

/-- The numbers of a generator's receipts over every run of concurrent calls: they strictly
increase in completion order and are 0, 1, 2, … when neither the clock nor an encoder fails; the
counter is the count of allocations, of which a failed or dropped call made none; and from the
counter's maximum on, only a call that already has a number returns a receipt. -/
theorem generator_numbers (hlawful : env.Lawful) {signingKey : ByteArr 32}
    {events : List GenerationEvent} {s : SharedGenerator}
    (h : SharedGenerator.History env (.fresh signingKey) events s) :
    (∃ numbers : List UInt64,
      (returnedReceipts events).map (receiptNumber env) = numbers.map some ∧
      numbers.Pairwise (· < ·) ∧
      (BuildsSucceed events → numbers.map UInt64.toNat = List.range numbers.length)) ∧
    (s.gen.sequenceNum.toNat = (allocatedNumbers events).length ∧
      ∀ t, FailedOrDropped events t → ∀ sequence, .allocated t sequence ∉ events) ∧
    (s.gen.sequenceNum.toNat + 1 = 2 ^ 64 →
      ∀ later s', SharedGenerator.History env s later s' →
        allocatedNumbers later = [] ∧ s'.gen = s.gen ∧
        ∀ t now receiptBytes, .returned t now (.ok receiptBytes) ∈ later →
          ∃ request report sequence, s.calls t = some (.numbered request report sequence)) := by
  obtain ⟨hallocated, hcounter⟩ := h.allocations
  have hzero : (SharedGenerator.fresh signingKey).gen.sequenceNum.toNat = 0 := rfl
  rw [hzero, Nat.zero_add] at hcounter
  rw [hzero, ← List.range_eq_range'] at hallocated
  refine ⟨?_, ⟨hcounter, fun t hended => ((h.tracked t).ended hended).2⟩, ?_⟩
  · obtain ⟨numbers, settled, hsettled⟩ := h.settled hlawful
    obtain ⟨rest, hrest⟩ : ∃ rest, allocatedNumbers events = settled ++ rest := by
      rcases hsettled.allocations with ⟨heq, -⟩ | ⟨sequence, -, heq⟩
      · exact ⟨[], by rw [heq, List.append_nil]⟩
      · exact ⟨_, heq⟩
    have hrange : settled.map UInt64.toNat = List.range settled.length := by
      rw [hrest, List.map_append] at hallocated
      have htake := congrArg (List.take settled.length) hallocated
      rw [List.take_append_of_le_length (by rw [List.length_map]),
        List.take_of_length_le (by rw [List.length_map]), List.take_range,
        List.length_append, Nat.min_eq_left (Nat.le_add_right _ _)] at htake
      exact htake
    refine ⟨numbers, hsettled.receipts, ?_, ?_⟩
    · have hincreasing : (settled.map UInt64.toNat).Pairwise (· < ·) := by
        rw [hrange]
        exact List.pairwise_lt_range
      rw [List.pairwise_map] at hincreasing
      exact (hincreasing.imp fun hlt => UInt64.lt_iff_toNat_lt.mpr hlt).sublist hsettled.sublist
    · intro hsound
      rw [hsettled.complete hsound]
      exact hrange
  · intro hmax later s' hlater
    obtain ⟨hnone, hgen, -, hreturned⟩ := hlater.exhausted hmax
    exact ⟨hnone, hgen, hreturned⟩

namespace Transparent

/-- The transparent primitives with signed bytes that determine the payload. -/
def delimited : Primitives := { primitives with sigStructure := fun _ _ payload => payload }

/-- The delimited primitives are lawful. -/
theorem lawful_delimited : delimited.Lawful where
  claims_roundTrip := lawful.claims_roundTrip
  cose_roundTrip := lawful.cose_roundTrip
  keyValid := lawful.keyValid
  sign_verifies := lawful.sign_verifies

/-- Two calls of the generator with key 7 that overlap: the second one waits for the lock. -/
def overlapping : List GenerationEvent :=
  [.called 0 request, .called 1 request, .locked 0, .attested 0 [7], .allocated 0 0,
    .returned 0 epoch (.ok [1, 0, 7]), .locked 1, .attested 1 [7], .allocated 1 1,
    .returned 1 epoch (.ok [1, 1, 7])]

/-- The overlapping calls are a run of the generator. -/
theorem history_overlapping : ∃ s,
    SharedGenerator.History delimited (.fresh (fill 32 7)) overlapping s := by
  have hcalled := (@SharedGenerator.History.nil delimited (.fresh (fill 32 7))).snoc
    (@SharedGenerator.Step.called _ _ 0 request List.not_mem_nil)
  have hboth := hcalled.snoc (@SharedGenerator.Step.called _ _ 1 request (by decide))
  have hlocked := hboth.snoc (.locked (t := 0) rfl rfl)
  have hattested := hlocked.snoc
    (@SharedGenerator.Step.attested _ _ 0 request [7] provider rfl rfl)
  have hallocated := hattested.snoc (.allocated (t := 0) rfl rfl)
  have hreturned := hallocated.snoc
    (@SharedGenerator.step_returned _ _ 0 request [7] 0 epoch (.ok [1, 0, 7]) rfl rfl)
  have hlocked' := hreturned.snoc (.locked (t := 1) rfl rfl)
  have hattested' := hlocked'.snoc
    (@SharedGenerator.Step.attested _ _ 1 request [7] provider rfl rfl)
  have hallocated' := hattested'.snoc (.allocated (t := 1) rfl rfl)
  exact ⟨_, hallocated'.snoc (SharedGenerator.step_returned rfl rfl)⟩

/-- The overlapping calls get the numbers 0 and 1. -/
theorem generator_numbers_overlapping : ∃ (s : SharedGenerator) (numbers : List UInt64),
    SharedGenerator.History delimited (.fresh (fill 32 7)) overlapping s ∧
      returnedReceipts overlapping = [[1, 0, 7], [1, 1, 7]] ∧
      (returnedReceipts overlapping).map (receiptNumber delimited) = numbers.map some ∧
      numbers.Pairwise (· < ·) ∧ numbers.map UInt64.toNat = List.range numbers.length := by
  obtain ⟨s, hhistory⟩ := history_overlapping
  obtain ⟨⟨numbers, hnumbers, hincreasing, hall⟩, -⟩ := generator_numbers lawful_delimited hhistory
  have hsucceed : BuildsSucceed overlapping := by
    intro t now error hmem
    simp [overlapping] at hmem
  exact ⟨s, numbers, hhistory, rfl, hnumbers, hincreasing, hall hsucceed⟩

end Transparent

end Veriai
