import Veriai.Receipt.Acceptance
import Veriai.Receipt.Transparent

/-!
# The replay state over whole runs

A stateful verifier serves any number of overlapping calls. Each call inspects
its receipt without the replay mutex and then takes one atomic section in which
the sequence number is checked and recorded. A history is any interleaving of
these steps; what one answer does to the map is the step lemma, and the ledger
of accepted numbers carries it along the history.
-/

namespace Veriai

/-- One call of `verify`: the provider as it answers during the call, the clock
reading, the receipt and the expected values. -/
structure Call where
  provider : AttestationProvider
  now : SystemTime
  receiptBytes : Bytes
  expected : Expected

/-- Where an unanswered call stands. -/
inductive CallState where
  | started (call : Call)
  /-- The inspection is complete; only the locked section is left. -/
  | inspected (call : Call) (claims : VeriClaims) (doc : AttestationDoc) (report : Report)

/-- An answered call, with the mutex before and after its answer. -/
structure Answer where
  call : Call
  result : Except VerifyError VerificationResult
  before : ReplayMutex
  after : ReplayMutex

variable (env : Primitives) (v : Verifier)

/-- The verifier during a call. -/
def Verifier.during (call : Call) : Verifier := { v with provider := call.provider }

/-- What an early exit answers. -/
def Exit.answer : Exit → Except VerifyError VerificationResult
  | .err e => .error e
  | .failed result => .ok result

/-- Every interleaving of the calls of one stateful verifier, from a given mutex. -/
inductive History (start : ReplayMutex) :
    ReplayMutex → (Nat → Option CallState) → List Answer → Prop
  | nil : History start start (fun _ => none) []
  | start {m calls answers} (id : Nat) (call : Call) : History start m calls answers →
      calls id = none →
      History start m (Function.update calls id (some (.started call))) answers
  | inspect {m calls answers id call claims doc report} : History start m calls answers →
      calls id = some (.started call) →
      ((v.during call).inspect env call.now call.receiptBytes call.expected).run {} =
        .ok ((claims, doc), report) →
      History start m (Function.update calls id (some (.inspected call claims doc report))) answers
  | refuse {m calls answers id call e} : History start m calls answers →
      calls id = some (.started call) →
      ((v.during call).inspect env call.now call.receiptBytes call.expected).run {} = .error e →
      History start m (Function.update calls id none) (answers ++ [⟨call, e.answer, m, m⟩])
  | commit {m m' calls answers id call claims doc report result} :
      History start m calls answers →
      calls id = some (.inspected call claims doc report) →
      (v.during call).checkSequence env claims doc report (some m) = (result, some m') →
      History start m' (Function.update calls id none) (answers ++ [⟨call, result, m, m'⟩])

variable {env v}

/-- The critical section accepts a fresh number and records it. -/
theorem Verifier.checkSequence_fresh {claims : VeriClaims} {doc : AttestationDoc}
    {report : Report} {m : ReplayMutex} (hlocked : m.poisoned = false)
    (hfresh : SequenceFresh env claims doc m.map) :
    v.checkSequence env claims doc report (some m) =
      (.ok (v.accepted (report.passed "Sequence Check")),
        some (m.insert (computeIdentityFingerprint env doc) claims.sequenceNum)) := by
  have hnone := filter_eq_none_iff.mpr hfresh
  simp only [checkSequence, hlocked, hnone, Bool.false_eq_true, ite_false]

/-- The effect of one critical section: an acceptance records the fresh number
under the document's fingerprint, anything else leaves the mutex as it was. -/
theorem Verifier.checkSequence_effect {claims : VeriClaims} {doc : AttestationDoc}
    {report : Report} {m m' : ReplayMutex} {result : Except VerifyError VerificationResult}
    (h : v.checkSequence env claims doc report (some m) = (result, some m')) :
    (Accepts result ∧ SequenceFresh env claims doc m.map ∧
        m' = m.insert (computeIdentityFingerprint env doc) claims.sequenceNum) ∨
      (¬ Accepts result ∧ m' = m) := by
  have hiff : Accepts (v.checkSequence env claims doc report (some m)).1 ↔ _ :=
    checkSequence_accepts_iff
  rw [h] at hiff
  simp only [Option.some.injEq, forall_eq'] at hiff
  by_cases hacc : Accepts result
  · obtain ⟨hp, hf⟩ := hiff.mp hacc
    rw [checkSequence_fresh hp hf] at h
    exact Or.inl ⟨hacc, hf, (Option.some.inj (congrArg Prod.snd h)).symm⟩
  · refine Or.inr ⟨hacc, ?_⟩
    simp only [checkSequence] at h
    split at h
    · exact (Option.some.inj (congrArg Prod.snd h)).symm
    · split at h
      · exact (Option.some.inj (congrArg Prod.snd h)).symm
      · have hr : _ = result := congrArg Prod.fst h
        exact (hacc ⟨_, hr.symm, rfl⟩).elim

/-- What an answer did to the mutex: an acceptance recorded the fresh number of
its receipt under the fingerprint of its document, anything else did nothing. -/
inductive Answer.Effect (env : Primitives) (a : Answer) : Prop
  | accepted (claims : VeriClaims) (doc : AttestationDoc) : Verifier.Accepts a.result →
      ReceiptContent env a.call.receiptBytes claims doc →
      Verifier.SequenceFresh env claims doc a.before.map →
      a.after = a.before.insert (computeIdentityFingerprint env doc) claims.sequenceNum →
      Answer.Effect env a
  | refused : ¬ Verifier.Accepts a.result → a.after = a.before → Answer.Effect env a

/-- No answer moves the ledger back. -/
theorem Answer.Effect.forward {a : Answer} (h : a.Effect env) :
    Ledger.Below a.before.map a.after.map := by
  cases h with
  | accepted claims doc _ _ hfresh hafter =>
    rw [hafter]
    exact hfresh.below_insert
  | refused _ hafter =>
    rw [hafter]
    exact Ledger.Below.refl _

/-- Early exits answer without accepting. -/
theorem Exit.not_accepts {e : Exit} (h : Verifier.Refuses e) : ¬ Verifier.Accepts e.answer := by
  rintro ⟨result, hres, hvalid⟩
  cases e with
  | err error => cases hres
  | failed result' =>
    obtain rfl := Except.ok.inj hres
    exact Bool.false_ne_true (h.symm.trans hvalid)

/-- The mutex passes unchanged from each answer to the next. -/
inductive Trail (start : ReplayMutex) : ReplayMutex → List Answer → Prop
  | nil : Trail start start []
  | snoc {m answers} (a : Answer) : Trail start m answers → a.before = m →
      Trail start a.after (answers ++ [a])

/-- What holds along a history: calls past their inspection carry the content of
their receipt, and the answers form a trail of answers with their effect. -/
structure History.Inv (env : Primitives) (start m : ReplayMutex) (calls : Nat → Option CallState)
    (answers : List Answer) : Prop where
  inFlight : ∀ id call claims doc report,
    calls id = some (.inspected call claims doc report) →
      ReceiptContent env call.receiptBytes claims doc
  trail : Trail start m answers
  effects : ∀ a ∈ answers, a.Effect env

section Steps

variable {start m : ReplayMutex} {calls : Nat → Option CallState} {answers : List Answer}

/-- A call that is not past its inspection adds nothing to what is in flight. -/
private theorem inFlight_update {s : Option CallState} {id : Nat}
    (h : ∀ id call claims doc report, calls id = some (.inspected call claims doc report) →
      ReceiptContent env call.receiptBytes claims doc)
    (hs : ∀ call claims doc report, s = some (.inspected call claims doc report) →
      ReceiptContent env call.receiptBytes claims doc) :
    ∀ id' call claims doc report,
      Function.update calls id s id' = some (.inspected call claims doc report) →
        ReceiptContent env call.receiptBytes claims doc := by
  intro id' call claims doc report hc
  by_cases he : id' = id
  · subst he
    rw [Function.update_self] at hc
    exact hs call claims doc report hc
  · rw [Function.update_of_ne he] at hc
    exact h id' call claims doc report hc

/-- One more answer with its effect keeps the invariant. -/
theorem History.Inv.answer (h : Inv env start m calls answers) (id : Nat) (a : Answer)
    (hbefore : a.before = m) (ha : a.Effect env) :
    Inv env start a.after (Function.update calls id none) (answers ++ [a]) where
  inFlight := by
    have hnone : ∀ call claims doc report,
        (none : Option CallState) = some (.inspected call claims doc report) →
          ReceiptContent env call.receiptBytes claims doc := by
      intro call claims doc report hc
      cases hc
    exact inFlight_update h.inFlight hnone
  trail := h.trail.snoc a hbefore
  effects b hb := by
    rcases List.mem_append.mp hb with hb | hb
    · exact h.effects b hb
    · obtain rfl := List.mem_singleton.mp hb
      exact ha

/-- The critical section of an inspected call has its effect. -/
theorem commit_effect {m' : ReplayMutex} {call : Call} {claims : VeriClaims}
    {doc : AttestationDoc} {report : Report} {result : Except VerifyError VerificationResult}
    (hcontent : ReceiptContent env call.receiptBytes claims doc)
    (h : (v.during call).checkSequence env claims doc report (some m) = (result, some m')) :
    Answer.Effect env ⟨call, result, m, m'⟩ := by
  rcases Verifier.checkSequence_effect h with ⟨hacc, hfresh, hm⟩ | ⟨hacc, hm⟩
  · exact .accepted claims doc hacc hcontent hfresh hm
  · exact .refused hacc hm

/-- Every history keeps the invariant. -/
theorem History.inv (h : History env v start m calls answers) : Inv env start m calls answers := by
  induction h with
  | nil =>
    refine ⟨?_, .nil, ?_⟩
    · intro id call claims doc report hc
      cases hc
    · intro a ha
      cases ha
  | start id call _ _ ih =>
    refine ⟨inFlight_update ih.inFlight ?_, ih.trail, ih.effects⟩
    intro call' claims doc report hc
    cases hc
  | inspect _ _ hrun ih =>
    refine ⟨inFlight_update ih.inFlight ?_, ih.trail, ih.effects⟩
    intro call' claims' doc' report' hc
    obtain ⟨rfl, rfl, rfl, rfl⟩ := CallState.inspected.inj (Option.some.inj hc)
    obtain ⟨⟨cose, hi⟩, _⟩ := Verifier.yields_inspect.mp hrun
    exact hi.content
  | refuse _ _ hrun ih =>
    have hrefuses := (Verifier.reported_of_exits hrun).leaves.refuses
    exact ih.answer _ ⟨_, _, _, _⟩ rfl (.refused (Exit.not_accepts hrefuses) rfl)
  | commit _ hcall hrun ih =>
    exact ih.answer _ ⟨_, _, _, _⟩ rfl (commit_effect (ih.inFlight _ _ _ _ _ hcall) hrun)

/-- A call that runs alone is a history of its own steps. -/
theorem History.verify (h : History env v start m calls answers) (id : Nat) (call : Call)
    {result : Except VerifyError VerificationResult} {m' : ReplayMutex} (hid : calls id = none)
    (hrun : (v.during call).verify env call.now call.receiptBytes call.expected (some m) =
      (result, some m')) :
    History env v start m' calls (answers ++ [⟨call, result, m, m'⟩]) := by
  have hstarted := h.start id call hid
  have hidle : Function.update calls id none = calls := by
    rw [← hid, Function.update_eq_self]
  cases hr : ((v.during call).inspect env call.now call.receiptBytes call.expected).run {} with
  | error e =>
    have hrefused := hstarted.refuse (Function.update_self ..) hr
    rw [Function.update_idem, hidle] at hrefused
    cases e <;>
    · simp only [Verifier.verify, hr, Prod.mk.injEq, Option.some.injEq] at hrun
      obtain ⟨rfl, rfl⟩ := hrun
      exact hrefused
  | ok p =>
    obtain ⟨⟨claims, doc⟩, report⟩ := p
    simp only [Verifier.verify, hr] at hrun
    have hinspected := hstarted.inspect (Function.update_self ..) hr
    have hcommitted := hinspected.commit (Function.update_self ..) hrun
    rwa [Function.update_idem, Function.update_idem, hidle] at hcommitted

end Steps

section Trails

variable {start m : ReplayMutex} {answers : List Answer}

theorem Trail.forward (h : Trail start m answers) (he : ∀ a ∈ answers, a.Effect env) :
    Ledger.Below start.map m.map := by
  induction h with
  | nil => exact Ledger.Below.refl _
  | snoc a _ hbefore ih =>
    have hstep : Ledger.Below a.before.map a.after.map :=
      (he a (List.mem_append_right _ (List.mem_singleton_self a))).forward
    rw [hbefore] at hstep
    exact (ih fun b hb => he b (List.mem_append_left _ hb)).trans hstep

/-- What an answer leaves is below the map at the end. -/
theorem Trail.below_final (h : Trail start m answers) (he : ∀ a ∈ answers, a.Effect env)
    {a : Answer} (ha : a ∈ answers) : Ledger.Below a.after.map m.map := by
  induction h with
  | nil => cases ha
  | snoc b _ hbefore ih =>
    rcases List.mem_append.mp ha with ha | ha
    · have hstep : Ledger.Below b.before.map b.after.map :=
        (he b (List.mem_append_right _ (List.mem_singleton_self b))).forward
      rw [hbefore] at hstep
      exact (ih (fun c hc => he c (List.mem_append_left _ hc)) ha).trans hstep
    · obtain rfl := List.mem_singleton.mp ha
      exact Ledger.Below.refl _

/-- What an answer leaves is below the map every later answer finds. -/
theorem Trail.ordered (h : Trail start m answers) (he : ∀ a ∈ answers, a.Effect env) :
    answers.Pairwise fun a b => Ledger.Below a.after.map b.before.map := by
  induction h with
  | nil => exact List.Pairwise.nil
  | snoc b htrail hbefore ih =>
    have he' := fun c hc => he c (List.mem_append_left [b] hc)
    refine List.pairwise_append.mpr ⟨ih he', List.pairwise_singleton _ _, ?_⟩
    intro a ha c hc
    obtain rfl := List.mem_singleton.mp hc
    rw [hbefore]
    exact htrail.below_final he' ha

end Trails

/-- Of two acceptances under one fingerprint, the later has the larger number. -/
theorem Answer.Effect.increasing {a b : Answer} (ha : a.Effect env) (hb : b.Effect env)
    (hab : Ledger.Below a.after.map b.before.map) (hacc : Verifier.Accepts a.result)
    (hacc' : Verifier.Accepts b.result) {claims claims' : VeriClaims} {doc doc' : AttestationDoc}
    (hc : ReceiptContent env a.call.receiptBytes claims doc)
    (hc' : ReceiptContent env b.call.receiptBytes claims' doc')
    (hf : computeIdentityFingerprint env doc = computeIdentityFingerprint env doc') :
    claims.sequenceNum < claims'.sequenceNum := by
  cases ha with
  | refused hn _ => exact (hn hacc).elim
  | accepted c d _ hcd _ hafter =>
    obtain ⟨rfl, rfl⟩ := hc.unique hcd
    cases hb with
    | refused hn _ => exact (hn hacc').elim
    | accepted c' d' _ hcd' hfresh _ =>
      obtain ⟨rfl, rfl⟩ := hc'.unique hcd'
      have hlookup : a.after.map.lookup (computeIdentityFingerprint env doc') =
          some claims.sequenceNum := by
        rw [hafter, ← hf]
        exact Finmap.lookup_insert _
      exact hab.lt_of_fresh hfresh hlookup

/-- What a stateful verifier guarantees of its replay state and its answers. -/
structure ReplaySafe (env : Primitives) (start final : ReplayMutex) (answers : List Answer) :
    Prop where
  /-- Nothing but the answers touches the mutex. -/
  trail : Trail start final answers
  refused : ∀ a ∈ answers, ¬ Verifier.Accepts a.result → a.after = a.before
  accepted : ∀ a ∈ answers, Verifier.Accepts a.result →
    ∃ claims doc, ReceiptContent env a.call.receiptBytes claims doc ∧
      a.after = a.before.insert (computeIdentityFingerprint env doc) claims.sequenceNum
  /-- No key disappears and every number only grows, from the start to the end. -/
  forward : Ledger.Below start.map final.map
  /-- The same from each answer to every later one. -/
  ordered : answers.Pairwise fun a b => Ledger.Below a.after.map b.before.map
  step : ∀ a ∈ answers, Ledger.Below a.before.map a.after.map
  increasing : answers.Pairwise fun a b => Verifier.Accepts a.result → Verifier.Accepts b.result →
    ∀ claims claims' doc doc', ReceiptContent env a.call.receiptBytes claims doc →
      ReceiptContent env b.call.receiptBytes claims' doc' →
      computeIdentityFingerprint env doc = computeIdentityFingerprint env doc' →
        claims.sequenceNum < claims'.sequenceNum
  /-- Receipt bytes are accepted at most once. -/
  acceptedOnce : answers.Pairwise fun a b => Verifier.Accepts a.result →
    Verifier.Accepts b.result → a.call.receiptBytes ≠ b.call.receiptBytes

/-- The answers of every history, however its calls overlap, keep the replay state safe. -/
theorem History.replaySafe {start final : ReplayMutex} {calls : Nat → Option CallState}
    {answers : List Answer} (h : History env v start final calls answers) :
    ReplaySafe env start final answers := by
  obtain ⟨_, htrail, heffects⟩ := h.inv
  have hordered := htrail.ordered heffects
  have hboth := hordered.imp_of_mem fun {a b} ha hb hab =>
    (⟨heffects a ha, heffects b hb, hab⟩ :
      a.Effect env ∧ b.Effect env ∧ Ledger.Below a.after.map b.before.map)
  refine ⟨htrail, ?_, ?_, htrail.forward heffects, hordered,
    fun a ha => (heffects a ha).forward, ?_, ?_⟩
  · intro a ha hn
    cases heffects a ha with
    | accepted _ _ hacc _ _ _ => exact (hn hacc).elim
    | refused _ hafter => exact hafter
  · intro a ha hacc
    cases heffects a ha with
    | accepted claims doc _ hcontent _ hafter => exact ⟨claims, doc, hcontent, hafter⟩
    | refused hn _ => exact (hn hacc).elim
  · refine hboth.imp ?_
    intro a b hab hacc hacc' claims claims' doc doc' hc hc' hf
    exact hab.1.increasing hab.2.1 hab.2.2 hacc hacc' hc hc' hf
  · refine hboth.imp ?_
    intro a b hab hacc hacc' hbytes
    cases hab.1 with
    | refused hn _ => exact hn hacc
    | accepted claims doc _ hcontent _ _ =>
      have hcontent' : ReceiptContent env b.call.receiptBytes claims doc := hbytes ▸ hcontent
      exact lt_irrefl _ (hab.1.increasing hab.2.1 hab.2.2 hacc hacc' hcontent hcontent' rfl)

namespace Transparent

/-- A call presenting receipt number `seq`. -/
def present (seq : UInt8) : Call := ⟨provider, epoch, [1, seq, 0], expected⟩

/-- Two calls, the second replaying the receipt of the first. -/
theorem replaySafe_replayed :
    ∃ final answers, answers.map (fun a => a.call.receiptBytes) = [[1, 7, 0], [1, 7, 0]] ∧
      ReplaySafe primitives (.new ∅) final answers := by
  have hstart : History primitives verifier (.new ∅) (.new ∅) (fun _ => none) [] := .nil
  have hfirst := hstart.verify 0 (present 7) rfl rfl
  have hboth := hfirst.verify 0 (present 7) rfl rfl
  exact ⟨_, _, rfl, hboth.replaySafe⟩

end Transparent

end Veriai
