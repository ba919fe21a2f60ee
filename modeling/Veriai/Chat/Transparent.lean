import Veriai.Chat.Backed

/-!
# Runs of the transparent chat handler

A demo with one inference slot whose receipts can be computed, and calls of it
that come to their check one after another.
-/

namespace Veriai.Transparent

open Chat Verifier

/-- The transparent primitives with the hashes of one input and of the empty output. -/
def chatPrimitives : Primitives :=
  { primitives with
    sha256 := fun bytes =>
      if bytes = [2] then fill 32 2 else if bytes = [] then fill 32 3 else fill 32 0 }

/-- The primitives are lawful. -/
theorem chatLawful : chatPrimitives.Lawful :=
  ⟨lawful.claims_roundTrip, lawful.cose_roundTrip, lawful.keyValid, lawful.sign_verifies⟩

/-- A demo with one inference slot that verifies inline. -/
def chatApp : App where
  verifier := some verifier
  modelHash := fill 32 1
  modelId := "model"
  expectedPcr0 := some (List.replicate 48 0)
  maxConcurrentInferences := 1
  realHardware := false
  toJson _ := .ok [2]
  base64Encode := hexEncode

/-- A call for which the nonce of the transparent receipts is drawn. -/
def chatCall : ChatCall where
  payload := .ok ⟨"model", [⟨"user", "question"⟩], none⟩
  nonceHeader := none
  drawnNonce := fill 32 4

/-- What the runtime answers. -/
def inference : InferenceResult := ⟨"", 0⟩

/-- Calm surroundings of a run: the assumptions on every step. -/
abbrev Calm (s : ChatState) (event : ChatEvent) : Prop :=
  Undisturbed chatPrimitives verifier (List.replicate 48 0) s event

/-- The work of a call. -/
def chatWork : Work := work chatPrimitives chatApp [2] (fill 32 4) inference

/-- The document vouches for the key of the application. -/
theorem chatVouches : Vouches chatPrimitives verifier (List.replicate 48 0) (fill 64 0).toList
    (fill 32 4).toList (fill 32 7).toList [7] (doc 7) :=
  ⟨(vouches 7).parses, (vouches 7).trusted, rfl, rfl, rfl, (vouches 7).pcr0⟩

/-- What a receipt carries. -/
theorem chatContent (n : UInt8) :
    ReceiptContent chatPrimitives [1, n, 7] (claims n 7) (doc 7) :=
  ⟨_, _, rfl, rfl, rfl, _, _, rfl, rfl, rfl⟩

/-- A receipt of the transparent generator has been inspected. -/
def chatStage (n : UInt8) : ChatStage :=
  .inspected chatWork [1, n, 7] (claims n 7) (doc 7) (inspectedReport (claims n 7))

/-- A call alone has come to its check. -/
def atCheck (s : ChatState) (t : Nat) (n : UInt8) (sequence : UInt64) : ChatState :=
  { s with
    slots := 1
    generator :=
      { gen := keyed (fill 32 7) (sequence + 1)
        holder := none
        calls := Function.update s.generator.calls t none
        started := s.generator.started ++ [t] }
    calls := Function.update s.calls t (some (chatStage n))
    started := s.started ++ [t]
    events := s.events ++
      [.called t chatWork.request, .locked t, .attested t [7], .allocated t sequence,
        .returned t epoch (.ok [1, n, 7])] }

/-- The provider gives a good report. -/
theorem calm_attested {s : ChatState} {t : Nat} {sequence : UInt64}
    (hgen : s.generator.gen = keyed (fill 32 7) sequence)
    (hstage : s.generator.calls t = some (.attesting chatWork.request)) :
    Calm s (.generation (.attested t [7])) := by
  intro request hrequest
  obtain rfl := GenerationStage.attesting.inj (Option.some.inj (hstage.symm.trans hrequest))
  rw [hgen]
  exact ⟨doc 7, chatVouches⟩

/-- A receipt is returned at the epoch. -/
theorem calm_returned {s : ChatState} {t : Nat} (n : UInt8) :
    Calm s (.generation (.returned t epoch (.ok [1, n, 7]))) := by
  refine ⟨(by decide : 3 ≤ verifier.config.maxReceiptSize), ?_⟩
  intro claims' doc' hcontent
  obtain ⟨rfl, rfl⟩ := hcontent.unique (chatContent n)
  exact readBefore 7

/-- A receipt is inspected at the epoch. -/
theorem calm_inspected {s : ChatState} {t : Nat} {n : UInt8}
    (hstage : s.calls t = some (.generated chatWork [1, n, 7])) : Calm s (.inspected t epoch) := by
  intro work' receiptBytes hgenerated claims' doc' hcontent
  obtain ⟨rfl, rfl⟩ := ChatStage.generated.inj (Option.some.inj (hstage.symm.trans hgenerated))
  obtain ⟨rfl, rfl⟩ := hcontent.unique (chatContent n)
  constructor
  · exact (by decide : (0 : Int64).toInt ≤ (docSec (doc 7)).toInt + 5)
  · exact (by decide : (0 : Int64).toInt ≤ epoch.secs.toInt)
  · exact (by decide : epoch.secs.toInt ≤ (0 : Int64).toInt + verifier.config.maxReceiptAge.toInt)
  · exact (by decide :
      epoch.secs.toInt ≤ (docSec (doc 7)).toInt + verifier.config.maxClockSkew.toInt)

/-- A call runs undisturbed up to the check of its receipt. -/
theorem chatRun_atCheck {cond : ChatState → ChatEvent → Prop}
    (hcond : ∀ s event, Calm s event → (∀ t, event ≠ .checked t) → cond s event)
    {s : ChatState} (h : ChatRun chatPrimitives chatApp (fill 32 7) cond s) {t : Nat} {n : UInt8}
    {sequence : UInt64} (hnew : t ∉ s.started) (hcall : t ∉ s.generator.started)
    (hslots : s.slots = 1) (hfree : s.generator.holder = none)
    (hgen : s.generator.gen = keyed (fill 32 7) sequence)
    (hroom : sequence.toNat + 1 < 2 ^ 64)
    (hbuild : (keyed (fill 32 7) 0).buildReceipt chatPrimitives epoch chatWork.request sequence
      [7] = .ok [1, n, 7])
    (hinspect : (verifier.inspect chatPrimitives epoch [1, n, 7]
      (chatWork.request.expected (List.replicate 48 0))).run {} =
        .ok ((claims n 7, doc 7), inspectedReport (claims n 7))) :
    ChatRun chatPrimitives chatApp (fill 32 7) cond (atCheck s t n sequence) := by
  obtain ⟨slots, ⟨gen, holder, gcalls, gstarted⟩, replay, calls, started, events, checked, dropped,
    answers⟩ := s
  obtain rfl : slots = 0 + 1 := hslots
  obtain rfl : holder = none := hfree
  obtain rfl : gen = keyed (fill 32 7) sequence := hgen
  have harrived := h.step (hcond _ (.arrived t chatCall) trivial (by rintro _ ⟨⟩))
    (.admitted hnew rfl rfl)
  have hinferred := harrived.step (hcond _ (.inferred t (.ok inference)) trivial (by rintro _ ⟨⟩))
    (.inferred (Function.update_self _ _ _) (.called hcall))
  have hlocked := hinferred.step (hcond _ (.generation (.locked t)) trivial (by rintro _ ⟨⟩))
    (.generating (Function.update_self _ _ _) trivial rfl
      (.locked (Function.update_self _ _ _) rfl))
  have hattested := hlocked.step
    (hcond _ (.generation (.attested t [7])) (calm_attested rfl (Function.update_self _ _ _))
      (by rintro _ ⟨⟩))
    (.generating (Function.update_self _ _ _) trivial rfl
      (@SharedGenerator.Step.attested _ _ _ _ _ provider (Function.update_self _ _ _) rfl))
  have hallocated := hattested.step
    (hcond _ (.generation (.allocated t sequence)) trivial (by rintro _ ⟨⟩))
    (.generating (Function.update_self _ _ _) trivial rfl
      (.allocated (Function.update_self _ _ _) (if_pos hroom)))
  have hgenerated := hallocated.step
    (hcond _ (.generation (.returned t epoch (.ok [1, n, 7]))) (calm_returned n)
      (by rintro _ ⟨⟩))
    (.generated (Function.update_self _ _ _) rfl
      (SharedGenerator.step_returned (Function.update_self _ _ _) hbuild) rfl rfl)
  have hinspected := hgenerated.step
    (hcond _ (.inspected t epoch) (calm_inspected (Function.update_self _ _ _)) (by rintro _ ⟨⟩))
    (.inspected (Function.update_self _ _ _) rfl rfl hinspect)
  simp only [ChatState.move, ChatState.generate, SharedGenerator.move, SharedGenerator.leave,
    GenerationEvent.thread, Function.update_idem, List.append_assoc, List.cons_append,
    List.nil_append] at hinspected
  exact hinspected

/-- The call is at its check. -/
theorem atCheck_calls (s : ChatState) (t : Nat) (n : UInt8) (sequence : UInt64) :
    (atCheck s t n sequence).calls t = some (chatStage n) := Function.update_self _ _ _

/-- The first call runs undisturbed up to its check. -/
theorem chatRun_first {cond : ChatState → ChatEvent → Prop}
    (hcond : ∀ s event, Calm s event → (∀ t, event ≠ .checked t) → cond s event) :
    ChatRun chatPrimitives chatApp (fill 32 7) cond
      (atCheck (.initial chatApp (fill 32 7)) 0 0 0) :=
  chatRun_atCheck hcond .initial List.not_mem_nil List.not_mem_nil rfl rfl rfl (by decide) rfl rfl

/-- The answer to a call that the check accepted. -/
def chatAccepted (n : UInt8) : Chat.Answer :=
  verifiedAnswer chatApp chatWork [1, n, 7] epoch
    (.ok (verifier.accepted ((inspectedReport (claims n 7)).passed "Sequence Check")))

/-- Two calls have come to their check. -/
def bothAtCheck : ChatState := atCheck (atCheck (.initial chatApp (fill 32 7)) 0 0 0) 1 1 1

/-- A condition on the checks only lets both calls come to their check. -/
theorem chatRun_both {cond : ChatState → ChatEvent → Prop}
    (hcond : ∀ s event, Calm s event → (∀ t, event ≠ .checked t) → cond s event) :
    ChatRun chatPrimitives chatApp (fill 32 7) cond bothAtCheck :=
  chatRun_atCheck hcond (chatRun_first hcond) (by decide) (by decide) rfl rfl rfl (by decide)
    rfl rfl

/-- The check has accepted number 0. -/
def zeroChecked : ChatState :=
  { bothAtCheck.answer 0 (chatAccepted 0) with
    replay := bothAtCheck.replay.insert (computeIdentityFingerprint chatPrimitives (doc 7)) 0
    checked := [(0, computeIdentityFingerprint chatPrimitives (doc 7), 0)] }

end Veriai.Transparent
