import Veriai.Receipt.Generate
import Veriai.Receipt.Replay

/-!
# Generator instances in front of one verifier

Every generator instance counts from zero, while the verifier keeps one number
for each identity. Receipts presented one after another are answered by the
numbers accepted before them, whatever instance they come from.
-/

namespace Veriai

variable {env : Primitives} {v : Verifier}

/-- The identity fingerprint and the sequence number a receipt carries. -/
def receiptIdentity (env : Primitives) (receiptBytes : Bytes) : Option (Fingerprint × UInt64) := do
  let cose ← (env.coseFromSlice receiptBytes).toOption
  let claims ← (env.claimsFromBinary (← cose.payload)).toOption
  let attestation ← (env.coseFromSlice claims.attestationReport).toOption
  let doc ← (env.docFromBinary (← attestation.payload)).toOption
  return (computeIdentityFingerprint env doc, claims.sequenceNum)

theorem receiptIdentity_eq_some {receiptBytes : Bytes} {fingerprint : Fingerprint}
    {sequence : UInt64} :
    receiptIdentity env receiptBytes = some (fingerprint, sequence) ↔
      ∃ claims doc, ReceiptContent env receiptBytes claims doc ∧
        fingerprint = computeIdentityFingerprint env doc ∧ sequence = claims.sequenceNum := by
  simp only [receiptIdentity, bind, Option.bind_eq_some_iff, toOption_eq_some, pure,
    Option.some.injEq, Prod.mk.injEq]
  constructor
  · rintro ⟨cose, hcose, payload, hpayload, claims, hclaims, att, hatt, attPayload, hattPayload,
      doc, hdoc, rfl, rfl⟩
    exact ⟨claims, doc, ⟨cose, payload, hcose, hpayload, hclaims, att, attPayload, hatt,
      hattPayload, hdoc⟩, rfl, rfl⟩
  · rintro ⟨claims, doc, ⟨cose, payload, hcose, hpayload, hclaims, att, attPayload, hatt,
      hattPayload, hdoc⟩, rfl, rfl⟩
    exact ⟨cose, hcose, payload, hpayload, claims, hclaims, att, hatt, attPayload, hattPayload, doc,
      hdoc, rfl, rfl⟩

/-- The replay state after a list of calls. -/
def stateAfter (env : Primitives) (v : Verifier) (m : ReplayMutex) (calls : List Call) :
    Option ReplayMutex :=
  calls.foldl (fun state call =>
    ((v.during call).verify env call.now call.receiptBytes call.expected state).2) (some m)

/-- The answer to a call made after a list of calls. -/
def answerAfter (env : Primitives) (v : Verifier) (m : ReplayMutex) (calls : List Call)
    (call : Call) : Except VerifyError VerificationResult :=
  ((v.during call).verify env call.now call.receiptBytes call.expected (stateAfter env v m calls)).1

/-- The call passes every check but the sequence check. -/
def OtherwiseValid (env : Primitives) (v : Verifier) (call : Call) : Prop :=
  ∃ cose claims doc,
    Verifier.Inspected env (v.during call) call.now call.receiptBytes call.expected cose claims doc

/-- The receipt was accepted, with its identity, at some place of the list. -/
def AcceptedIn (env : Primitives) (v : Verifier) (m : ReplayMutex) (calls : List Call)
    (entry : Fingerprint × UInt64) : Prop :=
  ∃ before call after, calls = before ++ call :: after ∧
    Verifier.Accepts (answerAfter env v m before call) ∧
    receiptIdentity env call.receiptBytes = some entry

/-- One verification of a locked map: an acceptance records the receipt's identity,
which was fresh; anything else leaves the map. -/
theorem Verifier.verify_effect (env : Primitives) (v : Verifier) (call : Call) (m : ReplayMutex)
    (hm : m.poisoned = false) :
    (∃ f n, receiptIdentity env call.receiptBytes = some (f, n) ∧
        Accepts ((v.during call).verify env call.now call.receiptBytes call.expected (some m)).1 ∧
        Ledger.Fresh m.map f n ∧
        ((v.during call).verify env call.now call.receiptBytes call.expected (some m)).2 =
          some (m.insert f n)) ∨
      (¬ Accepts ((v.during call).verify env call.now call.receiptBytes call.expected (some m)).1 ∧
        ((v.during call).verify env call.now call.receiptBytes call.expected (some m)).2 =
          some m) := by
  rcases verify_cases env (v.during call) call.now call.receiptBytes call.expected (some m) with
    ⟨cose, claims, doc, hi⟩ | hrefused
  · rw [verify_of_inspected hi]
    have hidentity : receiptIdentity env call.receiptBytes =
        some (computeIdentityFingerprint env doc, claims.sequenceNum) :=
      receiptIdentity_eq_some.mpr ⟨claims, doc, hi.content, rfl, rfl⟩
    have hkept : ∃ m', ((v.during call).checkSequence env claims doc (inspectedReport claims)
        (some m)).2 = some m' := by
      unfold checkSequence
      simp only [hm, Bool.false_eq_true, reduceIte]
      split <;> exact ⟨_, rfl⟩
    obtain ⟨m', hm'⟩ := hkept
    rcases checkSequence_effect (Prod.ext rfl hm') with ⟨hacc, hfresh, rfl⟩ | ⟨hacc, rfl⟩
    · exact Or.inl ⟨_, _, hidentity, hacc, hfresh, hm'⟩
    · exact Or.inr ⟨hacc, hm'⟩
  · exact Or.inr hrefused

/-- The state after a list of calls is a log of the receipts accepted in it. -/
theorem stateAfter_log (m : ReplayMutex) (hm : m.poisoned = false) (calls : List Call) :
    ∃ m' entries, stateAfter env v m calls = some m' ∧ m'.poisoned = false ∧
      Ledger.Log m.map m'.map entries ∧ ∀ e, e ∈ entries ↔ AcceptedIn env v m calls e := by
  induction calls using List.reverseRecOn with
  | nil =>
    refine ⟨m, [], rfl, hm, .nil, ?_⟩
    intro e
    constructor
    · intro he
      cases he
    · rintro ⟨before, call, after, heq, _⟩
      simp at heq
  | append_singleton calls call ih =>
    obtain ⟨m', entries, hstate, hm', hlog, hentries⟩ := ih
    have hnext : stateAfter env v m (calls ++ [call]) =
        ((v.during call).verify env call.now call.receiptBytes call.expected (some m')).2 := by
      rw [← hstate]
      simp [stateAfter, List.foldl_append]
    have hanswer : answerAfter env v m calls call =
        ((v.during call).verify env call.now call.receiptBytes call.expected (some m')).1 := by
      rw [answerAfter, hstate]
    -- an acceptance in the longer list is one in the shorter list, or the last call's
    have hsplit : ∀ e, AcceptedIn env v m (calls ++ [call]) e ↔ AcceptedIn env v m calls e ∨
        (Verifier.Accepts (answerAfter env v m calls call) ∧
          receiptIdentity env call.receiptBytes = some e) := by
      intro e
      constructor
      · rintro ⟨before, y, after, heq, hacc, hid⟩
        rcases List.eq_nil_or_concat after with rfl | ⟨after', z, rfl⟩
        · obtain ⟨rfl, hy⟩ := List.append_inj' heq rfl
          obtain rfl := (List.cons.inj hy).1
          exact Or.inr ⟨hacc, hid⟩
        · have heq' : calls ++ [call] = (before ++ y :: after') ++ [z] := by
            rw [heq]
            simp
          obtain ⟨rfl, _⟩ := List.append_inj' heq' rfl
          exact Or.inl ⟨before, y, after', rfl, hacc, hid⟩
      · rintro (⟨before, y, after, rfl, hacc, hid⟩ | ⟨hacc, hid⟩)
        · exact ⟨before, y, after ++ [call], by simp, hacc, hid⟩
        · exact ⟨calls, call, [], rfl, hacc, hid⟩
    rw [hanswer] at hsplit
    rcases Verifier.verify_effect env v call m' hm' with
      ⟨f, n, hid, hacc, hfresh, hinsert⟩ | ⟨hacc, hsame⟩
    · refine ⟨m'.insert f n, entries ++ [(f, n)], hnext.trans hinsert, hm', hlog.snoc hfresh, ?_⟩
      intro e
      rw [hsplit, List.mem_append, hentries, List.mem_singleton, hid, Option.some.injEq, eq_comm]
      simp only [hacc, true_and]
    · refine ⟨m', entries, hnext.trans hsame, hm', hlog, ?_⟩
      intro e
      rw [hsplit, hentries]
      simp only [hacc, false_and, or_false]

/-- An otherwise valid receipt is answered valid exactly when its number lies above the
starting map's and above every number accepted before it under its fingerprint. -/
theorem answerAfter_accepts_iff {m : ReplayMutex} (hm : m.poisoned = false) {calls : List Call}
    {call : Call} {f : Fingerprint} {n : UInt64} (hvalid : OtherwiseValid env v call)
    (hid : receiptIdentity env call.receiptBytes = some (f, n)) :
    Verifier.Accepts (answerAfter env v m calls call) ↔ Ledger.Fresh m.map f n ∧
      ∀ n', AcceptedIn env v m calls (f, n') → n' < n := by
  obtain ⟨cose, claims, doc, hi⟩ := hvalid
  obtain ⟨m', entries, hstate, hm', hlog, hentries⟩ := stateAfter_log m hm calls
  have hid' : receiptIdentity env call.receiptBytes =
      some (computeIdentityFingerprint env doc, claims.sequenceNum) :=
    receiptIdentity_eq_some.mpr ⟨claims, doc, hi.content, rfl, rfl⟩
  obtain ⟨rfl, rfl⟩ := Prod.mk.inj (Option.some.inj (hid.symm.trans hid'))
  have hfresh : Verifier.Accepts (answerAfter env v m calls call) ↔
      Verifier.SequenceFresh env claims doc m'.map := by
    rw [answerAfter, hstate, Verifier.verify_of_inspected hi, Verifier.checkSequence_accepts_iff]
    simp [hm']
  rw [hfresh, Verifier.SequenceFresh, hlog.fresh_iff]
  constructor
  · rintro ⟨hstart, hall⟩
    exact ⟨hstart, fun n' hacc => hall (_, n') ((hentries _).mpr hacc) rfl⟩
  · rintro ⟨hstart, hall⟩
    refine ⟨hstart, ?_⟩
    rintro ⟨f', n'⟩ he rfl
    exact hall n' ((hentries _).mp he)

/-- One call of `generate_receipt`, with the provider and the clock as they answer in it. -/
structure Generation where
  provider : AttestationProvider
  now : SystemTime
  request : ReceiptRequest

/-- The receipts a generator returns over its calls, in generation order. -/
def ReceiptGenerator.receipts (env : Primitives) : ReceiptGenerator → List Generation → List Bytes
  | _, [] => []
  | gen, call :: calls =>
    match gen.generateReceipt env call.provider call.now call.request with
    | (.error _, gen') => gen'.receipts env calls
    | (.ok receiptBytes, gen') => receiptBytes :: gen'.receipts env calls

/-- A generator instance: the key drawn by `ReceiptGenerator::new`, and its calls. -/
structure Instance where
  signingKey : ByteArr 32
  generations : List Generation

/-- The receipts of an instance; its counter starts at 0. -/
def Instance.receipts (env : Primitives) (inst : Instance) : List Bytes :=
  ReceiptGenerator.receipts env { signingKey := inst.signingKey } inst.generations

/-- The number of a returned receipt is the counter before the call. -/
theorem ReceiptGenerator.sequence_of_complete (hlawful : env.Lawful) {gen gen' : ReceiptGenerator}
    {now : SystemTime} {request : ReceiptRequest} {report receiptBytes : Bytes} {f : Fingerprint}
    {n : UInt64} (h : gen.complete env now request report = (.ok receiptBytes, gen'))
    (hid : receiptIdentity env receiptBytes = some (f, n)) : n = gen.sequenceNum := by
  obtain ⟨_, _, _, payload, hclaims, hcose⟩ := complete_eq_ok h
  obtain ⟨claims, doc, ⟨cose, payload', hparse, hpay, hdecode, _⟩, _, rfl⟩ :=
    receiptIdentity_eq_some.mp hid
  have hreceived := hlawful.cose_roundTrip _ _ rfl hcose
  obtain rfl := Except.ok.inj (hparse.symm.trans hreceived)
  obtain rfl := Option.some.inj hpay
  rw [Except.ok.inj (hdecode.symm.trans (hlawful.claims_roundTrip _ _ hclaims))]
  rfl

/-- One call leaves the counter or, returning a receipt with the counter's number, advances it. -/
theorem ReceiptGenerator.generateReceipt_counter (hlawful : env.Lawful) (gen : ReceiptGenerator)
    (call : Generation) :
    gen.sequenceNum ≤ (gen.generateReceipt env call.provider call.now call.request).2.sequenceNum ∧
      ∀ receiptBytes,
        (gen.generateReceipt env call.provider call.now call.request).1 = .ok receiptBytes →
          gen.sequenceNum <
              (gen.generateReceipt env call.provider call.now call.request).2.sequenceNum ∧
            ∀ f n, receiptIdentity env receiptBytes = some (f, n) → n = gen.sequenceNum := by
  unfold generateReceipt
  cases gen.requestAttestation env call.provider call.request with
  | error e =>
    refine ⟨UInt64.le_refl _, ?_⟩
    intro receiptBytes h
    cases h
  | ok report =>
    have hgrows : gen.sequenceNum.toNat + 1 < 2 ^ 64 →
        gen.sequenceNum < gen.sequenceNum + 1 := by
      intro hroom
      have hone : (1 : UInt64).toNat = 1 := rfl
      rw [UInt64.lt_iff_toNat_lt, UInt64.toNat_add, hone, Nat.mod_eq_of_lt hroom]
      omega
    constructor
    · simp only [complete, allocateSequence]
      by_cases hroom : gen.sequenceNum.toNat + 1 < 2 ^ 64
      · simp only [if_pos hroom]
        exact UInt64.le_of_lt (hgrows hroom)
      · simp only [if_neg hroom]
        exact UInt64.le_refl _
    · intro receiptBytes h
      have hcomplete : gen.complete env call.now call.request report =
          (.ok receiptBytes, (gen.complete env call.now call.request report).2) := Prod.ext h rfl
      obtain ⟨_, hroom, hgen, _⟩ := complete_eq_ok hcomplete
      refine ⟨?_, fun f n hid => sequence_of_complete hlawful hcomplete hid⟩
      simp only [hgen]
      exact hgrows hroom

/-- The numbers of an instance's receipts strictly increase in generation order. -/
theorem ReceiptGenerator.receipts_increasing (hlawful : env.Lawful) (gen : ReceiptGenerator)
    (calls : List Generation) :
    (∀ r ∈ gen.receipts env calls, ∀ f n, receiptIdentity env r = some (f, n) →
      gen.sequenceNum ≤ n) ∧
    (gen.receipts env calls).Pairwise fun r r' => ∀ f n f' n',
      receiptIdentity env r = some (f, n) → receiptIdentity env r' = some (f', n') → n < n' := by
  induction calls generalizing gen with
  | nil => exact ⟨fun _ hr => (List.not_mem_nil hr).elim, List.Pairwise.nil⟩
  | cons call calls ih =>
    obtain ⟨hle, hreturned⟩ := gen.generateReceipt_counter hlawful call
    obtain ⟨hbound, hpairs⟩ :=
      ih (gen.generateReceipt env call.provider call.now call.request).2
    cases hresult : (gen.generateReceipt env call.provider call.now call.request).1 with
    | error e =>
      have heq : gen.receipts env (call :: calls) =
          (gen.generateReceipt env call.provider call.now call.request).2.receipts env calls := by
        rw [receipts]
        split
        · rename_i h
          rw [h]
        · rename_i h
          rw [h] at hresult
          cases hresult
      rw [heq]
      exact ⟨fun r hr f n hid => UInt64.le_trans hle (hbound r hr f n hid), hpairs⟩
    | ok receiptBytes =>
      obtain ⟨hlt, hnumber⟩ := hreturned receiptBytes hresult
      have heq : gen.receipts env (call :: calls) = receiptBytes ::
          (gen.generateReceipt env call.provider call.now call.request).2.receipts env calls := by
        rw [receipts]
        split
        · rename_i h
          rw [h] at hresult
          cases hresult
        · rename_i h
          rw [h] at hresult
          rw [h, Except.ok.inj hresult]
      rw [heq]
      constructor
      · intro r hr f n hid
        rcases List.mem_cons.mp hr with rfl | hr
        · rw [hnumber f n hid]
        · exact UInt64.le_trans hle (hbound r hr f n hid)
      · refine List.Pairwise.cons ?_ hpairs
        intro r hr f n f' n' hid hid'
        rw [hnumber f n hid]
        exact UInt64.lt_of_lt_of_le hlt (hbound r hr f' n' hid')

/-- The presented calls carry the receipts of the instances, each exactly once and each
instance's in its generation order. -/
def Presents {ι : Type} [DecidableEq ι] (env : Primitives) (instances : ι → Instance)
    (presented : List (ι × Call)) : Prop :=
  ∀ i, (presented.filter fun x => x.1 = i).map (fun x => x.2.receiptBytes) =
    (instances i).receipts env

/-- Receipts of one instance are presented with increasing numbers. -/
theorem Presents.increasing {ι : Type} [DecidableEq ι] (hlawful : env.Lawful)
    {instances : ι → Instance} {presented : List (ι × Call)}
    (h : Presents env instances presented) :
    presented.Pairwise fun x y => x.1 = y.1 → ∀ f n f' n',
      receiptIdentity env x.2.receiptBytes = some (f, n) →
        receiptIdentity env y.2.receiptBytes = some (f', n') → n < n' := by
  have hall : ∀ i, presented.Pairwise fun x y => x.1 = i → y.1 = i → ∀ f n f' n',
      receiptIdentity env x.2.receiptBytes = some (f, n) →
        receiptIdentity env y.2.receiptBytes = some (f', n') → n < n' := by
    intro i
    have hpairs := (ReceiptGenerator.receipts_increasing hlawful
      { signingKey := (instances i).signingKey } (instances i).generations).2
    have hreceipts := h i
    unfold Instance.receipts at hreceipts
    rw [← hreceipts, List.pairwise_map, List.pairwise_filter] at hpairs
    refine hpairs.imp ?_
    intro x y hxy hx hy
    exact hxy (by simpa using hx) (by simpa using hy)
  rw [List.pairwise_iff_getElem]
  intro i j hi hj hij heq
  exact List.pairwise_iff_getElem.mp (hall presented[i].1) i j hi hj hij rfl heq.symm

/-- Presented otherwise valid receipts are answered by the numbers accepted before them
under their fingerprint; where no fingerprint is shared by two instances, every receipt
is answered valid, each instance counting from zero. -/
theorem presented_answers {ι : Type} [DecidableEq ι] (hlawful : env.Lawful)
    {instances : ι → Instance} {presented : List (ι × Call)} {m : ReplayMutex}
    (hm : m.poisoned = false) (hpresents : Presents env instances presented)
    (hvalid : ∀ x ∈ presented, OtherwiseValid env v x.2)
    (hnew : ∀ x ∈ presented, ∀ f n, receiptIdentity env x.2.receiptBytes = some (f, n) →
      m.map.lookup f = none) :
    (∀ before x after f n, presented = before ++ x :: after →
      receiptIdentity env x.2.receiptBytes = some (f, n) →
        (Verifier.Accepts (answerAfter env v m (before.map Prod.snd) x.2) ↔
          ∀ n', AcceptedIn env v m (before.map Prod.snd) (f, n') → n' < n)) ∧
    ((∀ x ∈ presented, ∀ y ∈ presented, ∀ f n n',
        receiptIdentity env x.2.receiptBytes = some (f, n) →
          receiptIdentity env y.2.receiptBytes = some (f, n') → x.1 = y.1) →
      ∀ before x after, presented = before ++ x :: after →
        Verifier.Accepts (answerAfter env v m (before.map Prod.snd) x.2)) := by
  have hanswer : ∀ before x after f n, presented = before ++ x :: after →
      receiptIdentity env x.2.receiptBytes = some (f, n) →
        (Verifier.Accepts (answerAfter env v m (before.map Prod.snd) x.2) ↔
          ∀ n', AcceptedIn env v m (before.map Prod.snd) (f, n') → n' < n) := by
    intro before x after f n heq hid
    have hx : x ∈ presented := by rw [heq]; simp
    have hfresh : Ledger.Fresh m.map f n := by
      intro last hlast
      rw [hnew x hx f n hid] at hlast
      cases hlast
    rw [answerAfter_accepts_iff hm (hvalid x hx) hid]
    simp only [hfresh, true_and]
  refine ⟨hanswer, ?_⟩
  intro howner before x after heq
  have hx : x ∈ presented := by rw [heq]; simp
  obtain ⟨cose, claims, doc, hi⟩ := hvalid x hx
  have hid : receiptIdentity env x.2.receiptBytes =
      some (computeIdentityFingerprint env doc, claims.sequenceNum) :=
    receiptIdentity_eq_some.mpr ⟨claims, doc, hi.content, rfl, rfl⟩
  rw [hanswer before x after _ _ heq hid]
  rintro n' ⟨before', call, after', hsplit, _, hid'⟩
  -- the earlier acceptance is of a receipt of the same instance
  have hmem : call ∈ before.map Prod.snd := by rw [hsplit]; simp
  obtain ⟨y, hy, rfl⟩ := List.mem_map.mp hmem
  have hy' : y ∈ presented := by rw [heq]; simp [hy]
  have hincreasing := hpresents.increasing hlawful
  rw [heq, List.pairwise_append] at hincreasing
  exact hincreasing.2.2 y hy x (by simp) (howner y hy' x hx _ _ _ hid' hid) _ _ _ _ hid' hid

namespace Transparent

/-- A receipt a stateless verifier accepts is otherwise valid. -/
theorem otherwiseValid_of_accepts {call : Call}
    (h : Verifier.Accepts ((verifier.during call).verify primitives call.now call.receiptBytes
      call.expected none).1) : OtherwiseValid primitives verifier call := by
  obtain ⟨cose, claims, doc, hi, _⟩ := Verifier.accepts_iff.mp h
  exact ⟨cose, claims, doc, hi⟩

/-- A call presenting the receipt of a generator, by its number and key byte. -/
def presentOf (seq key : UInt8) : Call := ⟨provider, epoch, [1, seq, key], expected⟩

/-- An instance with a key byte that is asked for a number of receipts. -/
def instanceOf (key : UInt8) (count : Nat) : Instance :=
  ⟨fill 32 key, List.replicate count ⟨provider, epoch, request⟩⟩

/-- The receipts of two instances of one identity, presented in turn: the first one's receipt
comes after the second's with the same number and is refused, its next receipt is accepted. -/
theorem presented_answers_pair :
    ¬ Verifier.Accepts
        (answerAfter primitives verifier (.new ∅) [presentOf 0 8] (presentOf 0 7)) ∧
      Verifier.Accepts
        (answerAfter primitives verifier (.new ∅) [presentOf 0 8, presentOf 0 7]
          (presentOf 1 7)) := by
  have hpresents : Presents primitives
      (fun second : Bool => if second then instanceOf 8 1 else instanceOf 7 2)
      [(true, presentOf 0 8), (false, presentOf 0 7), (false, presentOf 1 7)] := by
    intro second
    cases second <;> rfl
  have hrule := (presented_answers (v := verifier) (m := .new ∅) lawful rfl hpresents
    (by
      intro x hx
      simp only [List.mem_cons, List.not_mem_nil, or_false] at hx
      rcases hx with rfl | rfl | rfl <;> exact otherwiseValid_of_accepts ⟨_, rfl, rfl⟩)
    (fun x _ f n _ => Finmap.lookup_empty f)).1
  constructor
  · intro hacc
    have hfirst : AcceptedIn primitives verifier (.new ∅) [presentOf 0 8] (fill 32 0, 0) :=
      ⟨[], presentOf 0 8, [], rfl, ⟨_, rfl, rfl⟩, rfl⟩
    have hlt := (hrule [(true, presentOf 0 8)] (false, presentOf 0 7) [(false, presentOf 1 7)]
      (fill 32 0) 0 rfl rfl).mp hacc 0 hfirst
    exact absurd hlt (by decide)
  · apply (hrule [(true, presentOf 0 8), (false, presentOf 0 7)] (false, presentOf 1 7) []
      (fill 32 0) 1 rfl rfl).mpr
    rintro n' ⟨before, call, after, heq, _, hid⟩
    -- both earlier receipts carry the number zero
    have hmem : call ∈ [presentOf 0 8, presentOf 0 7] := by
      change [presentOf 0 8, presentOf 0 7] = before ++ call :: after at heq
      rw [heq]
      simp
    simp only [List.mem_cons, List.not_mem_nil, or_false] at hmem
    rcases hmem with rfl | rfl
    all_goals
      obtain rfl := (Prod.mk.inj (Option.some.inj hid)).2
      decide

/-- Two instances of one identity: the first receipt of the second instance repeats the
number of the first one's and is not answered valid. -/
theorem presented_answers_restarted :
    Presents primitives (fun second : Bool => instanceOf (if second then 8 else 7) 1)
        [(false, presentOf 0 7), (true, presentOf 0 8)] ∧
      OtherwiseValid primitives verifier (presentOf 0 7) ∧
      OtherwiseValid primitives verifier (presentOf 0 8) ∧
      (ReceiptContent primitives [1, 0, 7] (claims 0 7) (doc 7) ∧
        ReceiptContent primitives [1, 0, 8] (claims 0 8) (doc 8) ∧
        (doc 7).pcrs = (doc 8).pcrs ∧ (doc 7).moduleId = (doc 8).moduleId ∧
        (doc 7).certificate = (doc 8).certificate ∧ (doc 7).cabundle = (doc 8).cabundle) ∧
      ¬ Verifier.Accepts
        (answerAfter primitives verifier (.new ∅) [presentOf 0 7] (presentOf 0 8)) := by
  refine ⟨?_, otherwiseValid_of_accepts ⟨_, rfl, rfl⟩, otherwiseValid_of_accepts ⟨_, rfl, rfl⟩,
    ⟨⟨_, _, rfl, rfl, rfl, _, _, rfl, rfl, rfl⟩,
      ⟨_, _, rfl, rfl, rfl, _, _, rfl, rfl, rfl⟩, rfl, rfl, rfl, rfl⟩, ?_⟩
  · intro second
    cases second <;> rfl
  · have hid : receiptIdentity primitives (presentOf 0 8).receiptBytes = some (fill 32 0, 0) := rfl
    rw [answerAfter_accepts_iff rfl (otherwiseValid_of_accepts ⟨_, rfl, rfl⟩) hid]
    rintro ⟨_, hall⟩
    have hfirst : AcceptedIn primitives verifier (.new ∅) [presentOf 0 7] (fill 32 0, 0) :=
      ⟨[], presentOf 0 7, [], rfl, ⟨_, rfl, rfl⟩, rfl⟩
    exact absurd (hall 0 hfirst) (by decide)

end Transparent

end Veriai
