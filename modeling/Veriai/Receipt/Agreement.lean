import Veriai.Receipt.Returned

/-!
# Generators and a verifier together

Any number of generators and one stateful verifier, with nothing between them
but bytes: whoever carries the receipts may drop, repeat, reorder and alter
them, but cannot forge the signature of a generator, and the attestation
hardware certifies no keys but theirs. Then every acceptance goes back to a
call of `generate_receipt` that has returned before, for the same values, and
no two acceptances go back to the same call.
-/

namespace Veriai

variable {env : Primitives}

section Deployments

variable {I : Type} [DecidableEq I]

/-- The generators, and the replay state and the unanswered calls of the verifier. -/
structure Deployment (I : Type) where
  generators : I → SharedGenerator
  mutex : ReplayMutex
  calls : Nat → Option CallState

/-- What happens in a deployment. -/
inductive DeploymentEvent (I : Type) where
  | generator (i : I) (event : GenerationEvent)
  /-- Somebody presents a receipt to the verifier. -/
  | presented (id : Nat) (call : Call)
  | inspected (id : Nat)
  | answered (answer : Answer)

namespace Deployment

variable (env) (v : Verifier)

/-- One step of a generator or of the verifier. -/
inductive Step : Deployment I → DeploymentEvent I → Deployment I → Prop
  | generator {d : Deployment I} {i : I} {event : GenerationEvent} {s : SharedGenerator} :
      SharedGenerator.Step env (d.generators i) event s →
      Step d (.generator i event) { d with generators := Function.update d.generators i s }
  | presented {d : Deployment I} (id : Nat) (call : Call) : d.calls id = none →
      Step d (.presented id call)
        { d with calls := Function.update d.calls id (some (.started call)) }
  | inspected {d : Deployment I} {id : Nat} {call : Call} {claims : VeriClaims}
      {doc : AttestationDoc} {report : Report} : d.calls id = some (.started call) →
      ((v.during call).inspect env call.now call.receiptBytes call.expected).run {} =
        .ok ((claims, doc), report) →
      Step d (.inspected id)
        { d with calls := Function.update d.calls id (some (.inspected call claims doc report)) }
  | refused {d : Deployment I} {id : Nat} {call : Call} {e : Exit} :
      d.calls id = some (.started call) →
      ((v.during call).inspect env call.now call.receiptBytes call.expected).run {} = .error e →
      Step d (.answered ⟨call, e.answer, d.mutex, d.mutex⟩)
        { d with calls := Function.update d.calls id none }
  | committed {d : Deployment I} {id : Nat} {call : Call} {claims : VeriClaims}
      {doc : AttestationDoc} {report : Report} {result : Except VerifyError VerificationResult}
      {m : ReplayMutex} : d.calls id = some (.inspected call claims doc report) →
      (v.during call).checkSequence env claims doc report (some d.mutex) = (result, some m) →
      Step d (.answered ⟨call, result, d.mutex, m⟩)
        { d with mutex := m, calls := Function.update d.calls id none }

/-- The events of a run, in their order. -/
inductive History (start : Deployment I) : List (DeploymentEvent I) → Deployment I → Prop
  | nil : History start [] start
  | snoc {events : List (DeploymentEvent I)} {d d' : Deployment I} {event : DeploymentEvent I} :
      History start events d → Step env v d event d' → History start (events ++ [event]) d'

/-- Fresh generators with these keys, and a verifier with this replay state. -/
def start (keys : I → ByteArr 32) (m : ReplayMutex) : Deployment I :=
  ⟨fun i => .fresh (keys i), m, fun _ => none⟩

/-- The events of one generator. -/
def generatorEvents (i : I) (events : List (DeploymentEvent I)) : List GenerationEvent :=
  events.filterMap fun
    | .generator j event => if j = i then some event else none
    | _ => none

/-- The answers of the verifier. -/
def answers (events : List (DeploymentEvent I)) : List Answer :=
  events.filterMap fun
    | .answered answer => some answer
    | _ => none

theorem generatorEvents_subset {i : I} {events events' : List (DeploymentEvent I)}
    (hsub : events ⊆ events') : generatorEvents i events ⊆ generatorEvents i events' :=
  List.filterMap_subset _ hsub

variable {env v} {keys : I → ByteArr 32} {m : ReplayMutex} {d : Deployment I}
  {events : List (DeploymentEvent I)}

/-- A generator goes on while everything else stands still. -/
theorem History.generates {first : Deployment I} (h : History env v first events d) {i : I}
    {l : List GenerationEvent} {s : SharedGenerator}
    (hs : SharedGenerator.History env (d.generators i) l s) :
    History env v first (events ++ l.map (.generator i))
      { d with generators := Function.update d.generators i s } := by
  induction hs with
  | nil => simpa using h
  | snoc _ hstep ih =>
    rw [List.map_append, ← List.append_assoc]
    have hnext := ih.snoc (.generator (i := i) (by simpa using hstep))
    simpa using hnext

/-- Each generator runs on its own. -/
theorem History.generator (h : History env v (start keys m) events d) (i : I) :
    SharedGenerator.History env (.fresh (keys i)) (generatorEvents i events) (d.generators i) := by
  induction h with
  | nil => exact .nil
  | @snoc events d d' event _ hstep ih =>
    rw [generatorEvents, List.filterMap_append]
    cases hstep with
    | @generator j event s hgen =>
      by_cases hj : j = i
      · subst hj
        simpa [generatorEvents] using ih.snoc hgen
      · simpa [generatorEvents, hj, Function.update_of_ne (Ne.symm hj)] using ih
    | presented id call _ => simpa [generatorEvents] using ih
    | inspected _ _ => simpa [generatorEvents] using ih
    | refused _ _ => simpa [generatorEvents] using ih
    | committed _ _ => simpa [generatorEvents] using ih

/-- The verifier runs on its own. -/
theorem History.verifier (h : History env v (start keys m) events d) :
    Veriai.History env v m d.mutex d.calls (answers events) := by
  induction h with
  | nil => exact .nil
  | @snoc events d d' event _ hstep ih =>
    rw [answers, List.filterMap_append]
    cases hstep with
    | generator _ => simpa [answers] using ih
    | presented id call hid => simpa [answers] using ih.start id call hid
    | inspected hcall hrun => simpa [answers] using ih.inspect hcall hrun
    | refused hcall hrun => simpa [answers] using ih.refuse hcall hrun
    | committed hcall hrun => simpa [answers] using ih.commit hcall hrun

/-- The step an event of a run was made by, and the run before it. -/
theorem History.at {first : Deployment I} (h : History env v first events d)
    {before after : List (DeploymentEvent I)} {event : DeploymentEvent I}
    (hevents : events = before ++ event :: after) :
    ∃ d₁ d₂, History env v first before d₁ ∧ Step env v d₁ event d₂ := by
  induction h generalizing after with
  | nil => simp at hevents
  | @snoc events d d' last hist hstep ih =>
    rcases List.eq_nil_or_concat after with rfl | ⟨rest, x, rfl⟩
    · obtain ⟨rfl, rfl⟩ : events = before ∧ last = event := by
        simpa using List.append_inj' hevents rfl
      exact ⟨d, d', hist, hstep⟩
    · have hsplit : events ++ [last] = (before ++ event :: rest) ++ [x] := by
        rw [hevents]
        simp
      exact ih (List.append_inj' hsplit rfl).1

/-- What the events say of an unanswered call of the verifier. -/
def Presented (env : Primitives) (v : Verifier) (events : List (DeploymentEvent I)) (id : Nat) :
    CallState → Prop
  | .started call => .presented id call ∈ events
  | .inspected call claims doc _ => .presented id call ∈ events ∧ ∃ cose,
      Verifier.Inspected env (v.during call) call.now call.receiptBytes call.expected cose claims
        doc

theorem History.presented (h : History env v (start keys m) events d) :
    ∀ id state, d.calls id = some state → Presented env v events id state := by
  induction h with
  | nil =>
    intro id state hcall
    cases hcall
  | @snoc events d d' event _ hstep ih =>
    have hsub : events ⊆ events ++ [event] := List.subset_append_left _ _
    have hmono : ∀ id state, Presented env v events id state →
        Presented env v (events ++ [event]) id state := by
      intro id state hstate
      cases state with
      | started call => exact hsub hstate
      | inspected call claims doc report => exact ⟨hsub hstate.1, hstate.2⟩
    have hupdate : ∀ {id : Nat} {state : Option CallState},
        (∀ state', state = some state' → Presented env v (events ++ [event]) id state') →
        ∀ id' state', Function.update d.calls id state id' = some state' →
          Presented env v (events ++ [event]) id' state' := by
      intro id state hself id' state' hcall
      by_cases he : id' = id
      · subst he
        rw [Function.update_self] at hcall
        exact hself state' hcall
      · rw [Function.update_of_ne he] at hcall
        exact hmono id' state' (ih id' state' hcall)
    cases hstep with
    | generator _ => exact fun id state hcall => hmono id state (ih id state hcall)
    | presented id call _ =>
      refine hupdate ?_
      rintro state' ⟨⟩
      exact List.mem_append_right _ (List.mem_singleton_self _)
    | inspected hcall hrun =>
      refine hupdate ?_
      rintro state' ⟨⟩
      obtain ⟨hinspected, _⟩ := Verifier.yields_inspect.mp hrun
      exact ⟨hsub (ih _ _ hcall), hinspected⟩
    | refused _ _ =>
      refine hupdate ?_
      rintro state' ⟨⟩
    | committed _ _ =>
      refine hupdate ?_
      rintro state' ⟨⟩

/-- An accepted receipt was presented before and satisfies every requirement. -/
theorem History.accepted (h : History env v (start keys m) events d) {d' : Deployment I}
    {answer : Answer} (hstep : Step env v d (.answered answer) d')
    (haccepts : Verifier.Accepts answer.result) :
    (∃ id, .presented id answer.call ∈ events) ∧ ∃ cose claims doc,
      Verifier.Inspected env (v.during answer.call) answer.call.now answer.call.receiptBytes
        answer.call.expected cose claims doc := by
  cases hstep with
  | @refused id call e _ hrun =>
    exact (Exit.not_accepts (Verifier.reported_of_exits hrun).leaves.refuses haccepts).elim
  | @committed id call claims doc report result m hcall _ =>
    obtain ⟨hpresented, cose, hinspected⟩ := h.presented id _ hcall
    exact ⟨⟨id, hpresented⟩, cose, claims, doc, hinspected⟩

/-- Nobody forges: a presented receipt with a valid signature under the key of a generator has the
signed bytes of a receipt that this generator has returned. The hardware certifies no other keys:
a document with the expected measurement that a trusted root accepts names one of theirs. -/
structure Admissible (env : Primitives) (v : Verifier) (keys : I → ByteArr 32)
    (events : List (DeploymentEvent I)) : Prop where
  unforged : ∀ before id call after, events = before ++ .presented id call :: after →
    ∀ i cose payload claims, env.coseFromSlice call.receiptBytes = .ok cose →
      cose.payload = some payload → env.claimsFromBinary payload = .ok claims →
      Verifier.ReceiptSigned env cose claims → claims.enclavePubkey = env.ed25519Public (keys i) →
      ∃ t now receiptBytes cose', .returned t now (.ok receiptBytes) ∈ generatorEvents i before ∧
        env.coseFromSlice receiptBytes = .ok cose' ∧ cose.tbsData env [] = cose'.tbsData env []
  genuine : ∀ id call, .presented id call ∈ events → ∀ claims doc,
    ReceiptContent env call.receiptBytes claims doc →
    (∃ root ∈ v.trustedRoots, call.provider.verify claims.attestationReport root = .ok true) →
    doc.pcrs.lookup 0 = some call.expected.pcr0 →
      ∃ i, doc.publicKey = some (env.ed25519Public (keys i)).toList

/-- The answer is about a receipt of this call of the generator: its request names the expected
values, and its report and number are the ones the receipt carries. -/
def Agrees (env : Primitives) (signingKey : ByteArr 32) (events : List GenerationEvent) (t : Nat)
    (answer : Answer) : Prop :=
  ∃ request report sequence now receiptBytes doc,
    SharedGenerator.Returns env signingKey events t request report sequence now receiptBytes ∧
      answer.call.expected = request.expected answer.call.expected.pcr0 ∧
      ∀ bytes ∈ [receiptBytes, answer.call.receiptBytes], ReceiptContent env bytes
        (ReceiptGenerator.claims env { signingKey } request sequence report now.secs) doc

/-- What a returned receipt is parsed to. -/
theorem parse_of_returns (hlawful : env.Lawful) {signingKey : ByteArr 32}
    {l : List GenerationEvent} {t : Nat} {request : ReceiptRequest} {report receiptBytes : Bytes}
    {sequence : UInt64} {now : SystemTime}
    (h : SharedGenerator.Returns env signingKey l t request report sequence now receiptBytes) :
    ∃ payload, env.coseFromSlice receiptBytes =
        .ok (ReceiptGenerator.received env { signingKey } payload) ∧
      env.claimsFromBinary payload =
        .ok (ReceiptGenerator.claims env { signingKey } request sequence report now.secs) := by
  have hbuilt := h.built
  simp only [ReceiptGenerator.buildReceipt, bind_eq_ok, okOr_eq_ok, mapError_eq_ok] at hbuilt
  obtain ⟨nowSec, hnow, payload, hclaims, hcose⟩ := hbuilt
  rw [(unixSeconds_eq_some.mp hnow).2] at hclaims
  exact ⟨payload, hlawful.cose_roundTrip _ _ rfl hcose, hlawful.claims_roundTrip _ _ hclaims⟩

/-- What an accepted receipt carries was signed by a generator, which has returned it. -/
theorem History.agrees (hlawful : env.Lawful)
    (hsig : ∀ prot aad payload prot' aad' payload', env.sigStructure prot aad payload =
      env.sigStructure prot' aad' payload' → payload = payload')
    (h : History env v (start keys m) events d) {before after : List (DeploymentEvent I)}
    (hadmissible : Admissible env v keys (before ++ after))
    (hevents : events = before) {d' : Deployment I} {answer : Answer}
    (hstep : Step env v d (.answered answer) d') (haccepts : Verifier.Accepts answer.result) :
    ∃ i t, Agrees env (keys i) (generatorEvents i before) t answer := by
  subst hevents
  obtain ⟨⟨id, hpresented⟩, cose, claims, doc, hinspected⟩ := h.accepted hstep haccepts
  obtain ⟨payload, hpayload, hclaims⟩ := hinspected.claimsDecode
  -- the document is genuine, so it names the key of a generator
  obtain ⟨i, hkey⟩ := hadmissible.genuine id answer.call (List.mem_append_left _ hpresented) claims
    doc hinspected.content hinspected.chain hinspected.pcr0
  have hpubkey : claims.enclavePubkey = env.ed25519Public (keys i) :=
    ByteArr.toList_inj (Option.some.inj (hinspected.pubkey.symm.trans hkey))
  -- and the receipt is no forgery, so this generator has signed its payload
  obtain ⟨earlier, later, hsplit⟩ := List.append_of_mem hpresented
  have hwhole : events ++ after = earlier ++ .presented id answer.call :: (later ++ after) := by
    rw [hsplit]
    simp
  obtain ⟨t, now, receiptBytes, cose', hreturned, hparse, htbs⟩ := hadmissible.unforged earlier id
    answer.call _ hwhole i cose payload claims hinspected.receiptParses hpayload hclaims
    hinspected.signed hpubkey
  have hsub : generatorEvents i earlier ⊆ generatorEvents i events :=
    generatorEvents_subset (by rw [hsplit]; exact List.subset_append_left _ _)
  obtain ⟨request, report, sequence, hreturns⟩ := (h.generator i).returns (hsub hreturned)
  obtain ⟨signed, hreceived, hsigned⟩ := parse_of_returns hlawful hreturns
  obtain rfl := Except.ok.inj (hparse.symm.trans hreceived)
  have hsame : payload = signed := by
    have hpayloads := hsig _ _ _ _ _ _ htbs
    rw [hpayload] at hpayloads
    exact hpayloads
  subst hsame
  obtain rfl := Except.ok.inj (hclaims.symm.trans hsigned)
  refine ⟨i, t, request, report, sequence, now, receiptBytes, doc, hreturns, ?_, ?_⟩
  · obtain ⟨-, hnonce, hmodel, hinput, houtput⟩ := hinspected.payload
    simp only [ReceiptGenerator.claims] at hnonce hmodel hinput houtput
    rw [ReceiptRequest.expected, hnonce, hmodel, hinput, houtput]
  · intro bytes hbytes
    rcases List.mem_pair.mp hbytes with rfl | rfl
    · exact ⟨_, payload, hreceived, rfl, hsigned, hinspected.attestation⟩
    · exact hinspected.content

/-- Every acceptance goes back to a call of some generator that has returned before, and no two
acceptances go back to the same call. -/
structure Agreement (env : Primitives) (keys : I → ByteArr 32)
    (events : List (DeploymentEvent I)) : Prop where
  preceded : ∀ before answer after, events = before ++ .answered answer :: after →
    Verifier.Accepts answer.result → ∃ i t, Agrees env (keys i) (generatorEvents i before) t answer
  injective : (answers events).Pairwise fun a b => Verifier.Accepts a.result →
    Verifier.Accepts b.result → ∀ i t, Agrees env (keys i) (generatorEvents i events) t a →
      ¬ Agrees env (keys i) (generatorEvents i events) t b

/-- In every run without forgeries and with genuine hardware, acceptances and the calls they go
back to agree one to one, however the receipts travel. -/
theorem deployment_agreement (hlawful : env.Lawful)
    (hsig : ∀ prot aad payload prot' aad' payload', env.sigStructure prot aad payload =
      env.sigStructure prot' aad' payload' → payload = payload')
    (h : History env v (start keys m) events d) (hadmissible : Admissible env v keys events) :
    Agreement env keys events where
  preceded := by
    rintro before answer after rfl haccepts
    obtain ⟨d₁, d₂, hbefore, hstep⟩ := h.at rfl
    exact hbefore.agrees hlawful hsig hadmissible rfl hstep haccepts
  injective := by
    refine h.verifier.replaySafe.increasing.imp ?_
    rintro a b hincreasing ha hb i t
      ⟨request, report, sequence, now, bytes, doc, hreturns, -, hcontent⟩
      ⟨request', report', sequence', now', bytes', doc', hreturns', -, hcontent'⟩
    obtain ⟨-, hresult⟩ := (h.generator i).returned_once hreturns.returned hreturns'.returned
    obtain rfl := Except.ok.inj hresult
    -- one receipt carries one number, but the second acceptance has a larger one
    obtain ⟨hclaims, rfl⟩ := (hcontent bytes (by simp)).unique (hcontent' bytes (by simp))
    have hlt := hincreasing ha hb _ _ _ _ (hcontent _ (by simp)) (hcontent' _ (by simp)) rfl
    rw [hclaims] at hlt
    exact lt_irrefl _ hlt

end Deployment

end Deployments

namespace Transparent

/-- The one generator of the run has key 7. -/
def keys : Unit → ByteArr 32 := fun _ => fill 32 7

/-- One of its receipts is presented. -/
def callWith (n : UInt8) : Call := ⟨provider, epoch, [1, n, 7], expected⟩

/-- What the receipts say. -/
theorem content_delimited (n : UInt8) : ReceiptContent delimited [1, n, 7] (claims n 7) (doc 7) :=
  ⟨_, _, rfl, rfl, rfl, _, _, rfl, rfl, rfl⟩

/-- Behind the events of a generator, a receipt is presented after all of them. -/
theorem generator_before {l : List GenerationEvent}
    {rest before after : List (DeploymentEvent Unit)}
    {id : Nat} {call : Call} {event : GenerationEvent}
    (hevents : l.map (.generator ()) ++ rest = before ++ .presented id call :: after)
    (hevent : event ∈ l) : .generator () event ∈ before := by
  have hmem : DeploymentEvent.generator () event ∈ l.map (DeploymentEvent.generator ()) :=
    List.mem_map_of_mem hevent
  rcases List.append_eq_append_iff.mp hevents with ⟨c, rfl, _⟩ | ⟨c, hl, hc⟩
  · exact List.mem_append_left _ hmem
  · cases c with
    | nil =>
      rw [hl, List.append_nil] at hmem
      exact hmem
    | cons x c =>
      obtain ⟨rfl, -⟩ := List.cons.inj hc
      have hx : DeploymentEvent.presented id call ∈ l.map (DeploymentEvent.generator ()) := by
        rw [hl]
        exact List.mem_append_right _ List.mem_cons_self
      obtain ⟨event, _, heq⟩ := List.mem_map.mp hx
      cases heq

open Deployment in
/-- Where only returned receipts are presented, after their return, nothing is forged. -/
theorem admissible_returned {l : List GenerationEvent} {rest : List (DeploymentEvent Unit)}
    (hrest : ∀ id call, .presented id call ∈ rest →
      ∃ n : UInt8, call = callWith n ∧ .returned n.toNat epoch (.ok [1, n, 7]) ∈ l) :
    Deployment.Admissible delimited verifier keys (l.map (.generator ()) ++ rest) := by
  have hpresented : ∀ id call, .presented id call ∈ l.map (DeploymentEvent.generator ()) ++ rest →
      ∃ n : UInt8, call = callWith n ∧ .returned n.toNat epoch (.ok [1, n, 7]) ∈ l := by
    intro id call hmem
    rcases List.mem_append.mp hmem with hmem | hmem
    · obtain ⟨event, _, heq⟩ := List.mem_map.mp hmem
      cases heq
    · exact hrest id call hmem
  constructor
  · intro before id call after hevents i cose payload claims' hparse hpayload _ _ _
    obtain ⟨n, rfl, hreturned⟩ := hpresented id call (by
      rw [hevents]
      exact List.mem_append_right _ List.mem_cons_self)
    obtain rfl := Except.ok.inj hparse
    refine ⟨n.toNat, epoch, [1, n, 7], _, ?_, rfl, rfl⟩
    exact List.mem_filterMap.mpr ⟨_, generator_before hevents hreturned, rfl⟩
  · intro id call hmem claims' doc' hcontent _ _
    obtain ⟨n, rfl, -⟩ := hpresented id call hmem
    obtain ⟨-, rfl⟩ := hcontent.unique (content_delimited n)
    exact ⟨(), rfl⟩

/-- The inspection of the receipts passes. -/
theorem inspect_callWith {n : UInt8} (hn : n = 0 ∨ n = 1) :
    ((verifier.during (callWith n)).inspect delimited epoch [1, n, 7] expected).run {} =
      .ok ((claims n 7, doc 7), Verifier.inspectedReport (claims n 7)) := by
  rcases hn with rfl | rfl
  · rfl
  · rfl

open Deployment in
/-- Two overlapping calls of the generator return, and their receipts are presented together and
accepted one after the other. -/
theorem deployment_agreement_overlapping :
    ∃ (events : List (DeploymentEvent Unit)) (d : Deployment Unit),
      Deployment.History delimited verifier (start keys (.new ∅)) events d ∧
        (answers events).map Answer.call = [callWith 0, callWith 1] ∧
        (∀ answer ∈ answers events, Verifier.Accepts answer.result) ∧
        Agreement delimited keys events := by
  obtain ⟨s, hhistory⟩ := history_overlapping
  have hgenerated : Deployment.History delimited verifier (start keys (.new ∅)) _ _ :=
    Deployment.History.nil.generates (i := ()) hhistory
  have hpresented := (hgenerated.snoc (.presented 0 (callWith 0) rfl)).snoc
    (.presented 1 (callWith 1) rfl)
  have hinspected := (hpresented.snoc (.inspected
    (rfl : (_ : Deployment Unit).calls 0 = some (.started (callWith 0)))
    (inspect_callWith (.inl rfl)))).snoc
    (.inspected (rfl : (_ : Deployment Unit).calls 1 = some (.started (callWith 1)))
    (inspect_callWith (.inr rfl)))
  have hfresh : Verifier.SequenceFresh delimited (claims 0 7) (doc 7) (∅ : ReplayMap) := by
    intro last hlast
    cases hlast
  have hcheck : (verifier.during (callWith 0)).checkSequence delimited (claims 0 7) (doc 7)
      (Verifier.inspectedReport (claims 0 7)) (some (.new ∅)) = _ :=
    Verifier.checkSequence_fresh rfl hfresh
  have hanswered := hinspected.snoc (.committed
    (rfl : (_ : Deployment Unit).calls 0 = some (.inspected (callWith 0) _ _ _)) hcheck)
  have hfresh' : Verifier.SequenceFresh delimited (claims 1 7) (doc 7)
      ((∅ : ReplayMap).insert (fill 32 0) 0) := by
    intro last hlast
    have hzero : ((∅ : ReplayMap).insert (fill 32 0) 0).lookup (fill 32 0) = some (0 : UInt64) :=
      Finmap.lookup_insert _
    obtain rfl := Option.some.inj (hzero.symm.trans hlast)
    decide
  have hcheck' : (verifier.during (callWith 1)).checkSequence delimited (claims 1 7) (doc 7)
      (Verifier.inspectedReport (claims 1 7)) (some (.new ((∅ : ReplayMap).insert (fill 32 0) 0))) =
        _ := Verifier.checkSequence_fresh rfl hfresh'
  have hboth := hanswered.snoc (.committed
    (rfl : (_ : Deployment Unit).calls 1 = some (.inspected (callWith 1) _ _ _)) hcheck')
  refine ⟨_, _, hboth, rfl, ?_, deployment_agreement lawful_delimited (fun _ _ _ _ _ _ h => h)
    hboth ?_⟩
  · intro answer hanswer
    rcases List.mem_cons.mp (show answer ∈ [_, _] from hanswer) with rfl | hlast
    · exact ⟨_, rfl, rfl⟩
    · obtain rfl := List.mem_singleton.mp hlast
      exact ⟨_, rfl, rfl⟩
  · simp only [List.nil_append, List.append_assoc]
    refine admissible_returned ?_
    intro id call hmem
    simp only [List.cons_append, List.nil_append, List.mem_cons, DeploymentEvent.presented.injEq,
      reduceCtorEq, List.not_mem_nil, or_false] at hmem
    rcases hmem with ⟨-, rfl⟩ | ⟨-, rfl⟩
    · exact ⟨0, rfl, by simp [overlapping]⟩
    · exact ⟨1, rfl, by simp [overlapping]⟩

end Transparent

end Veriai
