import Veriai.Receipt.Stages

/-!
# What an accepted receipt satisfies

An inspection that is left early never accepts, and its report names the checks
passed so far. So a receipt is answered valid exactly when the inspection
completes and the replay state takes its number.
-/

namespace Veriai

open Checked

namespace Verifier

variable {env : Primitives} {v : Verifier} {r r' : Report} {u : Unit}

/-- How the inspection is left early: with an error, or with the report so far and one failed
check behind it. -/
inductive Leaves (v : Verifier) : Exit → Prop
  | err (error : VerifyError) : Leaves v (.err error)
  | failed (r : Report) (name : String) (details : Option String) (error : VerifyError) :
      Leaves v (.failed (r.failResult v.provider name details error))

/-- The exit answers `Err` or an invalid result. -/
def Refuses : Exit → Prop
  | .err _ => True
  | .failed result => result.valid = false

/-- An early exit refuses the receipt. -/
theorem Leaves.refuses {e : Exit} (h : v.Leaves e) : Refuses e := by
  cases h with
  | err error => trivial
  | failed r name details error => rfl

/-- A failed result verifies no hardware. -/
theorem Leaves.not_verifiedHardware {result : VerificationResult} (h : v.Leaves (.failed result)) :
    result.verifiedHardware = false := by
  cases h with
  | failed r name details error => rfl

/-- The checks made before the replay state is consulted, in order. -/
def inspectionChecks : List String :=
  ["Receipt Format", "Claims Parsing", "Attestation Type", "Receipt Signature",
    "Attestation Signature & Chain", "Attestation Timestamp Skew", "Receipt Timestamp Skew",
    "Timestamp Alignment", "PCR0 Check", "Pubkey Binding", "REPORTDATA Binding", "Nonce Matching",
    "Model Hash", "Input Hash", "Output Hash"]

/-- The first `k` checks are recorded as passed and nothing else is; the receipt summary is there
from the second check on. -/
structure At (k : Nat) (r : Report) : Prop where
  bound : k ≤ inspectionChecks.length
  checks : r.checks = (inspectionChecks.take k).map fun name => ⟨name, .passed, none⟩
  receipt : r.receiptInfo.isSome = decide (2 ≤ k)

/-- How the inspection is left early: with an error, or with one failed check behind the first
`k` passed ones. -/
inductive Reported (v : Verifier) : Exit → Prop
  | err (error : VerifyError) : Reported v (.err error)
  | failed {k : Nat} {r : Report} (h : At k r) (name : String) (details : Option String)
      (error : VerifyError) : Reported v (.failed (r.failResult v.provider name details error))

/-- A reported exit is an early exit. -/
theorem Reported.leaves {e : Exit} (h : v.Reported e) : v.Leaves e := by
  cases h with
  | err error => exact .err error
  | failed _ name details error => exact .failed _ name details error

/-- Passing the next check of the list extends the recorded ones. -/
theorem At.passed {k : Nat} {name : String} (h : At k r) (hname : inspectionChecks[k]? = some name)
    {info : Option ReceiptInfo} (hinfo : info.isSome = decide (2 ≤ k + 1)) :
    At (k + 1) (Report.passed { r with receiptInfo := info } name) where
  bound := (List.getElem?_eq_some_iff.mp hname).1
  checks := by
    show r.checks ++ _ = _
    rw [h.checks, List.take_add_one, hname, List.map_append]
    rfl
  receipt := hinfo

/-- A failed check exits with the report so far. -/
theorem fail_carries {α : Type} {k : Nat} {post : Report → Prop} {name : String}
    {details : Option String} {error : VerifyError} :
    Carries v.Reported (At k) post (v.fail name details error : VerifyM α) where
  yields r a r' _ h := (yields_fail h).elim
  exits r e hr h := by
    injection h with h
    rw [← h]
    exact .failed hr name details error

/-- A rejection exits with an error. -/
theorem reject_carries {α : Type} {pre post : Report → Prop} {error : VerifyError} :
    Carries v.Reported pre post (reject error : VerifyM α) where
  yields r a r' _ h := (yields_reject h).elim
  exits r e _ h := by
    injection h with h
    rw [← h]
    exact .err error

/-- Taking a value or rejecting leaves the report. -/
theorem orReject_carries {α : Type} {pre : Report → Prop} {value : Option α}
    {error : VerifyError} : Carries v.Reported pre pre (orReject value error) := by
  cases value with
  | none => exact reject_carries
  | some a => exact .pure a

/-- Rejecting under a condition leaves the report. -/
theorem rejectIf_carries {pre : Report → Prop} {condition : Prop} [Decidable condition]
    {error : VerifyError} : Carries v.Reported pre pre (rejectIf condition error) := by
  unfold rejectIf
  split
  · exact reject_carries
  · exact .pure ()

/-- Every check but the second leaves the receipt summary as it is. -/
theorem pass_carries {k : Nat} {name : String} (hname : inspectionChecks[k]? = some name)
    (hk : decide (2 ≤ k) = decide (2 ≤ k + 1)) :
    Carries v.Reported (At k) (At (k + 1)) (pass name) where
  yields r _ r' hr h := by
    obtain rfl := yields_pass.mp h
    exact hr.passed hname (hr.receipt.trans hk)
  exits r e _ h := by cases h

/-- A check that is next in the list advances the report or fails with it. -/
theorem check_carries {k : Nat} {name details : String} {ok : Bool} {error : VerifyError}
    (hname : inspectionChecks[k]? = some name) (hk : decide (2 ≤ k) = decide (2 ≤ k + 1)) :
    Carries v.Reported (At k) (At (k + 1)) (v.check name ok details error) := by
  unfold check
  split
  · exact pass_carries hname hk
  · exact fail_carries

/-- Parsing the receipt passes the first check. -/
theorem parseReceipt_carries {receiptBytes : Bytes} :
    Carries v.Reported (At 0) (At 1) (v.parseReceipt env receiptBytes) := by
  unfold parseReceipt
  split
  · exact fail_carries
  · refine .bind orReject_carries fun _ => .bind rejectIf_carries fun _ =>
      .bind rejectIf_carries fun _ => .bind rejectIf_carries fun _ =>
      .bind rejectIf_carries fun _ => .bind ?_ fun _ => .bind (pass_carries rfl rfl) fun _ =>
      .pure _
    unfold checkContentType
    split
    · exact rejectIf_carries
    · exact reject_carries

/-- Taking the payload leaves the report. -/
theorem receiptPayload_carries {k : Nat} {cose : CoseSign1} :
    Carries v.Reported (At k) (At k) (v.receiptPayload cose) := by
  unfold receiptPayload
  split
  · exact .pure _
  · exact fail_carries

/-- The claims come with the receipt summary. -/
theorem parseClaims_carries {payload : Bytes} :
    Carries v.Reported (At 1) (At 2) (v.parseClaims env payload) where
  yields r claims r' hr h := by
    obtain ⟨_, rfl⟩ := yields_parseClaims.mp h
    exact hr.passed rfl rfl
  exits r e hr h := by
    unfold parseClaims at h
    split at h
    · refine Carries.exits (?_ : Carries v.Reported (At 1) (At 2) _) r e hr h
      exact fail_carries
    · cases h

/-- Parsing the attestation report leaves the report. -/
theorem parseAttestation_carries {k : Nat} {claims : VeriClaims} :
    Carries v.Reported (At k) (At k) (v.parseAttestation env claims) := by
  unfold parseAttestation
  split
  · exact fail_carries
  · split
    · exact fail_carries
    · split
      · exact fail_carries
      · exact .pure _

/-- The three timestamp checks are the sixth, seventh and eighth. -/
theorem checkTimestamps_carries {now : SystemTime} {claims : VeriClaims} {doc : AttestationDoc} :
    Carries v.Reported (At 5) (At 8) (v.checkTimestamps now claims doc) :=
  .bind (.bind orReject_carries fun _ => .pure _) fun _ =>
    .bind (.bind orReject_carries fun _ => check_carries rfl rfl) fun _ =>
    .bind (.bind orReject_carries fun _ => .bind rejectIf_carries fun _ =>
      pass_carries rfl rfl) fun _ =>
    .bind orReject_carries fun _ => check_carries rfl rfl

/-- The ninth check is the one of PCR0. -/
theorem checkPcr0_carries {doc : AttestationDoc} {expected : Expected} :
    Carries v.Reported (At 8) (At 9) (v.checkPcr0 doc expected) := by
  unfold checkPcr0
  split
  · exact fail_carries
  · exact check_carries rfl rfl

/-- The tenth check is the one of the key. -/
theorem checkPubkey_carries {claims : VeriClaims} {doc : AttestationDoc} :
    Carries v.Reported (At 9) (At 10) (v.checkPubkey claims doc) := by
  unfold checkPubkey
  split
  · exact fail_carries
  · exact check_carries rfl rfl

/-- The eleventh check is the one of the user data. -/
theorem checkReportData_carries {claims : VeriClaims} {doc : AttestationDoc} :
    Carries v.Reported (At 10) (At 11) (v.checkReportData env claims doc) := by
  unfold checkReportData
  split
  · exact fail_carries
  · exact check_carries rfl rfl

/-- The inspection records its checks one by one, and leaves early behind those made. -/
theorem inspect_carries {now : SystemTime} {receiptBytes : Bytes} {expected : Expected} :
    Carries v.Reported (At 0) (At inspectionChecks.length)
      (v.inspect env now receiptBytes expected) :=
  .bind (.bind rejectIf_carries fun _ => rejectIf_carries) fun _ =>
    .bind parseReceipt_carries fun _ => .bind receiptPayload_carries fun _ =>
    .bind parseClaims_carries fun _ => .bind (check_carries rfl rfl) fun _ =>
    .bind (check_carries rfl rfl) fun _ => .bind parseAttestation_carries fun _ =>
    .bind (check_carries rfl rfl) fun _ => .bind checkTimestamps_carries fun _ =>
    .bind checkPcr0_carries fun _ => .bind checkPubkey_carries fun _ =>
    .bind checkReportData_carries fun _ =>
    .bind (.bind (check_carries rfl rfl) fun _ => .bind (check_carries rfl rfl) fun _ =>
      .bind (check_carries rfl rfl) fun _ => check_carries rfl rfl) fun _ => .pure _

/-- Nothing is recorded yet. -/
theorem at_zero : At 0 {} := ⟨Nat.zero_le _, rfl, rfl⟩

/-- An early exit of the inspection reports the checks made so far. -/
theorem reported_of_exits {now : SystemTime} {receiptBytes : Bytes} {expected : Expected}
    {e : Exit} (h : Exits (v.inspect env now receiptBytes expected) {} e) : v.Reported e :=
  inspect_carries.exits {} e at_zero h

/-- The answer says that the receipt is valid. -/
def Accepts (answer : Except VerifyError VerificationResult) : Prop :=
  ∃ result, answer = .ok result ∧ result.valid = true

/-- A completed inspection leaves the rest to the sequence check. -/
theorem verify_of_inspected {now : SystemTime} {receiptBytes : Bytes} {expected : Expected}
    {cose : CoseSign1} {claims : VeriClaims} {doc : AttestationDoc}
    (h : Inspected env v now receiptBytes expected cose claims doc) (state : Option ReplayMutex) :
    v.verify env now receiptBytes expected state =
      v.checkSequence env claims doc (inspectedReport claims) state := by
  have hy := yields_inspect.mpr ⟨⟨cose, h⟩, rfl⟩
  simp only [Yields] at hy
  simp only [verify, hy]

/-- A call either completes the inspection or answers without accepting and
leaves the replay state alone. -/
theorem verify_cases (env : Primitives) (v : Verifier) (now : SystemTime) (receiptBytes : Bytes)
    (expected : Expected) (state : Option ReplayMutex) :
    (∃ cose claims doc, Inspected env v now receiptBytes expected cose claims doc) ∨
      (¬ Accepts (v.verify env now receiptBytes expected state).1 ∧
        (v.verify env now receiptBytes expected state).2 = state) := by
  cases hr : (v.inspect env now receiptBytes expected).run {} with
  | ok p =>
    obtain ⟨⟨claims, doc⟩, r⟩ := p
    obtain ⟨⟨cose, h⟩, _⟩ := yields_inspect.mp hr
    exact Or.inl ⟨cose, claims, doc, h⟩
  | error e =>
    refine Or.inr ⟨?_, ?_⟩
    · rintro ⟨result, hres, hvalid⟩
      have href := (reported_of_exits hr).leaves.refuses
      cases e with
      | err e => simp [verify, hr] at hres
      | failed result' =>
        simp only [verify, hr, Except.ok.injEq] at hres
        rw [← hres] at hvalid
        exact Bool.false_ne_true (href.symm.trans hvalid)
    · cases e <;> simp [verify, hr]

/-- Hardware is verified for receipts that satisfy every requirement only. -/
theorem inspected_of_verifiedHardware {now : SystemTime} {receiptBytes : Bytes}
    {expected : Expected} {state : Option ReplayMutex} {result : VerificationResult}
    (h : (v.verify env now receiptBytes expected state).1 = .ok result)
    (hhardware : result.verifiedHardware = true) :
    ∃ cose claims doc, Inspected env v now receiptBytes expected cose claims doc := by
  unfold verify at h
  split at h
  · cases h
  next failed hrun =>
    obtain rfl := Except.ok.inj h
    have hfalse := (reported_of_exits hrun).leaves.not_verifiedHardware
    rw [hfalse] at hhardware
    cases hhardware
  next claims doc r hrun =>
    obtain ⟨⟨cose, hinspected⟩, -⟩ := yields_inspect.mp hrun
    exact ⟨cose, claims, doc, hinspected⟩

/-- The receipt's number lies above the last one recorded for its identity. -/
def SequenceFresh (env : Primitives) (claims : VeriClaims) (doc : AttestationDoc)
    (map : ReplayMap) : Prop :=
  Ledger.Fresh map (computeIdentityFingerprint env doc) claims.sequenceNum

/-- The lookup the sequence check rejects on is absent exactly for a fresh number. -/
theorem filter_eq_none_iff {claims : VeriClaims} {doc : AttestationDoc} {map : ReplayMap} :
    (map.lookup (computeIdentityFingerprint env doc)).filter (claims.sequenceNum ≤ ·) = none ↔
      SequenceFresh env claims doc map := by
  unfold SequenceFresh Ledger.Fresh
  cases map.lookup (computeIdentityFingerprint env doc) <;> simp [Option.filter]

/-- The critical section accepts exactly when the mutex can be locked and the number is fresh. -/
theorem checkSequence_accepts_iff {claims : VeriClaims} {doc : AttestationDoc} {r : Report}
    {state : Option ReplayMutex} :
    Accepts (v.checkSequence env claims doc r state).1 ↔
      ∀ m, state = some m → m.poisoned = false ∧ SequenceFresh env claims doc m.map := by
  cases state with
  | none => simp [checkSequence, Accepts, accepted]
  | some m =>
    simp only [Option.some.injEq, forall_eq', ← filter_eq_none_iff, checkSequence]
    cases hp : m.poisoned with
    | true => simp [Accepts]
    | false =>
      cases hf : (m.map.lookup (computeIdentityFingerprint env doc)).filter
          (claims.sequenceNum ≤ ·) with
      | none => simp [Accepts, accepted]
      | some last => simp [Accepts, Report.failResult]

/-- A receipt is answered valid exactly when some claims and attestation
document in it satisfy every requirement and the mutex allows the number. -/
theorem accepts_iff {now : SystemTime} {receiptBytes : Bytes} {expected : Expected}
    {state : Option ReplayMutex} :
    Accepts (v.verify env now receiptBytes expected state).1 ↔
      ∃ cose claims doc, Inspected env v now receiptBytes expected cose claims doc ∧
        ∀ m, state = some m → m.poisoned = false ∧ SequenceFresh env claims doc m.map := by
  constructor
  · intro h
    rcases verify_cases env v now receiptBytes expected state with ⟨cose, claims, doc, hi⟩ | ⟨hn, _⟩
    · rw [verify_of_inspected hi, checkSequence_accepts_iff] at h
      exact ⟨cose, claims, doc, hi, h⟩
    · exact (hn h).elim
  · rintro ⟨cose, claims, doc, hi, h⟩
    rw [verify_of_inspected hi, checkSequence_accepts_iff]
    exact h

/-- Acceptance is sound and complete: with no replay state, or any map, `verify`
answers valid exactly for the receipts that pass every check, their number
lying above the one recorded for their identity. -/
theorem verify_valid_iff (env : Primitives) (v : Verifier) (now : SystemTime)
    (receiptBytes : Bytes) (expected : Expected) (state : Option ReplayMap) :
    Accepts (v.verify env now receiptBytes expected (state.map ReplayMutex.new)).1 ↔
      ∃ cose claims doc, Inspected env v now receiptBytes expected cose claims doc ∧
        ∀ map, state = some map → SequenceFresh env claims doc map := by
  rw [accepts_iff]
  cases state <;> simp [ReplayMutex.new]

end Verifier

/-- The claims and attestation document a receipt carries. -/
def ReceiptContent (env : Primitives) (receiptBytes : Bytes) (claims : VeriClaims)
    (doc : AttestationDoc) : Prop :=
  ∃ cose payload, env.coseFromSlice receiptBytes = .ok cose ∧ cose.payload = some payload ∧
    env.claimsFromBinary payload = .ok claims ∧ Verifier.AttestationParses env claims doc

section Content

variable {env : Primitives} {v : Verifier}

/-- A receipt carries one claims set and one document. -/
theorem ReceiptContent.unique {receiptBytes : Bytes} {claims claims' : VeriClaims}
    {doc doc' : AttestationDoc} (h : ReceiptContent env receiptBytes claims doc)
    (h' : ReceiptContent env receiptBytes claims' doc') : claims = claims' ∧ doc = doc' := by
  obtain ⟨cose, payload, hc, hp, hd, att, attPayload, hac, hap, had⟩ := h
  obtain ⟨cose', payload', hc', hp', hd', att', attPayload', hac', hap', had'⟩ := h'
  obtain rfl := Except.ok.inj (hc.symm.trans hc')
  obtain rfl := Option.some.inj (hp.symm.trans hp')
  obtain rfl := Except.ok.inj (hd.symm.trans hd')
  obtain rfl := Except.ok.inj (hac.symm.trans hac')
  obtain rfl := Option.some.inj (hap.symm.trans hap')
  exact ⟨rfl, Except.ok.inj (had.symm.trans had')⟩

/-- An inspected receipt carries what was inspected. -/
theorem Verifier.Inspected.content {now : SystemTime} {receiptBytes : Bytes} {expected : Expected}
    {cose : CoseSign1} {claims : VeriClaims} {doc : AttestationDoc}
    (h : Inspected env v now receiptBytes expected cose claims doc) :
    ReceiptContent env receiptBytes claims doc := by
  obtain ⟨payload, hp, hc⟩ := h.claimsDecode
  exact ⟨cose, payload, h.receiptParses, hp, hc, h.attestation⟩

end Content

end Veriai
