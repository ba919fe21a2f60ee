import Veriai.Receipt.Acceptance
import Veriai.Receipt.Transparent

/-!
# The report and the verdict

What the answer of `Verifier::verify` says about the checks that were made: the
passed ones are an initial part of a fixed list, and the verdict, the error
text, the receipt summary and the hardware flag agree with them.
-/

namespace Veriai

open Checked

/-- The names of the passed checks, in order. -/
def passedNames (checks : List VerificationCheck) : List String :=
  (checks.filter (·.status = .passed)).map (·.name)

/-- The failed checks, in order. -/
def failedChecks (checks : List VerificationCheck) : List VerificationCheck :=
  checks.filter (·.status = .failed)

/-- The checks of a call without and with a replay state. -/
def checkNames (stateful : Bool) : List String :=
  Verifier.inspectionChecks ++ if stateful then ["Sequence Check"] else []

/-- The result agrees with itself: `names` is the whole list of checks of the call and `hardware`
the provider's claim. -/
structure Truthful (names : List String) (hardware : Bool) (result : VerificationResult) :
    Prop where
  inOrder : passedNames result.checks <+: names
  nodup : (passedNames result.checks).Nodup
  valid_iff : result.valid = true ↔ failedChecks result.checks = []
  error_iff : result.error = none ↔ failedChecks result.checks = []
  accepted : result.valid = true →
    passedNames result.checks = names ∧ result.verifiedHardware = hardware
  invalid_iff : result.valid = false ↔ (failedChecks result.checks).length = 1
  refused : result.valid = false →
    result.checks.getLast? = (failedChecks result.checks).head? ∧ result.verifiedHardware = false
  receipt_iff : result.receipt.isSome = true ↔ "Claims Parsing" ∈ passedNames result.checks

@[simp] theorem passedNames_append (checks checks' : List VerificationCheck) :
    passedNames (checks ++ checks') = passedNames checks ++ passedNames checks' := by
  simp [passedNames]

@[simp] theorem failedChecks_append (checks checks' : List VerificationCheck) :
    failedChecks (checks ++ checks') = failedChecks checks ++ failedChecks checks' := by
  simp [failedChecks]

@[simp] theorem passedNames_passed (names : List String) :
    passedNames (names.map fun name => ⟨name, .passed, none⟩) = names := by
  induction names with
  | nil => rfl
  | cons name names ih => simpa [passedNames] using ih

@[simp] theorem failedChecks_passed (names : List String) :
    failedChecks (names.map fun name => ⟨name, .passed, none⟩) = [] := by
  simp [failedChecks]

theorem checkNames_nodup (stateful : Bool) : (checkNames stateful).Nodup := by
  cases stateful <;> decide

theorem inspectionChecks_initial (stateful : Bool) :
    Verifier.inspectionChecks <+: checkNames stateful := List.prefix_append ..

/-- The second check of the list is the one that parses the claims. -/
theorem claimsParsing_mem_take (k : Nat) :
    "Claims Parsing" ∈ Verifier.inspectionChecks.take k ↔ 2 ≤ k := by
  match k with
  | 0 => simp
  | 1 => simp [Verifier.inspectionChecks]
  | k + 2 => simp [Verifier.inspectionChecks]

namespace Verifier

variable {env : Primitives} {v : Verifier} {r : Report} {stateful : Bool}

/-- A failed check behind the first `k` passed ones. -/
theorem At.truthful_failResult {k : Nat} (h : At k r) (name : String) (details : Option String)
    (error : VerifyError) :
    Truthful (checkNames stateful) v.provider.isHardwareBacked
      (r.failResult v.provider name details error) := by
  have hpassed : passedNames (r.failResult v.provider name details error).checks =
      inspectionChecks.take k := by
    simp only [Report.failResult, h.checks, passedNames_append, passedNames_passed]
    simp [passedNames]
  have hfailed : failedChecks (r.failResult v.provider name details error).checks =
      [⟨name, .failed, details⟩] := by
    simp only [Report.failResult, h.checks, failedChecks_append, failedChecks_passed]
    simp [failedChecks]
  have hprefix := (List.take_prefix k inspectionChecks).trans (inspectionChecks_initial stateful)
  constructor
  case inOrder => rwa [hpassed]
  case nodup => exact hpassed ▸ hprefix.sublist.nodup (checkNames_nodup stateful)
  case valid_iff =>
    rw [hfailed]
    simp [Report.failResult]
  case error_iff =>
    rw [hfailed]
    simp [Report.failResult]
  case accepted => simp [Report.failResult]
  case invalid_iff =>
    rw [hfailed]
    simp [Report.failResult]
  case refused =>
    rw [hfailed]
    simp [Report.failResult]
  case receipt_iff =>
    rw [hpassed, claimsParsing_mem_take]
    simp [Report.failResult, h.receipt]

/-- Every check of the call has passed. -/
theorem truthful_accepted {names : List String}
    (hchecks : r.checks = names.map fun name => ⟨name, .passed, none⟩) (hnodup : names.Nodup)
    (hclaims : "Claims Parsing" ∈ names) (hreceipt : r.receiptInfo.isSome = true) :
    Truthful names v.provider.isHardwareBacked (v.accepted r) := by
  have hpassed : passedNames (v.accepted r).checks = names := by
    simp only [accepted, hchecks, passedNames_passed]
  have hfailed : failedChecks (v.accepted r).checks = [] := by
    simp only [accepted, hchecks, failedChecks_passed]
  constructor
  case inOrder => rw [hpassed]
  case nodup => rwa [hpassed]
  case valid_iff =>
    rw [hfailed]
    simp [accepted]
  case error_iff =>
    rw [hfailed]
    simp [accepted]
  case accepted => exact fun _ => ⟨hpassed, rfl⟩
  case invalid_iff =>
    rw [hfailed]
    simp [accepted]
  case refused => simp [accepted]
  case receipt_iff =>
    rw [hpassed]
    simp [accepted, hclaims, hreceipt]

/-- The sequence check, behind a complete inspection. -/
theorem truthful_checkSequence {claims : VeriClaims} {doc : AttestationDoc}
    {state : Option ReplayMutex} {result : VerificationResult}
    (hr : At inspectionChecks.length r)
    (h : (v.checkSequence env claims doc r state).1 = .ok result) :
    Truthful (checkNames state.isSome) v.provider.isHardwareBacked result := by
  have hchecks := hr.checks
  rw [List.take_length] at hchecks
  unfold checkSequence at h
  split at h
  · obtain rfl := Except.ok.inj h
    exact truthful_accepted hchecks (checkNames_nodup false) (by decide) hr.receipt
  · rename_i m
    split at h
    · cases h
    · dsimp only at h
      split at h
      · obtain rfl := Except.ok.inj h
        exact hr.truthful_failResult _ _ _
      · obtain rfl := Except.ok.inj h
        have hclaims : "Claims Parsing" ∈ checkNames true := by decide
        refine truthful_accepted ?_ (checkNames_nodup true) hclaims hr.receipt
        rw [Report.passed, hchecks]
        rfl

/-- Whatever the provider, the configuration, the state and the input: an answer `Ok` tells the
truth about its verdict. -/
theorem verify_truthful (env : Primitives) (v : Verifier) (now : SystemTime)
    (receiptBytes : Bytes) (expected : Expected) (state : Option ReplayMutex)
    (result : VerificationResult)
    (h : (v.verify env now receiptBytes expected state).1 = .ok result) :
    Truthful (checkNames state.isSome) v.provider.isHardwareBacked result := by
  unfold verify at h
  split at h
  next => cases h
  next failed hrun =>
    obtain rfl := Except.ok.inj h
    cases reported_of_exits hrun with
    | failed hr name details error => exact hr.truthful_failResult name details error
  next claims doc r hrun =>
    exact truthful_checkSequence (inspect_carries.yields {} _ r at_zero hrun) h

/-- A first receipt is accepted with the full list, sequence check included. -/
theorem verify_truthful_first : ∃ result,
    (Transparent.verifier.verify Transparent.primitives Transparent.epoch [1, 0, 7]
      Transparent.expected (some (.new ∅))).1 = .ok result ∧ result.valid = true ∧
    Truthful (checkNames true) false result :=
  ⟨_, rfl, rfl, verify_truthful Transparent.primitives Transparent.verifier Transparent.epoch
    [1, 0, 7] Transparent.expected (some (.new ∅)) _ rfl⟩

end Verifier

end Veriai
