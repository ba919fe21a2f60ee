import Mathlib.Algebra.Order.Group.Unbundled.Int
import Veriai.Receipt.Acceptance
import Veriai.Receipt.Transparent

/-!
# The timestamp stage in integers

The fixed-width arithmetic of the three timestamp checks, related to the
integers: no subtraction is lost and no absolute value overflows, so the stage
passes exactly within its three windows.
-/

namespace Veriai

open Checked

/-- A checked subtraction is the integer one where it fits. -/
theorem checkedSub_eq_some {a b d : Int64} :
    checkedSub a b = some d ↔ d.toInt = a.toInt - b.toInt := by
  unfold checkedSub
  have hlow := d.le_toInt
  have hhigh := d.toInt_lt
  by_cases hfit : -2 ^ 63 ≤ a.toInt - b.toInt ∧ a.toInt - b.toInt < 2 ^ 63
  · rw [if_pos hfit, Option.some.injEq]
    have hof := Int64.toInt_ofInt_of_le hfit.1 hfit.2
    constructor
    · rintro rfl
      exact hof
    · intro h
      rw [← Int64.toInt_inj, hof, h]
  · rw [if_neg hfit]
    constructor
    · intro h
      cases h
    · intro h
      omega

/-- The absolute value of anything but the least value is the integer one. -/
theorem toInt_abs {d : Int64} (h : -2 ^ 63 < d.toInt) : d.abs.toInt = |d.toInt| := by
  have hne : d.toBitVec ≠ BitVec.intMin 64 := by
    intro heq
    have hmin : d.toInt = -2 ^ 63 := by
      show d.toBitVec.toInt = _
      rw [heq]
      decide
    omega
  have habs : d.abs.toInt = (d.toBitVec.toInt.natAbs : Int) :=
    BitVec.toInt_abs_eq_natAbs_of_ne_intMin hne
  rw [habs, Int.natCast_natAbs]
  rfl

/-- The document's second is never negative. -/
theorem docSec_toInt (doc : AttestationDoc) :
    (Verifier.docSec doc).toInt = (doc.timestamp.toNat / 1000 : Nat) := by
  have hdiv : (doc.timestamp / 1000).toNat = doc.timestamp.toNat / 1000 := by
    rw [UInt64.toNat_div]
    rfl
  have hlt := doc.timestamp.toNat_lt
  rw [Verifier.docSec, toInt_toInt64 (by omega), hdiv]

/-- The verifier's second, when its clock is not before the epoch. -/
theorem unixSeconds_eq_some {t : SystemTime} {s : UInt64} :
    t.unixSeconds = some s ↔ 0 ≤ t.secs.toInt ∧ s.toInt64 = t.secs := by
  unfold SystemTime.unixSeconds
  have hneg : t.secs < 0 ↔ t.secs.toInt < 0 := by
    rw [Int64.lt_iff_toInt_lt, Int64.toInt_zero]
  by_cases h : t.secs < 0
  · have hlt := hneg.mp h
    simp only [h, reduceIte, reduceCtorEq, false_iff, not_and]
    omega
  · have hle : 0 ≤ t.secs.toInt := by
      have hnot := mt hneg.mpr h
      omega
    rw [if_neg h, Option.some.injEq]
    constructor
    · rintro rfl
      exact ⟨hle, Int64.toInt64_toUInt64 _⟩
    · rintro ⟨_, hs⟩
      rw [← hs]
      exact UInt64.toUInt64_toInt64 s

namespace Verifier

variable {config : VerifierConfig} {now : Int64} {claims : VeriClaims} {doc : AttestationDoc}

/-- The skew of the document, as a distance. -/
theorem skewPasses_iff (hnow : 0 ≤ now.toInt) :
    SkewPasses config now doc ↔
      |now.toInt - (docSec doc).toInt| ≤ config.maxClockSkew.toInt := by
  have hdoc := docSec_toInt doc
  have hlt := now.toInt_lt
  have hdlt := (docSec doc).toInt_lt
  have hsub : checkedSub now (docSec doc) =
      some (Int64.ofInt (now.toInt - (docSec doc).toInt)) := by
    rw [checkedSub_eq_some, Int64.toInt_ofInt_of_le (by omega) (by omega)]
  have hval : (Int64.ofInt (now.toInt - (docSec doc).toInt)).toInt =
      now.toInt - (docSec doc).toInt := checkedSub_eq_some.mp hsub
  have habs := toInt_abs (d := Int64.ofInt (now.toInt - (docSec doc).toInt)) (by omega)
  simp only [SkewPasses, hsub, Option.some.injEq, exists_eq_left', Int64.le_iff_toInt_le, habs,
    hval]

/-- The age of the receipt, as a difference that is not negative. -/
theorem agePasses_iff :
    AgePasses config now claims ↔ 0 ≤ now.toInt - claims.attestationTimestamp.toInt ∧
      now.toInt - claims.attestationTimestamp.toInt ≤ config.maxReceiptAge.toInt := by
  have hmax := config.maxReceiptAge.toInt_lt
  have hclaim := claims.attestationTimestamp.toInt_lt
  unfold AgePasses
  constructor
  · rintro ⟨age, hage, hbounds⟩
    rw [checkedSub_eq_some] at hage
    rw [gt_iff_lt, Int64.lt_iff_toInt_lt, Int64.lt_iff_toInt_lt, Int64.toInt_zero] at hbounds
    omega
  · rintro ⟨hlow, hhigh⟩
    have hval := Int64.toInt_ofInt_of_le (n := now.toInt - claims.attestationTimestamp.toInt)
      (by omega) (by omega)
    refine ⟨Int64.ofInt (now.toInt - claims.attestationTimestamp.toInt),
      checkedSub_eq_some.mpr hval, ?_⟩
    rw [gt_iff_lt, Int64.lt_iff_toInt_lt, Int64.lt_iff_toInt_lt, Int64.toInt_zero, hval]
    omega

/-- The alignment of the two times, as a distance. -/
theorem alignmentPasses_iff :
    AlignmentPasses claims doc ↔
      |(docSec doc).toInt - claims.attestationTimestamp.toInt| ≤ 5 := by
  have hdoc := docSec_toInt doc
  have hclaim := claims.attestationTimestamp.toInt_lt
  have hfive : (5 : Int64).toInt = 5 := by decide
  unfold AlignmentPasses
  constructor
  · rintro ⟨d, hd, hle⟩
    rw [checkedSub_eq_some] at hd
    rw [Int64.le_iff_toInt_le, toInt_abs (by omega), hfive, hd] at hle
    exact hle
  · intro hle
    have hbounds := hle
    rw [Int.abs_eq_natAbs] at hbounds
    have hval := Int64.toInt_ofInt_of_le
      (n := (docSec doc).toInt - claims.attestationTimestamp.toInt) (by omega) (by omega)
    refine ⟨Int64.ofInt ((docSec doc).toInt - claims.attestationTimestamp.toInt),
      checkedSub_eq_some.mpr hval, ?_⟩
    rw [Int64.le_iff_toInt_le, toInt_abs (by omega), hfive, hval]
    exact hle

/-- The stage passes exactly when the clock is not before the epoch and the three
windows hold in integers. -/
theorem timestampsPass_iff {now : SystemTime} :
    TimestampsPass config now claims doc ↔ 0 ≤ now.secs.toInt ∧
      |now.secs.toInt - (docSec doc).toInt| ≤ config.maxClockSkew.toInt ∧
      (0 ≤ now.secs.toInt - claims.attestationTimestamp.toInt ∧
        now.secs.toInt - claims.attestationTimestamp.toInt ≤ config.maxReceiptAge.toInt) ∧
      |(docSec doc).toInt - claims.attestationTimestamp.toInt| ≤ 5 := by
  constructor
  · rintro ⟨t, ht, hskew, hage, halign⟩
    obtain ⟨hnow, hsecs⟩ := unixSeconds_eq_some.mp ht
    rw [hsecs] at hskew hage
    exact ⟨hnow, (skewPasses_iff hnow).mp hskew, agePasses_iff.mp hage,
      alignmentPasses_iff.mp halign⟩
  · rintro ⟨hnow, hskew, hage, halign⟩
    have hsecs : now.secs.toUInt64.toInt64 = now.secs := Int64.toInt64_toUInt64 _
    refine ⟨now.secs.toUInt64, unixSeconds_eq_some.mpr ⟨hnow, hsecs⟩, ?_, ?_,
      alignmentPasses_iff.mpr halign⟩
    · rw [hsecs]
      exact (skewPasses_iff hnow).mpr hskew
    · rw [hsecs]
      exact agePasses_iff.mpr hage

/-- The three windows over the integers: `now`, the claimed second and the document's second. -/
structure WithinWindows (config : VerifierConfig) (now claim docSec : Int) : Prop where
  skew : |now - docSec| ≤ config.maxClockSkew.toInt
  notFuture : 0 ≤ now - claim
  age : now - claim ≤ config.maxReceiptAge.toInt
  alignment : |docSec - claim| ≤ 5

/-- Where `a - b` fits it is computed exactly, and `abs` of it is exact too: it is never
applied to `i64::MIN`. -/
structure ExactSub (a b : Int64) : Prop where
  value : ∀ d, checkedSub a b = some d → d.toInt = a.toInt - b.toInt
  notMin : ∀ d, checkedSub a b = some d → d ≠ Int64.minValue
  abs : ∀ d, checkedSub a b = some d → d.abs.toInt = |a.toInt - b.toInt|

/-- Subtracting from a value that is not negative never reaches `i64::MIN`. -/
theorem exactSub_of_nonneg {a b : Int64} (ha : 0 ≤ a.toInt) : ExactSub a b := by
  have hb := b.toInt_lt
  refine ⟨fun d hd => checkedSub_eq_some.mp hd, ?_, ?_⟩
  · rintro d hd rfl
    have hval := checkedSub_eq_some.mp hd
    rw [Int64.toInt_minValue] at hval
    omega
  · intro d hd
    have hval := checkedSub_eq_some.mp hd
    rw [toInt_abs (by omega), hval]

/-- Every number the timestamp stage computes is the integer it stands for. -/
structure StageExact (now : SystemTime) (claims : VeriClaims) (doc : AttestationDoc) : Prop where
  /-- `duration_since` answers, and `as_secs() as i64` keeps the value. -/
  clock : ∃ t, now.unixSeconds = some t ∧ (t.toNat : Int) = now.secs.toInt ∧
    t.toInt64.toInt = t.toNat
  /-- `(doc.timestamp / 1000) as i64` keeps the value. -/
  docSec : (docSec doc).toInt = (doc.timestamp.toNat / 1000 : Nat)
  /-- The first subtraction always fits. -/
  skewFits : ∃ d, checkedSub now.secs (Verifier.docSec doc) = some d
  skew : ExactSub now.secs (Verifier.docSec doc)
  age : ExactSub now.secs claims.attestationTimestamp
  alignment : ExactSub (Verifier.docSec doc) claims.attestationTimestamp

theorem stageExact {now : SystemTime} (hnow : 0 ≤ now.secs.toInt) : StageExact now claims doc := by
  have hdoc := docSec_toInt doc
  have hlt := now.secs.toInt_lt
  have hdlt := (docSec doc).toInt_lt
  have hback : now.secs.toUInt64.toInt64 = now.secs := Int64.toInt64_toUInt64 _
  have hclock : (now.secs.toUInt64.toNat : Int) = now.secs.toInt := by
    have hof := Int64.toInt_toBitVec now.secs
    rw [BitVec.toInt_eq_toNat_of_lt] at hof
    · exact hof
    · rw [BitVec.toInt_eq_toNat_cond] at hof
      split at hof <;> omega
  refine ⟨⟨now.secs.toUInt64, unixSeconds_eq_some.mpr ⟨hnow, hback⟩, hclock, ?_⟩, hdoc, ?_,
    exactSub_of_nonneg hnow, exactSub_of_nonneg hnow, exactSub_of_nonneg (by omega)⟩
  · rw [hback, hclock]
  · refine ⟨Int64.ofInt (now.secs.toInt - (docSec doc).toInt), ?_⟩
    rw [checkedSub_eq_some, Int64.toInt_ofInt_of_le (by omega) (by omega)]

theorem timestampsPass_iff_withinWindows {now : SystemTime} (hnow : 0 ≤ now.secs.toInt) :
    TimestampsPass config now claims doc ↔ WithinWindows config now.secs.toInt
      claims.attestationTimestamp.toInt (doc.timestamp.toNat / 1000 : Nat) := by
  rw [timestampsPass_iff, docSec_toInt]
  constructor
  · rintro ⟨_, hskew, ⟨hlow, hhigh⟩, halign⟩
    exact ⟨hskew, hlow, hhigh, halign⟩
  · rintro ⟨hskew, hlow, hhigh, halign⟩
    exact ⟨hnow, hskew, ⟨hlow, hhigh⟩, halign⟩

/-- A subtraction that does not fit is far outside every window. -/
theorem not_withinWindows_of_overflow {now : SystemTime}
    (h : checkedSub now.secs (docSec doc) = none ∨
      checkedSub now.secs claims.attestationTimestamp = none ∨
      checkedSub (docSec doc) claims.attestationTimestamp = none) :
    ¬ WithinWindows config now.secs.toInt claims.attestationTimestamp.toInt
      (doc.timestamp.toNat / 1000 : Nat) := by
  intro hw
  have hnone : ∀ {a b : Int64}, checkedSub a b = none →
      ¬ (-2 ^ 63 ≤ a.toInt - b.toInt ∧ a.toInt - b.toInt < 2 ^ 63) := by
    intro a b hab hfit
    have hsome := checkedSub_eq_some.mpr (Int64.toInt_ofInt_of_le hfit.1 hfit.2)
    rw [hab] at hsome
    cases hsome
  have hskewLimit := config.maxClockSkew.toInt_lt
  have hageLimit := config.maxReceiptAge.toInt_lt
  have hskew := hw.skew
  have halign := hw.alignment
  rw [Int.abs_eq_natAbs] at hskew halign
  have hlow := hw.notFuture
  have hhigh := hw.age
  rcases h with h | h | h
  · have hfar := hnone h
    rw [docSec_toInt] at hfar
    omega
  · have hfar := hnone h
    omega
  · have hfar := hnone h
    rw [docSec_toInt] at hfar
    omega

/-- On every document time, claimed time, configuration and clock from the epoch on, the
stage computes without loss and passes exactly within the three integer windows. -/
theorem checkTimestamps_exact (v : Verifier) (now : SystemTime) (claims : VeriClaims)
    (doc : AttestationDoc) (hnow : 0 ≤ now.secs.toInt) :
    StageExact now claims doc ∧
    (∀ (r r' : Report) (u : Unit), Yields (v.checkTimestamps now claims doc) r u r' ↔
      WithinWindows v.config now.secs.toInt claims.attestationTimestamp.toInt
        (doc.timestamp.toNat / 1000 : Nat) ∧ r' = timedReport r) ∧
    ((checkedSub now.secs (docSec doc) = none ∨
        checkedSub now.secs claims.attestationTimestamp = none ∨
        checkedSub (docSec doc) claims.attestationTimestamp = none) →
      ¬ WithinWindows v.config now.secs.toInt claims.attestationTimestamp.toInt
        (doc.timestamp.toNat / 1000 : Nat)) := by
  refine ⟨stageExact hnow, ?_, not_withinWindows_of_overflow⟩
  intro r r' u
  rw [yields_checkTimestamps, timestampsPass_iff_withinWindows hnow]

/-- At the last second of the clock, with the latest document and the earliest claim: the
receipt's age overflows, and the stage refuses. -/
theorem checkTimestamps_exact_extreme :
    (0 : Int) ≤ (⟨Int64.maxValue, 0⟩ : SystemTime).secs.toInt ∧
    checkedSub Int64.maxValue Int64.minValue = none ∧
    ∀ (r r' : Report) (u : Unit), ¬ Yields (Transparent.verifier.checkTimestamps ⟨Int64.maxValue, 0⟩
      { Transparent.claims 0 0 with attestationTimestamp := Int64.minValue }
      { Transparent.doc 0 with timestamp := 2 ^ 64 - 1 }) r u r' := by
  have hoverflow : checkedSub Int64.maxValue Int64.minValue = none := by decide
  obtain ⟨_, hyields, hrefused⟩ := checkTimestamps_exact Transparent.verifier
    ⟨Int64.maxValue, 0⟩ { Transparent.claims 0 0 with attestationTimestamp := Int64.minValue }
    { Transparent.doc 0 with timestamp := 2 ^ 64 - 1 } (by decide)
  refine ⟨by decide, hoverflow, ?_⟩
  intro r r' u h
  exact hrefused (.inr (.inl hoverflow)) ((hyields r r' u).mp h).1

end Verifier

end Veriai
