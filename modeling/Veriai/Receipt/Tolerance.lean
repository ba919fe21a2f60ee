import Veriai.Receipt.Generate

/-!
# The clock tolerance

Two of the three timestamp checks allow a deviation in either direction, the age
check only in one: a receipt whose claimed time is ahead of the verifier's clock
has expired. A receipt within the documented tolerance passes exactly when its
claimed time is not ahead.
-/

namespace Veriai

open Checked

namespace Verifier

variable {env : Primitives} {v : Verifier} {now : SystemTime} {receiptBytes : Bytes}
variable {expected : Expected} {cose : CoseSign1} {claims : VeriClaims} {doc : AttestationDoc}

/-- What the inspection requires apart from the times. -/
structure PassesOtherChecks (env : Primitives) (v : Verifier) (receiptBytes : Bytes)
    (expected : Expected) (cose : CoseSign1) (claims : VeriClaims) (doc : AttestationDoc) :
    Prop where
  receiptSize : receiptBytes.length ≤ v.config.maxReceiptSize
  pcr0Size : expected.pcr0.length = 48
  receiptParses : env.coseFromSlice receiptBytes = .ok cose
  headers : ReceiptHeaders cose
  claimsDecode : ∃ payload, cose.payload = some payload ∧ env.claimsFromBinary payload = .ok claims
  nitro : claims.attestationType = 3
  signed : ReceiptSigned env cose claims
  attestation : AttestationParses env claims doc
  chain : ∃ root ∈ v.trustedRoots, v.provider.verify claims.attestationReport root = .ok true
  pcr0 : doc.pcrs.lookup 0 = some expected.pcr0
  pubkey : doc.publicKey = some claims.enclavePubkey.toList
  reportData : doc.userData = some (expectedReportData env claims.enclavePubkey).toList
  payload : PayloadMatches claims doc expected

/-- The inspection requires the other checks and the times. -/
theorem inspected_iff : Inspected env v now receiptBytes expected cose claims doc ↔
    PassesOtherChecks env v receiptBytes expected cose claims doc ∧
      TimestampsPass v.config now claims doc := by
  constructor
  · intro h
    exact ⟨⟨h.receiptSize, h.pcr0Size, h.receiptParses, h.headers, h.claimsDecode, h.nitro,
      h.signed, h.attestation, h.chain, h.pcr0, h.pubkey, h.reportData, h.payload⟩, h.timestamps⟩
  · rintro ⟨h, htime⟩
    exact ⟨h.receiptSize, h.pcr0Size, h.receiptParses, h.headers, h.claimsDecode, h.nitro, h.signed,
      h.attestation, h.chain, htime, h.pcr0, h.pubkey, h.reportData, h.payload⟩

variable (now) in
/-- A receipt that passes the other checks fails as its times do. -/
theorem inspect_exits_of_times (h : PassesOtherChecks env v receiptBytes expected cose claims doc)
    {e : Exit} (htimes : ∀ r, Exits (v.checkTimestamps now claims doc) r e) :
    Exits (v.inspect env now receiptBytes expected) {} e := by
  obtain ⟨payload, hpayload, hclaims⟩ := h.claimsDecode
  unfold inspect
  refine exits_bind.mpr (.inr ⟨(), _, yields_checkSizes.mpr ⟨⟨h.receiptSize, h.pcr0Size⟩, rfl⟩, ?_⟩)
  refine exits_bind.mpr (.inr ⟨cose, _,
    yields_parseReceipt.mpr ⟨⟨h.receiptParses, h.headers⟩, rfl⟩, ?_⟩)
  refine exits_bind.mpr (.inr ⟨payload, _, yields_receiptPayload.mpr ⟨hpayload, rfl⟩, ?_⟩)
  refine exits_bind.mpr (.inr ⟨claims, _, yields_parseClaims.mpr ⟨hclaims, rfl⟩, ?_⟩)
  refine exits_bind.mpr (.inr ⟨(), _, yields_checkAttestationType.mpr ⟨h.nitro, rfl⟩, ?_⟩)
  refine exits_bind.mpr (.inr ⟨(), _, yields_checkReceiptSignature.mpr ⟨h.signed, rfl⟩, ?_⟩)
  refine exits_bind.mpr (.inr ⟨doc, _, yields_parseAttestation.mpr ⟨h.attestation, rfl⟩, ?_⟩)
  refine exits_bind.mpr (.inr ⟨(), _, yields_checkChain.mpr ⟨h.chain, rfl⟩, ?_⟩)
  exact exits_bind.mpr (.inl (htimes _))

/-- The clock of a verifier before the epoch cannot be read. -/
theorem checkTimestamps_before_epoch (hnow : now.secs.toInt < 0) (r : Report) :
    Exits (v.checkTimestamps now claims doc) r
      (.err (.invalidAttestationDocument "Clock error")) := by
  have hnone : now.unixSeconds = none := by
    cases hs : now.unixSeconds with
    | none => rfl
    | some s =>
      have hpos := (unixSeconds_eq_some.mp hs).1
      omega
  refine exits_bind.mpr (.inl (exits_bind.mpr (.inl ?_)))
  rw [hnone]
  rfl

/-- A claimed time ahead of the clock is refused, once the document's skew has passed. -/
theorem checkTimestamps_ahead (hnow : 0 ≤ now.secs.toInt)
    (hskew : |now.secs.toInt - (docSec doc).toInt| ≤ v.config.maxClockSkew.toInt)
    (hahead : now.secs.toInt < claims.attestationTimestamp.toInt) (r : Report) :
    Exits (v.checkTimestamps now claims doc) r (.err .expiredReceipt) := by
  have hsecs : now.secs.toUInt64.toInt64 = now.secs := Int64.toInt64_toUInt64 _
  have hread : now.unixSeconds = some now.secs.toUInt64 := unixSeconds_eq_some.mpr ⟨hnow, hsecs⟩
  have hclaim := claims.attestationTimestamp.toInt_lt
  have hval := Int64.toInt_ofInt_of_le (n := now.secs.toInt - claims.attestationTimestamp.toInt)
    (by omega) (by omega)
  have hage := checkedSub_eq_some.mpr hval
  refine exits_bind.mpr (.inr ⟨now.secs, r, yields_nowSec.mpr ⟨⟨_, hread, hsecs.symm⟩, rfl⟩, ?_⟩)
  refine exits_bind.mpr (.inr ⟨(), _, yields_checkSkew.mpr ⟨(skewPasses_iff hnow).mpr hskew, rfl⟩,
    ?_⟩)
  refine exits_bind.mpr (.inl (exits_bind.mpr (.inr ⟨_, _, yields_orReject.mpr ⟨hage, rfl⟩, ?_⟩)))
  refine exits_bind.mpr (.inl ?_)
  have hneg : Int64.ofInt (now.secs.toInt - claims.attestationTimestamp.toInt) < 0 := by
    rw [Int64.lt_iff_toInt_lt, Int64.toInt_zero, hval]
    omega
  rw [rejectIf, if_pos (Or.inl hneg)]
  rfl

/-- The errors of the timestamp checks. -/
def timeErrors : List VerifyError :=
  [.timestampSkewExceeded, .expiredReceipt, .invalidTimestamp, .attestationDocTimestampMismatch]

/-- The answer rejects the receipt with one of these errors. -/
def RejectsWith (errors : List VerifyError) (answer : Except VerifyError VerificationResult) :
    Prop :=
  ∃ e ∈ errors, answer = .error e ∨ ∃ result, answer = .ok result ∧ result.error = some e.toString

/-- The sequence check does not reject on time grounds. -/
theorem checkSequence_not_timeErrors (report : Report) (state : Option ReplayMutex) :
    ¬ RejectsWith timeErrors (v.checkSequence env claims doc report state).1 := by
  rintro ⟨e, he, hanswer⟩
  have htexts : ∀ e ∈ timeErrors, VerifyError.sequenceNumberOutOfOrder.toString ≠ e.toString ∧
      e ≠ .replayStateUnavailable := by decide
  have hsequence :
      (v.checkSequence env claims doc report state).1 = .error .replayStateUnavailable ∨
      ∃ result, (v.checkSequence env claims doc report state).1 = .ok result ∧
        (result.error = none ∨
          result.error = some VerifyError.sequenceNumberOutOfOrder.toString) := by
    unfold checkSequence
    cases state with
    | none => exact Or.inr ⟨_, rfl, Or.inl rfl⟩
    | some m =>
      dsimp only
      split
      · exact Or.inl rfl
      · split
        · exact Or.inr ⟨_, rfl, Or.inr rfl⟩
        · exact Or.inr ⟨_, rfl, Or.inl rfl⟩
  rcases hsequence with herr | ⟨result, hok, htext⟩
  · rcases hanswer with h | ⟨result, h, _⟩
    · exact (htexts e he).2 (Except.error.inj (h.symm.trans herr))
    · cases h.symm.trans herr
  · rcases hanswer with h | ⟨result', h, htext'⟩
    · cases h.symm.trans hok
    · obtain rfl := Except.ok.inj (h.symm.trans hok)
      rcases htext with hnone | hsome
      · rw [hnone] at htext'
        cases htext'
      · exact (htexts e he).1 (Option.some.inj (hsome.symm.trans htext'))

theorem verify_of_exits {e : VerifyError}
    (h : Exits (v.inspect env now receiptBytes expected) {} (.err e)) (state : Option ReplayMutex) :
    (v.verify env now receiptBytes expected state).1 = .error e := by
  have hrun : (v.inspect env now receiptBytes expected).run {} = .error (.err e) := h
  simp only [verify, hrun]

/-- Within the documented tolerance, a receipt that passes the other checks is not rejected on
time grounds exactly when its claimed time is not ahead of the clock, or the clock is before the
epoch and cannot be read. -/
theorem not_rejects_on_time_iff (hconfig : v.config = {})
    (hother : PassesOtherChecks env v receiptBytes expected cose claims doc)
    (hdoc : |now.secs.toInt - (docSec doc).toInt| ≤ 300)
    (hclaims : |now.secs.toInt - claims.attestationTimestamp.toInt| ≤ 300)
    (halign : |(docSec doc).toInt - claims.attestationTimestamp.toInt| ≤ 5)
    (state : Option ReplayMutex) :
    ¬ RejectsWith timeErrors (v.verify env now receiptBytes expected state).1 ↔
      claims.attestationTimestamp.toInt ≤ now.secs.toInt ∨ now.secs.toInt < 0 := by
  have hskew : v.config.maxClockSkew.toInt = 300 := by
    rw [hconfig]
    rfl
  have hage : v.config.maxReceiptAge.toInt = 300 := by
    rw [hconfig]
    rfl
  by_cases hnow : now.secs.toInt < 0
  · have hexits := inspect_exits_of_times now hother (checkTimestamps_before_epoch hnow)
    simp only [hnow, or_true, iff_true]
    rintro ⟨e, he, h | ⟨result, h, _⟩⟩
    · obtain rfl := Except.error.inj (h.symm.trans (verify_of_exits hexits state))
      exact absurd he (by decide)
    · cases h.symm.trans (verify_of_exits hexits state)
  · by_cases hahead : now.secs.toInt < claims.attestationTimestamp.toInt
    · have hexits := inspect_exits_of_times now hother
        (checkTimestamps_ahead (by omega) (by rw [hskew]; exact hdoc) hahead)
      have hrejects : RejectsWith timeErrors (v.verify env now receiptBytes expected state).1 :=
        ⟨.expiredReceipt, by decide, Or.inl (verify_of_exits hexits state)⟩
      simp only [hrejects, not_true_eq_false, false_iff, not_or]
      omega
    · have htimes : TimestampsPass v.config now claims doc := by
        rw [Int.abs_eq_natAbs] at hclaims
        refine timestampsPass_iff.mpr ⟨by omega, by rw [hskew]; exact hdoc, ?_, halign⟩
        rw [hage]
        omega
      rw [verify_of_inspected (inspected_iff.mpr ⟨hother, htimes⟩)]
      simp only [checkSequence_not_timeErrors, not_false_eq_true, true_iff]
      omega

end Verifier

namespace Transparent

/-- The transparent primitives, with receipts that claim to be made at a given second. -/
def claimingAt (second : Int64) : Primitives where
  __ := primitives
  claimsFromBinary
    | [seq, key] => .ok { claims seq key with attestationTimestamp := second }
    | _ => .error "malformed"

/-- Whatever time its claims are read with, a transparent receipt passes the other checks. -/
theorem passesOtherChecks {decode : Bytes → Except String VeriClaims} {second : Int64}
    {seq key : UInt8}
    (h : decode [seq, key] = .ok { claims seq key with attestationTimestamp := second }) :
    Verifier.PassesOtherChecks { primitives with claimsFromBinary := decode } verifier [1, seq, key]
      expected (receipt (some []) [seq, key])
      { claims seq key with attestationTimestamp := second } (doc key) where
  receiptSize := by simp [verifier]
  pcr0Size := List.length_replicate
  receiptParses := rfl
  headers := ⟨rfl, rfl, rfl, rfl⟩
  claimsDecode := ⟨[seq, key], rfl, h⟩
  nitro := rfl
  signed := ⟨rfl, fill 64 0, rfl, rfl⟩
  attestation := (vouches key).parses
  chain := (vouches key).trusted
  pcr0 := (vouches key).pcr0
  pubkey := rfl
  reportData := rfl
  payload := ⟨rfl, rfl, rfl, rfl, rfl⟩

theorem claimingAt_passes (second : Int64) (seq key : UInt8) :
    Verifier.PassesOtherChecks (claimingAt second) verifier [1, seq, key] expected
      (receipt (some []) [seq, key]) { claims seq key with attestationTimestamp := second }
      (doc key) := passesOtherChecks rfl

/-- A receipt of the very second of the clock is not rejected on time grounds. -/
theorem not_rejects_on_time_punctual :
    ¬ Verifier.RejectsWith Verifier.timeErrors
      (verifier.verify (claimingAt 0) epoch [1, 0, 7] expected none).1 :=
  (Verifier.not_rejects_on_time_iff rfl (claimingAt_passes 0 0 7) (by decide) (by decide)
    (by decide) none).mpr (Or.inl (by decide))

/-- A verifier one second behind the enclave: every time is within the tolerance, and the receipt
has expired. -/
theorem rejects_on_time_ahead :
    Verifier.PassesOtherChecks (claimingAt 1) verifier [1, 0, 7] expected
        (receipt (some []) [0, 7]) { claims 0 7 with attestationTimestamp := 1 } (doc 7) ∧
      |epoch.secs.toInt - (Verifier.docSec (doc 7)).toInt| ≤ 300 ∧
      |epoch.secs.toInt - (1 : Int64).toInt| ≤ 300 ∧
      |(Verifier.docSec (doc 7)).toInt - (1 : Int64).toInt| ≤ 5 ∧
      (verifier.verify (claimingAt 1) epoch [1, 0, 7] expected none).1 =
        .error .expiredReceipt ∧
      Verifier.RejectsWith Verifier.timeErrors
        (verifier.verify (claimingAt 1) epoch [1, 0, 7] expected none).1 := by
  have hexits := Verifier.inspect_exits_of_times epoch (claimingAt_passes 1 0 7)
    (Verifier.checkTimestamps_ahead (by decide) (by decide) (by decide))
  have hverify := Verifier.verify_of_exits hexits none
  exact ⟨claimingAt_passes 1 0 7, by decide, by decide, by decide, hverify,
    .expiredReceipt, by decide, Or.inl hverify⟩

end Transparent

end Veriai
