import Mathlib.Data.Finmap
import Mathlib.Order.Basic
import Veriai.Types.Error

/-!
# Attestation documents, claims and verification results

The plain data types of the receipt format. Machine integers keep their
widths; `BTreeMap` and `HashMap` are finite maps, whose equality is that of
their contents.
-/

namespace Veriai

/-- The machine order on `u64` is the order of the values. -/
instance instPreorderUInt64 : Preorder UInt64 where
  le_refl := UInt64.le_refl
  le_trans _ _ _ := UInt64.le_trans
  lt_iff_le_not_ge a b := by
    rw [UInt64.lt_iff_toNat_lt, UInt64.le_iff_toNat_le, UInt64.le_iff_toNat_le]
    omega

/-- A converted number below the sign bit keeps its value. -/
theorem toInt_toInt64 {n : UInt64} (h : n.toNat < 2 ^ 63) : n.toInt64.toInt = n.toNat := by
  have hlt : 2 * n.toBitVec.toNat < 2 ^ 64 := by
    have hn : n.toBitVec.toNat = n.toNat := rfl
    omega
  exact BitVec.toInt_eq_toNat_of_lt hlt

/-- `AttestationDoc`: the payload of a Nitro attestation document. -/
structure AttestationDoc where
  moduleId : String
  /-- Milliseconds since the epoch. -/
  timestamp : UInt64
  digest : String
  pcrs : Finmap fun _ : UInt32 => Bytes
  certificate : Bytes
  /-- Root-first. -/
  cabundle : List Bytes
  publicKey : Option Bytes
  userData : Option Bytes
  nonce : Option Bytes
  deriving DecidableEq

/-- `VeriClaims`: the CWT claims set of a receipt. -/
structure VeriClaims where
  modelHash : ByteArr 32
  inputHash : ByteArr 32
  outputHash : ByteArr 32
  clientNonce : ByteArr 32
  sequenceNum : UInt64
  attestationReport : Bytes
  /-- `3` is Nitro. -/
  attestationType : UInt64
  /-- Seconds since the epoch. -/
  attestationTimestamp : Int64
  sdkVersion : String
  enclavePubkey : ByteArr 32
  deriving DecidableEq

/-- The two values of a check's `status` text. -/
inductive CheckStatus where
  | passed
  | failed
  deriving DecidableEq, Repr

/-- `VerificationCheck`. -/
structure VerificationCheck where
  name : String
  status : CheckStatus
  details : Option String
  deriving DecidableEq, Repr

/-- `ReceiptInfo`. -/
structure ReceiptInfo where
  version : String
  modelHash : String
  inputHash : String
  outputHash : String
  sequenceNum : UInt64
  timestamp : Int64
  deriving DecidableEq, Repr

/-- `VerificationResult`. -/
structure VerificationResult where
  valid : Bool
  receipt : Option ReceiptInfo
  checks : List VerificationCheck
  attestationProvider : String
  verifiedHardware : Bool
  error : Option String
  deriving DecidableEq, Repr

/-- A `SystemTime` as the platform stores it: whole seconds relative to the
epoch and the nanoseconds within the second. -/
structure SystemTime where
  secs : Int64
  nanos : Fin 1000000000
  deriving DecidableEq, Repr

/-- `duration_since(UNIX_EPOCH)` then `as_secs`: fails for an instant before the epoch. -/
def SystemTime.unixSeconds (t : SystemTime) : Option UInt64 :=
  if t.secs < 0 then none else some t.secs.toUInt64

/-- `duration_since(UNIX_EPOCH)` then `as_millis() as u64`. -/
def SystemTime.unixMillis (t : SystemTime) : Option UInt64 :=
  if t.secs < 0 then none
  else some (UInt64.ofNat (t.secs.toInt.toNat * 1000 + t.nanos.val / 1000000))

/-- Instants are ordered by their seconds, then by their nanoseconds. -/
def SystemTime.before (s t : SystemTime) : Prop :=
  s.secs < t.secs ∨ s.secs = t.secs ∧ s.nanos < t.nanos

instance (s t : SystemTime) : Decidable (s.before t) :=
  inferInstanceAs (Decidable (_ ∨ _ ∧ _))

end Veriai
