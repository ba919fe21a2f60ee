import Veriai.Receipt.Verify

/-!
# The laws of the primitives and a transparent instance

`Lawful` collects what the repository relies on from its codecs and its
signature scheme. The transparent primitives satisfy these laws with coding
that can be followed by eye: a receipt is three bytes naming its sequence
number and the key of its generator, an attestation document one byte naming
the key it certifies.
-/

namespace Veriai

/-- Decoding undoes encoding, and signatures verify under the matching key. -/
structure Primitives.Lawful (env : Primitives) : Prop where
  claims_roundTrip : ∀ c b, env.claimsToBinary c = .ok b → env.claimsFromBinary b = .ok c
  /-- A parsed structure remembers the bytes of its protected header. -/
  cose_roundTrip : ∀ c b, c.protectedHeader.originalData = none → env.coseToVec c = .ok b →
    env.coseFromSlice b = .ok { c with protectedHeader :=
      ⟨some (env.encodeHeader c.protectedHeader.header), c.protectedHeader.header⟩ }
  keyValid : ∀ key, env.ed25519KeyValid (env.ed25519Public key) = true
  sign_verifies : ∀ key message,
    env.ed25519Verify (env.ed25519Public key) message (env.ed25519Sign key message) = true

namespace Transparent

/-- The array of `n` equal bytes. -/
def fill (n : Nat) (b : UInt8) : ByteArr n := List.Vector.replicate n b

/-- The claims of receipt number `seq` of the generator with key byte `key`. -/
def claims (seq key : UInt8) : VeriClaims where
  modelHash := fill 32 1
  inputHash := fill 32 2
  outputHash := fill 32 3
  clientNonce := fill 32 4
  sequenceNum := seq.toUInt64
  attestationReport := [key]
  attestationType := 3
  attestationTimestamp := 0
  sdkVersion := "0.1.0"
  enclavePubkey := fill 32 key

/-- The document certifying key byte `key`; the enclave identity does not depend on it. -/
def doc (key : UInt8) : AttestationDoc where
  moduleId := "module"
  timestamp := 0
  digest := "SHA384"
  pcrs := (∅ : Finmap fun _ : UInt32 => Bytes).insert 0 (List.replicate 48 0)
  certificate := []
  cabundle := []
  publicKey := some (fill 32 key).toList
  userData := some (fill 64 0).toList
  nonce := some (fill 32 4).toList

/-- A receipt structure with a given protected header state and payload. -/
def receipt (originalData : Option Bytes) (payload : Bytes) : CoseSign1 where
  protectedHeader :=
    ⟨originalData, { alg := some .edDSA, contentType := some (.text "application/cwt") }⟩
  unprotected := {}
  payload := some payload
  signature := (fill 64 0).toList

/-- The attestation structure around a document's bytes, signed with the same bytes. -/
def attestation (payload : Bytes) : CoseSign1 where
  protectedHeader := ⟨some [], { alg := some .es384 }⟩
  unprotected := {}
  payload := some payload
  signature := payload

/-- The transparent primitives. -/
def primitives : Primitives where
  coseFromSlice
    | [key] => .ok (attestation [key])
    | [1, seq, key] => .ok (receipt (some []) [seq, key])
    | _ => .error "malformed"
  coseToVec c :=
    match c.payload with
    | some [seq, key] =>
      if c = receipt none [seq, key] then .ok [1, seq, key] else .error "malformed"
    | _ => .error "malformed"
  encodeHeader _ := []
  sigStructure prot _ payload := prot ++ payload
  claimsFromBinary
    | [seq, key] => .ok (claims seq key)
    | _ => .error "malformed"
  claimsToBinary c :=
    match c.attestationReport with
    | [key] =>
      if c = claims c.sequenceNum.toUInt8 key then .ok [c.sequenceNum.toUInt8, key]
      else .error "malformed"
    | _ => .error "malformed"
  docFromBinary
    | [key] => .ok (doc key)
    | _ => .error "malformed"
  sha256 _ := fill 32 0
  sha512 _ := fill 64 0
  ed25519KeyValid _ := true
  ed25519Verify _ _ sig := sig == fill 64 0
  ed25519Public key := key
  ed25519Sign _ _ := fill 64 0

theorem lawful : primitives.Lawful where
  claims_roundTrip c b h := by
    simp only [primitives] at h ⊢
    split at h
    · rename_i key hreport
      split at h
      · rename_i hc
        obtain rfl := Except.ok.inj h
        exact congrArg Except.ok hc.symm
      · cases h
    · cases h
  cose_roundTrip c b horig h := by
    simp only [primitives] at h ⊢
    split at h
    · split at h
      · rename_i hc
        obtain rfl := Except.ok.inj h
        rw [hc]
        rfl
      · cases h
    · cases h
  keyValid _ := rfl
  sign_verifies _ _ := by simp [primitives]

/-- The provider of these documents; it refuses requests that no document fits. -/
def provider : AttestationProvider where
  generate userData nonce publicKey :=
    match publicKey with
    | some (key :: rest) =>
      if userData = (doc key).userData ∧ nonce = (doc key).nonce ∧
          some (key :: rest) = (doc key).publicKey then .ok [key]
      else .error (.validationError "unsupported request")
    | _ => .error (.validationError "unsupported request")
  verify _ _ := .ok true

/-- A verifier trusting one root under that provider. -/
def verifier : Verifier := { provider, trustedRoots := [[]] }

/-- The values the transparent receipts attest. -/
def expected : Expected where
  modelHash := fill 32 1
  inputHash := fill 32 2
  outputHash := fill 32 3
  nonce := fill 32 4
  pcr0 := List.replicate 48 0

/-- The epoch. -/
def epoch : SystemTime := ⟨0, 0⟩

end Transparent

end Veriai
