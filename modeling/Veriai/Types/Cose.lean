import Veriai.Types.Schema

/-!
# COSE_Sign1 structures and the external primitives

The header and signature structures of the `coset` crate, and one record of
the operations the repository takes from its dependencies: COSE and CBOR
codecs, digests and Ed25519. Those operations stay abstract; what a result
needs of them is stated where it is used.
-/

namespace Veriai

/-- A COSE label or registered value. -/
inductive Label where
  | int (value : Int64)
  | text (value : String)
  deriving DecidableEq, Repr

/-- `coset::Algorithm`; an assigned algorithm is its IANA number. -/
inductive Algorithm where
  | privateUse (value : Int64)
  | assigned (value : Int64)
  | text (value : String)
  deriving DecidableEq, Repr

/-- `iana::Algorithm::EdDSA`. -/
def Algorithm.edDSA : Algorithm := .assigned (-8)

/-- `iana::Algorithm::ES384`. -/
def Algorithm.es384 : Algorithm := .assigned (-35)

/-- `coset::ContentType`; an assigned type is its CoAP content-format number. -/
inductive ContentType where
  | assigned (value : Int64)
  | text (value : String)
  deriving DecidableEq, Repr

/-- `coset::Header`. Counter signatures and the values of other labels are kept encoded. -/
structure Header where
  alg : Option Algorithm := none
  crit : List Label := []
  contentType : Option ContentType := none
  keyId : Bytes := []
  iv : Bytes := []
  partialIv : Bytes := []
  counterSignatures : List Bytes := []
  rest : List (Label × Bytes) := []
  deriving DecidableEq, Repr

/-- `Header::is_empty`. -/
def Header.isEmpty (h : Header) : Bool :=
  h.alg.isNone && h.crit.isEmpty && h.contentType.isNone && h.keyId.isEmpty && h.iv.isEmpty &&
    h.partialIv.isEmpty && h.counterSignatures.isEmpty && h.rest.isEmpty

/-- An empty header is the default header. -/
theorem Header.isEmpty_iff (h : Header) : h.isEmpty = true ↔ h = {} := by
  obtain ⟨alg, crit, contentType, keyId, iv, partialIv, counterSignatures, rest⟩ := h
  simp only [isEmpty, Bool.and_eq_true, Option.isNone_iff_eq_none, List.isEmpty_iff, mk.injEq,
    and_assoc]

/-- `coset::ProtectedHeader`: a parsed header remembers the bytes it was parsed from. -/
structure ProtectedHeader where
  originalData : Option Bytes := none
  header : Header
  deriving DecidableEq, Repr

/-- `coset::CoseSign1`. -/
structure CoseSign1 where
  protectedHeader : ProtectedHeader
  unprotected : Header
  payload : Option Bytes
  signature : Bytes
  deriving DecidableEq, Repr

/-- What the repository takes from outside: `coset`, `ciborium` (through the two
`from_binary`/`to_binary` pairs), `sha2` and `ed25519-dalek`. -/
structure Primitives where
  /-- `CoseSign1::from_slice`; an error is its display text. -/
  coseFromSlice : Bytes → Except String CoseSign1
  /-- `CoseSign1::to_vec`. -/
  coseToVec : CoseSign1 → Except String Bytes
  /-- The bytes a header is signed and sent as. -/
  encodeHeader : Header → Bytes
  /-- The `Sig_structure` of protected bytes, external data and payload. -/
  sigStructure : Bytes → Bytes → Bytes → Bytes
  /-- `VeriClaims::from_binary`. -/
  claimsFromBinary : Bytes → Except String VeriClaims
  /-- `VeriClaims::to_binary`. -/
  claimsToBinary : VeriClaims → Except String Bytes
  /-- `AttestationDoc::from_binary`. -/
  docFromBinary : Bytes → Except String AttestationDoc
  sha256 : Bytes → ByteArr 32
  sha512 : Bytes → ByteArr 64
  /-- Whether `VerifyingKey::from_bytes` accepts a point. -/
  ed25519KeyValid : ByteArr 32 → Bool
  /-- `VerifyingKey::verify` of a message and a signature. -/
  ed25519Verify : ByteArr 32 → Bytes → ByteArr 64 → Bool
  /-- `SigningKey::verifying_key().to_bytes()`. -/
  ed25519Public : ByteArr 32 → ByteArr 32
  /-- `SigningKey::sign`. -/
  ed25519Sign : ByteArr 32 → Bytes → ByteArr 64

variable (env : Primitives)

/-- The protected bytes: those received when the header was parsed, else its encoding. -/
def ProtectedHeader.bytes (h : ProtectedHeader) : Bytes :=
  h.originalData.getD (env.encodeHeader h.header)

/-- `CoseSign1::tbs_data`: what the signature covers. -/
def CoseSign1.tbsData (c : CoseSign1) (aad : Bytes) : Bytes :=
  env.sigStructure (c.protectedHeader.bytes env) aad (c.payload.getD [])

end Veriai
