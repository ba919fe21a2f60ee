import Veriai.Attestation.Chain
import Veriai.Attestation.RootPem
import Veriai.Receipt.Acceptance

/-!
# Hardware-backed providers

The two providers that report hardware accept an attestation by
`verify_attestation_doc`. With either of them a result that verifies hardware
says that the attestation of the receipt was accepted against one of the
verifier's roots.
-/

namespace Veriai

/-- `Response` of the NSM driver to an attestation request; an error is its debug text. -/
inductive NsmResponse where
  | attestation (document : Bytes)
  | error (err : String)
  | other

/-- The NSM driver as one call finds it. -/
structure NsmDriver where
  /-- `nsm_init`: a file descriptor, negative on failure. -/
  init : Int32
  /-- `nsm_process_request` of an attestation request with user data, nonce and public key. -/
  processRequest : Option Bytes → Option Bytes → Option Bytes → NsmResponse

variable (env : Primitives) (lib : CertificateLibrary)

/-- `verify` of both providers, with the clock as it reads when the root is tried. -/
def acceptsDocument (clock : Bytes → SystemTime) (docBytes expectedRoot : Bytes) :
    Except AttestationError Bool :=
  match verifyAttestationDoc env lib docBytes expectedRoot (clock expectedRoot) with
  | .ok _ => .ok true
  | .error _ => .ok false

/-- `NitroAttestationProvider`. -/
def nitroAttestationProvider (nsm : NsmDriver) (clock : Bytes → SystemTime) :
    AttestationProvider where
  name := "aws-nitro"
  isHardwareBacked := true
  generate userData nonce publicKey :=
    if nsm.init < 0 then .error (.hardwareUnavailable "Failed to open /dev/nsm driver")
    else
      match nsm.processRequest userData nonce publicKey with
      | .attestation document => .ok document
      | .error err => .error (.validationError ("NSM process request failed: " ++ err))
      | .other => .error (.validationError "Unexpected response type from NSM")
  verify := acceptsDocument env lib clock

/-- `OfflineNitroProvider`. -/
def offlineNitroProvider (clock : Bytes → SystemTime) : AttestationProvider where
  name := "offline-nitro"
  isHardwareBacked := true
  generate _ _ _ :=
    .error (.hardwareUnavailable "the WASM verifier cannot generate attestations")
  verify := acceptsDocument env lib clock

variable {env lib}

theorem acceptsDocument_eq_true {clock : Bytes → SystemTime} {docBytes expectedRoot : Bytes} :
    acceptsDocument env lib clock docBytes expectedRoot = .ok true ↔
      ∃ doc, verifyAttestationDoc env lib docBytes expectedRoot (clock expectedRoot) = .ok doc := by
  unfold acceptsDocument
  split
  next doc h => simp [h]
  next e h => simp [h]

/-- The document that is accepted is the one that the attestation carries. -/
theorem attestationParses_of_accepted {claims : VeriClaims} {root : Bytes} {now : SystemTime}
    {doc : AttestationDoc}
    (h : verifyAttestationDoc env lib claims.attestationReport root now = .ok doc) :
    Verifier.AttestationParses env claims doc := by
  simp only [verifyAttestationDoc, bind_eq_ok, parseAttestationCose_eq_ok, okOr_eq_ok,
    mapError_eq_ok, refuseIf_eq_ok] at h
  obtain ⟨cose, ⟨hparse, -⟩, payload, hpayload, doc', hdoc, leaf, -, -, -, -, -, walked, -, reached,
    -, -, -, heq⟩ := h
  obtain rfl := Except.ok.inj heq
  exact ⟨cose, payload, hparse, hpayload, hdoc⟩

variable (env lib) in
/-- The attestation that the receipt carries is accepted by `verify_attestation_doc` against one
of these roots. -/
def AcceptedAgainst (roots : Bytes → Prop) (receiptBytes : Bytes) : Prop :=
  ∃ claims doc root now, ReceiptContent env receiptBytes claims doc ∧ roots root ∧
    verifyAttestationDoc env lib claims.attestationReport root now = .ok doc

theorem AcceptedAgainst.mono {roots roots' : Bytes → Prop} {receiptBytes : Bytes}
    (hroots : ∀ root, roots root → roots' root) (h : AcceptedAgainst env lib roots receiptBytes) :
    AcceptedAgainst env lib roots' receiptBytes := by
  obtain ⟨claims, doc, root, now, hcontent, hroot, haccepted⟩ := h
  exact ⟨claims, doc, root, now, hcontent, hroots root hroot, haccepted⟩

/-- The SHA-256 fingerprint of the root is one of `AWS_NITRO_ROOT_FINGERPRINTS`. -/
def Approved (codec : PemCodec) (root : Bytes) : Prop :=
  codec.sha256 root ∈ awsNitroRootFingerprints

/-- The root is a certificate that `Verifier::from_pem` loads from the text. -/
def LoadedFrom (codec : PemCodec) (pem : String) (root : Bytes) : Prop :=
  ∃ s, loadingScan codec pem = .ok s ∧ root ∈ s.trustedRoots

/-- The provider accepts an attestation by `verify_attestation_doc` only. -/
def VerifiesDocuments (env : Primitives) (lib : CertificateLibrary)
    (provider : AttestationProvider) : Prop :=
  ∀ report root, provider.verify report root = .ok true →
    ∃ now doc, verifyAttestationDoc env lib report root now = .ok doc

theorem nitroAttestationProvider_verifiesDocuments (nsm : NsmDriver) (clock : Bytes → SystemTime) :
    VerifiesDocuments env lib (nitroAttestationProvider env lib nsm clock) :=
  fun _ root h => ⟨clock root, acceptsDocument_eq_true.mp h⟩

theorem offlineNitroProvider_verifiesDocuments (clock : Bytes → SystemTime) :
    VerifiesDocuments env lib (offlineNitroProvider env lib clock) :=
  fun _ root h => ⟨clock root, acceptsDocument_eq_true.mp h⟩

section Verifier

variable {v : Verifier} {now : SystemTime} {receiptBytes : Bytes} {expected : Expected}

/-- A receipt that passes the inspection under such a provider was accepted against a root of
the verifier. -/
theorem Verifier.Inspected.acceptedAgainst {cose : CoseSign1} {claims : VeriClaims}
    {doc : AttestationDoc} (h : Inspected env v now receiptBytes expected cose claims doc)
    (hprovider : VerifiesDocuments env lib v.provider) :
    AcceptedAgainst env lib (· ∈ v.trustedRoots) receiptBytes := by
  obtain ⟨root, hroot, hverify⟩ := h.chain
  obtain ⟨clock, doc', haccepted⟩ := hprovider _ _ hverify
  obtain ⟨payload, hpayload, hclaims⟩ := h.claimsDecode
  have hcontent : ReceiptContent env receiptBytes claims doc' :=
    ⟨cose, payload, h.receiptParses, hpayload, hclaims, attestationParses_of_accepted haccepted⟩
  exact ⟨claims, doc', root, clock, hcontent, hroot, haccepted⟩

/-- Hardware is verified against a root of the verifier. -/
theorem Verifier.acceptedAgainst_of_verifiedHardware {state : Option ReplayMutex}
    {result : VerificationResult} (hprovider : VerifiesDocuments env lib v.provider)
    (h : (v.verify env now receiptBytes expected state).1 = .ok result)
    (hhardware : result.verifiedHardware = true) :
    AcceptedAgainst env lib (· ∈ v.trustedRoots) receiptBytes := by
  obtain ⟨cose, claims, doc, hinspected⟩ := inspected_of_verifiedHardware h hhardware
  exact hinspected.acceptedAgainst hprovider

end Verifier

section FromPem

variable {codec : PemCodec} {provider : AttestationProvider} {pem : String} {stateful : Bool}
  {v : Verifier} {replay : Option ReplayMutex}

/-- The verifier trusts what it has loaded from the text, under the provider it was given. -/
theorem Verifier.fromPem_eq_ok (h : fromPem codec provider pem stateful = .ok (v, replay)) :
    v.provider = provider ∧ ∀ root ∈ v.trustedRoots, LoadedFrom codec pem root := by
  simp only [fromPem, fromPemWithConfig, bind_eq_ok] at h
  obtain ⟨s, hscan, -, -, heq⟩ := h
  obtain ⟨rfl, -⟩ := Prod.mk.inj (Except.ok.inj heq)
  exact ⟨rfl, fun root hroot => ⟨s, hscan, hroot⟩⟩

/-- Where the text is pinned to the AWS roots, the verifier trusts approved roots only. -/
theorem Verifier.fromPem_approved (hpinned : validateAwsNitroRootPem codec pem = .ok ())
    (h : fromPem codec provider pem stateful = .ok (v, replay)) :
    ∀ root ∈ v.trustedRoots, Approved codec root := by
  obtain ⟨v', state, s, hfrom, -, -, -, happroved⟩ :=
    fromPem_of_validateRootPem hpinned provider stateful {}
  obtain ⟨rfl, -⟩ := Prod.mk.inj (Except.ok.inj (h.symm.trans hfrom))
  exact happroved

variable (env lib) in
/-- The attestation is accepted against a certificate of the text, an approved one where the text
is pinned to the AWS roots. -/
structure AcceptedFrom (codec : PemCodec) (pem : String) (receiptBytes : Bytes) : Prop where
  loaded : AcceptedAgainst env lib (LoadedFrom codec pem) receiptBytes
  pinned : validateAwsNitroRootPem codec pem = .ok () →
    AcceptedAgainst env lib (Approved codec) receiptBytes

/-- Hardware is verified against a certificate of the text that the verifier is made from. -/
theorem Verifier.acceptedFrom_of_verifiedHardware {now : SystemTime} {receiptBytes : Bytes}
    {expected : Expected} {state : Option ReplayMutex} {result : VerificationResult}
    (hfrom : fromPem codec provider pem stateful = .ok (v, replay))
    (hprovider : VerifiesDocuments env lib provider)
    (h : (v.verify env now receiptBytes expected state).1 = .ok result)
    (hhardware : result.verifiedHardware = true) :
    AcceptedFrom env lib codec pem receiptBytes := by
  obtain ⟨rfl, hloaded⟩ := fromPem_eq_ok hfrom
  have haccepted := acceptedAgainst_of_verifiedHardware hprovider h hhardware
  exact ⟨haccepted.mono hloaded, fun hpinned => haccepted.mono (fromPem_approved hpinned hfrom)⟩

end FromPem

end Veriai
