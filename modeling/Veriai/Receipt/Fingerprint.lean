import Veriai.Receipt.Acceptance
import Veriai.Receipt.Transparent

/-!
# Which identities share a fingerprint

`compute_identity_fingerprint` hashes its fields one after another, without
lengths or tags, and the certificate list inside a hash of its own. Two
documents share a fingerprint, unless SHA-256 collides, exactly when the fields
behind PCR0 run together to the same bytes and so do their certificates.
-/

namespace Veriai

section Identity

variable {env : Primitives} {doc doc' : AttestationDoc}

/-- A register as it is hashed: an absent one counts as empty. -/
def AttestationDoc.pcrBytes (doc : AttestationDoc) (index : UInt32) : Bytes :=
  (doc.pcrs.lookup index).getD []

/-- The fields between PCR0 and the certificates, run together. -/
def AttestationDoc.moduleBytes (doc : AttestationDoc) : Bytes :=
  doc.pcrBytes 3 ++ doc.pcrBytes 4 ++ utf8Bytes doc.moduleId

/-- The certificate and its bundle, run together. -/
def AttestationDoc.certBytes (doc : AttestationDoc) : Bytes :=
  doc.certificate ++ doc.cabundle.flatten

/-- The string the fingerprint is the hash of. -/
def identityBytes (env : Primitives) (doc : AttestationDoc) : Bytes :=
  doc.pcrBytes 0 ++ (doc.moduleBytes ++ (env.sha256 doc.certBytes).toList)

/-- The two strings hashed for a document. -/
def fingerprintInputs (env : Primitives) (doc : AttestationDoc) : List Bytes :=
  [doc.certBytes, identityBytes env doc]

/-- Two different strings, one hashed for each document, have one SHA-256 value. -/
def FingerprintCollision (env : Primitives) (doc doc' : AttestationDoc) : Prop :=
  ∃ s ∈ fingerprintInputs env doc, ∃ s' ∈ fingerprintInputs env doc',
    s ≠ s' ∧ env.sha256 s = env.sha256 s'

instance (env : Primitives) (doc doc' : AttestationDoc) :
    Decidable (FingerprintCollision env doc doc') :=
  inferInstanceAs (Decidable (∃ s ∈ fingerprintInputs env doc, ∃ s' ∈ fingerprintInputs env doc',
    s ≠ s' ∧ env.sha256 s = env.sha256 s'))

/-- The document carries a PCR0 of the only length the PCR0 check accepts. -/
def HasPcr0 (doc : AttestationDoc) : Prop := ∃ p, doc.pcrs.lookup 0 = some p ∧ p.length = 48

theorem HasPcr0.length (h : HasPcr0 doc) : (doc.pcrBytes 0).length = 48 := by
  obtain ⟨p, hp, hlen⟩ := h
  rw [AttestationDoc.pcrBytes, hp]
  exact hlen

/-- Two PCR0 of that length are equal when their bytes are. -/
theorem HasPcr0.lookup_eq_iff (h : HasPcr0 doc) (h' : HasPcr0 doc') :
    doc.pcrs.lookup 0 = doc'.pcrs.lookup 0 ↔ doc.pcrBytes 0 = doc'.pcrBytes 0 := by
  obtain ⟨p, hp, _⟩ := h
  obtain ⟨p', hp', _⟩ := h'
  simp only [AttestationDoc.pcrBytes, hp, hp', Option.some.injEq, Option.getD_some]

/-- The inspection admits no other documents. -/
theorem Verifier.Inspected.hasPcr0 {v : Verifier} {now : SystemTime} {receiptBytes : Bytes}
    {expected : Expected} {cose : CoseSign1} {claims : VeriClaims}
    (h : Inspected env v now receiptBytes expected cose claims doc) : HasPcr0 doc :=
  ⟨expected.pcr0, h.pcr0, h.pcr0Size⟩

theorem computeIdentityFingerprint_eq :
    computeIdentityFingerprint env doc = env.sha256 (identityBytes env doc) := by
  simp only [computeIdentityFingerprint, identityBytes, AttestationDoc.moduleBytes,
    AttestationDoc.pcrBytes, AttestationDoc.certBytes, List.append_assoc]

/-- What two documents of one fingerprint share. -/
structure SameIdentityBytes (doc doc' : AttestationDoc) : Prop where
  pcr0 : doc.pcrs.lookup 0 = doc'.pcrs.lookup 0
  moduleBytes : doc.moduleBytes = doc'.moduleBytes
  certBytes : doc.certBytes = doc'.certBytes

/-- PCR0 and the certificate hash have fixed lengths at the two ends of the hashed string, so
nothing moves across them. -/
theorem identityBytes_eq_iff (h : HasPcr0 doc) (h' : HasPcr0 doc') :
    identityBytes env doc = identityBytes env doc' ↔
      doc.pcrs.lookup 0 = doc'.pcrs.lookup 0 ∧ doc.moduleBytes = doc'.moduleBytes ∧
        env.sha256 doc.certBytes = env.sha256 doc'.certBytes := by
  have hpcr0 : (doc.pcrBytes 0).length = (doc'.pcrBytes 0).length := h.length.trans h'.length.symm
  have hhash : (env.sha256 doc.certBytes).toList.length =
      (env.sha256 doc'.certBytes).toList.length := by
    rw [List.Vector.toList_length, List.Vector.toList_length]
  rw [h.lookup_eq_iff h']
  constructor
  · intro heq
    obtain ⟨hfirst, hrest⟩ := List.append_inj heq hpcr0
    obtain ⟨hmodule, hcert⟩ := List.append_inj' hrest hhash
    exact ⟨hfirst, hmodule, ByteArr.toList_inj hcert⟩
  · rintro ⟨hfirst, hmodule, hcert⟩
    rw [identityBytes, identityBytes, hfirst, hmodule, hcert]

/-- Where SHA-256 does not collide on what is hashed for them, two documents that pass the PCR0
check share a fingerprint exactly when they have one PCR0, the same bytes of PCR3, PCR4 and module
id run together, and the same bytes of certificate and bundle run together. -/
theorem computeIdentityFingerprint_eq_iff (env : Primitives) (doc doc' : AttestationDoc)
    (h : HasPcr0 doc) (h' : HasPcr0 doc') (hno : ¬ FingerprintCollision env doc doc') :
    computeIdentityFingerprint env doc = computeIdentityFingerprint env doc' ↔
      SameIdentityBytes doc doc' := by
  have hinj : ∀ s ∈ fingerprintInputs env doc, ∀ s' ∈ fingerprintInputs env doc',
      env.sha256 s = env.sha256 s' → s = s' := by
    intro s hs s' hs' heq
    by_contra hne
    exact hno ⟨s, hs, s', hs', hne, heq⟩
  rw [computeIdentityFingerprint_eq, computeIdentityFingerprint_eq]
  constructor
  · intro heq
    have houter := hinj _ (by simp [fingerprintInputs]) _ (by simp [fingerprintInputs]) heq
    obtain ⟨hpcr0, hmodule, hhash⟩ := (identityBytes_eq_iff h h').mp houter
    have hcert := hinj _ (by simp [fingerprintInputs]) _ (by simp [fingerprintInputs]) hhash
    exact ⟨hpcr0, hmodule, hcert⟩
  · rintro ⟨hpcr0, hmodule, hcert⟩
    rw [(identityBytes_eq_iff h h').mpr ⟨hpcr0, hmodule, congrArg env.sha256 hcert⟩]

end Identity

namespace Transparent

/-- Record a register that is there. -/
def measure (index : UInt32) (value : Option Bytes) (pcrs : Finmap fun _ : UInt32 => Bytes) :
    Finmap fun _ : UInt32 => Bytes :=
  match value with
  | some p => pcrs.insert index p
  | none => pcrs

/-- A document with these identity fields; PCR0 is zero. -/
def identityDoc (pcr3 pcr4 : Option Bytes) (moduleId : String) (certificate : Bytes)
    (cabundle : List Bytes) : AttestationDoc where
  __ := doc 0
  moduleId := moduleId
  pcrs := measure 4 pcr4 (measure 3 pcr3 (measure 0 (some (List.replicate 48 0)) ∅))
  certificate := certificate
  cabundle := cabundle

/-- SHA-256 replaced by a polynomial hash that tells the strings below apart. -/
def rolling : Primitives where
  __ := primitives
  sha256 s := fill 32 (s.foldl (fun h b => 31 * h + b + 1) 0)

theorem hasPcr0_identityDoc (pcr3 pcr4 : Option Bytes) (moduleId : String) (certificate : Bytes)
    (cabundle : List Bytes) : HasPcr0 (identityDoc pcr3 pcr4 moduleId certificate cabundle) := by
  refine ⟨List.replicate 48 0, ?_, List.length_replicate⟩
  cases pcr3 <;> cases pcr4 <;> rfl

/-- Two module names are told apart. -/
theorem computeIdentityFingerprint_eq_iff_modules :
    computeIdentityFingerprint rolling (identityDoc none none "a" [1] []) ≠
      computeIdentityFingerprint rolling (identityDoc none none "b" [1] []) := by
  have hno : ¬ FingerprintCollision rolling (identityDoc none none "a" [1] [])
      (identityDoc none none "b" [1] []) := by
    decide +kernel
  intro heq
  have hsame := (computeIdentityFingerprint_eq_iff rolling _ _ (hasPcr0_identityDoc ..)
    (hasPcr0_identityDoc ..) hno).mp heq
  exact absurd hsame.moduleBytes (by decide +kernel)

/-- Whatever SHA-256 is, one fingerprint stands for documents that measure a register under another
index, or have an empty register for an absent one, or cut the module id or the certificate list
elsewhere. -/
theorem computeIdentityFingerprint_shared :
    ((∀ env, computeIdentityFingerprint env
          (identityDoc (some (List.replicate 48 7)) none "m" [1] [[2]]) =
        computeIdentityFingerprint env
          (identityDoc none (some (List.replicate 48 7)) "m" [1] [[2]])) ∧
      (identityDoc (some (List.replicate 48 7)) none "m" [1] [[2]]).pcrs.lookup 3 ≠
        (identityDoc none (some (List.replicate 48 7)) "m" [1] [[2]]).pcrs.lookup 3) ∧
    ((∀ env, computeIdentityFingerprint env (identityDoc (some []) none "m" [1] [[2]]) =
        computeIdentityFingerprint env (identityDoc none none "m" [1] [[2]])) ∧
      (identityDoc (some []) none "m" [1] [[2]]).pcrs.lookup 3 ≠
        (identityDoc none none "m" [1] [[2]]).pcrs.lookup 3) ∧
    ((∀ env, computeIdentityFingerprint env (identityDoc none (some [109]) "m" [1] [[2]]) =
        computeIdentityFingerprint env (identityDoc none none "mm" [1] [[2]])) ∧
      (identityDoc none (some [109]) "m" [1] [[2]]).moduleId ≠
        (identityDoc none none "mm" [1] [[2]]).moduleId) ∧
    ((∀ env, computeIdentityFingerprint env (identityDoc none none "m" [1] [[2], [3]]) =
        computeIdentityFingerprint env (identityDoc none none "m" [1] [[2, 3]])) ∧
      (identityDoc none none "m" [1] [[2], [3]]).cabundle ≠
        (identityDoc none none "m" [1] [[2, 3]]).cabundle) := by
  refine ⟨⟨fun _ => rfl, by decide⟩, ⟨fun _ => rfl, by decide⟩, ⟨?_, by decide⟩,
    ⟨fun _ => rfl, by decide⟩⟩
  intro env
  rw [computeIdentityFingerprint_eq, computeIdentityFingerprint_eq]
  rfl

end Transparent

end Veriai
