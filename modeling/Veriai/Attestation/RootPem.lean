import Veriai.Core.Loops
import Veriai.Core.Text
import Veriai.Receipt.Transparent
import Veriai.Receipt.Verify

/-!
# Root certificates in PEM text

Two parsers read the text a verifier's roots come from. One checks that every
certificate is approved and refuses anything unexpected, the other loads the
certificates and passes over what it does not expect. On a text that the first
accepts the second loads exactly the certificates the first has checked.
-/

namespace Veriai

/-- What the parsers take from `base64ct` and `sha2`; an error is its display text. -/
structure PemCodec where
  base64Decode : String → Except String Bytes
  sha256 : Bytes → ByteArr 32

variable (codec : PemCodec)

/-- `str::lines`, the current line in reverse: a carriage return before a line feed is dropped. -/
def linesFrom (line : List Char) : List Char → List (List Char)
  | [] => if line = [] then [] else [line.reverse]
  | '\n' :: rest =>
    (match line with
      | '\r' :: line' => line'.reverse
      | _ => line.reverse) :: linesFrom [] rest
  | c :: rest => linesFrom (c :: line) rest

/-- The trimmed lines of a text. -/
def trimmedLines (pem : String) : List (List Char) := (linesFrom [] pem.toList).map trim

def beginCertificate : List Char := "-----BEGIN CERTIFICATE-----".toList

def endCertificate : List Char := "-----END CERTIFICATE-----".toList

/-- The variables of `validate_root_pem_with_allowlist`. The list records the certificates
whose number the code counts. -/
structure PinningState where
  encoded : List Char := []
  inCert : Bool := false
  count : Nat := 0
  checked : List Bytes := []

/-- One line. -/
def PinningState.line (allowlist : List (ByteArr 32)) (s : PinningState) (line : List Char) :
    Except String PinningState :=
  if line = beginCertificate ∧ s.inCert = false then
    .ok { s with inCert := true, encoded := [] }
  else if line = endCertificate ∧ s.inCert = true then do
    let der ← (codec.base64Decode (String.ofList s.encoded)).mapError
      ("invalid trusted root PEM: " ++ ·)
    refuseIf (codec.sha256 der ∉ allowlist)
      ("trusted root fingerprint is not allowlisted: " ++ hexEncode (codec.sha256 der).toList)
    return { s with count := s.count + 1, checked := s.checked ++ [der], inCert := false }
  else if s.inCert = true ∧ ¬ "-----".toList <+: line then
    .ok { s with encoded := s.encoded ++ line }
  else .error "malformed or unexpected data in trusted root PEM"

/-- The loop of `validate_root_pem_with_allowlist`. -/
def pinningScan (pem : String) (allowlist : List (ByteArr 32)) : Except String PinningState :=
  ((trimmedLines pem).filter (· ≠ [])).foldlM (PinningState.line codec allowlist) {}

/-- `validate_root_pem_with_allowlist`. -/
def validateRootPemWithAllowlist (pem : String) (allowlist : List (ByteArr 32)) :
    Except String Unit := do
  let s ← pinningScan codec pem allowlist
  refuseIf (s.inCert = true ∨ s.count = 0) "trusted root PEM contains no complete certificates"

/-- `AWS_NITRO_ROOT_FINGERPRINTS`. -/
def awsNitroRootFingerprints : List (ByteArr 32) :=
  [⟨[0x64, 0x1a, 0x03, 0x21, 0xa3, 0xe2, 0x44, 0xef, 0xe4, 0x56, 0x46, 0x31, 0x95, 0xd6, 0x06, 0x31,
    0x7e, 0xd7, 0xcd, 0xcc, 0x3c, 0x17, 0x56, 0xe0, 0x98, 0x93, 0xf3, 0xc6, 0x8f, 0x79, 0xbb, 0x5b],
    rfl⟩]

/-- `validate_aws_nitro_root_pem`. -/
def validateAwsNitroRootPem (pem : String) : Except String Unit :=
  validateRootPemWithAllowlist codec pem awsNitroRootFingerprints

/-- The variables of `Verifier::from_pem_with_config`. -/
structure LoadingState where
  trustedRoots : List Bytes := []
  base64Str : List Char := []
  inCert : Bool := false

/-- One line. -/
def LoadingState.line (s : LoadingState) (line : List Char) : Except String LoadingState :=
  if line = beginCertificate then .ok { s with inCert := true, base64Str := [] }
  else if line = endCertificate then
    if s.inCert = true then do
      let der ← (codec.base64Decode (String.ofList s.base64Str)).mapError
        ("Failed to decode base64 certificate: " ++ ·)
      return { s with trustedRoots := s.trustedRoots ++ [der], inCert := false }
    else .ok s
  else if s.inCert = true then .ok { s with base64Str := s.base64Str ++ line }
  else .ok s

/-- The loop of `Verifier::from_pem_with_config`. -/
def loadingScan (pem : String) : Except String LoadingState :=
  (trimmedLines pem).foldlM (LoadingState.line codec) {}

/-- `Verifier::new_with_config`: the verifier and its replay state. -/
def Verifier.newWithConfig (provider : AttestationProvider) (trustedRoots : List Bytes)
    (stateful : Bool) (config : VerifierConfig) : Verifier × Option ReplayMutex :=
  ({ provider, trustedRoots, config }, if stateful then some (.new ∅) else none)

/-- `Verifier::from_pem_with_config`. -/
def Verifier.fromPemWithConfig (provider : AttestationProvider) (pem : String) (stateful : Bool)
    (config : VerifierConfig) : Except String (Verifier × Option ReplayMutex) := do
  let s ← loadingScan codec pem
  refuseIf (s.trustedRoots = []) "No certificates found in PEM"
  return newWithConfig provider s.trustedRoots stateful config

/-- `Verifier::from_pem`. -/
def Verifier.fromPem (provider : AttestationProvider) (pem : String) (stateful : Bool) :
    Except String (Verifier × Option ReplayMutex) :=
  fromPemWithConfig codec provider pem stateful {}

variable {codec}

/-- Every certificate checked so far is counted and approved. -/
structure PinningState.Approved (codec : PemCodec) (allowlist : List (ByteArr 32))
    (s : PinningState) : Prop where
  count : s.count = s.checked.length
  approved : ∀ der ∈ s.checked, codec.sha256 der ∈ allowlist

theorem PinningState.line_approved {allowlist : List (ByteArr 32)} {s s' : PinningState}
    {line : List Char} (h : s.Approved codec allowlist)
    (hline : s.line codec allowlist line = .ok s') : s'.Approved codec allowlist := by
  unfold PinningState.line at hline
  split at hline
  · obtain rfl := Except.ok.inj hline
    exact ⟨h.count, h.approved⟩
  · split at hline
    · simp only [bind_eq_ok, mapError_eq_ok, refuseIf_eq_ok, not_not] at hline
      obtain ⟨der, _, _, hfingerprint, hs'⟩ := hline
      obtain rfl := Except.ok.inj hs'
      refine ⟨?_, ?_⟩
      · simp [h.count]
      · intro d hd
        rcases List.mem_append.mp hd with hd | hd
        · exact h.approved d hd
        · obtain rfl := List.mem_singleton.mp hd
          exact hfingerprint
    · split at hline
      · obtain rfl := Except.ok.inj hline
        exact ⟨h.count, h.approved⟩
      · cases hline

/-- The loading parser has loaded what the pinning parser has checked. -/
structure InStep (s : PinningState) (t : LoadingState) : Prop where
  inCert : s.inCert = t.inCert
  text : s.encoded = t.base64Str
  roots : s.checked = t.trustedRoots

/-- A line that the pinning parser lets pass keeps the parsers in step. -/
theorem PinningState.line_inStep {allowlist : List (ByteArr 32)} {s s' : PinningState}
    {t : LoadingState} {line : List Char} (h : InStep s t)
    (hline : s.line codec allowlist line = .ok s') :
    ∃ t', t.line codec line = .ok t' ∧ InStep s' t' := by
  unfold PinningState.line at hline
  unfold LoadingState.line
  by_cases hbegin : line = beginCertificate
  · rw [if_pos hbegin]
    by_cases hin : s.inCert = false
    · rw [if_pos ⟨hbegin, hin⟩] at hline
      obtain rfl := Except.ok.inj hline
      exact ⟨_, rfl, rfl, rfl, h.roots⟩
    · -- a second BEGIN line is refused: it is no END line and starts with dashes
      have hend : ¬ (line = endCertificate ∧ s.inCert = true) := by
        rintro ⟨he, _⟩
        exact absurd (hbegin.symm.trans he) (by decide)
      have hdashes : ¬ (s.inCert = true ∧ ¬ "-----".toList <+: line) := by
        rintro ⟨_, hno⟩
        rw [hbegin] at hno
        exact hno (by decide)
      rw [if_neg (fun hb => hin hb.2), if_neg hend, if_neg hdashes] at hline
      cases hline
  · rw [if_neg (fun hb => hbegin hb.1)] at hline
    rw [if_neg hbegin]
    by_cases hend : line = endCertificate
    · rw [if_pos hend]
      by_cases hin : s.inCert = true
      · rw [if_pos ⟨hend, hin⟩] at hline
        rw [if_pos (h.inCert ▸ hin), ← h.text]
        simp only [bind_eq_ok, mapError_eq_ok] at hline ⊢
        obtain ⟨der, hder, _, _, hs'⟩ := hline
        obtain rfl := Except.ok.inj hs'
        exact ⟨_, ⟨der, hder, rfl⟩, rfl, rfl, by rw [h.roots]⟩
      · have hdashes : ¬ (s.inCert = true ∧ ¬ "-----".toList <+: line) := fun hd => hin hd.1
        rw [if_neg (fun he => hin he.2), if_neg hdashes] at hline
        cases hline
    · rw [if_neg (fun he => hend he.1)] at hline
      rw [if_neg hend]
      by_cases hin : s.inCert = true
      · rw [if_pos (h.inCert ▸ hin)]
        split at hline
        · obtain rfl := Except.ok.inj hline
          exact ⟨_, rfl, h.inCert, by rw [← h.text], h.roots⟩
        · cases hline
      · rw [if_neg (fun hd => hin hd.1)] at hline
        cases hline

/-- An empty line changes nothing for the loading parser. -/
theorem LoadingState.line_empty (t : LoadingState) : t.line codec [] = .ok t := by
  have hbegin : [] ≠ beginCertificate := by decide
  have hend : [] ≠ endCertificate := by decide
  rw [LoadingState.line, if_neg hbegin, if_neg hend]
  split
  · rw [List.append_nil]
  · rfl

/-- On a text that the pinning parser accepts, the verifier trusts exactly the certificates it
has checked, at least one, all of them approved. -/
theorem fromPem_of_validateRootPem {pem : String} {allowlist : List (ByteArr 32)}
    (h : validateRootPemWithAllowlist codec pem allowlist = .ok ())
    (provider : AttestationProvider) (stateful : Bool) (config : VerifierConfig) :
    ∃ v state s, Verifier.fromPemWithConfig codec provider pem stateful config = .ok (v, state) ∧
      pinningScan codec pem allowlist = .ok s ∧ v.trustedRoots = s.checked ∧
      v.trustedRoots ≠ [] ∧ ∀ root ∈ v.trustedRoots, codec.sha256 root ∈ allowlist := by
  simp only [validateRootPemWithAllowlist, bind_eq_ok, refuseIf_eq_ok, not_or] at h
  obtain ⟨s, hscan, _, hcount⟩ := h
  have happroved : s.Approved codec allowlist :=
    foldlM_invariant (fun _ _ _ hs hline => PinningState.line_approved hs hline)
      ⟨rfl, by simp⟩ hscan
  have hscan' := hscan
  rw [pinningScan, foldlM_filter] at hscan'
  obtain ⟨t, hload, hstep⟩ := foldlM_simulates (R := InStep) (g := LoadingState.line codec)
    (t := {}) (by
      intro s t line s' hst hline
      by_cases hempty : line = []
      · subst hempty
        obtain rfl : s = s' := by simpa using hline
        exact ⟨t, t.line_empty, hst⟩
      · rw [if_pos (by simpa using hempty)] at hline
        exact PinningState.line_inStep hst hline) ⟨rfl, rfl, rfl⟩ hscan'
  have hne : t.trustedRoots ≠ [] := by
    rw [← hstep.roots]
    intro hnil
    rw [happroved.count, hnil] at hcount
    exact hcount rfl
  have hfrom : Verifier.fromPemWithConfig codec provider pem stateful config =
      .ok (Verifier.newWithConfig provider t.trustedRoots stateful config) := by
    simp only [Verifier.fromPemWithConfig, bind_eq_ok, refuseIf_eq_ok]
    exact ⟨t, hload, (), hne, rfl⟩
  refine ⟨_, _, s, hfrom, hscan, hstep.roots.symm, hne, ?_⟩
  intro root hroot
  exact happroved.approved root (hstep.roots ▸ hroot)

namespace Transparent

/-- Base64 text that is its own bytes, every one of which has the approved fingerprint. -/
def pemCodec : PemCodec where
  base64Decode text := .ok (utf8Bytes text)
  sha256 _ := List.Vector.replicate 32 1

/-- Two certificates of one line each, with a blank line between them. -/
def bundle : String :=
  "-----BEGIN CERTIFICATE-----\nAA\n-----END CERTIFICATE-----\r\n\n" ++
    "-----BEGIN CERTIFICATE-----\nBB\n-----END CERTIFICATE-----\n"

/-- Both certificates of the bundle are loaded. -/
theorem fromPem_of_validateRootPem_bundle :
    ∃ v state s, Verifier.fromPemWithConfig pemCodec provider bundle true {} = .ok (v, state) ∧
      pinningScan pemCodec bundle [List.Vector.replicate 32 1] = .ok s ∧
      v.trustedRoots = s.checked ∧ v.trustedRoots ≠ [] ∧
      ∀ root ∈ v.trustedRoots, pemCodec.sha256 root ∈ [List.Vector.replicate 32 1] :=
  fromPem_of_validateRootPem (by decide +kernel) provider true {}

end Transparent

end Veriai
