import Veriai.Chat.Startup
import Veriai.Clients.Cli
import Veriai.Clients.Wasm
import Veriai.Hashing.Identity
import Veriai.Service.Transparent

/-!
# What verified hardware rests on

The four ways to verify a receipt side by side. The service and the chat demo
pin their roots before they use them; the command line and the browser trust
what their caller names.
-/

namespace Veriai

open Machine

/-- With real hardware, a result that verifies hardware rests on an approved root in the service
and in the chat demo, whatever text they are configured with. In the command line and in the
browser it rests on a certificate of the text that the caller names, and on an approved root if
that text is pinned. -/
theorem verifiedHardware_restsOn {Text : Type} (formats : Service.Formats Text) (env : Primitives)
    (lib : CertificateLibrary) (codec : PemCodec) (displayHexError : FromHexError → String) :
    (∀ environment provider path state replay,
      Service.start codec displayHexError environment provider path = .ok (state, replay) →
        ∀ pid payload result, Returns (Service.RealHardware env lib)
          (Service.verifyHandler formats env state pid payload).run (.ok result) →
        result.verifiedHardware = true → ∃ receiptBytes,
          Service.decodeReceipt formats payload.receipt = .ok receiptBytes ∧
            AcceptedAgainst env lib (Approved codec) receiptBytes) ∧
    (∀ surroundings provider app replay,
      Chat.buildState codec env surroundings provider = .ok (app, replay) →
        ∀ nsm clock now state work receiptBytes finished response result,
          Chat.verifyInline env app (nitroAttestationProvider env lib nsm clock) now state work
            receiptBytes finished = .ok response →
          response.verification = some result → result.verifiedHardware = true →
            AcceptedAgainst env lib (Approved codec) receiptBytes) ∧
    (∀ surroundings nsm clock now args outcome,
      Cli.verify codec env surroundings (nitroAttestationProvider env lib nsm clock) now args =
          .ok outcome →
        outcome.result.verifiedHardware = true → ∃ receiptBytes pem,
          surroundings.read args.receipt = .ok receiptBytes ∧
            surroundings.readToString args.rootCert = .ok pem ∧
            AcceptedFrom env lib codec pem receiptBytes) ∧
    ∀ clock now request result,
      Wasm.verify codec displayHexError env lib clock now request = .ok result →
        result.verifiedHardware = true → ∃ receiptBytes,
          Wasm.decodeReceipt codec request.receipt = .ok receiptBytes ∧
            AcceptedFrom env lib codec request.trustedRootPem receiptBytes := by
  refine ⟨?service, ?chat, ?cli, ?wasm⟩
  case service =>
    intro environment provider path state replay hstart pid payload result hreturns hhardware
    obtain ⟨happroved, -⟩ := Service.start_eq_ok hstart
    obtain ⟨receiptBytes, hdecode, haccepted⟩ :=
      Service.verifyHandler_restsOn _ _ hreturns result rfl hhardware
    exact ⟨receiptBytes, hdecode, haccepted.mono happroved⟩
  case chat =>
    intro surroundings provider app replay hbuild nsm clock now state work receiptBytes finished
      response result hresponse hresult hhardware
    obtain ⟨v, hv, haccepted⟩ := Chat.verifyInline_restsOn
      (nitroAttestationProvider_verifiesDocuments nsm clock) hresponse hresult hhardware
    exact haccepted.mono (Chat.buildState_eq_ok hbuild hv)
  case cli =>
    intro surroundings nsm clock now args outcome h hhardware
    exact Cli.verify_acceptedFrom (nitroAttestationProvider_verifiesDocuments nsm clock) h hhardware
  case wasm =>
    intro clock now request result h hhardware
    exact Wasm.verify_acceptedFrom h hhardware

namespace Transparent

/-- Base64 text that is its own bytes, and the certificate `AA1` with the fingerprint of the AWS
root. -/
def rootCodec : PemCodec where
  base64Decode text := .ok (utf8Bytes text)
  sha256 der := if der = [65, 65, 1] then awsNitroRootFingerprints.headD (fill 32 1) else fill 32 1

/-- The document of key byte `key` whose leaf is issued by the root of subject `r`. -/
def rootedDoc (r key : UInt8) : AttestationDoc :=
  { doc key with certificate := [key, r, 0], cabundle := [[r, r, 1]] }

/-- The transparent primitives with those documents; a digest repeats the first byte. -/
def rootedPrimitives (r : UInt8) : Primitives :=
  { primitives with
    docFromBinary := fun
      | [key] => .ok (rootedDoc r key)
      | _ => .error "malformed"
    sha256 := fun bytes => fill 32 (bytes.headD 1) }

/-- The certificate `AA1` in PEM. -/
def awsPem : String := "-----BEGIN CERTIFICATE-----\nAA\x01\n-----END CERTIFICATE-----\n"

/-- A certificate of the caller's own. -/
def ownPem : String := "-----BEGIN CERTIFICATE-----\nBB\x01\n-----END CERTIFICATE-----\n"

def displayHexError (_ : FromHexError) : String := "invalid"

/-- The hardware of the machine considered. -/
def nsm : NsmDriver := ⟨-1, fun _ _ _ => .other⟩

/-- The provider at the epoch. -/
def nitro (r : UInt8) : AttestationProvider :=
  nitroAttestationProvider (rootedPrimitives r) certificateLibrary nsm fun _ => epoch

def wasmRequest (pem : String) : Wasm.VerifyRequest where
  receipt := hexEncode [1, 1, 7]
  modelHash := hexEncode (fill 32 1).toList
  inputHash := hexEncode (fill 32 2).toList
  outputHash := hexEncode (fill 32 3).toList
  nonce := hexEncode (fill 32 4).toList
  expectedPcr0 := hexEncode (List.replicate 48 0)
  trustedRootPem := pem

def cliArgs : Cli.VerifyArgs where
  receipt := "receipt"
  model := "model"
  inputFile := some "input"
  outputFile := none
  nonce := hexEncode (fill 32 4).toList
  expectedPcr0 := hexEncode (List.replicate 48 0)
  rootCert := "root"
  stateful := none

/-- The variables of both services: roots, PCR0 and the demo's inline verification. -/
def setVariables : String → Option String
  | "TRUSTED_ROOT_CERT_PEM" => some awsPem
  | "EXPECTED_PCR0" => some (hexEncode (List.replicate 48 0))
  | "VERIAI_RUNTIME" => some "mock"
  | "VERIAI_INLINE_VERIFY" => some "TRUE"
  | _ => none

def environment : Environment := ⟨setVariables, fun _ => .error "no file"⟩

def chatSurroundings : Chat.Surroundings where
  toEnvironment := environment
  openFile _ := .error "no file"
  fileStem _ := none
  displayParseIntError _ := "invalid digit"
  displayHexError := displayHexError
  toJson _ := .ok []
  base64Encode _ := ""

/-- What the service finds on its way: no state file, a challenge in time, and no failure. -/
def serviceResults : (o : Service.Op Service.MemberOrder) → Service.Res Service.MemberOrder o
  | .observe => (nitro 65, epoch)
  | .checkSequence v claims doc report =>
    (v.checkSequence (rootedPrimitives 65) claims doc report (some (.new ∅))).1
  | .readRecord _ => .ok "300\n"
  | .unixSeconds => .ok 0
  | .getState => .ok (some ∅)
  | .setState _ => .ok ()
  | .intoIter _ => ∅
  | .pathExists => false
  | .readState => .error "no file"
  | .nextTempFile => 0
  | .createRecord .. => .ok ()
  | .fillBytes => fill 32 4
  | .lockReplayGuard | .dropReplayGuard | .dropReplayLock => ()
  | .acquireReplayLock | .createTemporary _ | .setTemporaryPermissions _ | .writeTemporary ..
  | .syncTemporary _ | .renameTemporary _ | .syncParent | .removeTemporary _
  | .createChallengeDir | .setChallengeDirPermissions | .setRecordPermissions _ | .writeRecord ..
  | .syncRecord _ | .syncChallengeDir | .removeAvailable _ | .reserveRecord _ | .restoreRecord _
  | .consumeRecord _ => .ok ()

/-- The results are those of real hardware. -/
theorem serviceResults_realHardware (o : Service.Op Service.MemberOrder) :
    Service.RealHardware (rootedPrimitives 65) certificateLibrary o (serviceResults o) := by
  cases o with
  | observe => exact ⟨nsm, fun _ => epoch, rfl⟩
  | checkSequence v claims doc report => exact ⟨some (.new ∅), rfl⟩
  | _ => trivial

/-- A text of one of the two certificates. -/
theorem fromPem_rooted {r : UInt8} {pem : String}
    (h : r = 65 ∧ pem = awsPem ∨ r = 66 ∧ pem = ownPem) (provider : AttestationProvider)
    (stateful : Bool) :
    Verifier.fromPem rootCodec provider pem stateful =
      .ok (Verifier.newWithConfig provider [[r, r, 1]] stateful {}) := by
  have hscan : ((loadingScan rootCodec pem).toOption.map (·.trustedRoots)) = some [[r, r, 1]] := by
    rcases h with ⟨rfl, rfl⟩ | ⟨rfl, rfl⟩
    · rfl
    · rfl
  simp only [Option.map_eq_some_iff, toOption_eq_some] at hscan
  obtain ⟨s, hs, hroots⟩ := hscan
  rw [Verifier.fromPem, Verifier.fromPemWithConfig, hs, ← hroots]
  simp [bind_eq_ok, hroots, pure, Except.pure]

/-- The service that starts with these variables. -/
def rootedState : Service.AppState where
  expectedPcr0 := List.replicate 48 0
  verifier := (Verifier.newWithConfig (nitro 65) [[65, 65, 1]] true {}).1
  replayStatePath := some Service.Transparent.path
  requireIssuedChallenge := true

/-- The service starts with the root that its environment names. -/
theorem start_rooted : Service.start rootCodec displayHexError environment (nitro 65)
    (some Service.Transparent.path) = .ok (rootedState, some (.new ∅)) := by
  have hroot : (Service.loadTrustedRoot rootCodec environment).toOption = some awsPem := by
    rfl
  have hvalue : environment.var "EXPECTED_PCR0" = some (hexEncode (List.replicate 48 0)) := rfl
  have hpcr0 : Service.loadExpectedPcr0 displayHexError environment =
      .ok (List.replicate 48 0) := by
    simp only [Service.loadExpectedPcr0, hvalue, okOr, hexDecode_hexEncode, Except.mapError,
      ok_bind]
    rfl
  simp only [Service.start, toOption_eq_some.mp hroot, hpcr0, Except.mapError, ok_bind,
    fromPem_rooted (Or.inl ⟨rfl, rfl⟩)]
  rfl

/-- The service then verifies the receipt of real hardware. -/
theorem service_verifies : ∃ state replay result,
    Service.start rootCodec displayHexError environment (nitro 65)
      (some Service.Transparent.path) = .ok (state, replay) ∧
    Returns (Service.RealHardware (rootedPrimitives 65) certificateLibrary)
      (Service.verifyHandler Service.Transparent.formats (rootedPrimitives 65) state 0
        (Service.Transparent.payload 1)).run (.ok result) ∧ result.verifiedHardware = true := by
  have hdecode : Service.decodeRequest Service.Transparent.formats rootedState
      (Service.Transparent.payload 1) = .ok ([1, 1, 7], expected) :=
    Service.Transparent.decodeRequest_payload 1
  have hcomputed : ((answerOn serviceResults (Service.verifyHandler Service.Transparent.formats
      (rootedPrimitives 65) rootedState 0 (Service.Transparent.payload 1)).run).toOption.map
        (·.verifiedHardware)) = some true := by
    rw [Service.verifyHandler, hdecode]
    rfl
  simp only [Option.map_eq_some_iff, toOption_eq_some] at hcomputed
  obtain ⟨result, hanswer, hhardware⟩ := hcomputed
  refine ⟨rootedState, some (.new ∅), result, start_rooted, ?_, hhardware⟩
  rw [← hanswer]
  exact returns_answerOn serviceResults_realHardware _

/-- So does the chat application, inline. -/
theorem chat_verifies : ∃ app replay response result,
    Chat.buildState rootCodec (rootedPrimitives 65) chatSurroundings (nitro 65) =
      .ok (app, replay) ∧
    Chat.verifyInline (rootedPrimitives 65) app (nitro 65) epoch none ⟨[], ⟨"", 0⟩, request⟩
      [1, 1, 7] epoch = .ok response ∧
    response.verification = some result ∧ result.verifiedHardware = true := by
  have hcomputed : ((Chat.buildState rootCodec (rootedPrimitives 65) chatSurroundings
      (nitro 65)).toOption.bind fun built =>
        (Chat.verifyInline (rootedPrimitives 65) built.1 (nitro 65) epoch none
          ⟨[], ⟨"", 0⟩, request⟩ [1, 1, 7] epoch).toOption.bind fun response =>
            response.verification.map (·.verifiedHardware)) = some true := by
    decide +kernel
  simp only [Option.bind_eq_some_iff, Option.map_eq_some_iff, toOption_eq_some] at hcomputed
  obtain ⟨⟨app, replay⟩, hbuild, response, hresponse, result, hresult, hhardware⟩ := hcomputed
  exact ⟨app, replay, response, result, hbuild, hresponse, hresult, hhardware⟩

/-- Files around the receipt, with the output on standard input. -/
def cliSurroundings (pem : String) : Cli.Surroundings where
  read path := if path = "receipt" then .ok [1, 1, 7] else .ok [2]
  openFile _ := .ok (File.whole [])
  readToString _ := .ok pem
  stdin := .ok [3]
  pathExists _ := false
  readSession _ := .error "no session"
  displayHexError := displayHexError

/-- The request to the browser decodes to the expected values. -/
theorem decodeExpected_wasmRequest (pem : String) :
    Wasm.decodeExpected displayHexError (wasmRequest pem) = .ok expected := by
  simp only [Wasm.decodeExpected, wasmRequest, Wasm.decodeHex32_hexEncode, hexDecode_hexEncode]
  rfl

/-- The browser verifies hardware under the root it is given, pinned or not. -/
theorem wasm_verifies (r : UInt8) (pem : String)
    (h : r = 65 ∧ pem = awsPem ∨ r = 66 ∧ pem = ownPem) :
    ∃ result, Wasm.verify rootCodec displayHexError (rootedPrimitives r) certificateLibrary
      (fun _ => epoch) epoch (wasmRequest pem) = .ok result ∧ result.verifiedHardware = true := by
  have hreceipt : Wasm.decodeReceipt rootCodec (wasmRequest pem).receipt = .ok [1, 1, 7] :=
    Wasm.decodeReceipt_hexEncode _
  have hcomputed : ((Wasm.verify rootCodec displayHexError (rootedPrimitives r) certificateLibrary
      (fun _ => epoch) epoch (wasmRequest pem)).toOption.map (·.verifiedHardware)) = some true := by
    rw [Wasm.verify, hreceipt, decodeExpected_wasmRequest]
    simp only [wasmRequest, fromPem_rooted h]
    rcases h with ⟨rfl, rfl⟩ | ⟨rfl, rfl⟩
    · rfl
    · rfl
  simpa using hcomputed

/-- The model is the empty file. -/
theorem computeModelHash_empty (r : UInt8) :
    computeModelHash (rootedPrimitives r).sha256 (.ok (File.whole [])) = .ok (fill 32 1) := by
  have htree : chunkTree [] = .leaf [] := by
    apply chunkTree_of_leafInputs
    simp [leafInputs]
  rw [computeModelHash_whole, htree]
  rfl

/-- So does the command line tool. -/
theorem cli_verifies (r : UInt8) (pem : String)
    (h : r = 65 ∧ pem = awsPem ∨ r = 66 ∧ pem = ownPem) :
    ∃ outcome, Cli.verify rootCodec (rootedPrimitives r) (cliSurroundings pem) (nitro r) epoch
      cliArgs = .ok outcome ∧ outcome.result.verifiedHardware = true := by
  have hmodel : computeModelHash (rootedPrimitives r).sha256
      ((cliSurroundings pem).openFile cliArgs.model) = .ok (fill 32 1) := computeModelHash_empty r
  have hcomputed : ((Cli.verify rootCodec (rootedPrimitives r) (cliSurroundings pem) (nitro r)
      epoch cliArgs).toOption.map (·.result.verifiedHardware)) = some true := by
    have hroot : (cliSurroundings pem).readToString cliArgs.rootCert = .ok pem := rfl
    have hnonce : Cli.parseHex32 (cliSurroundings pem) cliArgs.nonce = .ok (fill 32 4) :=
      Cli.parseHex32_hexEncode _ _
    have hpcr0 : Cli.parseHexAny (cliSurroundings pem) cliArgs.expectedPcr0 =
        .ok (List.replicate 48 0) := Cli.parseHexAny_hexEncode _ _
    simp only [Cli.verify, hmodel, hnonce, hpcr0, hroot, ok_bind, fromPem_rooted h]
    rcases h with ⟨rfl, rfl⟩ | ⟨rfl, rfl⟩
    · rfl
    · rfl
  simpa using hcomputed

/-- All four ways with the AWS root. -/
theorem verifiedHardware_restsOn_aws :
    (∃ receiptBytes, Service.decodeReceipt Service.Transparent.formats
        (Service.Transparent.payload 1).receipt = .ok receiptBytes ∧
      AcceptedAgainst (rootedPrimitives 65) certificateLibrary (Approved rootCodec) receiptBytes) ∧
    AcceptedAgainst (rootedPrimitives 65) certificateLibrary (Approved rootCodec) [1, 1, 7] ∧
    (∃ receiptBytes pem, (cliSurroundings awsPem).read cliArgs.receipt = .ok receiptBytes ∧
      (cliSurroundings awsPem).readToString cliArgs.rootCert = .ok pem ∧
      AcceptedFrom (rootedPrimitives 65) certificateLibrary rootCodec pem receiptBytes) ∧
    ∃ receiptBytes, Wasm.decodeReceipt rootCodec (wasmRequest awsPem).receipt = .ok receiptBytes ∧
      AcceptedFrom (rootedPrimitives 65) certificateLibrary rootCodec awsPem receiptBytes := by
  obtain ⟨hservice, hchat, hcli, hwasm⟩ := verifiedHardware_restsOn Service.Transparent.formats
    (rootedPrimitives 65) certificateLibrary rootCodec displayHexError
  refine ⟨?_, ?_, ?_, ?_⟩
  · obtain ⟨state, replay, result, hstart, hreturns, hhardware⟩ := service_verifies
    exact hservice _ _ _ _ _ hstart _ _ _ hreturns hhardware
  · obtain ⟨app, replay, response, result, hbuild, hresponse, hresult, hhardware⟩ := chat_verifies
    exact hchat _ _ _ _ hbuild _ _ _ _ _ _ _ _ _ hresponse hresult hhardware
  · obtain ⟨outcome, houtcome, hhardware⟩ := cli_verifies 65 awsPem (Or.inl ⟨rfl, rfl⟩)
    exact hcli _ _ _ _ _ _ houtcome hhardware
  · obtain ⟨result, hresult, hhardware⟩ := wasm_verifies 65 awsPem (Or.inl ⟨rfl, rfl⟩)
    exact hwasm _ _ _ _ hresult hhardware

/-- Under the caller's own root there is no path to the approved one. -/
theorem own_not_approved :
    ¬ AcceptedAgainst (rootedPrimitives 66) certificateLibrary (Approved rootCodec) [1, 1, 7] := by
  rintro ⟨claims', doc', root, now, hcontent, happroved, haccepted⟩
  have hfirst : ReceiptContent (rootedPrimitives 66) [1, 1, 7] (claims 1 7) (rootedDoc 66 7) :=
    ⟨_, _, rfl, rfl, rfl, _, _, rfl, rfl, rfl⟩
  obtain ⟨rfl, rfl⟩ := hcontent.unique hfirst
  obtain rfl : root = [65, 65, 1] := by
    by_contra hne
    simp only [Approved, rootCodec, if_neg hne] at happroved
    exact absurd happroved (by decide)
  obtain ⟨cose, leaf, -, hleaf, -, -, hpath⟩ :=
    (verifyAttestationDoc_eq_ok certificateLibrary_reEncodes).mp haccepted
  rcases hpath with ⟨k, p, hk, hp⟩ | ⟨hempty, -⟩
  · obtain ⟨der, hder, hparse⟩ := hp.parses (k - 1) (by omega)
    rw [Nat.sub_add_cancel hk] at hparse
    obtain rfl : der = [66, 66, 1] := by
      simpa [rootedDoc] using List.mem_of_getElem? hder
    have hparent : certificate 66 66 1 = p k := Except.ok.inj hparse
    have hroot := hp.root
    rw [← hparent] at hroot
    exact absurd hroot (by decide)
  · cases hempty

/-- In the browser and in the command line hardware is verified under a root of the caller's own. -/
theorem verifiedHardware_ownRoot :
    (∃ result, Wasm.verify rootCodec displayHexError (rootedPrimitives 66) certificateLibrary
        (fun _ => epoch) epoch (wasmRequest ownPem) = .ok result ∧ result.verifiedHardware = true) ∧
      (∃ outcome, Cli.verify rootCodec (rootedPrimitives 66) (cliSurroundings ownPem) (nitro 66)
        epoch cliArgs = .ok outcome ∧ outcome.result.verifiedHardware = true) ∧
      Wasm.decodeReceipt rootCodec (wasmRequest ownPem).receipt = .ok [1, 1, 7] ∧
      (cliSurroundings ownPem).read cliArgs.receipt = .ok [1, 1, 7] ∧
      ¬ AcceptedAgainst (rootedPrimitives 66) certificateLibrary (Approved rootCodec) [1, 1, 7] :=
  ⟨wasm_verifies 66 ownPem (Or.inr ⟨rfl, rfl⟩), cli_verifies 66 ownPem (Or.inr ⟨rfl, rfl⟩),
    by decide +kernel, rfl, own_not_approved⟩

end Transparent

end Veriai
