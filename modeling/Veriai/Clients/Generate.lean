import Veriai.Attestation.Mock
import Veriai.Clients.SessionRuns

/-!
# Receipts from the command line

`veriai generate` and `veriai inspect`, and what `veriai verify` makes of the
receipts of a mock build: it verifies a receipt for the data it was generated
for and for no other. Every generated receipt comes from a new generator, so it
has the number zero, under the identity that all mock documents share: of all
the runs that carry on one session, one at most verifies such a receipt.
-/

namespace Veriai.Cli

/-- The arguments of `Commands::Generate`; files are paths. -/
structure GenerateArgs where
  model : String
  inputFile : Option String
  outputFile : Option String
  nonce : Option String
  receiptOut : String

/-- What a run of `Commands::Generate` draws at random. -/
structure Drawn where
  signingKey : ByteArr 32
  nonce : ByteArr 32

variable (env : Primitives)

/-- The nonce of the receipt: the one given, or one drawn. -/
def chooseNonce (surroundings : Surroundings) (drawn : Drawn) :
    Option String → Except String (ByteArr 32)
  | some hexStr => parseHex32 surroundings hexStr
  | none => .ok drawn.nonce

/-- `Commands::Generate`, with the provider of `configured_provider`, the clock and `fs::write`: the
receipt that is written. -/
def generate (surroundings : Surroundings) (write : String → Bytes → Except IoError Unit)
    (provider : AttestationProvider) (now : SystemTime) (drawn : Drawn) (args : GenerateArgs) :
    Except String Bytes := do
  let modelHash ← computeModelHash env.sha256 (surroundings.openFile args.model)
  let (inputBytes, stdin) ← readBytesOrStdin surroundings args.inputFile surroundings.stdin
  let (outputBytes, _) ← readBytesOrStdin surroundings args.outputFile stdin
  let inputHash := env.sha256 inputBytes
  let outputHash := env.sha256 outputBytes
  let nonceBytes ← chooseNonce surroundings drawn args.nonce
  let generator : ReceiptGenerator := { signingKey := drawn.signingKey }
  let receipt ← (generator.generateReceipt env provider now
    ⟨modelHash, inputHash, outputHash, nonceBytes⟩).1.mapError VerifyError.toString
  write args.receiptOut receipt
  return receipt

/-- What `Commands::Inspect` prints of claims. -/
def inspection (claims : VeriClaims) : List String :=
  ["VeriAI Receipt Inspection",
    "-------------------------",
    "SDK Version:       " ++ claims.sdkVersion,
    "Model Merkle Root: " ++ hexEncode claims.modelHash.toList,
    "Input Hash:        " ++ hexEncode claims.inputHash.toList,
    "Output Hash:       " ++ hexEncode claims.outputHash.toList,
    "Client Nonce:      " ++ hexEncode claims.clientNonce.toList,
    "Sequence Number:   " ++ toString claims.sequenceNum,
    "Timestamp:         " ++ toString claims.attestationTimestamp,
    "Enclave Public Key:" ++ hexEncode claims.enclavePubkey.toList]

/-- `Commands::Inspect`; errors are given by their display texts. -/
def inspect (surroundings : Surroundings) (receipt : String) : Except String (List String) := do
  let receiptBytes ← surroundings.read receipt
  let coseReceipt ← (env.coseFromSlice receiptBytes).mapError ("Cose parse error: " ++ ·)
  let payload ← okOr coseReceipt.payload "Receipt contains no payload"
  let claims ← (env.claimsFromBinary payload).mapError ("Claims parse error: " ++ ·)
  return inspection claims

/-- What a command reads of a model file, an input and an output. -/
structure Reads (surroundings : Surroundings) (model : String)
    (inputFile outputFile : Option String) (modelHash : ByteArr 32)
    (inputBytes outputBytes : Bytes) : Prop where
  model : computeModelHash env.sha256 (surroundings.openFile model) = .ok modelHash
  data : ∃ stdin rest,
    readBytesOrStdin surroundings inputFile surroundings.stdin = .ok (inputBytes, stdin) ∧
      readBytesOrStdin surroundings outputFile stdin = .ok (outputBytes, rest)

variable {env} {lib : CertificateLibrary} {mock : MockLibrary} {codec : PemCodec}
  {fixtures : MockFixtures codec} {surroundings surroundings' : Surroundings}
  {write : String → Bytes → Except IoError Unit}

theorem Reads.unique {model : String} {inputFile outputFile : Option String}
    {modelHash modelHash' : ByteArr 32} {inputBytes inputBytes' outputBytes outputBytes' : Bytes}
    (h : Reads env surroundings model inputFile outputFile modelHash inputBytes outputBytes)
    (h' : Reads env surroundings model inputFile outputFile modelHash' inputBytes' outputBytes') :
    modelHash = modelHash' ∧ inputBytes = inputBytes' ∧ outputBytes = outputBytes' := by
  obtain ⟨hmodel, stdin, rest, hinput, houtput⟩ := h
  obtain ⟨hmodel', stdin', rest', hinput', houtput'⟩ := h'
  obtain ⟨rfl, rfl⟩ := Prod.mk.inj (Except.ok.inj (hinput.symm.trans hinput'))
  obtain ⟨rfl, -⟩ := Prod.mk.inj (Except.ok.inj (houtput.symm.trans houtput'))
  exact ⟨Except.ok.inj (hmodel.symm.trans hmodel'), rfl, rfl⟩

/-- A generated receipt comes from a new generator, for the data that was read. -/
theorem generate_eq_ok {provider : AttestationProvider} {now : SystemTime} {drawn : Drawn}
    {args : GenerateArgs} {receipt : Bytes}
    (h : generate env surroundings write provider now drawn args = .ok receipt) :
    ∃ modelHash inputBytes outputBytes nonce gen,
      Reads env surroundings args.model args.inputFile args.outputFile modelHash inputBytes
        outputBytes ∧
      chooseNonce surroundings drawn args.nonce = .ok nonce ∧
      ReceiptGenerator.generateReceipt env { signingKey := drawn.signingKey } provider now
        ⟨modelHash, env.sha256 inputBytes, env.sha256 outputBytes, nonce⟩ = (.ok receipt, gen) := by
  simp only [generate, bind_eq_ok, mapError_eq_ok] at h
  obtain ⟨modelHash, hmodel, ⟨inputBytes, stdin⟩, hinput, ⟨outputBytes, rest⟩, houtput, nonce,
    hnonce, receipt', hreceipt, _, -, hpure⟩ := h
  obtain rfl := Except.ok.inj hpure
  exact ⟨modelHash, inputBytes, outputBytes, nonce, _, ⟨hmodel, stdin, rest, hinput, houtput⟩,
    hnonce, Prod.ext hreceipt rfl⟩

/-- The replay state that a session is loaded into. -/
def newReplay (args : VerifyArgs) : Option ReplayMutex :=
  if args.stateful.isSome then some (.new ∅) else none

theorem loadSession_unpoisoned {args : VerifyArgs} {session : Option ReplayMutex}
    (h : loadSession surroundings args.stateful (newReplay args) = .ok session) :
    ∀ m, session = some m → m.poisoned = false := by
  rintro m rfl
  have hnew : ∀ m, newReplay args = some m → m.poisoned = false := by
    intro m hm
    unfold newReplay at hm
    split at hm
    · rw [← Option.some.inj hm]
      rfl
    · cases hm
  unfold loadSession at h
  split at h
  · simp only [bind_eq_ok, mapError_eq_ok] at h
    obtain ⟨order, -, state, -, -, -, hset⟩ := h
    have hset := Except.ok.inj hset
    cases hreplay : newReplay args with
    | none =>
      rw [hreplay] at hset
      cases hset
    | some m' =>
      have hm' := hnew m' hreplay
      rw [hreplay, setState, hm'] at hset
      rw [← Option.some.inj hset]
  · exact hnew m (Except.ok.inj h)

/-- After an acceptance the state can be read. -/
theorem getState_of_accepts {v : Verifier} {now : SystemTime} {receiptBytes : Bytes}
    {expected : Expected} {replay : Option ReplayMutex}
    (h : Verifier.Accepts (v.verify env now receiptBytes expected replay).1) :
    ∃ state, getState (v.verify env now receiptBytes expected replay).2 = .ok state := by
  obtain ⟨cose, claims, doc, hinspected, hfresh⟩ := Verifier.accepts_iff.mp h
  rw [Verifier.verify_of_inspected hinspected]
  cases replay with
  | none => exact ⟨none, rfl⟩
  | some m =>
    obtain ⟨hlocked, hnumber⟩ := hfresh m rfl
    rw [Verifier.checkSequence_fresh hlocked hnumber]
    have hunlocked : (m.insert (computeIdentityFingerprint env doc) claims.sequenceNum).poisoned =
        false := hlocked
    rw [getState, hunlocked]
    exact ⟨_, rfl⟩

/-- The command exits with zero exactly when what it has read is accepted. -/
theorem verify_exits_zero {provider : AttestationProvider} {now : SystemTime} {args : VerifyArgs}
    {receipt : Bytes} {pem : String} {v : Verifier} {session : Option ReplayMutex}
    {modelHash nonce : ByteArr 32} {inputBytes outputBytes pcr0 : Bytes}
    (hreceipt : surroundings.read args.receipt = .ok receipt)
    (hpem : surroundings.readToString args.rootCert = .ok pem)
    (hfrom : Verifier.fromPem codec provider pem args.stateful.isSome = .ok (v, newReplay args))
    (hsession : loadSession surroundings args.stateful (newReplay args) = .ok session)
    (hdata : Reads env surroundings args.model args.inputFile args.outputFile modelHash inputBytes
      outputBytes)
    (hnonce : parseHex32 surroundings args.nonce = .ok nonce)
    (hpcr0 : parseHexAny surroundings args.expectedPcr0 = .ok pcr0) :
    (∃ outcome, verify codec env surroundings provider now args = .ok outcome ∧
        outcome.exitCode = 0) ↔
      Verifier.Accepts (v.verify env now receipt ⟨modelHash, env.sha256 inputBytes,
        env.sha256 outputBytes, nonce, pcr0⟩ session).1 := by
  obtain ⟨hmodel, stdin, rest, hinput, houtput⟩ := hdata
  simp only [verify, hreceipt, hmodel, hinput, houtput, hnonce, hpcr0, hpem, hfrom, hsession,
    ok_bind]
  constructor
  · rintro ⟨outcome, hrun, hexit⟩
    rw [bind_eq_ok] at hrun
    obtain ⟨result, hresult, hend⟩ := hrun
    refine ⟨result, mapError_eq_ok.mp hresult, ?_⟩
    cases hvalid : result.valid with
    | true => rfl
    | false =>
      rw [hvalid] at hend
      rw [← Except.ok.inj hend] at hexit
      cases hexit
  · rintro haccepts
    obtain ⟨state, hstate⟩ := getState_of_accepts haccepts
    obtain ⟨result, hresult, hvalid⟩ := haccepts
    rw [hresult]
    simp only [hvalid, hstate, Except.mapError, ok_bind]
    exact ⟨_, rfl, rfl⟩

section Mock

variable {clock clock' : Bytes → SystemTime} {t documentNow now verifyNow : SystemTime}
  {drawn : Drawn} {args : GenerateArgs} {args' : VerifyArgs} {receipt : Bytes}

/-- What is inspected is what the receipt says. -/
theorem inspect_of_content {name : String} {claims : VeriClaims} {doc : AttestationDoc}
    (hreceipt : surroundings.read name = .ok receipt) (h : ReceiptContent env receipt claims doc) :
    inspect env surroundings name = .ok (inspection claims) := by
  obtain ⟨cose, payload, hparse, hpayload, hclaims, -⟩ := h
  rw [inspect, hreceipt, ok_bind, hparse]
  simp only [Except.mapError, ok_bind, hpayload, okOr, hclaims]
  rfl

/-- In a mock build `veriai inspect` shows the values that a receipt was generated for, and `veriai
verify` exits with zero for it exactly when it reads data of the same hashes, is given the nonce and
the mock's PCR0, and carries on no session in which the mock identity has been seen. -/
theorem generated_verified_iff (hbuild : MockBuild env lib mock fixtures)
    (hchain : Certified lib mock fixtures (clock fixtures.rootDer))
    (hpunctual : Punctual documentNow now verifyNow)
    (hgenerate : generate env surroundings write
      (mockAttestationProvider env lib mock fixtures documentNow clock') now drawn args =
        .ok receipt)
    (hsize : receipt.length ≤ 64 * 1024)
    (hreceipt : surroundings'.read args'.receipt = .ok receipt)
    (hpem : surroundings'.readToString args'.rootCert = .ok fixtures.rootPem)
    {session : Option ReplayMutex}
    (hsession : loadSession surroundings' args'.stateful (newReplay args') = .ok session)
    {modelHash' nonce' : ByteArr 32} {inputBytes' outputBytes' pcr0' : Bytes}
    (hdata' : Reads env surroundings' args'.model args'.inputFile args'.outputFile modelHash'
      inputBytes' outputBytes')
    (hnonce' : parseHex32 surroundings' args'.nonce = .ok nonce')
    (hpcr0' : parseHexAny surroundings' args'.expectedPcr0 = .ok pcr0') :
    ∃ modelHash inputBytes outputBytes nonce,
      Reads env surroundings args.model args.inputFile args.outputFile modelHash inputBytes
        outputBytes ∧
      chooseNonce surroundings drawn args.nonce = .ok nonce ∧
      (∃ claims, inspect env surroundings' args'.receipt = .ok (inspection claims) ∧
        claims.modelHash = modelHash ∧ claims.inputHash = env.sha256 inputBytes ∧
        claims.outputHash = env.sha256 outputBytes ∧ claims.clientNonce = nonce ∧
        claims.sequenceNum = 0) ∧
      ((∃ outcome, verify codec env surroundings'
          (mockAttestationProvider env lib mock fixtures t clock) verifyNow args' = .ok outcome ∧
            outcome.exitCode = 0) ↔
        modelHash' = modelHash ∧ env.sha256 inputBytes' = env.sha256 inputBytes ∧
          env.sha256 outputBytes' = env.sha256 outputBytes ∧ nonce' = nonce ∧ pcr0' = mockPcr ∧
          ∀ m, session = some m → m.map.lookup (mockIdentity env fixtures) = none) := by
  obtain ⟨modelHash, inputBytes, outputBytes, nonce, gen, hdata, hnonce, hgenerated⟩ :=
    generate_eq_ok hgenerate
  have hfrom := mock_fromPem hbuild.root
    (mockAttestationProvider env lib mock fixtures t clock) args'.stateful.isSome
  have haccepted := (mock_receipt_accepted_iff hbuild hchain hpunctual hfrom hgenerated hsize
    ⟨modelHash', env.sha256 inputBytes', env.sha256 outputBytes', nonce', pcr0'⟩ session).1
  obtain ⟨report, nowMs, _, _, _, hcontent⟩ := mock_receipt_content hbuild hgenerated
  refine ⟨modelHash, inputBytes, outputBytes, nonce, hdata, hnonce,
    ⟨_, inspect_of_content hreceipt hcontent, rfl, rfl, rfl, rfl, rfl⟩, ?_⟩
  rw [verify_exits_zero hreceipt hpem hfrom hsession hdata' hnonce' hpcr0', haccepted]
  -- the number of the receipt is zero, which no recorded number lies below
  have hfresh : ∀ m : ReplayMutex, Ledger.Fresh m.map (mockIdentity env fixtures) (0 : UInt64) ↔
      m.map.lookup (mockIdentity env fixtures) = none := by
    intro m
    constructor
    · intro h
      rw [Option.eq_none_iff_forall_ne_some]
      intro last hlast
      exact absurd (h last hlast) (by simp)
    · intro h last hlast
      rw [h] at hlast
      cases hlast
  have hunpoisoned := loadSession_unpoisoned hsession
  simp only [ReceiptRequest.expected, Expected.mk.injEq, and_assoc]
  constructor
  · rintro ⟨hmodel, hinput, houtput, hnonces, hpcr0, hrest⟩
    exact ⟨hmodel, hinput, houtput, hnonces, hpcr0, fun m hm => (hfresh m).mp (hrest m hm).2⟩
  · rintro ⟨hmodel, hinput, houtput, hnonces, hpcr0, hrest⟩
    exact ⟨hmodel, hinput, houtput, hnonces, hpcr0,
      fun m hm => ⟨hunpoisoned m hm, (hfresh m).mpr (hrest m hm)⟩⟩

variable (env lib mock fixtures) in
/-- The receipt was generated by the command line of a mock build. -/
def Generated (receipt : Bytes) : Prop :=
  ∃ surroundings write documentNow clock now drawn args, generate env surroundings write
    (mockAttestationProvider env lib mock fixtures documentNow clock) now drawn args = .ok receipt

/-- All generated receipts have one identity and one number. -/
theorem Generated.identity (hbuild : MockBuild env lib mock fixtures)
    (h : Generated env lib mock fixtures receipt) :
    receiptIdentity env receipt = some (mockIdentity env fixtures, 0) := by
  obtain ⟨surroundings, write, documentNow, clock, now, drawn, args, hgenerate⟩ := h
  obtain ⟨modelHash, inputBytes, outputBytes, nonce, gen, -, -, hgenerated⟩ :=
    generate_eq_ok hgenerate
  obtain ⟨report, nowMs, _, _, _, hcontent⟩ := mock_receipt_content hbuild hgenerated
  exact receiptIdentity_eq_some.mpr ⟨_, _, hcontent, rfl, rfl⟩

/-- Runs of `veriai verify --stateful` share a session file and present generated receipts of a mock
build, each its own. While the runs do not overlap and no save fails once the file is truncated, a
run reports `VERIFIED` after another only when the save behind the other has failed: if no save has
failed, one run at most has. -/
theorem generated_verified_once {Piece : Type} {format : Session.SessionFormat Piece}
    (hformat : format.Lawful) (hbuild : MockBuild env lib mock fixtures)
    {inputs : Session.RunId → Session.Inputs} {path : String}
    (hpath : ∀ t, (inputs t).args.stateful = some path)
    (hinputs : ∀ t, ∃ receipt, (inputs t).surroundings.read (inputs t).args.receipt = .ok receipt ∧
      Generated env lib mock fixtures receipt)
    {file : Option (List Piece)}
    {s : MachineState Session.RunId Unit (Except String Unit) (Session.Shared Piece)
      (Session.FileRes Piece)}
    (h : (Session.carefulRuns format codec env inputs).Reachable (.initial file) s) :
    s.world.verified.Pairwise (fun a _ => Session.SaveFailed s.world a) ∧
      (s.world.failures = [] → s.world.verified.length ≤ 1) := by
  have hidentity : ∀ t, (inputs t).identity env = some (mockIdentity env fixtures, 0) := by
    intro t
    obtain ⟨receipt, hread, hgenerated⟩ := hinputs t
    exact Option.bind_eq_some_iff.mpr
      ⟨receipt, toOption_eq_some.mpr hread, hgenerated.identity hbuild⟩
  have hinv :=
    ((Session.sessionKeeping hformat hpath).reachable (Session.sessionInv_initial file) h).inv
  have hpairs : s.world.verified.Pairwise (fun a _ => Session.SaveFailed s.world a) :=
    hinv.once.imp fun h => h _ (hidentity _) (hidentity _)
  refine ⟨hpairs, ?_⟩
  intro hnone
  rcases hverified : s.world.verified with _ | ⟨a, _ | ⟨b, rest⟩⟩
  · exact Nat.zero_le _
  · exact le_rfl
  · rw [hverified, List.pairwise_cons] at hpairs
    obtain ⟨x, hx, -⟩ := hpairs.1 b List.mem_cons_self
    rw [hnone] at hx
    cases hx

end Mock

end Veriai.Cli

namespace Veriai.Transparent

open Cli

/-- The files around a receipt of the mock build, with the output on standard input. -/
def mockSurroundings : Surroundings :=
  { cliSurroundings letterFixtures.rootPem with
    read := fun path => if path = "receipt" then .ok [1, 0, 7] else .ok [2] }

/-- The arguments of `veriai generate`. -/
def generateArgs : GenerateArgs where
  model := "model"
  inputFile := some "input"
  outputFile := none
  nonce := some (hexEncode (fill 32 4).toList)
  receiptOut := "receipt"

/-- The key that is drawn. -/
def drawnSeven : Drawn := ⟨fill 32 7, fill 32 4⟩

theorem mockReads : Reads mockPrimitives mockSurroundings "model" (some "input") none (fill 32 1)
    [2] [3] where
  model := computeModelHash_empty 0
  data := ⟨_, _, rfl, rfl⟩

theorem mockGenerates : generate mockPrimitives mockSurroundings (fun _ _ => .ok ()) letterProvider
    epoch drawnSeven generateArgs = .ok [1, 0, 7] := by
  obtain ⟨hmodel, stdin, rest, hinput, houtput⟩ := mockReads
  have hnonce : chooseNonce mockSurroundings drawnSeven generateArgs.nonce = .ok (fill 32 4) :=
    parseHex32_hexEncode _ _
  have hmodel' : computeModelHash mockPrimitives.sha256
      (mockSurroundings.openFile generateArgs.model) = .ok (fill 32 1) := hmodel
  have hinput' : readBytesOrStdin mockSurroundings generateArgs.inputFile mockSurroundings.stdin =
      .ok ([2], stdin) := hinput
  have houtput' : readBytesOrStdin mockSurroundings generateArgs.outputFile stdin =
      .ok ([3], rest) := houtput
  simp only [generate, hmodel', hinput', houtput', hnonce, ok_bind]
  rfl

/-- What is generated is verified for the same files. -/
theorem generated_verified_same : ∃ outcome : VerifyOutcome,
    verify letterCodec mockPrimitives mockSurroundings letterProvider epoch cliArgs = .ok outcome ∧
      outcome.exitCode = 0 := by
  obtain ⟨modelHash, inputBytes, outputBytes, nonce, hdata, hnonce, -, hverified⟩ :=
    @generated_verified_iff mockPrimitives certificateLibrary letterMock letterCodec letterFixtures
      mockSurroundings mockSurroundings (fun _ _ => .ok ()) (fun _ => epoch) (fun _ => epoch) epoch
      epoch epoch epoch drawnSeven generateArgs cliArgs [1, 0, 7] letterBuild letterCertified
      punctual_epoch mockGenerates (by decide) rfl rfl none rfl (fill 32 1) (fill 32 4) [2] [3]
      (List.replicate 48 0) mockReads (parseHex32_hexEncode _ _) (parseHexAny_hexEncode _ _)
  obtain ⟨rfl, rfl, rfl⟩ := mockReads.unique hdata
  have hgiven : chooseNonce mockSurroundings drawnSeven generateArgs.nonce = .ok (fill 32 4) :=
    parseHex32_hexEncode _ _
  obtain rfl := Except.ok.inj (hgiven.symm.trans hnonce)
  exact hverified.mpr ⟨rfl, rfl, rfl, rfl, rfl, by rintro m ⟨⟩⟩

/-- A run that looks for a session. -/
def mockInput : Session.Inputs where
  surroundings := mockSurroundings
  provider := letterProvider
  now := epoch
  args := { cliArgs with stateful := some "session" }

/-- The generated receipt is recorded once. -/
theorem presented_mockInput :
    Session.Transparent.Presented letterCodec mockPrimitives mockInput 0 := by
  refine .of_results rfl (by decide +kernel) ?_
  intro found hfound
  have hmodel : computeModelHash mockPrimitives.sha256
      ((mockInput.finding found).openFile mockInput.args.model) = .ok (fill 32 1) :=
    computeModelHash_empty 0
  have hnonce : parseHex32 (mockInput.finding found) mockInput.args.nonce = .ok (fill 32 4) :=
    parseHex32_hexEncode _ _
  have hpcr0 : parseHexAny (mockInput.finding found) mockInput.args.expectedPcr0 =
      .ok (List.replicate 48 0) := parseHexAny_hexEncode _ _
  simp only [verify, hmodel, hnonce, hpcr0, ok_bind]
  simp only [List.mem_cons, List.not_mem_nil, or_false] at hfound
  rcases hfound with rfl | rfl
  · decide +kernel
  · decide +kernel

open Session Session.Transparent in
/-- Two runs present a generated receipt, one after the other, and the first one reports it. -/
theorem generated_verified_once_twice : ∃ s,
    (separateRuns letterCodec mockPrimitives mockInput).Reachable (Shared.initial none) s ∧
      s.answers = [(0, (), .ok ()), (1, (), .ok ())] ∧ s.world.verified = [0] ∧
      s.world.verified.length ≤ 1 := by
  obtain ⟨s, hreach, hanswers, hverified, hfailures⟩ := reaches_replayed presented_mockInput
  have hinputs : ∀ t : RunId, ∃ receipt,
      mockInput.surroundings.read mockInput.args.receipt = .ok receipt ∧
        Generated mockPrimitives certificateLibrary letterMock letterFixtures receipt :=
    fun _ => ⟨_, rfl, _, _, _, _, _, _, _, mockGenerates⟩
  have honce := generated_verified_once Session.Transparent.lawful letterBuild (fun _ => rfl)
    hinputs hreach
  exact ⟨s, hreach, hanswers, hverified, honce.2 hfailures⟩

end Veriai.Transparent
