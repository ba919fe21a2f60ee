import Veriai.Service.Serving

/-!
# Visits at the desk

From every state in which no call is under way, whatever happened before, calls
that are served one after another are answered as one desk answers them. The
ledger of the desk is that of all commits made so far. So a client that asks for
a challenge and presents a good receipt for it is answered valid, once.
-/

namespace Veriai.Service

open Machine Protocol

section Rules

variable {Text : Type} (formats : Formats Text) (env : Primitives) (config : Config)

/-- The results when a challenge is handed out: the clock, and the nonce that is drawn. -/
def Draws (clock : UInt64) (nonce : ByteArr 32) : (o : Op Text) → Res Text o → Prop
  | .unixSeconds, r => r = .ok clock
  | .fillBytes, r => r = nonce
  | _, _ => True

/-- The service that draws this nonce, with no file operation failing. -/
def issuing (clock : UInt64) (nonce : ByteArr 32) :
    Machine CallId Request Response (World Text) (Res Text) :=
  (service formats env undisturbed config).obeying (Draws clock nonce)

variable {formats env config}

section Issuing

variable {clock : UInt64} {nonce : ByteArr 32} {t : CallId} {w : World Text} {d : Desk}
variable {state : AppState} {path : StatePath} {fileName : String}

/-- The clock is read. -/
theorem issuing_unixSeconds : (issuing formats env config clock nonce).Only t .unixSeconds w
    (.ok clock) { w with clock := Function.update w.clock t (some clock) } := by
  refine ⟨⟨Or.inl ⟨clock, rfl, rfl⟩, rfl⟩, ?_⟩
  rintro r w' ⟨⟨now, rfl, rfl⟩ | ⟨⟨e, rfl⟩, -⟩, hclock⟩
  · obtain rfl := Except.ok.inj hclock
    exact ⟨rfl, rfl⟩
  · cases hclock

/-- The nonce is drawn. -/
theorem issuing_fillBytes :
    (issuing formats env config clock nonce).Only t .fillBytes w nonce w :=
  ⟨⟨rfl, rfl⟩, fun _ _ he => ⟨he.2, he.1⟩⟩

/-- The record of a new nonce is created empty. -/
theorem issuing_createRecord {expiresAt : UInt64} (havailable : w.available nonce = false)
    (hnew : w.issued nonce = none) :
    (issuing formats env config clock nonce).Only t (.createRecord nonce expiresAt) w (.ok ())
      (w.issuedBy t nonce expiresAt []) := by
  refine ⟨⟨Or.inl ⟨rfl, havailable, hnew, rfl⟩, trivial⟩, ?_⟩
  rintro r w' ⟨⟨rfl, -, -, rfl⟩ | ⟨-, hsome, -⟩ | ⟨hfails, -, -⟩, -⟩
  · exact ⟨rfl, rfl⟩
  · cases hsome.symm.trans havailable
  · cases hfails

/-- A character is written to the record. -/
theorem issuing_writeRecord (c : Char) :
    (issuing formats env config clock nonce).Only t (.writeRecord nonce c) w (.ok ())
      (w.setRecord nonce (w.record nonce ++ [c])) :=
  ⟨⟨Or.inl ⟨rfl, rfl⟩, trivial⟩, fun _ _ he => he.1.resolve_right not_fails⟩

/-- The expiry is written character by character. -/
theorem writeExpiry_desk {written rest : List Char} :
    (issuing formats env config clock nonce).Delivers t (writeExpiry nonce rest)
      (w.setRecord nonce written) fun x w' =>
        x = .ok () ∧ w' = w.setRecord nonce (written ++ rest) := by
  induction rest generalizing written with
  | nil =>
    rw [List.append_nil]
    exact Delivers.pure ⟨rfl, rfl⟩
  | cons c rest ih =>
    have hwritten : (w.setRecord nonce written).setRecord nonce
        ((w.setRecord nonce written).record nonce ++ [c]) = w.setRecord nonce (written ++ [c]) := by
      simp [World.setRecord]
    refine Delivers.success_bind rfl (issuing_writeRecord c) rfl ?_
    rw [hwritten]
    simpa using @ih (written ++ [c])

/-- A filled record is a challenge with its expiry. -/
theorem challenge_issuedBy (w : World Text) (t : CallId) (nonce : ByteArr 32)
    (expiresAt : UInt64) :
    (w.issuedBy t nonce expiresAt (decimal expiresAt ++ ['\n'])).challenge =
      Function.update w.challenge nonce (some (some expiresAt)) := by
  funext nonce'
  by_cases hnonce : nonce' = nonce
  · subst hnonce
    simp [World.challenge, World.issuedBy, World.setRecord]
  · simp [World.challenge, World.issuedBy, World.setRecord, hnonce]

/-- A nonce that is handed out has its record at the desk. -/
theorem Represents.issue (h : Represents formats w d) (t : CallId) (nonce : ByteArr 32)
    (expiresAt : UInt64) :
    Represents formats (w.issuedBy t nonce expiresAt (decimal expiresAt ++ ['\n']))
      { d with
        challenges := Function.update d.challenges nonce (some (some expiresAt))
        issued := Function.update d.issued nonce true } where
  procs := h.procs
  fileLock := h.fileLock
  file := h.file
  challenges := by rw [challenge_issuedBy, h.challenges]
  issued := by
    intro nonce'
    show (Function.update w.issued nonce (some (t, expiresAt)) nonce').isSome = _
    by_cases hnonce : nonce' = nonce
    · subst hnonce
      simp
    · simpa [hnonce] using h.issued nonce'

/-- The record is filled with its expiry. -/
theorem fillRecord_desk {expiresAt : UInt64} :
    (issuing formats env config clock nonce).Delivers t (fillRecord nonce expiresAt)
      (w.issuedBy t nonce expiresAt []) fun x w' =>
        x = .ok ⟨hexEncode nonce.toList, expiresAt⟩ ∧
          w' = w.issuedBy t nonce expiresAt (decimal expiresAt ++ ['\n']) := by
  refine Delivers.success_bind (o := Op.setRecordPermissions nonce) rfl
    ⟨⟨Or.inl ⟨rfl, rfl⟩, trivial⟩, fun _ _ he => Plain.succeeds he.1⟩ rfl ?_
  refine Delivers.bind (writeExpiry_desk.mono ?_)
  rintro x w₁ ⟨rfl, rfl⟩
  refine Delivers.success_bind (o := Op.syncRecord nonce) rfl
    ⟨⟨Or.inl ⟨rfl, rfl⟩, trivial⟩, fun _ _ he => Plain.succeeds he.1⟩ rfl ?_
  refine Delivers.success_bind (o := Op.syncChallengeDir) rfl
    ⟨⟨Or.inl ⟨rfl, rfl⟩, trivial⟩, fun _ _ he => Plain.succeeds he.1⟩ rfl ?_
  exact Delivers.pure ⟨rfl, rfl⟩

/-- A challenge that is asked for alone is handed out as the desk does it. -/
theorem challengeHandler_desk (hstate : state.replayStatePath = some path)
    (hname : path.fileName = some fileName) (h : Represents formats w d)
    (hout : d.challenges nonce = none) (hnew : d.issued nonce = false) :
    (issuing formats env config clock nonce).Delivers t (challengeHandler state) w fun x w' =>
      x = (d.issue clock nonce).1 ∧ Represents formats w' (d.issue clock nonce).2 ∧
        w'.procs = w.procs ∧ w'.temps = w.temps := by
  have hread : Represents formats { w with clock := Function.update w.clock t (some clock) } d :=
    { h with }
  have havailable : w.available nonce = false := by
    rw [← h.challenges, World.challenge] at hout
    by_contra hne
    rw [if_pos (Bool.eq_true_of_not_eq_false hne)] at hout
    cases hout
  have hissued : w.issued nonce = none := by
    rw [← h.issued] at hnew
    simpa using hnew
  rw [challengeHandler, hstate]
  refine Delivers.bind (Delivers.ensure ?_)
  refine Delivers.success_bind rfl issuing_unixSeconds rfl ?_
  rw [Desk.issue]
  cases hexpires : checkedAdd clock challengeTtlSeconds with
  | none => exact Delivers.bind (Delivers.ensure ⟨rfl, hread, rfl, rfl⟩)
  | some expiresAt =>
  refine Delivers.bind (Delivers.ensure ?_)
  rw [siblingPath, hname]
  refine Delivers.bind (Delivers.ensure ?_)
  refine Delivers.success_bind (o := Op.createChallengeDir) rfl
    ⟨⟨Or.inl ⟨rfl, rfl⟩, trivial⟩, fun _ _ he => Plain.succeeds he.1⟩ rfl ?_
  refine Delivers.success_bind (o := Op.setChallengeDirPermissions) rfl
    ⟨⟨Or.inl ⟨rfl, rfl⟩, trivial⟩, fun _ _ he => Plain.succeeds he.1⟩ rfl ?_
  refine Delivers.only_bind issuing_fillBytes ?_
  refine Delivers.only_bind (issuing_createRecord havailable hissued) ?_
  refine fillRecord_desk.mono ?_
  rintro x w₁ ⟨rfl, rfl⟩
  exact ⟨rfl, hread.issue t nonce expiresAt, rfl, rfl⟩

end Issuing

/-- What a client comes for, and what the service finds of its surroundings meanwhile. -/
inductive Visit where
  | verify (s : Surroundings) (payload : VerifyRequest)
  | challenge (clock : UInt64) (nonce : ByteArr 32)

namespace Visit

def request : Visit → Request
  | verify _ payload => .verify payload
  | challenge _ _ => .challenge

variable (formats env config) in
/-- The service during the visit, with no file operation failing. -/
def service : Visit → Machine CallId Request Response (World Text) (Res Text)
  | verify s _ => s.service formats env config
  | challenge clock nonce => issuing formats env config clock nonce

/-- A nonce that is drawn is new. -/
def Fits : Visit → Desk → Prop
  | verify _ _, _ => True
  | challenge _ nonce, d => d.challenges nonce = none ∧ d.issued nonce = false

variable (formats env) in
/-- What the desk answers, and the desk after it. -/
def answer (state : AppState) (saves : Bool) : Visit → Desk → Response × Desk
  | verify s payload, d =>
    (.verified (d.present formats env state s saves payload).1,
      (d.present formats env state s saves payload).2)
  | challenge clock nonce, d => (.challenged (d.issue clock nonce).1, (d.issue clock nonce).2)

end Visit

variable (formats env config) in
/-- The visits are served one after another, each alone, as the desk answers them, and in the end
the world is that of the desk. -/
def ServedAs : List (CallId × Visit) → World Text → Desk → Prop
  | [], w, d => Represents formats w d
  | (t, visit) :: rest, w, d =>
    visit.Fits d → (visit.service formats env config).Serves t visit.request w fun a w' =>
      a = (visit.answer formats env (config.state t.pid) (w.hasRoom (config.state t.pid) t.pid)
          d).1 ∧
        ServedAs rest w' (visit.answer formats env (config.state t.pid)
          (w.hasRoom (config.state t.pid) t.pid) d).2

section Visits

variable {t : CallId} {w w' : World Text} {d : Desk} {visit : Visit} {path : StatePath}
variable {fileName : String}

/-- A call that runs alone ends no process. -/
theorem runs_procs {allowed : (o : Op Text) → Res Text o → Prop} {α : Type}
    {p p' : Prog (Res Text) α}
    (h : ((service formats env undisturbed config).obeying allowed).Runs t p w p' w') {pid : Nat}
    (hpid : w.procs pid ≠ none) : w'.procs pid ≠ none := by
  induction h with
  | refl => exact hpid
  | op he _ ih => exact ih (exec_procs he.1 hpid)

/-- No process goes away during a visit. -/
theorem Visit.runs_procs (visit : Visit) {p p' : Prog (Res Text) Response}
    (h : (visit.service formats env config).Runs t p w p' w') {pid : Nat}
    (hpid : w.procs pid ≠ none) : w'.procs pid ≠ none := by
  cases visit with
  | verify s payload => exact Service.runs_procs h hpid
  | challenge clock nonce => exact Service.runs_procs h hpid

variable (env) in
/-- One visit: the service answers what the desk answers. -/
theorem Visit.served (visit : Visit) (hlawful : formats.Lawful)
    (hencodes : ∀ order, ∃ text, formats.toVecPretty order = .ok text)
    (hpath : ∀ pid, (config.state pid).replayStatePath = some path)
    (hname : path.fileName = some fileName) (h : Represents formats w d)
    (hproc : w.procs t.pid ≠ none) (hfits : visit.Fits d) :
    (visit.service formats env config).Serves t visit.request w fun a w' =>
      a = (visit.answer formats env (config.state t.pid) (w.hasRoom (config.state t.pid) t.pid)
          d).1 ∧
        Represents formats w' (visit.answer formats env (config.state t.pid)
          (w.hasRoom (config.state t.pid) t.pid) d).2 := by
  cases visit with
  | verify s payload =>
    refine Delivers.serves .verified rfl ?_
    refine (verifyHandler_desk hlawful hencodes (hpath t.pid) hname h hproc).mono ?_
    rintro x w' ⟨rfl, hrepresents⟩
    exact ⟨rfl, hrepresents⟩
  | challenge clock nonce =>
    refine Delivers.serves .challenged rfl ?_
    refine (challengeHandler_desk (hpath t.pid) hname h hfits.1 hfits.2).mono ?_
    rintro x w' ⟨rfl, hrepresents, -⟩
    exact ⟨rfl, hrepresents⟩

/-- All visits, one after another. -/
theorem Represents.served (hlawful : formats.Lawful)
    (hencodes : ∀ order, ∃ text, formats.toVecPretty order = .ok text)
    (hpath : ∀ pid, (config.state pid).replayStatePath = some path)
    (hname : path.fileName = some fileName) {visits : List (CallId × Visit)}
    (h : Represents formats w d) (hprocs : ∀ v ∈ visits, w.procs v.1.pid ≠ none) :
    ServedAs formats env config visits w d := by
  induction visits generalizing w d with
  | nil => exact h
  | cons v rest ih =>
    obtain ⟨t, visit⟩ := v
    intro hfits
    have hproc := hprocs (t, visit) List.mem_cons_self
    obtain ⟨hend, hall⟩ := visit.served env hlawful hencodes hpath hname h hproc hfits
    refine ⟨hend, ?_⟩
    intro a w' hrun
    obtain ⟨hanswer, hrepresents⟩ := hall a w' hrun
    refine ⟨hanswer, ih hrepresents ?_⟩
    exact fun v hv => visit.runs_procs hrun (hprocs v (List.mem_cons_of_mem _ hv))

/-- A state in which no call is under way shows a desk. -/
theorem represents_of_over {hz : Hazards} (hlawful : formats.Lawful)
    (hpath : ∀ pid, (config.state pid).replayStatePath = some path) (hdrops : hz.drops = false)
    {m₀ : ReplayMap} (hw : w.AtRest) (hfile : Contents formats w.file m₀)
    {s : MachineState CallId Request Response (World Text) (Res Text)}
    (h : (service formats env hz config).Reachable w s) (hover : ∀ t, s.threads t = none) :
    ∃ d, Represents formats s.world d ∧ Ledger.Log m₀ d.ledger (entries s.world.commits) ∧
      s.world.challenge = d.challenges := by
  have hkeeping : (ledgerProtocol formats env hz config m₀ hdrops hpath).Keeping
      fun t c a w => PlacedAnswer formats env config m₀ t c a w.commits := ledgerKeeping hlawful
  have hinv : LedgerInv formats m₀ s.world := (hkeeping.reachable (hw.ledgerInv hfile) h).inv
  have howned : LocksOwned s := service_locksOwned hpath hw h
  have hidle : ∀ t, ¬ UnderWay s t := by
    rintro t ⟨c, rest, ht⟩
    cases (hover t).symm.trans ht
  obtain ⟨m, hm, hlog⟩ := hinv.log
  refine ⟨⟨m, s.world.challenge, fun nonce => (s.world.issued nonce).isSome⟩,
    ⟨?_, ?_, hm, rfl, fun _ => rfl⟩, hlog, rfl⟩
  · intro pid p hp
    obtain ⟨m', hm', hempty⟩ := hinv.memories pid p hp
    have hguard : p.guard = none := by
      by_contra hne
      obtain ⟨t, ht⟩ := Option.ne_none_iff_exists'.mp hne
      exact hidle t (howned.guard pid p t hp ht).2
    exact ⟨hguard, m', hm', hempty hguard⟩
  · by_contra hne
    obtain ⟨t, ht⟩ := Option.ne_none_iff_exists'.mp hne
    rcases howned.fileLock t ht with hunder | hgives
    · exact hidle t hunder
    · cases (hover t).symm.trans hgives

/-- From every reachable state in which no call is under way the service serves its clients as one
desk, whose ledger is that of all commits. -/
theorem service_isDesk {hz : Hazards} (hlawful : formats.Lawful)
    (hencodes : ∀ order, ∃ text, formats.toVecPretty order = .ok text)
    (hpath : ∀ pid, (config.state pid).replayStatePath = some path)
    (hname : path.fileName = some fileName) (hdrops : hz.drops = false) {m₀ : ReplayMap}
    (hw : w.AtRest) (hfile : Contents formats w.file m₀)
    {s : MachineState CallId Request Response (World Text) (Res Text)}
    (h : (service formats env hz config).Reachable w s) (hover : ∀ t, s.threads t = none) :
    ∃ d : Desk, Ledger.Log m₀ d.ledger (entries s.world.commits) ∧
      d.challenges = s.world.challenge ∧ ∀ visits : List (CallId × Visit),
        (∀ v ∈ visits, s.world.procs v.1.pid ≠ none) →
          ServedAs formats env config visits s.world d := by
  obtain ⟨d, hrepresents, hlog, hchallenges⟩ :=
    represents_of_over hlawful hpath hdrops hw hfile h hover
  exact ⟨d, hlog, hchallenges.symm, fun visits =>
    hrepresents.served hlawful hencodes hpath hname⟩

variable (formats env config) in
/-- Call `t` is handed the challenge, call `t₁` presents a receipt for it and is answered valid, and
call `t₂` is told that it is gone. -/
def GoodOnce (clock expiresAt : UInt64) (nonce : ByteArr 32) (s₁ s₂ : Surroundings)
    (payload₁ payload₂ : VerifyRequest) (t t₁ t₂ : CallId) (w : World Text) : Prop :=
  (issuing formats env config clock nonce).Serves t .challenge w fun a w₁ =>
    a = .challenged (.ok ⟨hexEncode nonce.toList, expiresAt⟩) ∧
      (s₁.service formats env config).Serves t₁ (.verify payload₁) w₁ fun a w₂ =>
        (∃ result, a = .verified (.ok result) ∧ result.valid = true) ∧
          (s₂.service formats env config).Serves t₂ (.verify payload₂) w₂ fun a _ =>
            a = .verified (.error (badRequest "invalid_challenge"
              "challenge was not issued or was already consumed"))

/-- A challenge that is handed out is good for one receipt that the verifier accepts on the ledger
of all commits, and for nothing after it. -/
theorem challenge_goodOnce {hz : Hazards} (hlawful : formats.Lawful)
    (hencodes : ∀ order, ∃ text, formats.toVecPretty order = .ok text)
    (hpath : ∀ pid, (config.state pid).replayStatePath = some path)
    (hrequired : ∀ pid, (config.state pid).requireIssuedChallenge = true)
    (hname : path.fileName = some fileName) (hdrops : hz.drops = false) {m₀ m : ReplayMap}
    (hw : w.AtRest) (hfile : Contents formats w.file m₀)
    {s : MachineState CallId Request Response (World Text) (Res Text)}
    (h : (service formats env hz config).Reachable w s) (hover : ∀ t, s.threads t = none)
    (hledger : Ledger.Log m₀ m (entries s.world.commits)) {t₁ t₂ : CallId}
    (hprocs : ∀ t' ∈ [t, t₁, t₂], s.world.procs t'.pid ≠ none)
    (hroom : s.world.hasRoom (config.state t₁.pid) t₁.pid = true) {clock expiresAt : UInt64}
    {nonce : ByteArr 32} (havailable : s.world.available nonce = false)
    (hnew : s.world.issued nonce = none)
    (hexpires : checkedAdd clock challengeTtlSeconds = some expiresAt) {s₁ s₂ : Surroundings}
    {payload₁ payload₂ : VerifyRequest} {receiptBytes₁ receiptBytes₂ : Bytes}
    {expected₁ expected₂ : Expected}
    (hdecode₁ : decodeRequest formats (config.state t₁.pid) payload₁ =
      .ok (receiptBytes₁, expected₁)) (hnonce₁ : expected₁.nonce = nonce)
    (htimely : s₁.clock ≤ expiresAt)
    (haccepts : Verifier.Accepts (({ (config.state t₁.pid).verifier with
      provider := s₁.provider } : Verifier).verify env s₁.now receiptBytes₁ expected₁
        (some (.new m))).1)
    (hdecode₂ : decodeRequest formats (config.state t₂.pid) payload₂ =
      .ok (receiptBytes₂, expected₂)) (hnonce₂ : expected₂.nonce = nonce) :
    GoodOnce formats env config clock expiresAt nonce s₁ s₂ payload₁ payload₂ t t₁ t₂ s.world := by
  obtain ⟨d, hrepresents, hlog, hchallenges⟩ :=
    represents_of_over hlawful hpath hdrops hw hfile h hover
  obtain rfl : d.ledger = m := hlog.unique hledger
  have hout : d.challenges nonce = none := by
    rw [← hchallenges, World.challenge, havailable]
    rfl
  have hissued : d.issued nonce = false := by rw [← hrepresents.issued, hnew, Option.isSome_none]
  refine Delivers.serves .challenged rfl ?_
  refine (challengeHandler_desk (hpath t.pid) hname hrepresents hout hissued).mono ?_
  rintro x w₁ ⟨rfl, h₁, hprocs₁, htemps₁⟩
  obtain ⟨hanswer, hout₁, hledger₁⟩ := d.issue_of_expires nonce hexpires
  refine ⟨congrArg Response.challenged hanswer, ?_⟩
  rw [← hledger₁] at haccepts
  generalize (d.issue clock nonce).2 = d₁ at h₁ hout₁ haccepts
  have halive : ∀ t' ∈ [t, t₁, t₂], w₁.procs t'.pid ≠ none := by rwa [hprocs₁]
  have hroom₁ : w₁.hasRoom (config.state t₁.pid) t₁.pid = true := by
    rwa [World.hasRoom, hprocs₁, htemps₁]
  obtain ⟨hend, hall⟩ := (Visit.verify s₁ payload₁).served env hlawful hencodes hpath hname h₁
    (halive t₁ (by simp)) trivial
  refine ⟨hend, ?_⟩
  intro a w₂ hrun
  obtain ⟨rfl, h₂⟩ := hall a w₂ hrun
  rw [hroom₁, Visit.answer] at h₂ ⊢
  -- the challenge is out, and then it is not
  subst hnonce₁
  obtain ⟨⟨result, hresult, hvalid⟩, htaken⟩ := Desk.present_of_out (hrequired t₁.pid) hdecode₁
    hout₁ htimely haccepts
  refine ⟨⟨result, congrArg Response.verified hresult, hvalid⟩, ?_⟩
  obtain ⟨hend₂, hall₂⟩ := (Visit.verify s₂ payload₂).served env hlawful hencodes hpath hname h₂
    ((Visit.verify s₁ payload₁).runs_procs hrun (halive t₂ (by simp))) trivial
  refine ⟨hend₂, ?_⟩
  intro a w₃ hrun₂
  obtain ⟨rfl, -⟩ := hall₂ a w₃ hrun₂
  rw [← hnonce₂] at htaken
  rw [Visit.answer, Desk.present_of_not_out (hrequired t₂.pid) hdecode₂ htaken]

end Visits

end Rules

namespace Transparent

open Veriai.Transparent

/-- A receipt that is presented twice to the process started first. -/
theorem service_isDesk_twice :
    ∃ (s : MachineState CallId Request Response (World MemberOrder) (Res MemberOrder)) (d : Desk),
      (service formats primitives faulty config).Reachable (World.initial none) s ∧
        ServedAs formats primitives config [(caller, .verify atEpoch (payload 1)),
          (⟨0, 1⟩, .verify atEpoch (payload 1))] s.world d := by
  have hboots : ((service formats primitives faulty config).under fun _ _ => True).Step
      (Machine.initial (World.initial none)) ⟨booted, fun _ => none, [], []⟩ := boots faulty trivial
  have hreach := Steps.of_under (Relation.ReflTransGen.single hboots)
  obtain ⟨d, -, -, hserved⟩ := service_isDesk lawful (fun order => ⟨order, rfl⟩) (fun _ => rfl) rfl
    rfl (World.atRest_initial none) rfl hreach fun _ => rfl
  refine ⟨_, d, hreach, hserved _ ?_⟩
  intro v hv
  obtain rfl | rfl : v = (caller, .verify atEpoch (payload 1)) ∨
      v = (⟨0, 1⟩, .verify atEpoch (payload 1)) := by simpa using hv
  · exact Option.some_ne_none process
  · exact Option.some_ne_none process

/-- The first challenge of process 0, and receipt number 1. -/
theorem challenge_goodOnce_first :
    ∃ s : MachineState CallId Request Response (World MemberOrder) (Res MemberOrder),
      (service formats primitives faulty issuedConfig).Reachable (World.initial none) s ∧
        GoodOnce formats primitives issuedConfig 0 300 issuedNonce atEpoch atEpoch
          (presenting [1, 1, 7]) (presenting []) caller ⟨0, 1⟩ ⟨0, 2⟩ s.world := by
  have hboot : Ambient formats faulty issuedConfig (fun _ => false) (World.initial none) booted :=
    .boot rfl ⟨∅, rfl, Or.inl ⟨rfl, rfl⟩⟩
  have hstep : (service formats primitives faulty issuedConfig).Step
      (Machine.initial (World.initial none)) ⟨booted, fun _ => none, [], []⟩ :=
    Machine.Step.ambient (M := service formats primitives faulty issuedConfig)
      (s := Machine.initial (World.initial none)) hboot
  have hreach := Relation.ReflTransGen.single hstep
  have haccepts : Verifier.Accepts
      (verifier.verify primitives epoch [1, 1, 7] expected (some (.new ∅))).1 := by
    refine Verifier.accepts_iff.mpr ⟨_, _, _, inspected 1 7, ?_⟩
    rintro m ⟨⟩
    exact ⟨rfl, fresh_empty 1 7⟩
  refine ⟨_, hreach, ?_⟩
  exact challenge_goodOnce lawful (fun order => ⟨order, rfl⟩) (fun _ => rfl) (fun _ => rfl) rfl rfl
    (World.atRest_initial none) rfl hreach (fun _ => rfl) .nil
    (by simp [booted, caller, World.setProc]) rfl rfl rfl rfl (decodeRequest_presenting _) rfl
    (by decide) haccepts (decodeRequest_presenting _) rfl

end Transparent

end Veriai.Service
