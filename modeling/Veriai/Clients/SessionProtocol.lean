import Veriai.Clients.SessionFile

/-!
# What careful runs keep of a session file

A run that looks for the session file while no other is under way finds every
number that was reported before, or a save that failed left the file without it.
Each step of a careful run keeps this.
-/

namespace Veriai.Session

open Handler Protocol
open Service (Members MemberOrder encodeMembers collectReplayMap collectReplayMap_encodeMembers)

section Verify

variable {codec : PemCodec} {env : Primitives} {inputs : Inputs}

/-- The identity and the number of the receipt that a run presents. -/
def Inputs.identity (env : Primitives) (inputs : Inputs) : Option (Fingerprint × UInt64) := do
  let receiptBytes ← (inputs.surroundings.read inputs.args.receipt).toOption
  receiptIdentity env receiptBytes

/-- The replay state that comes of what was found. -/
def FoundAs (surroundings : Cli.Surroundings) :
    Option (Except String MemberOrder) → ReplayMap → Prop
  | none, state => state = ∅
  | some found, state => ∃ order, found = .ok order ∧
      Cli.decodeSession surroundings order = .ok state

/-- A stateful verifier begins with an empty map. -/
theorem fromPem_stateful {provider : AttestationProvider} {pem : String} {v : Verifier}
    {replay : Option ReplayMutex} (h : Verifier.fromPem codec provider pem true = .ok (v, replay)) :
    replay = some (.new ∅) := by
  simp only [Verifier.fromPem, Verifier.fromPemWithConfig, bind_eq_ok] at h
  obtain ⟨s, -, -, -, heq⟩ := h
  exact (Prod.mk.inj (Except.ok.inj heq)).2.symm

/-- A session that loads has the state that was found. -/
theorem loadSession_found {path : String} {found : Option (Except String MemberOrder)}
    {replay : Option ReplayMutex}
    (h : Cli.loadSession (inputs.finding found) (some path) (some (.new ∅)) = .ok replay) :
    ∃ state, FoundAs inputs.surroundings found state ∧ replay = some (.new state) := by
  cases found with
  | none => exact ⟨∅, rfl, (Except.ok.inj h).symm⟩
  | some found =>
    simp only [Cli.loadSession, Inputs.finding, Option.filter, Option.isSome_some, if_true,
      bind_eq_ok] at h
    obtain ⟨order, horder, state, hstate, -, -, heq⟩ := h
    exact ⟨state, ⟨order, horder, hstate⟩, (Except.ok.inj heq).symm⟩

/-- A result that is valid records the fresh number of the receipt for the session file; one that
is not leaves the file alone. -/
theorem verify_stateful {path : String} {found : Option (Except String MemberOrder)}
    {outcome : Cli.VerifyOutcome} (hpath : inputs.args.stateful = some path)
    (h : Cli.verify codec env (inputs.finding found) inputs.provider inputs.now inputs.args =
      .ok outcome) :
    ∃ state, FoundAs inputs.surroundings found state ∧
      (outcome.result.valid = false ∧ outcome.session = none ∨
        ∃ f n, outcome.result.valid = true ∧ inputs.identity env = some (f, n) ∧
          Ledger.Fresh state f n ∧
          outcome.session = some (path, encodeMembers (state.insert f n))) := by
  simp only [Cli.verify, bind_eq_ok, mapError_eq_ok, hpath, Option.isSome_some] at h
  obtain ⟨receiptBytes, hreceipt, modelHash, -, ⟨inputBytes, stdin⟩, -, ⟨outputBytes, _⟩, -,
    nonceBytes, -, pcr0Bytes, -, pem, -, ⟨v, replay⟩, hfrom, replay', hload, result, hverify,
    hend⟩ := h
  obtain rfl := fromPem_stateful hfrom
  obtain ⟨state, hfound, rfl⟩ := loadSession_found hload
  refine ⟨state, hfound, ?_⟩
  obtain ⟨f, n, hidentity, ⟨result', hresult', hvalid⟩, hfresh, hafter⟩ | ⟨hrefused, -⟩ :=
    Verifier.verify_effect env v ⟨v.provider, inputs.now, receiptBytes,
      ⟨modelHash, env.sha256 inputBytes, env.sha256 outputBytes, nonceBytes, pcr0Bytes⟩⟩
      (.new state) rfl
  · obtain rfl := Except.ok.inj (hverify.symm.trans hresult')
    have hstate : getState (v.verify env inputs.now receiptBytes
        ⟨modelHash, env.sha256 inputBytes, env.sha256 outputBytes, nonceBytes, pcr0Bytes⟩
          (some (.new state))).2 = .ok (some (state.insert f n)) :=
      (congrArg getState hafter).trans rfl
    rw [hvalid, hstate] at hend
    obtain rfl := Except.ok.inj hend
    refine Or.inr ⟨f, n, hvalid, ?_, hfresh, rfl⟩
    exact Option.bind_eq_some_iff.mpr ⟨receiptBytes, toOption_eq_some.mpr hreceipt, hidentity⟩
  · have hinvalid : result.valid = false := by
      cases hvalid : result.valid with
      | false => rfl
      | true => exact absurd ⟨result, hverify, hvalid⟩ hrefused
    rw [hinvalid] at hend
    obtain rfl := Except.ok.inj hend
    exact Or.inl ⟨hinvalid, rfl⟩

end Verify

section Files

variable {Piece : Type} (format : SessionFormat Piece)

/-- A replay state the session file can be loaded as; without one a run begins with nothing. -/
def FileLoads : Option (List Piece) → ReplayMap → Prop
  | none, state => state = ∅
  | some pieces, state => ∃ (surroundings : Cli.Surroundings) (order : MemberOrder),
      format.fromReader pieces = .ok order.toFinmap ∧
        Cli.decodeSession surroundings order = .ok state

/-- The members a session file holds, if it can be read. -/
def contents : Option (List Piece) → Option Members
  | none => some ∅
  | some pieces => (format.fromReader pieces).toOption

/-- The failed save left a file that can be loaded, with every member it had before. -/
structure Failure.Kept (x : Failure Piece) : Prop where
  loadable : ∃ state, FileLoads format x.after state
  members : ∀ members, contents format x.before = some members →
    ∃ members', contents format x.after = some members' ∧
      ∀ name n, members.lookup name = some n → members'.lookup name = some n

variable {format}

/-- A saved file is loaded as the state that was saved. -/
theorem fileLoads_saved (hlawful : format.Lawful) {order : MemberOrder} {state state' : ReplayMap}
    (horder : order.toFinmap = encodeMembers state')
    (h : FileLoads format (some (format.toWriterPretty order)) state) : state = state' := by
  obtain ⟨surroundings, order', hread, hdecode⟩ := h
  rw [hlawful.roundTrip] at hread
  have horder' : order'.toFinmap = encodeMembers state' :=
    (Except.ok.inj hread).symm.trans horder
  have hcollect : collectReplayMap Service.Transparent.formats order' = .ok state' :=
    collectReplayMap_encodeMembers horder'
  rw [(decodeSession_eq_ok.mp hdecode).2, (collectReplayMap_eq_ok.mp hcollect).2]

end Files

section Runs

variable {Piece : Type} (format : SessionFormat Piece) (codec : PemCodec) (env : Primitives)
variable (inputs : RunId → Inputs)

/-- A save of the run has failed. -/
def SaveFailed (w : Shared Piece) (t : RunId) : Prop := ∃ x ∈ w.failures, x.run = t

/-- A report of the run is accounted for: its save has failed, or its number is recorded. -/
def Accounted (w : Shared Piece) (state : ReplayMap) (t : RunId) : Prop :=
  SaveFailed w t ∨ ∀ f n, (inputs t).identity env = some (f, n) →
    ∃ last, state.lookup f = some last ∧ n ≤ last

/-- Whatever the session file is loaded as accounts for every report. -/
def Covered (w : Shared Piece) : Prop :=
  ∀ state, FileLoads format w.file state → ∀ a ∈ w.verified, Accounted env inputs w state a

/-- What careful runs guarantee. -/
structure Protected (w : Shared Piece) : Prop where
  /-- Two reports of one number of one identity: the save behind the first has failed. -/
  once : w.verified.Pairwise fun a b => ∀ id, (inputs a).identity env = some id →
    (inputs b).identity env = some id → SaveFailed w a
  kept : ∀ x ∈ w.failures, x.Kept format

structure SessionInv (w : Shared Piece) : Prop extends Protected format env inputs w where
  alone : ∀ t t', w.underWay t = true → w.underWay t' = true → t = t'
  covered : (∀ t, w.underWay t = false) → Covered format env inputs w

/-- When a run may take a step. -/
def mayPerform (t : RunId) (o : FileOp Piece) (w : Shared Piece) : Prop :=
  match o with
  | .pathExists => w.underWay t = false
  | .report result => w.underWay t = true ∧ (result.valid = true → ∀ a ∈ w.verified, ∀ id,
      (inputs a).identity env = some id → (inputs t).identity env = some id → SaveFailed w a)
  | .create => w.underWay t = true ∧ ∃ state, FileLoads format w.file state
  | .exit => w.underWay t = true ∧ Covered format env inputs w
  | _ => w.underWay t = true

/-- The others do not begin or end the run, and while it is under way they do nothing. -/
def Undisturbed (t : RunId) (w w' : Shared Piece) : Prop :=
  w'.underWay t = w.underWay t ∧ (w.underWay t = true → w' = w)

def sessionContract : Contract RunId (Shared Piece) (FileOp Piece) where
  inv := SessionInv format env inputs
  rely := Undisturbed
  permit := mayPerform format env inputs
  later _ _ := True

variable {format env inputs} {t : RunId} {w w' : Shared Piece}

/-- A run that is accounted for stays so while failures are only added. -/
theorem Accounted.mono {state : ReplayMap} {a : RunId} (h : Accounted env inputs w state a)
    (hfailures : ∀ x ∈ w.failures, x ∈ w'.failures) : Accounted env inputs w' state a := by
  rcases h with ⟨x, hx, hrun⟩ | hrecorded
  · exact Or.inl ⟨x, hfailures x hx, hrun⟩
  · exact Or.inr hrecorded

/-- A step of a run under way disturbs nobody. -/
theorem keeps_of_underWay (hinv : SessionInv format env inputs w) (ht : w.underWay t = true)
    (hothers : ∀ t', t' ≠ t → w'.underWay t' = w.underWay t')
    (hinv' : SessionInv format env inputs w') :
    (sessionContract format env inputs).Keeps (· ≠ t) w w' where
  inv := hinv'
  later := trivial
  rely t' ht' := by
    refine ⟨hothers t' ht', ?_⟩
    intro hunder
    exact absurd (hinv.alone t' t hunder ht) ht'

/-- The invariant while a run is under way, where the runs under way and the reports stay. -/
theorem SessionInv.during (hinv : SessionInv format env inputs w) (ht : w.underWay t = true)
    (hunder : w'.underWay = w.underWay) (hverified : w'.verified = w.verified)
    (hfailures : ∀ x ∈ w.failures, x ∈ w'.failures)
    (hkept : ∀ x ∈ w'.failures, x.Kept format) : SessionInv format env inputs w' where
  once := by
    rw [hverified]
    refine hinv.once.imp ?_
    intro a b h id ha hb
    obtain ⟨x, hx, hrun⟩ := h id ha hb
    exact ⟨x, hfailures x hx, hrun⟩
  kept := hkept
  alone := by
    rw [hunder]
    exact hinv.alone
  covered := by
    intro hnone
    rw [hunder] at hnone
    rw [hnone t] at ht
    cases ht

/-- A save that fails before it has begun leaves the file as it was. -/
theorem Failure.kept_same (file : Option (List Piece))
    (hloadable : ∃ state, FileLoads format file state) :
    (⟨t, file, file⟩ : Failure Piece).Kept format :=
  ⟨hloadable, fun members h => ⟨members, h, fun _ _ hn => hn⟩⟩

/-- A run that is not under way begins while no other is. -/
theorem Exclusive.alone (h : Exclusive w (w.setUnderWay t true)) (ht : w.underWay t = false) :
    ∀ t', w.underWay t' = false := by
  rcases h t (w.setUnderWay_self t true) with hunder | hnone
  · rw [ht] at hunder
    cases hunder
  · exact hnone

/-- A run begins without changing the file. -/
theorem keeps_begin (hinv : SessionInv format env inputs w) (ht : w.underWay t = false)
    (hcond : Exclusive w (w.setUnderWay t true)) :
    (sessionContract format env inputs).Keeps (· ≠ t) w (w.setUnderWay t true) := by
  have hself := w.setUnderWay_self t true
  have hnone := hcond.alone ht
  have honly : ∀ t', (w.setUnderWay t true).underWay t' = true → t' = t := by
    intro t' ht'
    by_contra hne
    rw [w.setUnderWay_of_ne true hne, hnone t'] at ht'
    cases ht'
  refine ⟨⟨⟨hinv.once, hinv.kept⟩, ?_, ?_⟩, trivial, ?_⟩
  · intro t₁ t₂ h₁ h₂
    rw [honly t₁ h₁, honly t₂ h₂]
  · intro hall
    rw [hall t] at hself
    cases hself
  · intro t' ht'
    refine ⟨w.setUnderWay_of_ne true ht', ?_⟩
    intro hunder
    rw [hnone t'] at hunder
    cases hunder

/-- A first report of an identity keeps the rules. -/
theorem keeps_report (hinv : SessionInv format env inputs w) (ht : w.underWay t = true)
    (hfirst : ∀ a ∈ w.verified, ∀ id, (inputs a).identity env = some id →
      (inputs t).identity env = some id → SaveFailed w a) :
    (sessionContract format env inputs).Keeps (· ≠ t) w (w.reported t) := by
  refine keeps_of_underWay hinv ht (fun _ _ => rfl) ⟨⟨?_, hinv.kept⟩, hinv.alone, ?_⟩
  · refine List.pairwise_append.mpr ⟨hinv.once, List.pairwise_singleton _ _, ?_⟩
    intro a ha b hb id hida hidb
    rw [List.mem_singleton.mp hb] at hidb
    exact hfirst a ha id hida hidb
  · intro hnone
    have ht' : w.underWay t = false := hnone t
    rw [ht'] at ht
    cases ht

/-- A run may end once what it reported is saved or its save has failed. -/
theorem keeps_exit (hinv : SessionInv format env inputs w) (ht : w.underWay t = true)
    (hcovered : Covered format env inputs w) :
    (sessionContract format env inputs).Keeps (· ≠ t) w (w.setUnderWay t false) := by
  refine keeps_of_underWay hinv ht (fun t' ht' => w.setUnderWay_of_ne false ht')
    ⟨⟨hinv.once, hinv.kept⟩, ?_, fun _ => hcovered⟩
  intro t₁ t₂ h₁ h₂
  have hbefore : ∀ t', (w.setUnderWay t false).underWay t' = true → w.underWay t' = true := by
    intro t' ht'
    by_cases hne : t' = t
    · rw [hne]
      exact ht
    · rwa [w.setUnderWay_of_ne false hne] at ht'
  exact hinv.alone t₁ t₂ (hbefore t₁ h₁) (hbefore t₂ h₂)

/-- Emptying the file keeps the rules while the run owns it. -/
theorem keeps_create {r : Except String Unit} (hinv : SessionInv format env inputs w)
    (ht : w.underWay t = true) (hloadable : ∃ state, FileLoads format w.file state)
    (h : exec format t .create r w w') :
    (sessionContract format env inputs).Keeps (· ≠ t) w w' := by
  rcases h with ⟨-, rfl⟩ | ⟨-, rfl⟩
  · exact keeps_of_underWay hinv ht (fun _ _ => rfl)
      (hinv.during ht rfl rfl (fun _ hx => hx) hinv.kept)
  · refine keeps_of_underWay hinv ht (fun _ _ => rfl)
      (hinv.during ht rfl rfl (fun _ hx => List.mem_append_left _ hx) ?_)
    intro x hx
    rcases List.mem_append.mp hx with hx | hx
    · exact hinv.kept x hx
    · rw [List.mem_singleton.mp hx]
      exact Failure.kept_same w.file hloadable

/-- Writing a piece keeps the rules while the run owns the file. -/
theorem keeps_write {piece : Piece} {r : Except String Unit}
    (hinv : SessionInv format env inputs w) (ht : w.underWay t = true)
    (h : exec format t (.write piece) r w w') (hok : r.isOk = true) :
    (sessionContract format env inputs).Keeps (· ≠ t) w w' := by
  rcases h with ⟨-, rfl⟩ | ⟨⟨e, rfl⟩, -⟩
  · exact keeps_of_underWay hinv ht (fun _ _ => rfl)
      (hinv.during ht rfl rfl (fun _ hx => hx) hinv.kept)
  · cases hok

theorem keeps_refl (hinv : SessionInv format env inputs w) :
    (sessionContract format env inputs).Keeps (· ≠ t) w w :=
  ⟨hinv, trivial, fun _ _ => ⟨rfl, fun _ => rfl⟩⟩

/-- Every step that a run may take keeps the contract. -/
theorem exec_keeps {o : FileOp Piece} {r : FileRes Piece o} (hinv : SessionInv format env inputs w)
    (hpermit : mayPerform format env inputs t o w) (h : exec format t o r w w')
    (hok : Untorn o r) (hcond : Exclusive w w') :
    (sessionContract format env inputs).Keeps (· ≠ t) w w' := by
  cases o with
  | pathExists =>
    obtain ⟨-, rfl⟩ := h
    exact keeps_begin hinv hpermit hcond
  | read =>
    obtain ⟨-, rfl⟩ := h
    exact keeps_refl hinv
  | intoIter members =>
    obtain ⟨-, rfl⟩ := h
    exact keeps_refl hinv
  | report result =>
    obtain rfl := h
    cases hvalid : result.valid with
    | true => exact keeps_report hinv hpermit.1 (hpermit.2 hvalid)
    | false => exact keeps_refl hinv
  | create => exact keeps_create hinv hpermit.1 hpermit.2 h
  | write piece => exact keeps_write hinv hpermit h hok
  | exit =>
    obtain rfl := h
    exact keeps_exit hinv hpermit.1 hpermit.2

variable (format env inputs) in
/-- The protocol of careful runs. -/
def sessionProtocol : Protocol (carefulRuns format codec env inputs) where
  toContract := sessionContract format env inputs
  rely_refl _ _ := ⟨rfl, fun _ => rfl⟩
  rely_trans := by
    intro t w w₁ w' h h'
    refine ⟨h'.1.trans h.1, ?_⟩
    intro ht
    rw [h'.2 (h.1.trans ht), h.2 ht]
  later_refl _ := trivial
  later_trans _ _ _ _ _ := trivial
  exec_keeps t o r w w' hinv hpermit h := exec_keeps hinv hpermit h.1.1 h.1.2 h.2
  start_keeps t c w w' hinv h := by
    obtain ⟨⟨-, rfl⟩, -⟩ := h
    exact keeps_refl hinv
  abandon_keeps _ _ _ _ _ _ _ h := h.1.elim
  ambient_keeps _ _ _ _ h := h.1.elim

end Runs

end Veriai.Session
