import Veriai.Clients.Hardware
import Veriai.Clients.SessionAlone

/-!
# Replay protection of careful runs

While no run looks for the session file during another, every run works on the
file that the run before it has left, so that what was reported and saved is
fresh for no later run.
-/

namespace Veriai.Session

open Handler Protocol
open Service (Members MemberOrder encodeMembers collectReplayMap collectReplayMap_encodeMembers)

section Runs

variable {Piece : Type} {format : SessionFormat Piece} {codec : PemCodec} {env : Primitives}
variable {inputs : RunId → Inputs} {t : RunId} {w w' : Shared Piece}

variable (format) in
/-- What a run has found is what the file holds. -/
def FileFound (file : Option (List Piece)) : Option (Except String MemberOrder) → Prop
  | none => file = none
  | some (.error _) => True
  | some (.ok order) => ∃ pieces, file = some pieces ∧ format.fromReader pieces = .ok order.toFinmap

theorem FileFound.loads {file : Option (List Piece)} {found : Option (Except String MemberOrder)}
    {surroundings : Cli.Surroundings} {state : ReplayMap} (h : FileFound format file found)
    (hstate : FoundAs surroundings found state) : FileLoads format file state := by
  cases found with
  | none =>
    obtain rfl := h
    exact hstate
  | some found =>
    obtain ⟨order, rfl, hdecode⟩ := hstate
    obtain ⟨pieces, rfl, hread⟩ := h
    exact ⟨surroundings, order, hread, hdecode⟩

variable (format env inputs) in
/-- The run has found the file as it is, and the file covers the reports. -/
def Ready (t : RunId) (found : Option (Except String MemberOrder)) (w : Shared Piece) : Prop :=
  w.underWay t = true ∧ Covered format env inputs w ∧ FileFound format w.file found

variable (env inputs) in
/-- The run has reported, and the state it is to save accounts for every report. -/
def Saving (t : RunId) (state : ReplayMap) (w : Shared Piece) : Prop :=
  w.underWay t = true ∧ ∀ a ∈ w.verified, Accounted env inputs w state a

variable (format env inputs) in
/-- The run has reported, and the file is still as the run found it. -/
def Reported (t : RunId) (state : ReplayMap) (w : Shared Piece) : Prop :=
  Saving env inputs t state w ∧ (∃ found, FileLoads format w.file found) ∧
    ∀ found, FileLoads format w.file found → ∀ a ∈ w.verified, a ≠ t →
      Accounted env inputs w found a

variable (env inputs) in
/-- The run has written these pieces to the file it has truncated. -/
def Written (t : RunId) (state : ReplayMap) (written : List Piece) (w : Shared Piece) : Prop :=
  Saving env inputs t state w ∧ w.file = some written ∧ w.offset t = written.length

variable (format env inputs) in
/-- The run may end. -/
def Done (t : RunId) (w : Shared Piece) : Prop :=
  w.underWay t = true ∧ Covered format env inputs w

/-- What a run under way knows stays true. -/
theorem stable_underWay {A : Shared Piece → Prop} (h : ∀ w, A w → w.underWay t = true) :
    (sessionProtocol format codec env inputs).Stable t A := by
  intro w w' _ _ hrely hA
  rw [hrely.2 (h w hA)]
  exact hA

/-- A session is loaded under the rules of the shared file. -/
theorem loadSession_spec {ε : Type} {E : ε → Shared Piece → Prop} :
    (sessionProtocol format codec env inputs).Spec t (fun w => w.underWay t = false)
      (loadSession format : CliM Piece ε (Option (Except String MemberOrder)))
      (Ready format env inputs t) E := by
  refine Spec.bind (Q := fun found w => Done format env inputs t w ∧ found = w.file.isSome) ?_ ?_
  · refine Spec.call ?_ (fun _ _ h => h) ?_
    · intro w w' _ _ hrely hidle
      exact hrely.1.trans hidle
    · rintro r w w' hinv - hidle ⟨⟨⟨rfl, rfl⟩, -⟩, hcond⟩
      exact ⟨⟨w.setUnderWay_self t true, hinv.covered (hcond.alone hidle)⟩, rfl⟩
  rintro (- | -)
  · refine Spec.pure ?_
    rintro w - ⟨⟨hunder, hcovered⟩, hfound⟩
    exact ⟨hunder, hcovered, Option.not_isSome_iff_eq_none.mp (by simp [← hfound])⟩
  refine Spec.bind (Q := fun r w => Done format env inputs t w ∧
    ∀ pieces, r = Except.ok pieces → w.file = some pieces) ?_ ?_
  · refine Spec.call (stable_underWay fun w h => h.1.1) (fun w _ h => h.1.1) ?_
    rintro r w w' - - ⟨hdone, -⟩ ⟨⟨⟨hread, rfl⟩, -⟩, -⟩
    refine ⟨hdone, ?_⟩
    rintro pieces rfl
    rcases hread with ⟨pieces', hfile, hpieces⟩ | ⟨e, he⟩
    · rw [hfile, Except.ok.inj hpieces]
    · cases he
  rintro (e | pieces)
  · exact Spec.pure fun w _ h => ⟨h.1.1, h.1.2, trivial⟩
  dsimp only
  cases hread : format.fromReader pieces with
  | error e => exact Spec.pure fun w _ h => ⟨h.1.1, h.1.2, trivial⟩
  | ok members =>
    refine Spec.bind (Q := fun order w => Done format env inputs t w ∧ w.file = some pieces ∧
      order.toFinmap = members) ?_ ?_
    · refine Spec.call (stable_underWay fun w h => h.1.1) (fun w _ h => h.1.1) ?_
      rintro r w w' - - ⟨hdone, hfile⟩ ⟨⟨⟨horder, rfl⟩, -⟩, -⟩
      exact ⟨hdone, hfile pieces rfl, horder⟩
    · intro order
      refine Spec.pure ?_
      rintro w - ⟨hdone, hfile, horder⟩
      exact ⟨hdone.1, hdone.2, pieces, hfile, by rw [hread, horder]⟩

/-- A piece is written behind the others. -/
theorem put_written {state : ReplayMap} {written : List Piece} {piece : Piece}
    (h : Written env inputs t state written w) :
    Written env inputs t state (written ++ [piece]) (w.put t format.hole piece) := by
  obtain ⟨hsaving, hfile, hoffset⟩ := h
  refine ⟨hsaving, ?_, ?_⟩
  · simp [Shared.put, hfile, hoffset, List.takeD_eq_take]
  · simp [Shared.put, hoffset]

/-- All pieces are written while the run owns the file. -/
theorem writeAll_spec (hlawful : format.Lawful) {order : MemberOrder} {state : ReplayMap}
    (horder : order.toFinmap = encodeMembers state) (written rest : List Piece)
    (htext : written ++ rest = format.toWriterPretty order) :
    (sessionProtocol format codec env inputs).Spec t (Written env inputs t state written)
      (writeAll rest) (fun _ => Done format env inputs t) fun _ => Done format env inputs t := by
  induction rest generalizing written with
  | nil =>
    refine Spec.pure ?_
    rintro w - ⟨⟨hunder, haccounted⟩, hfile, -⟩
    refine ⟨hunder, ?_⟩
    intro loaded hloads
    rw [hfile, ← List.append_nil written, htext] at hloads
    rw [fileLoads_saved hlawful horder hloads]
    exact haccounted
  | cons piece rest ih =>
    refine Spec.bind (Q := fun r w => r = Except.ok () ∧
      Written env inputs t state (written ++ [piece]) w) ?_ ?_
    · refine Spec.call (stable_underWay fun w h => h.1.1) (fun w _ h => h.1.1) ?_
      rintro r w w' - - hwritten ⟨⟨⟨rfl, rfl⟩ | ⟨⟨e, rfl⟩, -⟩, hok⟩, -⟩
      · exact ⟨rfl, put_written hwritten⟩
      · cases hok
    · intro r
      refine Spec.bind (Q := fun _ => Written env inputs t state (written ++ [piece])) ?_ ?_
      · refine Spec.ensure (fun _ _ w _ h => h.2) ?_
        rintro e rfl w - ⟨herror, -⟩
        cases herror
      · intro u
        exact ih (written ++ [piece]) (by rw [← htext]; simp)

/-- The save has begun with an empty file, or it has failed with the file as it was. -/
theorem create_spec {ε : Type} {E : ε → Shared Piece → Prop} {state : ReplayMap} :
    (sessionProtocol format codec env inputs).Spec t (Reported format env inputs t state)
      (perform .create : CliM Piece ε (Except String Unit))
      (fun r w => match r with
        | .ok () => Written env inputs t state [] w
        | .error _ => Done format env inputs t w) E := by
  refine Spec.call (stable_underWay fun w h => h.1.1) (fun w _ h => ⟨h.1.1, h.2.1⟩) ?_
  rintro r w w' - - ⟨hsaving, -, hothers⟩ ⟨⟨⟨rfl, rfl⟩ | ⟨⟨e, rfl⟩, rfl⟩, -⟩, -⟩
  · exact ⟨hsaving, rfl, Function.update_self _ _ _⟩
  · refine ⟨hsaving.1, ?_⟩
    intro found hfound a ha
    by_cases hat : a = t
    · exact Or.inl ⟨_, List.mem_append_right _ (List.mem_singleton_self _), hat.symm⟩
    · exact (hothers found hfound a ha hat).mono fun x hx => List.mem_append_left _ hx

/-- A run that has reported saves what it reported, or its save fails. -/
theorem saveSession_spec (hlawful : format.Lawful) {state : ReplayMap} :
    (sessionProtocol format codec env inputs).Spec t (Reported format env inputs t state)
      (saveSession format (encodeMembers state)) (fun _ => Done format env inputs t)
      fun _ => Done format env inputs t := by
  refine Spec.bind (Q := fun order w => order.toFinmap = encodeMembers state ∧
    Reported format env inputs t state w) ?_ ?_
  · refine Spec.call (stable_underWay fun w h => h.1.1) (fun w _ h => h.1.1) ?_
    rintro r w w' - - hreported ⟨⟨⟨horder, rfl⟩, -⟩, -⟩
    exact ⟨horder, hreported⟩
  rintro order w hw ⟨horder, hreported⟩
  refine Spec.bind create_spec ?_ w hw hreported
  rintro (e | u)
  · exact Spec.throw fun w _ h => h
  · exact writeAll_spec hlawful horder [] _ rfl

/-- A fresh number is above every number that is recorded, so that no report of it is. -/
theorem Accounted.failed_of_fresh {state : ReplayMap} {f : Fingerprint} {n : UInt64} {a : RunId}
    (h : Accounted env inputs w state a) (hfresh : Ledger.Fresh state f n)
    (hidentity : (inputs a).identity env = some (f, n)) : SaveFailed w a := by
  rcases h with hfailed | hrecorded
  · exact hfailed
  · obtain ⟨last, hlast, hle⟩ := hrecorded f n hidentity
    exact absurd (hfresh last hlast) (not_lt_of_ge hle)

/-- Recording a fresh number accounts for what was accounted for. -/
theorem Accounted.insert {state : ReplayMap} {f : Fingerprint} {n : UInt64} {a : RunId}
    (h : Accounted env inputs w state a) (hfresh : Ledger.Fresh state f n) :
    Accounted env inputs w (state.insert f n) a := by
  rcases h with hfailed | hrecorded
  · exact Or.inl hfailed
  · refine Or.inr fun f' n' hidentity => ?_
    obtain ⟨last, hlast, hle⟩ := hrecorded f' n' hidentity
    obtain ⟨last', hlast', hle'⟩ := hfresh.below_insert f' last hlast
    exact ⟨last', hlast', hle.trans hle'⟩

/-- A fresh number is reported. -/
theorem report_spec {ε : Type} {E : ε → Shared Piece → Prop} {result : VerificationResult}
    {found : Option (Except String MemberOrder)} {state : ReplayMap} {f : Fingerprint} {n : UInt64}
    (hfound : FoundAs (inputs t).surroundings found state) (hvalid : result.valid = true)
    (hidentity : (inputs t).identity env = some (f, n)) (hfresh : Ledger.Fresh state f n) :
    (sessionProtocol format codec env inputs).Spec t (Ready format env inputs t found)
      (perform (.report result) : CliM Piece ε Unit)
      (fun _ => Reported format env inputs t (state.insert f n)) E := by
  refine Spec.call (stable_underWay fun w h => h.1) ?_ ?_
  · rintro w - ⟨hunder, hcovered, hfile⟩
    refine ⟨hunder, ?_⟩
    intro _ a ha id hida hidt
    obtain rfl := Option.some.inj (hidentity.symm.trans hidt)
    exact (hcovered state (hfile.loads hfound) a ha).failed_of_fresh hfresh hida
  · rintro r w w' - - ⟨hunder, hcovered, hfile⟩ ⟨⟨heffect, -⟩, -⟩
    obtain rfl : w' = w.reported t := by
      rw [heffect, if_pos hvalid]
    refine ⟨⟨hunder, ?_⟩, ⟨state, hfile.loads hfound⟩, ?_⟩
    · intro a ha
      rcases List.mem_append.mp ha with ha | ha
      · exact (hcovered state (hfile.loads hfound) a ha).insert hfresh
      · rw [List.mem_singleton.mp ha]
        refine Or.inr fun f' n' hid => ?_
        obtain ⟨rfl, rfl⟩ := Prod.mk.inj (Option.some.inj (hidentity.symm.trans hid))
        exact ⟨n, Finmap.lookup_insert state, le_rfl⟩
    · intro loaded hloaded a ha hat
      rcases List.mem_append.mp ha with ha | ha
      · exact hcovered loaded hloaded a ha
      · exact absurd (List.mem_singleton.mp ha) hat

/-- Concluding leaves a file that covers every report. -/
theorem conclude_spec (hlawful : format.Lawful) {path : String}
    (hpath : (inputs t).args.stateful = some path) (found : Option (Except String MemberOrder)) :
    (sessionProtocol format codec env inputs).Spec t (Ready format env inputs t found)
      (conclude format codec env (inputs t) found) (fun _ => Done format env inputs t)
      fun _ => Done format env inputs t := by
  refine Spec.bind (Q := fun outcome w => Ready format env inputs t found w ∧
    Cli.verify codec env ((inputs t).finding found) (inputs t).provider (inputs t).now
      (inputs t).args = .ok outcome) (Spec.ensure ?_ ?_) ?_
  · exact fun outcome hverify w _ hready => ⟨hready, hverify⟩
  · exact fun _ _ w _ h => ⟨h.1, h.2.1⟩
  rintro outcome w hw ⟨hready, hverify⟩
  obtain ⟨state, hfound, ⟨hinvalid, hsession⟩ | ⟨f, n, hvalid, hidentity, hfresh, hsession⟩⟩ :=
    verify_stateful hpath hverify
  · refine Spec.bind (Q := fun _ => Done format env inputs t) (Spec.call
      (stable_underWay fun w h => h.1) ?_ ?_) ?_ w hw hready
    · rintro w - ⟨hunder, -⟩
      exact ⟨hunder, fun hvalid => by rw [hinvalid] at hvalid; cases hvalid⟩
    · rintro r w w' - - ⟨hunder, hcovered, -⟩ ⟨⟨heffect, -⟩, -⟩
      obtain rfl : w' = w := by
        rw [heffect, hinvalid]
        rfl
      exact ⟨hunder, hcovered⟩
    · intro _
      rw [hsession]
      exact Spec.pure fun w _ h => h
  · refine Spec.bind (report_spec hfound hvalid hidentity hfresh) ?_ w hw hready
    intro _
    rw [hsession]
    exact saveSession_spec hlawful

/-- A run ends with a file that covers every report. -/
theorem verifyStateful_spec (hlawful : format.Lawful) {path : String}
    (hpath : (inputs t).args.stateful = some path) :
    (sessionProtocol format codec env inputs).Spec t (fun w => w.underWay t = false)
      (verifyStateful format codec env (inputs t)) (fun _ => Done format env inputs t)
      fun _ => Done format env inputs t :=
  Spec.bind loadSession_spec (conclude_spec hlawful hpath)

/-- Every run keeps to the protocol. -/
theorem sessionKeeping (hlawful : format.Lawful) {path : String}
    (hpath : ∀ t, (inputs t).args.stateful = some path) :
    (sessionProtocol format codec env inputs).Keeping fun _ _ _ _ => True where
  post_later _ _ _ _ _ _ _ := trivial
  post_rely _ _ _ _ _ _ _ _ _ := trivial
  programs := by
    rintro t c w w' - ⟨⟨hidle, rfl⟩, -⟩ hw
    refine Triple.bind (verifyStateful_spec hlawful (hpath t)) ?_ w' hw hidle
    intro x
    have hexit : (sessionProtocol format codec env inputs).Triple t (Done format env inputs t)
        (.op FileOp.exit fun _ => .ret x) fun _ _ => True :=
      Triple.op (R := fun _ _ => True) (stable_underWay fun w h => h.1) (fun w _ h => h)
        (fun _ _ _ _ _ _ _ => trivial) fun _ => Triple.ret fun _ _ _ => trivial
    cases x with
    | ok u => exact hexit
    | error e => exact hexit

theorem sessionInv_initial (file : Option (List Piece)) :
    SessionInv format env inputs (Shared.initial file) where
  once := List.Pairwise.nil
  kept := by
    rintro x ⟨⟩
  alone := by
    rintro t t' ⟨⟩
  covered := by
    rintro - state - a ⟨⟩

/-- While no run looks for the session file during another and no save fails once the file is
truncated, no two reports are of one number of one identity unless the save behind the first has
failed, and a save that fails leaves the file as it can be loaded, with every member. -/
theorem carefulRuns_protected (hlawful : format.Lawful) {path : String}
    (hpath : ∀ t, (inputs t).args.stateful = some path) {file : Option (List Piece)}
    {s : MachineState RunId Unit (Except String Unit) (Shared Piece) (FileRes Piece)}
    (h : (carefulRuns format codec env inputs).Reachable (Shared.initial file) s) :
    Protected format env inputs s.world :=
  ((sessionKeeping hlawful hpath).reachable (sessionInv_initial file) h).inv.toProtected

end Runs

namespace Transparent

open Machine Veriai.Transparent

/-- What every run is given: the same receipt. -/
def input : Inputs where
  surroundings := cliSurroundings awsPem
  provider := nitro 65
  now := epoch
  args := { cliArgs with stateful := some "session" }

/-- The receipt has number 1. -/
theorem identity_input : input.identity (rootedPrimitives 65) = some (fill 32 0, 1) := by
  decide +kernel

/-- The receipt is recorded once. -/
theorem presented_input : Presented rootCodec (rootedPrimitives 65) input 1 := by
  refine .of_results rfl identity_input ?_
  intro found hfound
  have hmodel : computeModelHash (rootedPrimitives 65).sha256
      ((input.finding found).openFile input.args.model) = .ok (fill 32 1) :=
    computeModelHash_empty 65
  have hroot : (input.finding found).readToString input.args.rootCert = .ok awsPem := rfl
  have hnonce : Cli.parseHex32 (input.finding found) input.args.nonce = .ok (fill 32 4) :=
    Cli.parseHex32_hexEncode _ _
  have hpcr0 : Cli.parseHexAny (input.finding found) input.args.expectedPcr0 =
      .ok (List.replicate 48 0) := Cli.parseHexAny_hexEncode _ _
  simp only [Cli.verify, hmodel, hnonce, hpcr0, hroot, ok_bind,
    fromPem_rooted (Or.inl ⟨rfl, rfl⟩)]
  simp only [List.mem_cons, List.not_mem_nil, or_false] at hfound
  rcases hfound with rfl | rfl
  · decide +kernel
  · decide +kernel

/-- Two runs present one receipt, one after the other: the second one finds it recorded. -/
theorem carefulRuns_protected_twice : ∃ s,
    (separateRuns rootCodec (rootedPrimitives 65) input).Reachable (Shared.initial none) s ∧
      s.answers = [(0, (), .ok ()), (1, (), .ok ())] ∧ s.world.verified = [0] ∧
      s.world.failures = [] ∧ Protected format (rootedPrimitives 65) (fun _ => input) s.world := by
  obtain ⟨s, hreach, hanswers, hverified, hfailures⟩ := reaches_replayed presented_input
  exact ⟨s, hreach, hanswers, hverified, hfailures,
    carefulRuns_protected lawful (fun _ => rfl) hreach⟩

/-- The runs, with nothing to keep them apart. -/
def overlappingRuns : Machine RunId Unit (Except String Unit) (Shared MemberOrder)
    (FileRes MemberOrder) := runs format rootCodec (rootedPrimitives 65) fun _ => input

/-- A save that fails with its first piece. -/
def torn (w : Shared MemberOrder) (t : RunId) : Shared MemberOrder :=
  ((w.reported t).truncate t).failSave t w.file

/-- A file that is truncated cannot be loaded. -/
theorem not_kept_truncated (before : Option (List MemberOrder)) :
    ¬ (⟨0, before, some []⟩ : Failure MemberOrder).Kept format := by
  rintro ⟨⟨state, surroundings, order, hread, -⟩, -⟩
  cases hread

/-- Run 0 has looked for the session file. -/
def looked : Shared MemberOrder := (Shared.initial none).setUnderWay 0 true

/-- Run 1 has recorded the receipt in the meantime. -/
def ended : Shared MemberOrder :=
  (saved (looked.setUnderWay 1 true) 1 (recordedOrder 1)).setUnderWay 1 false

/-- Two runs begin before either saves: both report the same receipt. The second save fails, and
leaves an empty file in the place of the first. -/
theorem overlappingRuns_unprotected : ∃ s,
    overlappingRuns.Reachable (Shared.initial none) s ∧ s.world.verified = [1, 0] ∧
      (input.identity (rootedPrimitives 65)).isSome ∧
      ∃ x ∈ s.world.failures, ¬ x.Kept format := by
  obtain ⟨outcome, hverify, hvalid, hsession⟩ := presented_input.first
  have hlook : overlappingRuns.Runs 0 (overlappingRuns.program 0 ()) (Shared.initial none)
      ((conclude format rootCodec (rootedPrimitives 65) input none).run >>= exiting) looked :=
    runs_look ⟨rfl, rfl⟩
  have hfirst : overlappingRuns.Runs 1 (overlappingRuns.program 1 ()) looked (.ret (.ok ()))
      ended := by
    refine Runs.trans (runs_look ⟨rfl, rfl⟩) ?_
    exact runs_conclude (fun _ _ _ _ he _ _ => he) presented_input
  have hreport : exec format 0 (.report outcome.result) () ended (ended.reported 0) := by
    rw [exec, if_pos hvalid]
  have hsave : overlappingRuns.Ends 0 (saveSession format (encodeMembers (recorded 1)))
      (ended.reported 0) (.error "no space left") (torn ended 0) := by
    apply Ends.bind (a := recordedOrder 1)
    · exact Ends.call ⟨rfl, rfl⟩
    apply Ends.bind (a := Except.ok ())
    · exact Ends.call (Or.inl ⟨rfl, rfl⟩)
    apply Ends.bind (Ends.ensure rfl)
    apply Ends.bind (a := Except.error "no space left")
    · exact Ends.call (Or.inr ⟨⟨_, rfl⟩, rfl⟩)
    exact Ends.bind_early (Ends.ensure rfl)
  have hsecond : overlappingRuns.Runs 0
      ((conclude format rootCodec (rootedPrimitives 65) input none).run >>= exiting) ended
      (.ret (.error "no space left")) ((torn ended 0).setUnderWay 0 false) := by
    refine Runs.trans (Runs.bind exiting (ends_conclude hverify hsession hreport hsave)) ?_
    exact .op (o := FileOp.exit) (r := ()) rfl (.refl _ _)
  have hbegun := hlook.arrives (c := ()) ⟨rfl, rfl⟩ (fun _ => none) List.not_mem_nil []
  have hother : (1 : RunId) ∉ ([0] : List RunId) := by decide
  have hanswered := hfirst.answered (c := ()) ⟨rfl, rfl⟩ (Function.update (fun _ => none) 0
    (some (.running () ((conclude format rootCodec (rootedPrimitives 65) input none).run >>=
      exiting)))) hother []
  have hlast := hsecond.steps (c := ()) (Function.update (fun _ => none) 1 none) [0, 1]
    [(1, (), .ok ())]
  rw [Function.update_comm (by decide)] at hlast
  refine ⟨_, (hbegun.trans hanswered).trans hlast, rfl, ?_, ?_⟩
  · rw [identity_input, Option.isSome_some]
  · exact ⟨_, List.mem_singleton_self _, not_kept_truncated _⟩

end Transparent

end Veriai.Session
