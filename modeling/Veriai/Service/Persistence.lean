import Veriai.Core.Alone
import Veriai.Service.Transparent

/-!
# Persisting the replay state under failures

`persist_replay_state_or_rollback` when any of its steps may return an error.
What is left of the state file depends on how far the steps come: the rename
puts the new text in place, and after it only the synchronisation of the
directory is left, which fails or succeeds with the whole.
-/

namespace Veriai.Service

open Machine

variable {Text : Type}

/-- What persisting finds of its surroundings: the operations that return an error, and the order
in which a map is iterated. -/
structure Plan (Text : Type) where
  fails : Op Text → Bool
  order : Members → MemberOrder

/-- The results under the plan. -/
def Plan.Allows (plan : Plan Text) : (o : Op Text) → Res Text o → Prop
  | .intoIter members, r => r = plan.order members
  | .createTemporary name, r => r.isOk = !plan.fails (.createTemporary name)
  | .setTemporaryPermissions name, r => r.isOk = !plan.fails (.setTemporaryPermissions name)
  | .writeTemporary name text, r => r.isOk = !plan.fails (.writeTemporary name text)
  | .syncTemporary name, r => r.isOk = !plan.fails (.syncTemporary name)
  | .renameTemporary name, r => r.isOk = !plan.fails (.renameTemporary name)
  | .syncParent, r => r.isOk = !plan.fails .syncParent
  | _, _ => True

variable (formats : Formats Text) (env : Primitives) (hz : Hazards) (config : Config)

/-- The service under the plan. -/
def Plan.service (plan : Plan Text) : Machine CallId Request Response (World Text) (Res Text) :=
  (Service.service formats env hz config).obeying plan.Allows

/-- The filled temporary file takes the place of the state file. -/
structure Plan.Renames (plan : Plan Text) (name : TempName) (text : Text) : Prop where
  permitted : plan.fails (.setTemporaryPermissions name) = false
  written : plan.fails (.writeTemporary name text) = false
  synced : plan.fails (.syncTemporary name) = false
  renamed : plan.fails (.renameTemporary name) = false

/-- The text of the replay state takes the place of the state file. -/
structure Plan.Replaces (plan : Plan Text) (t : CallId) (p : Process) (m : ReplayMutex)
    (path : StatePath) (text : Text) : Prop where
  healthy : m.poisoned = false
  iterated : (plan.order (encodeMembers m.map)).toFinmap = encodeMembers m.map
  encodes : formats.toVecPretty (plan.order (encodeMembers m.map)) = .ok text
  named : path.fileName ≠ none
  created : plan.fails (.createTemporary ⟨t.pid, p.counter⟩) = false
  renames : plan.Renames ⟨t.pid, p.counter⟩ text

/-- How an attempt to replace the state file ends: with the new text in place, and successfully if
the directory was synchronised, or in failure with the file as it was. -/
def Plan.Attempted (plan : Plan Text) (replaces : Text → Prop) (w w' : World Text) (ok : Bool) :
    Prop :=
  (∃ text, replaces text ∧ w'.file = some text ∧ ok = !plan.fails .syncParent) ∨
    (∀ text, ¬ replaces text) ∧ w'.file = w.file ∧ ok = false

variable {formats env hz config} {plan : Plan Text} {t : CallId}

/-- An operation that returned an error was to fail. -/
theorem fails_of_error {e : String} {fails : Bool}
    (h : (Except.error e : Except String Unit).isOk = !fails) : fails = true := by
  cases fails with
  | true => rfl
  | false => cases h

/-- An operation that succeeded was not to fail. -/
theorem succeeds_of_ok {fails : Bool}
    (h : (Except.ok () : Except String Unit).isOk = !fails) : fails = false := by
  cases fails with
  | true => cases h
  | false => rfl

/-- A step before the rename, or the rename itself, has failed. -/
theorem Plan.Attempted.failed {replaces : Text → Prop} {w w' : World Text}
    (hfile : w'.file = w.file) (hnot : ∀ text, ¬ replaces text) :
    plan.Attempted replaces w w' false := Or.inr ⟨hnot, hfile, rfl⟩

/-- How an attempt ends depends on what it replaces and on the file before and after. -/
theorem Plan.Attempted.congr {replaces replaces' : Text → Prop} {w w' w₀ w₁ : World Text}
    {ok : Bool}
    (h : plan.Attempted replaces w w' ok) (hiff : ∀ text, replaces text ↔ replaces' text)
    (hbefore : w₀.file = w.file) (hafter : w₁.file = w'.file) :
    plan.Attempted replaces' w₀ w₁ ok := by
  rcases h with ⟨text, hreplaces, hfile, hok⟩ | ⟨hnot, hfile, hok⟩
  · exact Or.inl ⟨text, (hiff text).mp hreplaces, hafter.trans hfile, hok⟩
  · exact Or.inr ⟨fun text h => hnot text ((hiff text).mpr h), by rw [hafter, hfile, hbefore], hok⟩

/-- Under a plan, the block that fills and renames the temporary file replaces the state file or
leaves it as it was. -/
theorem leads_writeState {w : World Text} {name : TempName} {text : Text} :
    (plan.service formats env hz config).Leads t (writeState name text) w fun x w' =>
      w'.procs = w.procs ∧
        plan.Attempted (fun text' => text' = text ∧ plan.Renames name text) w w' x.isOk := by
  refine Leads.attempt_bind (o := Op.setTemporaryPermissions name) rfl ?_
  rintro r w₁ ⟨⟨rfl, rfl⟩ | ⟨_, ⟨e, rfl⟩, rfl⟩, hpermitted⟩
  rotate_left
  · refine ⟨rfl, .failed rfl ?_⟩
    rintro _ ⟨-, h⟩
    exact absurd h.permitted (by rw [fails_of_error hpermitted]; decide)
  refine Leads.attempt_bind (o := Op.writeTemporary name text) rfl ?_
  rintro r w₂ ⟨⟨_, ⟨rfl, rfl⟩ | ⟨_, ⟨e, rfl⟩, _, rfl⟩⟩, hwritten⟩
  rotate_left
  · refine ⟨rfl, .failed rfl ?_⟩
    rintro _ ⟨-, h⟩
    exact absurd h.written (by rw [fails_of_error hwritten]; decide)
  refine Leads.attempt_bind (o := Op.syncTemporary name) rfl ?_
  rintro r w₃ ⟨⟨rfl, rfl⟩ | ⟨_, ⟨e, rfl⟩, rfl⟩, hsynced⟩
  rotate_left
  · refine ⟨rfl, .failed rfl ?_⟩
    rintro _ ⟨-, h⟩
    exact absurd h.synced (by rw [fails_of_error hsynced]; decide)
  have hfilled : (w₁.setTemp name (some text)).temps name = some text := Function.update_self _ _ _
  have hnot {e : String}
      (hrenamed : (Except.error e : Except String Unit).isOk =
        !plan.fails (.renameTemporary name)) :
      ∀ text', ¬ (text' = text ∧ plan.Renames name text) := by
    rintro _ ⟨-, h⟩
    exact absurd h.renamed (by rw [fails_of_error hrenamed]; decide)
  refine Leads.attempt_bind (o := Op.renameTemporary name) rfl ?_
  rintro r w₄ ⟨⟨text', htext', rfl, rfl⟩ | ⟨_, ⟨e, rfl⟩, rfl⟩ | ⟨_, ⟨e, rfl⟩, rfl⟩, hrenamed⟩
  rotate_left
  · exact ⟨rfl, .failed rfl (hnot hrenamed)⟩
  · exact ⟨rfl, .failed rfl (hnot hrenamed)⟩
  obtain rfl := Option.some.inj (htext'.symm.trans hfilled)
  have hrenames : plan.Renames name text' :=
    ⟨succeeds_of_ok hpermitted, succeeds_of_ok hwritten, succeeds_of_ok hsynced,
      succeeds_of_ok hrenamed⟩
  -- the new text is in place; what is left decides about success only
  refine Leads.attempt (o := Op.syncParent) rfl ?_
  rintro r w₅ ⟨⟨rfl, rfl⟩ | ⟨_, ⟨e, rfl⟩, rfl⟩, hparent⟩
  · exact ⟨rfl, Or.inl ⟨text', ⟨rfl, hrenames⟩, rfl, hparent⟩⟩
  · exact ⟨rfl, Or.inl ⟨text', ⟨rfl, hrenames⟩, rfl, hparent⟩⟩

/-- The memory of the process is as it was, up to the counter of its temporary files. -/
def SameMemory (t : CallId) (p : Process) (w' : World Text) : Prop :=
  ∃ counter, w'.procs t.pid = some { p with counter }

/-- Under a plan, `get_state` fails for a poisoned mutex and else gives the map. -/
theorem leads_getState {w : World Text} {p : Process} {m : ReplayMutex}
    (hp : w.procs t.pid = some p) (hm : p.verifier = some m) {α : Type}
    {k : Option ReplayMap → ServiceM Text String α} {Q : Except String α → World Text → Prop}
    (hfail : m.poisoned = true → ∀ e, Q (.error e) w)
    (hok : m.poisoned = false → (plan.service formats env hz config).Leads t (k (some m.map)) w Q) :
    (plan.service formats env hz config).Leads t
      (perform .getState >>= fun r => Handler.ensure (r.mapError VerifyError.toString) >>= k) w
        Q := by
  refine Leads.attempt_bind (o := Op.getState) rfl ?_
  rintro r w₁ ⟨⟨q, hq, rfl, rfl⟩, -⟩
  obtain rfl := Option.some.inj (hq.symm.trans hp)
  cases hpoisoned : m.poisoned with
  | true =>
    have hget : getState q.verifier = .error .replayStateUnavailable := by
      simp [getState, hm, hpoisoned]
    rw [hget]
    exact hfail hpoisoned _
  | false =>
    have hget : getState q.verifier = .ok (some m.map) := by simp [getState, hm, hpoisoned]
    rw [hget]
    exact hok hpoisoned

/-- Under a plan, creating the temporary file fails, or leaves some text in it and goes on. -/
theorem leads_createTemporary {w : World Text} {name : TempName} {describe : String → String}
    {α : Type} {k : Unit → ServiceM Text String α} {Q : Except String α → World Text → Prop}
    (hfail : plan.fails (.createTemporary name) = true → ∀ e, Q (.error e) w)
    (hok : plan.fails (.createTemporary name) = false → ∀ part,
      (plan.service formats env hz config).Leads t (k ()) (w.setTemp name (some part)) Q) :
    (plan.service formats env hz config).Leads t
      (perform (.createTemporary name) >>= fun r => Handler.ensure (r.mapError describe) >>= k) w
        Q := by
  refine Leads.attempt_bind (o := Op.createTemporary name) rfl ?_
  rintro r w₁ ⟨⟨rfl, -, part, rfl⟩ | ⟨⟨e, rfl⟩, -, rfl⟩ | ⟨-, ⟨e, rfl⟩, rfl⟩, hcreated⟩
  · exact hok (succeeds_of_ok hcreated) part
  · exact hfail (fails_of_error hcreated) _
  · exact hfail (fails_of_error hcreated) _

/-- Where everything up to the temporary file has succeeded, the replacement depends on the steps
that fill and rename it. -/
theorem Plan.replaces_iff {p : Process} {m : ReplayMutex} {path : StatePath} {text text' : Text}
    (hhealthy : m.poisoned = false)
    (hiterated : (plan.order (encodeMembers m.map)).toFinmap = encodeMembers m.map)
    (hencodes : formats.toVecPretty (plan.order (encodeMembers m.map)) = .ok text)
    (hnamed : path.fileName ≠ none)
    (hcreated : plan.fails (.createTemporary ⟨t.pid, p.counter⟩) = false) :
    text' = text ∧ plan.Renames ⟨t.pid, p.counter⟩ text ↔
      plan.Replaces formats t p m path text' := by
  constructor
  · rintro ⟨rfl, hrenames⟩
    exact ⟨hhealthy, hiterated, hencodes, hnamed, hcreated, hrenames⟩
  · intro h
    obtain rfl := Except.ok.inj (hencodes.symm.trans h.encodes)
    exact ⟨rfl, h.renames⟩

/-- `persist_replay_state` under a plan replaces the state file or leaves it as it was, and the
memory of its process is as it was. -/
theorem leads_persistReplayState {w : World Text} {p : Process} {m : ReplayMutex}
    {path : StatePath} (hp : w.procs t.pid = some p) (hm : p.verifier = some m) :
    (plan.service formats env hz config).Leads t (persistReplayState formats t.pid path) w
      fun x w' => SameMemory t p w' ∧
        plan.Attempted (plan.Replaces formats t p m path) w w' x.isOk := by
  have hsame : SameMemory t p w := ⟨p.counter, hp⟩
  refine leads_getState hp hm ?_ fun hpoisoned => ?_
  · intro hpoisoned e
    refine ⟨hsame, .failed rfl ?_⟩
    intro text h
    cases h.healthy.symm.trans hpoisoned
  refine Leads.ensure_bind ?_ (by rintro _ ⟨⟩)
  rintro state hstate
  obtain rfl := Except.ok.inj hstate
  refine Leads.call_bind (o := Op.intoIter (encodeMembers m.map)) ?_
  rintro order w₂ ⟨⟨hiterated, rfl⟩, horder⟩
  obtain rfl : order = plan.order (encodeMembers m.map) := horder
  refine Leads.ensure_bind (fun text htext => ?_) ?_
  rotate_left
  · intro e he
    refine ⟨hsame, .failed rfl ?_⟩
    intro text h
    rw [h.encodes] at he
    cases he
  have hencodes := mapError_eq_ok.mp htext
  refine Leads.ensure_bind (fun fileName hname => ?_) ?_
  rotate_left
  · intro e he
    refine ⟨hsame, .failed rfl ?_⟩
    intro text h
    obtain ⟨fileName, hname⟩ := Option.ne_none_iff_exists'.mp h.named
    rw [hname] at he
    cases he
  have hnamed : path.fileName ≠ none := by
    rw [okOr_eq_ok.mp hname]
    exact Option.some_ne_none _
  refine Leads.call_bind (o := Op.nextTempFile) ?_
  rintro counter w₃ ⟨⟨q, hq, rfl, rfl⟩, -⟩
  obtain rfl := Option.some.inj (hq.symm.trans hp)
  have hnext : SameMemory t q (w₂.setProc t.pid (some { q with counter := q.counter + 1 })) :=
    ⟨q.counter + 1, Function.update_self _ _ _⟩
  refine leads_createTemporary ?_ fun hcreated part => ?_
  · intro hfails e
    refine ⟨hnext, .failed rfl ?_⟩
    intro text' h
    cases h.created.symm.trans hfails
  refine Leads.bind (Leads.outcome (leads_writeState.mono ?_))
  rintro x w₅ ⟨hprocs, hattempted⟩
  have hsame₅ : SameMemory t q w₅ := by
    obtain ⟨counter, hcounter⟩ := hnext
    exact ⟨counter, by rw [hprocs]; exact hcounter⟩
  have hend := hattempted.congr
    (fun text' => Plan.replaces_iff hpoisoned hiterated hencodes hnamed hcreated) rfl rfl
  cases x with
  | ok u => exact Leads.pure ⟨hsame₅, hend⟩
  | error e =>
    refine Leads.call_bind (o := Op.removeTemporary ⟨t.pid, q.counter⟩) ?_
    rintro r w₆ ⟨⟨-, -, rfl⟩ | ⟨-, -, rfl⟩ | ⟨-, -, rfl⟩, -⟩
    · exact Leads.throw ⟨hsame₅, hend⟩
    · exact Leads.throw ⟨hsame₅, hend⟩
    · exact Leads.throw ⟨hsame₅, hend⟩

/-- The map in memory is the current one after a success and the previous one after a failure,
unless a poisoned mutex keeps the rollback from it. -/
def Remembered (t : CallId) (m : ReplayMutex) (previous : ReplayMap) (ok : Bool)
    (w' : World Text) : Prop :=
  ∃ p', w'.procs t.pid = some p' ∧ p'.verifier =
    if ok = true ∨ m.poisoned = true then some m else some { m with map := previous }

/-- With the rollback, a failure also gives the previous map back. -/
theorem leads_persistReplayStateOrRollback {w : World Text} {p : Process} {m : ReplayMutex}
    {path : StatePath} {previous : ReplayMap} (hp : w.procs t.pid = some p)
    (hm : p.verifier = some m) :
    (plan.service formats env hz config).Leads t
      (persistReplayStateOrRollback formats t.pid path previous) w fun x w' =>
        plan.Attempted (plan.Replaces formats t p m path) w w' x.isOk ∧
          Remembered t m previous x.isOk w' := by
  refine Leads.bind (Leads.outcome ((leads_persistReplayState hp hm).mono ?_))
  rintro x w₁ ⟨⟨counter, hcounter⟩, hattempted⟩
  cases x with
  | ok u => exact Leads.pure ⟨hattempted, _, hcounter, by simp [hm, Except.isOk, Except.toBool]⟩
  | error e =>
    refine Leads.attempt_bind (o := Op.setState previous) rfl ?_
    rintro r w₂ ⟨⟨q, hq, rfl, rfl⟩, -⟩
    obtain rfl := Option.some.inj (hq.symm.trans hcounter)
    have hafter : (setState previous p.verifier).2 =
        if m.poisoned = true then some m else some { m with map := previous } := by
      rw [hm]
      cases hpoisoned : m.poisoned <;> simp [setState, hpoisoned]
    have hend (e' : String) : plan.Attempted (plan.Replaces formats t p m path) w
        (w₁.setProc t.pid (some { p with counter, verifier := (setState previous p.verifier).2 }))
          (Except.error e' : Except String Unit).isOk ∧ Remembered t m previous
            (Except.error e' : Except String Unit).isOk (w₁.setProc t.pid
              (some { p with counter, verifier := (setState previous p.verifier).2 })) :=
      ⟨hattempted, _, Function.update_self _ _ _,
        by simpa [Except.isOk, Except.toBool] using hafter⟩
    cases (setState previous p.verifier).1 with
    | error rollbackError => exact hend _
    | ok u => exact Leads.throw (hend _)

variable (formats) in
/-- A failure leaves the previous map in memory and the state file as it was; a success leaves the
current map in memory, and the state file decodes to it. A poisoned mutex lets `set_state` fail. -/
def AllOrNothing (t : CallId) (m : ReplayMutex) (previous : ReplayMap) (w w' : World Text) :
    Except String Unit → Prop
  | .error _ => m.poisoned = false → w'.file = w.file ∧
      ∃ p', w'.procs t.pid = some p' ∧ p'.verifier = some { m with map := previous }
  | .ok () => (∃ p', w'.procs t.pid = some p' ∧ p'.verifier = some m) ∧
      ∃ text, w'.file = some text ∧ Loads formats text m.map

variable (formats) in
/-- The rename puts a new text in place, and then the directory cannot be synchronised. -/
def Plan.Torn (plan : Plan Text) (t : CallId) (p : Process) (m : ReplayMutex) (path : StatePath)
    (w : World Text) : Prop :=
  ∃ text, plan.Replaces formats t p m path text ∧ plan.fails .syncParent = true ∧
    w.file ≠ some text

/-- In every run of persisting with the rollback, under every plan of failures, the state is
persisted all or nothing if and only if the replacement was not torn. -/
theorem persist_allOrNothing_iff (hlawful : formats.Lawful) {w w' : World Text} {p : Process}
    {m : ReplayMutex} {path : StatePath} {previous : ReplayMap} {x : Except String Unit}
    (hp : w.procs t.pid = some p) (hm : p.verifier = some m)
    (hrun : (plan.service formats env hz config).Ends t
      (persistReplayStateOrRollback formats t.pid path previous) w x w') :
    AllOrNothing formats t m previous w w' x ↔ ¬ plan.Torn formats t p m path w := by
  obtain ⟨hattempted, p', hp', hremembered⟩ := leads_persistReplayStateOrRollback hp hm x w' hrun
  cases x with
  | ok u =>
    rcases hattempted with ⟨text, hreplaces, hfile, hok⟩ | ⟨-, -, hok⟩
    · refine iff_of_true ⟨⟨p', hp', hremembered⟩, text, hfile, ?_⟩ ?_
      · refine ⟨_, hlawful.roundTrip _ _ hreplaces.encodes, ?_⟩
        exact collectReplayMap_encodeMembers hreplaces.iterated
      · rintro ⟨text', -, hfails, -⟩
        rw [hfails] at hok
        cases hok
    · cases hok
  | error e =>
    rcases hattempted with ⟨text, hreplaces, hfile, hok⟩ | ⟨hnot, hfile, -⟩
    · have hfails : plan.fails .syncParent = true := fails_of_error hok
      have hhealthy := hreplaces.healthy
      have hback : p'.verifier = some { m with map := previous } := by
        rw [hremembered, hhealthy]
        rfl
      constructor
      · rintro hnothing ⟨text', hreplaces', -, hnew⟩
        obtain rfl := Except.ok.inj (hreplaces.encodes.symm.trans hreplaces'.encodes)
        exact hnew ((hnothing hhealthy).1.symm.trans hfile)
      · intro hnot _
        have hsame : w.file = some text := by
          by_contra hnew
          exact hnot ⟨text, hreplaces, hfails, hnew⟩
        exact ⟨hfile.trans hsame.symm, p', hp', hback⟩
    · refine iff_of_true ?_ ?_
      · intro hhealthy
        have hback : p'.verifier = some { m with map := previous } := by
          rw [hremembered, hhealthy]
          rfl
        exact ⟨hfile, p', hp', hback⟩
      · rintro ⟨text, hreplaces, -, -⟩
        exact hnot text hreplaces

end Veriai.Service

namespace Veriai.Service.Transparent

open Machine Veriai.Transparent

/-- The current map: number 1 is recorded. -/
def current : ReplayMap := (∅ : ReplayMap).insert (fill 32 0) 1

/-- Its members, in the only order. -/
def currentOrder : MemberOrder := AList.singleton (hexEncode (fill 32 0).toList) 1

/-- The order has the members of the map. -/
theorem currentOrder_toFinmap : currentOrder.toFinmap = encodeMembers current := rfl

/-- Process 0 has recorded number 1 in its memory, and there is no state file. -/
def accepted : World MemberOrder :=
  (World.initial none).setProc 0 (some ⟨0, some (.new current), none⟩)

/-- File operations may fail. -/
def failing : Hazards := ⟨true, false, false⟩

/-- The directory of the state file cannot be synchronised. -/
def unsynced : Plan MemberOrder where
  fails
    | .syncParent => true
    | _ => false
  order _ := currentOrder

/-- No temporary file can be created. -/
def uncreated : Plan MemberOrder where
  fails
    | .createTemporary _ => true
    | _ => false
  order _ := currentOrder

/-- Process 0 after the attempt, its memory rolled back. -/
def rolledBack : Process := ⟨1, some (.new ∅), none⟩

/-- The attempt takes a number for its temporary file. -/
def numbered : World MemberOrder :=
  { accepted.setProc 0 (some ⟨1, some (.new current), none⟩) with
    slots := Function.update (fun _ => none) ⟨0, 0⟩ (some caller) }

/-- Without a temporary file nothing changes but the memory, which is rolled back. -/
theorem ends_uncreated :
    (uncreated.service formats primitives failing config).Ends caller
      (persistReplayStateOrRollback formats 0 path ∅) accepted
      (.error "failed to create replay state temporary file: full")
      (numbered.setProc 0 (some rolledBack)) := by
  have hiterated : uncreated.Allows (.intoIter (encodeMembers current)) currentOrder := rfl
  have hcreated : uncreated.Allows (.createTemporary ⟨0, 0⟩) (Except.error "full") := rfl
  refine .op (r := Except.ok (some current)) ⟨⟨_, rfl, rfl, rfl⟩, trivial⟩ ?_
  refine .op ⟨⟨currentOrder_toFinmap, rfl⟩, hiterated⟩ ?_
  refine .op (r := (0 : Nat)) ⟨⟨_, rfl, rfl, rfl⟩, trivial⟩ ?_
  refine .op ⟨Or.inr (Or.inr ⟨rfl, ⟨_, rfl⟩, rfl⟩), hcreated⟩ ?_
  refine .op (r := Except.ok ()) ⟨⟨_, rfl, rfl, rfl⟩, trivial⟩ ?_
  exact .refl _ _

/-- A temporary file that cannot be created leaves the state file, and the map goes back. -/
theorem persist_allOrNothing_uncreated :
    AllOrNothing formats caller (.new current) ∅ accepted (numbered.setProc 0 (some rolledBack))
      (.error "failed to create replay state temporary file: full") := by
  refine (persist_allOrNothing_iff lawful rfl rfl ends_uncreated).mpr ?_
  rintro ⟨text, hreplaces, -, -⟩
  cases hreplaces.created

/-- The temporary file, filled with the members of the current map. -/
def filled : World MemberOrder := numbered.setTemp ⟨0, 0⟩ (some currentOrder)

/-- The attempt fails after the rename: the members of the current map stay in the state file. -/
theorem ends_unsynced :
    (unsynced.service formats primitives failing config).Ends caller
      (persistReplayStateOrRollback formats 0 path ∅) accepted
      (.error "failed to sync replay state directory: io")
      ((filled.replace caller ⟨0, 0⟩ currentOrder).setProc 0 (some rolledBack)) := by
  have hiterated : unsynced.Allows (.intoIter (encodeMembers current)) currentOrder := rfl
  have hcreated : unsynced.Allows (.createTemporary ⟨0, 0⟩) (Except.ok ()) := rfl
  have hpermitted : unsynced.Allows (.setTemporaryPermissions ⟨0, 0⟩) (Except.ok ()) := rfl
  have hwritten : unsynced.Allows (.writeTemporary ⟨0, 0⟩ currentOrder) (Except.ok ()) := rfl
  have hsynced : unsynced.Allows (.syncTemporary ⟨0, 0⟩) (Except.ok ()) := rfl
  have hrenamed : unsynced.Allows (.renameTemporary ⟨0, 0⟩) (Except.ok ()) := rfl
  have hparent : unsynced.Allows .syncParent (Except.error "io") := rfl
  have hfilled : filled.setTemp ⟨0, 0⟩ (some currentOrder) = filled := by
    simp [filled, World.setTemp]
  refine .op (r := Except.ok (some current)) ⟨⟨_, rfl, rfl, rfl⟩, trivial⟩ ?_
  refine .op ⟨⟨currentOrder_toFinmap, rfl⟩, hiterated⟩ ?_
  refine .op (r := (0 : Nat)) ⟨⟨_, rfl, rfl, rfl⟩, trivial⟩ ?_
  refine .op  ⟨Or.inl ⟨rfl, rfl, currentOrder, rfl⟩, hcreated⟩ ?_
  refine .op ⟨Or.inl ⟨rfl, rfl⟩, hpermitted⟩ ?_
  refine .op ⟨⟨?_, Or.inl ⟨rfl, hfilled.symm⟩⟩, hwritten⟩ ?_
  · exact Option.some_ne_none _
  refine .op ⟨Or.inl ⟨rfl, rfl⟩, hsynced⟩ ?_
  refine .op ⟨Or.inl ⟨currentOrder, rfl, rfl, rfl⟩, hrenamed⟩ ?_
  refine .op ⟨Or.inr ⟨rfl, ⟨_, rfl⟩, rfl⟩, hparent⟩ ?_
  refine .op (r := Except.error "no such file") ⟨Or.inr (Or.inl ⟨rfl, ⟨_, rfl⟩, rfl⟩), trivial⟩ ?_
  refine .op (r := Except.ok ()) ⟨⟨_, rfl, rfl, rfl⟩, trivial⟩ ?_
  exact .refl _ _

/-- An error answer that leaves the number recorded in the state file, where there was none. -/
theorem persist_torn_unsynced : ∃ e w',
    (unsynced.service formats primitives failing config).Ends caller
        (persistReplayStateOrRollback formats 0 path ∅) accepted (.error e) w' ∧
      accepted.file = none ∧ w'.file = some currentOrder ∧
      ¬ AllOrNothing formats caller (.new current) ∅ accepted w' (.error e) := by
  refine ⟨_, _, ends_unsynced, rfl, rfl, ?_⟩
  intro hnothing
  obtain ⟨hfile, -⟩ := hnothing rfl
  cases hfile

end Veriai.Service.Transparent
