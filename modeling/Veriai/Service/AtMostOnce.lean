import Veriai.Service.Runs
import Veriai.Service.Transparent

/-!
# At-most-once acceptance across processes

In every run in which calls are not dropped, whatever fails or crashes, the
receipts answered valid have numbers that increase in the order of the
replacements of the state file that record them.
-/

namespace Veriai.Service

section Runs

variable {Text : Type} {formats : Formats Text} {env : Primitives} {hz : Hazards} {config : Config}

variable (formats env config) in
/-- The request of a call presents a receipt with this identity and number. -/
def PresentsReceipt (t : CallId) (payload : VerifyRequest) (f : Fingerprint) (n : UInt64) : Prop :=
  ∃ receiptBytes expected,
    decodeRequest formats (config.state t.pid) payload = .ok (receiptBytes, expected) ∧
      receiptIdentity env receiptBytes = some (f, n)

variable (formats env config) in
/-- The answer is valid, for a receipt with this identity and number. -/
def AnsweredValid (a : CallId × Request × Response) (f : Fingerprint) (n : UInt64) : Prop :=
  ∃ payload result, a.2 = (.verify payload, .verified (.ok result)) ∧ result.valid = true ∧
    PresentsReceipt formats env config a.1 payload f n

variable (formats env config) in
/-- What the replacements of the state file and the answers so far guarantee. -/
structure AtMostOnce (commits : List Commit) (answers : List (CallId × Request × Response)) :
    Prop where
  /-- Every valid answer rests on a replacement that records its receipt. -/
  recorded : ∀ a ∈ answers, ∀ payload result, a.2 = (.verify payload, .verified (.ok result)) →
    result.valid = true → ∃ f n, PresentsReceipt formats env config a.1 payload f n ∧
      ⟨a.1, f, n⟩ ∈ commits
  increasing : commits.Pairwise fun c d => c.fingerprint = d.fingerprint → c.sequence < d.sequence
  once : answers.Pairwise fun a b => ∀ f n, AnsweredValid formats env config a f n →
    ¬ AnsweredValid formats env config b f n

/-- Two replacements that record the same number of the same identity are one. -/
theorem eq_of_increasing {commits : List Commit}
    (h : commits.Pairwise fun c d => c.fingerprint = d.fingerprint → c.sequence < d.sequence)
    {t t' : CallId} {f : Fingerprint} {n : UInt64} (ht : ⟨t, f, n⟩ ∈ commits)
    (ht' : ⟨t', f, n⟩ ∈ commits) : t = t' := by
  induction h with
  | nil => cases ht
  | @cons c commits hhead _ ih =>
    rcases List.mem_cons.mp ht with hc | hrest
    · rcases List.mem_cons.mp ht' with hc' | hrest'
      · exact congrArg Commit.call (hc.trans hc'.symm)
      · have hlt := hhead _ hrest'
        rw [← hc] at hlt
        exact (lt_irrefl n (hlt rfl)).elim
    · rcases List.mem_cons.mp ht' with hc' | hrest'
      · have hlt := hhead _ hrest
        rw [← hc'] at hlt
        exact (lt_irrefl n (hlt rfl)).elim
      · exact ih hrest hrest'

/-- A request presents one receipt. -/
theorem PresentsReceipt.unique {t : CallId} {payload : VerifyRequest} {f f' : Fingerprint}
    {n n' : UInt64} (h : PresentsReceipt formats env config t payload f n)
    (h' : PresentsReceipt formats env config t payload f' n') : f = f' ∧ n = n' := by
  obtain ⟨receiptBytes, expected, hdecode, hidentity⟩ := h
  obtain ⟨receiptBytes', expected', hdecode', hidentity'⟩ := h'
  obtain ⟨rfl, rfl⟩ := Prod.mk.inj (Except.ok.inj (hdecode.symm.trans hdecode'))
  exact Prod.mk.inj (Option.some.inj (hidentity.symm.trans hidentity'))

/-- While calls are not dropped, the replay protocol needs no condition on the run. -/
theorem reachable_disciplined (hdrops : hz.drops = false) {w : World Text}
    {s : MachineState CallId Request Response (World Text) (Res Text)}
    (h : (service formats env hz config).Reachable w s) :
    ((service formats env hz config).under (Disciplined hz)).Reachable w s := by
  refine Machine.Steps.under ?_ h
  intro w w' hd
  rw [hdrops] at hd
  cases hd

/-- At most one call is answered valid for a receipt, whatever processes present it and
whatever fails: the numbers answered valid increase in the order of their commits. -/
theorem service_atMostOnce (hlawful : formats.Lawful) {path : StatePath}
    (hpath : ∀ pid, (config.state pid).replayStatePath = some path) (hdrops : hz.drops = false)
    {w : World Text} (hw : w.AtRest)
    {s : MachineState CallId Request Response (World Text) (Res Text)}
    (h : (service formats env hz config).Reachable w s) :
    AtMostOnce formats env config s.world.commits s.answers := by
  have hsafe := (replayKeeping hlawful hpath).reachable hw.replayInv
    (reachable_disciplined hdrops h)
  have hincreasing := hsafe.inv.increasing
  have hrecorded : ∀ a ∈ s.answers, ∀ payload result,
      a.2 = (.verify payload, .verified (.ok result)) → result.valid = true →
      ∃ f n, PresentsReceipt formats env config a.1 payload f n ∧
        ⟨a.1, f, n⟩ ∈ s.world.commits := by
    rintro ⟨t, c, r⟩ ha payload result heq hvalid
    obtain ⟨rfl, rfl⟩ := Prod.mk.inj heq
    obtain ⟨receiptBytes, expected, f, n, hdecode, hidentity, hc⟩ := hsafe.answers t _ _ ha hvalid
    exact ⟨f, n, ⟨receiptBytes, expected, hdecode, hidentity⟩, hc⟩
  refine ⟨hrecorded, hincreasing, ?_⟩
  have honce : s.answers.Pairwise fun a b => a.1 ≠ b.1 := List.pairwise_map.mp h.accounted.once
  refine honce.imp_of_mem ?_
  rintro a b ha hb hne f n ⟨payload, result, heq, hvalid, hpresents⟩
    ⟨payload', result', heq', hvalid', hpresents'⟩
  obtain ⟨g, k, hg, hc⟩ := hrecorded a ha payload result heq hvalid
  obtain ⟨g', k', hg', hc'⟩ := hrecorded b hb payload' result' heq' hvalid'
  obtain ⟨rfl, rfl⟩ := hpresents.unique hg
  obtain ⟨rfl, rfl⟩ := hpresents'.unique hg'
  exact hne (eq_of_increasing hincreasing hc hc')

end Runs

namespace Transparent

open Veriai.Transparent Machine

/-- Two processes answer valid: the first one receipt number 1, the second one, which has loaded
what the first one saved, receipt number 2. -/
theorem service_atMostOnce_twice :
    ∃ s result result',
      (service formats primitives faulty config).Reachable (World.initial none) s ∧
      s.answers = [(⟨0, 0⟩, .verify (payload 1), .verified (.ok result)),
        (⟨1, 0⟩, .verify (payload 2), .verified (.ok result'))] ∧
      result.valid = true ∧ result'.valid = true ∧
      AtMostOnce formats primitives config s.world.commits s.answers := by
  obtain ⟨text, text', result, result', -, -, hvalid, hvalid', hreach⟩ :=
    reaches_second faulty (fun _ _ _ => trivial) (fun _ _ _ _ _ => trivial)
  exact ⟨_, result, result', hreach.of_under, rfl, hvalid, hvalid',
    service_atMostOnce lawful (fun _ => rfl) rfl (World.atRest_initial none) hreach.of_under⟩

end Transparent

end Veriai.Service
