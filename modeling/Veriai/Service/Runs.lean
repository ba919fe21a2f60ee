import Veriai.Service.Transaction

/-!
# Runs of the service

The replay protocol covers every call of the service. In the runs in which calls
are not dropped the file lock makes every replacement of the state file timely,
so that the numbers answered valid increase in the order of their commits.
-/

namespace Veriai.Service

open Handler Protocol

variable {Text : Type} {formats : Formats Text} {env : Primitives} {hz : Hazards} {config : Config}

theorem writeExpiry_neutral (nonce : ByteArr 32) (text : List Char) :
    Handler.All Neutral (writeExpiry nonce text : ServiceM Text ApiError Unit) := by
  induction text with
  | nil => exact .pure _
  | cons c rest ih => exact .bind (.call (.inl trivial)) fun _ => .bind (.ensure _) fun _ => ih

theorem fillRecord_neutral (nonce : ByteArr 32) (expiresAt : UInt64) :
    Handler.All Neutral (fillRecord nonce expiresAt : ServiceM Text ApiError ChallengeResponse) :=
  .bind (.call (.inl trivial)) fun _ => .bind (.ensure _) fun _ =>
    .bind (writeExpiry_neutral nonce _) fun _ =>
      .bind (.call (.inl trivial)) fun _ => .bind (.ensure _) fun _ =>
        .bind (.call (.inl trivial)) fun _ => .bind (.ensure _) fun _ => .pure _

theorem issueChallenge_neutral (expiresAt : UInt64) (attempts : Nat) :
    Handler.All Neutral
      (issueChallenge expiresAt attempts : ServiceM Text ApiError ChallengeResponse) := by
  induction attempts with
  | zero => exact .throw _
  | succ attempts ih =>
    refine .bind (.call (.inl trivial)) fun nonce => .bind (.call (.inl trivial)) fun r => ?_
    match r with
    | .ok () => exact fillRecord_neutral nonce expiresAt
    | .error .alreadyExists => exact ih
    | .error (.other e) => exact .throw _

/-- The challenge handler is neutral for the replay state. -/
theorem challengeHandler_neutral (state : AppState) :
    Handler.All Neutral (challengeHandler state : ServiceM Text ApiError ChallengeResponse) :=
  .bind (.ensure _) fun _ => .bind (.call (.inl trivial)) fun _ => .bind (.ensure _) fun _ =>
    .bind (.ensure _) fun _ => .bind (.ensure _) fun _ => .bind (.call (.inl trivial)) fun _ =>
      .bind (.ensure _) fun _ => .bind (.call (.inl trivial)) fun _ => .bind (.ensure _) fun _ =>
        issueChallenge_neutral _ 8

variable (formats env config) in
/-- What an answer promises about the replay state. -/
def Promised (t : CallId) : Request → Response → World Text → Prop
  | .verify payload, .verified (.ok result), w => Answered formats env config t payload result w
  | _, _, _ => True

theorem Promised.mono {t : CallId} {c : Request} {a : Response} {w w' : World Text}
    (hcommits : w.commits ⊆ w'.commits) (h : Promised formats env config t c a w) :
    Promised formats env config t c a w' := by
  match c, a with
  | .verify payload, .verified (.ok result) =>
    intro hvalid
    obtain ⟨receiptBytes, expected, f, n, hdecode, hidentity, hc⟩ := h hvalid
    exact ⟨receiptBytes, expected, f, n, hdecode, hidentity, hcommits hc⟩
  | .verify _, .verified (.error _) => trivial
  | .verify _, .challenged _ => trivial
  | .challenge, _ => trivial

/-- Every call keeps to the replay protocol and to its promise. -/
theorem replayKeeping (hlawful : formats.Lawful) {path : StatePath}
    (hpath : ∀ pid, (config.state pid).replayStatePath = some path) :
    (replayProtocol formats env hz config).Keeping (Promised formats env config) where
  post_later t c a w w' hlater h := h.mono hlater.commits
  post_rely t c a w w' _ _ hrely h := h.mono hrely.commits
  programs := by
    rintro t c w w' _ _ hw'
    cases c with
    | verify payload =>
      have hspec := verifyHandler_spec env hz hlawful (hpath t.pid) payload
      refine Triple.bind hspec ?_ w' hw' trivial
      intro x
      cases x with
      | ok result => exact Triple.ret fun _ _ h => h
      | error e => exact Triple.ret fun _ _ _ => trivial
    | challenge =>
      have hspec := spec_neutral formats env hz config (A := fun _ => True) (t := t)
        (challengeHandler_neutral (config.state t.pid)) fun _ _ _ _ _ _ => trivial
      refine Triple.bind hspec ?_ w' hw' trivial
      exact fun x => Triple.ret fun _ _ _ => by cases x <;> trivial

/-- At rest the rules of the replay state hold. -/
theorem World.AtRest.replayInv {w : World Text} (h : w.AtRest) : ReplayInv formats w where
  slots := by
    intro name t hs
    rw [h.slots name] at hs
    cases hs
  base := by
    intro t
    rw [h.base t]
    exact Nat.zero_le _
  covered := by
    intro c hc
    rw [h.commits] at hc
    cases hc
  increasing := by
    rw [h.commits]
    exact List.Pairwise.nil

end Veriai.Service
