import Veriai.Core.Program

/-!
# What a program comes to when it runs alone

A run that is not interleaved comes to an end through the ends of its parts.
`Leads` states what holds at every end, with one rule for each way handlers are
combined; `Delivers` states that there is an end, too. A machine restricted in the
results of its operations makes the surroundings an input: which operations fail,
and what the others return. What holds for all results that operations may have
holds of what a program returns.
-/

namespace Veriai.Machine

variable {Tid Call Answer W Op : Type} {Res : Op → Type} {M : Machine Tid Call Answer W Res}

/-- The machine restricted to operations with these results. -/
def obeying (M : Machine Tid Call Answer W Res) (allowed : (o : Op) → Res o → Prop) :
    Machine Tid Call Answer W Res :=
  { M with exec := fun t o r w w' => M.exec t o r w w' ∧ allowed o r }

section Runs

variable {α β : Type} {t : Tid} {w w' : W}

/-- A program that has returned stays where it is. -/
theorem Runs.ret_inv {a x : α} (h : M.Runs t (.ret a) w (.ret x) w') : x = a ∧ w' = w := by
  cases h with
  | refl => exact ⟨rfl, rfl⟩

/-- A program that returns has performed its first operation. -/
theorem Runs.op_inv {o : Op} {k : Res o → Prog Res α} {x : α}
    (h : M.Runs t (.op o k) w (.ret x) w') :
    ∃ r w₁, M.exec t o r w w₁ ∧ M.Runs t (k r) w₁ (.ret x) w' := by
  cases h with
  | op he hrest => exact ⟨_, _, he, hrest⟩

/-- The end of a whole is reached through the end of its first part. -/
theorem Runs.bind_inv {p : Prog Res α} {f : α → Prog Res β} {y : β}
    (h : M.Runs t (p >>= f) w (.ret y) w') :
    ∃ x w₁, M.Runs t p w (.ret x) w₁ ∧ M.Runs t (f x) w₁ (.ret y) w' := by
  induction p generalizing w with
  | ret a => exact ⟨a, w, .refl _ _, h⟩
  | op o k ih =>
    obtain ⟨r, w₁, he, hrest⟩ := Runs.op_inv h
    obtain ⟨x, w₂, hfirst, hsecond⟩ := ih r hrest
    exact ⟨x, w₂, .op he hfirst, hsecond⟩

end Runs

/-- At every end that the handler comes to alone, the outcome and the world satisfy `Q`. -/
def Leads {ε α : Type} (M : Machine Tid Call Answer W Res) (t : Tid) (m : Handler Res ε α) (w : W)
    (Q : Except ε α → W → Prop) : Prop := ∀ x w', M.Ends t m w x w' → Q x w'

namespace Leads

variable {ε ε' α β : Type} {t : Tid} {w : W} {Q : Except ε α → W → Prop} {R : Except ε β → W → Prop}

/-- A weaker condition on the end. -/
theorem mono {Q' : Except ε α → W → Prop} {m : Handler Res ε α} (h : M.Leads t m w Q)
    (hQ : ∀ x w', Q x w' → Q' x w') : M.Leads t m w Q' :=
  fun x w' hend => hQ x w' (h x w' hend)

/-- Two conditions on the end hold together. -/
theorem and {Q' : Except ε α → W → Prop} {m : Handler Res ε α} (h : M.Leads t m w Q)
    (h' : M.Leads t m w Q') : M.Leads t m w fun x w' => Q x w' ∧ Q' x w' :=
  fun x w' hend => ⟨h x w' hend, h' x w' hend⟩

/-- A value at hand ends with it. -/
theorem ensure {x : Except ε α} (h : Q x w) : M.Leads t (Handler.ensure x) w Q := by
  intro y w' hend
  obtain ⟨rfl, rfl⟩ := Runs.ret_inv hend
  exact h

/-- A result ends the handler. -/
theorem pure {a : α} (h : Q (.ok a) w) : M.Leads t (Pure.pure a : Handler Res ε α) w Q :=
  ensure h

/-- An error ends the handler. -/
theorem throw {e : ε} (h : Q (.error e) w) : M.Leads t (throw e : Handler Res ε α) w Q :=
  ensure h

/-- Nothing is known of the first part. -/
theorem bind_any {m : Handler Res ε α} {f : α → Handler Res ε β}
    (hok : ∀ a w₁, M.Leads t (f a) w₁ R) (herr : ∀ e w₁, R (.error e) w₁) :
    M.Leads t (m >>= f) w R := by
  intro y w' hend
  obtain ⟨x, w₁, -, hsecond⟩ := Runs.bind_inv hend
  cases x with
  | ok a => exact hok a w₁ y w' hsecond
  | error e =>
    obtain ⟨rfl, rfl⟩ := Runs.ret_inv hsecond
    exact herr e _

/-- An operation ends with any of its results. -/
theorem call {o : Op} {Q : Except ε (Res o) → W → Prop}
    (h : ∀ r w', M.exec t o r w w' → Q (.ok r) w') :
    M.Leads t (Handler.call o : Handler Res ε (Res o)) w Q := by
  intro x w' hend
  obtain ⟨r, w₁, he, hrest⟩ := Runs.op_inv hend
  obtain ⟨rfl, rfl⟩ := Runs.ret_inv hrest
  exact h r _ he

/-- The second handler goes on where the first one ends with a value. -/
theorem bind {m : Handler Res ε α} {f : α → Handler Res ε β}
    (hm : M.Leads t m w fun x w₁ => match x with
      | .ok a => M.Leads t (f a) w₁ R
      | .error e => R (.error e) w₁) : M.Leads t (m >>= f) w R := by
  intro y w' hend
  obtain ⟨x, w₁, hfirst, hsecond⟩ := Runs.bind_inv hend
  have hmid := hm x w₁ hfirst
  cases x with
  | ok a => exact hmid y w' hsecond
  | error e =>
    obtain ⟨rfl, rfl⟩ := Runs.ret_inv hsecond
    exact hmid

/-- The operation with what follows. -/
theorem call_bind {o : Op} {f : Res o → Handler Res ε β}
    (h : ∀ r w₁, M.exec t o r w w₁ → M.Leads t (f r) w₁ R) :
    M.Leads t (Handler.call o >>= f) w R := bind (call h)

/-- A value at hand with what follows on its success. -/
theorem ensure_bind {x : Except ε α} {f : α → Handler Res ε β}
    (hok : ∀ a, x = .ok a → M.Leads t (f a) w R) (herr : ∀ e, x = .error e → R (.error e) w) :
    M.Leads t (Handler.ensure x >>= f) w R := by
  refine bind (ensure ?_)
  cases x with
  | ok a => exact hok a rfl
  | error e => exact herr e rfl

/-- A fallible operation, its error reworded and returned early, with what follows. -/
theorem attempt_bind {ε₀ : Type} {o : Op} {f : ε₀ → ε} {k : α → Handler Res ε β}
    (hres : Res o = Except ε₀ α)
    (h : ∀ r w₁, M.exec t o r w w₁ → match cast hres r with
      | .ok a => M.Leads t (k a) w₁ R
      | .error e => R (.error (f e)) w₁) :
    M.Leads t (Handler.call o >>= fun r => Handler.ensure ((cast hres r).mapError f) >>= k) w
      R := by
  refine call_bind ?_
  intro r w₁ he
  have hr := h r w₁ he
  refine ensure_bind ?_ ?_
  · intro a ha
    cases hcast : cast hres r with
    | ok b =>
      rw [hcast] at hr ha
      obtain rfl := Except.ok.inj ha
      exact hr
    | error e =>
      rw [hcast] at ha
      cases ha
  · intro e he
    cases hcast : cast hres r with
    | ok b =>
      rw [hcast] at he
      cases he
    | error e₀ =>
      rw [hcast] at hr he
      obtain rfl := Except.error.inj he
      exact hr

/-- A fallible operation that comes last. -/
theorem attempt {ε₀ : Type} {o : Op} {f : ε₀ → ε} (hres : Res o = Except ε₀ α)
    (h : ∀ r w₁, M.exec t o r w w₁ → Q ((cast hres r).mapError f) w₁) :
    M.Leads t (Handler.call o >>= fun r => Handler.ensure ((cast hres r).mapError f)) w Q :=
  call_bind fun r w₁ he => ensure (h r w₁ he)

/-- The outcome of a handler is a value. -/
theorem outcome {m : Handler Res ε α} {Q : Except ε' (Except ε α) → W → Prop}
    (h : M.Leads t m w fun x w' => Q (.ok x) w') :
    M.Leads t (m.outcome : Handler Res ε' (Except ε α)) w Q := by
  intro y w' hend
  obtain ⟨x, w₁, hfirst, hsecond⟩ := Runs.bind_inv hend
  obtain ⟨rfl, rfl⟩ := Runs.ret_inv hsecond
  exact h x _ hfirst

/-- A handler with its errors reworded. -/
theorem mapError {f : ε → ε'} {m : Handler Res ε α} {Q : Except ε' α → W → Prop}
    (h : M.Leads t m w fun x w' => Q (x.mapError f) w') : M.Leads t (m.mapError f) w Q := by
  intro y w' hend
  obtain ⟨x, w₁, hfirst, hsecond⟩ := Runs.bind_inv hend
  obtain ⟨rfl, rfl⟩ := Runs.ret_inv hsecond
  exact h x _ hfirst

/-- On an early return the operation of leaving the scope comes last. -/
theorem leaving {leave : Op} {m : Handler Res ε α}
    (h : M.Leads t m w fun x w₁ => match x with
      | .ok a => Q (.ok a) w₁
      | .error e => ∀ r w', M.exec t leave r w₁ w' → Q (.error e) w') :
    M.Leads t (m.leaving leave) w Q := by
  intro y w' hend
  obtain ⟨x, w₁, hfirst, hsecond⟩ := Runs.bind_inv hend
  have hmid := h x w₁ hfirst
  cases x with
  | ok a =>
    obtain ⟨rfl, rfl⟩ := Runs.ret_inv hsecond
    exact hmid
  | error e =>
    obtain ⟨r, w₂, he, hrest⟩ := Runs.op_inv hsecond
    obtain ⟨rfl, rfl⟩ := Runs.ret_inv hrest
    exact hmid r _ he

/-- Leaving the scope early does not matter to a postcondition that every error meets. -/
theorem leaving_any {leave : Op} {m : Handler Res ε α} (h : M.Leads t m w Q)
    (herr : ∀ e w', Q (.error e) w') : M.Leads t (m.leaving leave) w Q := by
  refine leaving (h.mono ?_)
  intro x w₁ hx
  cases x with
  | ok a => exact hx
  | error e => exact fun _ w' _ => herr e w'

/-- What every operation of a handler keeps, the handler keeps. -/
theorem of_all {N : Op → Prop} {I : W → W → Prop} {m : Handler Res ε α} (hm : Handler.All N m)
    (hrefl : ∀ w, I w w) (htrans : ∀ w w₁ w', I w w₁ → I w₁ w' → I w w')
    (hstep : ∀ o r w w', N o → M.exec t o r w w' → I w w') :
    M.Leads t m w fun _ w' => I w w' := by
  have hruns : ∀ {p : Prog Res (Except ε α)}, p.All N → ∀ {w x w'},
      M.Runs t p w (.ret x) w' → I w w' := by
    intro p hp
    induction hp with
    | ret a =>
      intro w x w' hrun
      obtain ⟨-, rfl⟩ := Runs.ret_inv hrun
      exact hrefl _
    | op ho _ ih =>
      intro w x w' hrun
      obtain ⟨r, w₁, he, hrest⟩ := Runs.op_inv hrun
      exact htrans _ _ _ (hstep _ r w w₁ ho he) (ih r hrest)
  exact fun x w' hend => hruns hm hend

end Leads

section Obeying

variable {allowed : (o : Op) → Res o → Prop} {t : Tid} {w w' : W}

/-- A run with restricted results is a run. -/
theorem Runs.of_obeying {α : Type} {p p' : Prog Res α}
    (h : (M.obeying allowed).Runs t p w p' w') : M.Runs t p w p' w' := by
  induction h with
  | refl => exact .refl _ _
  | op he _ ih => exact .op he.1 ih

variable {ε α : Type} {m : Handler Res ε α} {Q : Except ε α → W → Prop}

/-- Restricting the results leaves what is known of the ends. -/
theorem Leads.obeying (h : M.Leads t m w Q) : (M.obeying allowed).Leads t m w Q :=
  fun x w' hend => h x w' (Runs.of_obeying hend)

/-- The handler comes to an end alone, and every end satisfies `Q`. -/
def Delivers (M : Machine Tid Call Answer W Res) (t : Tid) (m : Handler Res ε α) (w : W)
    (Q : Except ε α → W → Prop) : Prop := (∃ x w', M.Ends t m w x w') ∧ M.Leads t m w Q

end Obeying

/-- The operation has one outcome. -/
structure Only (M : Machine Tid Call Answer W Res) (t : Tid) (o : Op) (w : W) (r : Res o) (w₁ : W) :
    Prop where
  can : M.exec t o r w w₁
  only : ∀ r' w', M.exec t o r' w w' → r' = r ∧ w' = w₁

namespace Delivers

variable {ε ε' α β : Type} {t : Tid} {w : W} {Q : Except ε α → W → Prop} {R : Except ε β → W → Prop}

/-- A weaker condition on the end. -/
theorem mono {Q' : Except ε α → W → Prop} {m : Handler Res ε α} (h : M.Delivers t m w Q)
    (hQ : ∀ x w', Q x w' → Q' x w') : M.Delivers t m w Q' := ⟨h.1, h.2.mono hQ⟩

/-- A value at hand is delivered. -/
theorem ensure {x : Except ε α} (h : Q x w) : M.Delivers t (Handler.ensure x) w Q :=
  ⟨⟨x, w, Ends.ensure rfl⟩, Leads.ensure h⟩

/-- A result is delivered. -/
theorem pure {a : α} (h : Q (.ok a) w) : M.Delivers t (Pure.pure a : Handler Res ε α) w Q :=
  ensure h

/-- An error is delivered. -/
theorem throw {e : ε} (h : Q (.error e) w) : M.Delivers t (throw e : Handler Res ε α) w Q :=
  ensure h

/-- The second handler is delivered where the first one ends with a value. -/
theorem bind {m : Handler Res ε α} {f : α → Handler Res ε β}
    (hm : M.Delivers t m w fun x w₁ => match x with
      | .ok a => M.Delivers t (f a) w₁ R
      | .error e => R (.error e) w₁) : M.Delivers t (m >>= f) w R := by
  obtain ⟨⟨x, w₁, hfirst⟩, hleads⟩ := hm
  refine ⟨?_, Leads.bind (hleads.mono ?_)⟩
  · have hmid := hleads x w₁ hfirst
    cases x with
    | ok a =>
      obtain ⟨⟨y, w', hsecond⟩, -⟩ := hmid
      exact ⟨y, w', hfirst.bind hsecond⟩
    | error e => exact ⟨.error e, w₁, hfirst.bind_early⟩
  · intro y w₂ hy
    cases y with
    | ok a => exact hy.2
    | error e => exact hy

/-- The operation can be performed, whatever comes of it. -/
theorem call {o : Op} {Q : Except ε (Res o) → W → Prop} (hcan : ∃ r w', M.exec t o r w w')
    (h : ∀ r w', M.exec t o r w w' → Q (.ok r) w') :
    M.Delivers t (Handler.call o : Handler Res ε (Res o)) w Q := by
  obtain ⟨r, w', he⟩ := hcan
  exact ⟨⟨.ok r, w', Ends.call he⟩, Leads.call h⟩

/-- The operation with what follows. -/
theorem call_bind {o : Op} {f : Res o → Handler Res ε β} (hcan : ∃ r w', M.exec t o r w w')
    (h : ∀ r w₁, M.exec t o r w w₁ → M.Delivers t (f r) w₁ R) :
    M.Delivers t (Handler.call o >>= f) w R := bind (call hcan h)

/-- A value at hand with what follows on its success. -/
theorem ensure_bind {x : Except ε α} {f : α → Handler Res ε β}
    (hok : ∀ a, x = .ok a → M.Delivers t (f a) w R) (herr : ∀ e, x = .error e → R (.error e) w) :
    M.Delivers t (Handler.ensure x >>= f) w R := by
  refine bind (ensure ?_)
  cases x with
  | ok a => exact hok a rfl
  | error e => exact herr e rfl

/-- A fallible operation, its error reworded and returned early, with what follows. -/
theorem attempt_bind {ε₀ : Type} {o : Op} {f : ε₀ → ε} {k : α → Handler Res ε β}
    (hres : Res o = Except ε₀ α) (hcan : ∃ r w', M.exec t o r w w')
    (h : ∀ r w₁, M.exec t o r w w₁ → match cast hres r with
      | .ok a => M.Delivers t (k a) w₁ R
      | .error e => R (.error (f e)) w₁) :
    M.Delivers t (Handler.call o >>= fun r => Handler.ensure ((cast hres r).mapError f) >>= k) w
      R := by
  refine call_bind hcan ?_
  intro r w₁ he
  have hr := h r w₁ he
  cases hcast : cast hres r with
  | ok a =>
    rw [hcast] at hr
    exact bind (ensure hr)
  | error e =>
    rw [hcast] at hr
    exact bind (ensure hr)

/-- An operation with one outcome, with what follows. -/
theorem only_bind {o : Op} {f : Res o → Handler Res ε β} {r : Res o} {w₁ : W}
    (ho : M.Only t o w r w₁) (h : M.Delivers t (f r) w₁ R) :
    M.Delivers t (Handler.call o >>= f) w R := by
  refine call_bind ⟨r, w₁, ho.can⟩ ?_
  intro r' w' he
  obtain ⟨rfl, rfl⟩ := ho.only r' w' he
  exact h

/-- An operation that only succeeds, with what follows. -/
theorem success_bind {ε₀ : Type} {o : Op} {g : ε₀ → ε} {k : α → Handler Res ε β} {r : Res o}
    {a : α} {w₁ : W} (hres : Res o = Except ε₀ α) (ho : M.Only t o w r w₁)
    (hr : cast hres r = .ok a) (h : M.Delivers t (k a) w₁ R) :
    M.Delivers t (Handler.call o >>= fun r => Handler.ensure ((cast hres r).mapError g) >>= k) w
      R := by
  refine only_bind ho ?_
  rw [hr]
  exact bind (ensure h)

/-- An operation that only succeeds and comes last. -/
theorem success {ε₀ : Type} {o : Op} {g : ε₀ → ε} {r : Res o} {a : α} {w₁ : W}
    (hres : Res o = Except ε₀ α) (ho : M.Only t o w r w₁) (hr : cast hres r = .ok a)
    (h : Q (.ok a) w₁) :
    M.Delivers t (Handler.call o >>= fun r => Handler.ensure ((cast hres r).mapError g)) w Q := by
  refine only_bind ho ?_
  rw [hr]
  exact ensure h

/-- The outcome of a handler is delivered as a value. -/
theorem outcome {m : Handler Res ε α} {Q : Except ε' (Except ε α) → W → Prop}
    (h : M.Delivers t m w fun x w' => Q (.ok x) w') :
    M.Delivers t (m.outcome : Handler Res ε' (Except ε α)) w Q := by
  obtain ⟨⟨x, w', hend⟩, hleads⟩ := h
  exact ⟨⟨.ok x, w', hend.outcome⟩, Leads.outcome hleads⟩

/-- A handler is delivered with its errors reworded. -/
theorem mapError {f : ε → ε'} {m : Handler Res ε α} {Q : Except ε' α → W → Prop}
    (h : M.Delivers t m w fun x w' => Q (x.mapError f) w') : M.Delivers t (m.mapError f) w Q := by
  obtain ⟨⟨x, w', hend⟩, hleads⟩ := h
  exact ⟨⟨x.mapError f, w', hend.mapError⟩, Leads.mapError hleads⟩

/-- A scope whose leaving can always be performed. -/
theorem leaving {leave : Op} {m : Handler Res ε α} (hcan : ∀ w₁, ∃ r w', M.exec t leave r w₁ w')
    (h : M.Delivers t m w fun x w₁ => match x with
      | .ok a => Q (.ok a) w₁
      | .error e => ∀ r w', M.exec t leave r w₁ w' → Q (.error e) w') :
    M.Delivers t (m.leaving leave) w Q := by
  obtain ⟨⟨x, w₁, hend⟩, hleads⟩ := h
  refine ⟨?_, Leads.leaving hleads⟩
  cases x with
  | ok a => exact ⟨.ok a, w₁, hend.leaving⟩
  | error e =>
    obtain ⟨r, w', he⟩ := hcan w₁
    exact ⟨.error e, w', hend.leaving_early he⟩

end Delivers

/-- The call comes to an answer alone, and every answer satisfies `Q`. -/
def Serves (M : Machine Tid Call Answer W Res) (t : Tid) (c : Call) (w : W)
    (Q : Answer → W → Prop) : Prop :=
  (∃ a w', M.Runs t (M.program t c) w (.ret a) w') ∧
    ∀ a w', M.Runs t (M.program t c) w (.ret a) w' → Q a w'

/-- The answer to a call that a handler serves. -/
theorem Delivers.serves {ε α : Type} {t : Tid} {c : Call} {w : W} {m : Handler Res ε α}
    (answer : Except ε α → Answer) {Q : Answer → W → Prop}
    (hprogram : M.program t c = m.run >>= fun x => .ret (answer x))
    (h : M.Delivers t m w fun x w' => Q (answer x) w') : M.Serves t c w Q := by
  obtain ⟨⟨x, w', hend⟩, hleads⟩ := h
  rw [Serves, hprogram]
  refine ⟨⟨answer x, w', (Runs.bind _ hend).trans (.refl _ _)⟩, ?_⟩
  intro a w₁ hrun
  obtain ⟨y, w₂, hfirst, hsecond⟩ := Runs.bind_inv hrun
  obtain ⟨rfl, rfl⟩ := Runs.ret_inv hsecond
  exact hleads y _ hfirst

/-- The machine that knows of the world only which results operations may have. -/
def oracle (allowed : (o : Op) → Res o → Prop) : Machine Unit Empty Empty Unit Res where
  exec _ o r _ _ := allowed o r
  program _ c := c.elim
  start _ _ _ _ := False
  abandon _ _ _ _ _ := False
  ambient _ _ _ := False

/-- The program can return this value where operations have allowed results. -/
def Returns {α : Type} (allowed : (o : Op) → Res o → Prop) (p : Prog Res α) (a : α) : Prop :=
  (oracle allowed).Runs () p () (.ret a) ()

/-- What the program returns on these results. -/
def answerOn {α : Type} (results : (o : Op) → Res o) : Prog Res α → α
  | .ret a => a
  | .op o k => answerOn results (k (results o))

/-- A program comes to an answer on all allowed results. -/
theorem returns_answerOn {α : Type} {allowed : (o : Op) → Res o → Prop}
    {results : (o : Op) → Res o} (hresults : ∀ o, allowed o (results o)) (p : Prog Res α) :
    Returns allowed p (answerOn results p) := by
  induction p with
  | ret a => exact .refl _ _
  | op o k ih => exact .op (hresults o) (ih (results o))

end Veriai.Machine
