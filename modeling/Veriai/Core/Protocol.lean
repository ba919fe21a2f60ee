import Veriai.Core.Program

/-!
# Protocols between threads

A protocol says what each thread may do and what it can count on while the
others act. Proofs go thread by thread: a program meets its contract when every
operation is permitted where it stands, whatever happened in between. The
contracts of all programs give the invariant of every reachable state.
-/

namespace Veriai

variable {Tid Call Answer W Op : Type} {Res : Op → Type}

/-- What threads may do and what they can count on. -/
structure Contract (Tid W Op : Type) where
  /-- Holds between all operations. -/
  inv : W → Prop
  /-- What thread `t` can count on while the others act. -/
  rely : Tid → W → W → Prop
  /-- When thread `t` may perform the operation. -/
  permit : Tid → Op → W → Prop
  /-- How the world may change at all. -/
  later : W → W → Prop

/-- The change keeps the contract with the threads it spares. -/
structure Contract.Keeps (C : Contract Tid W Op) (spared : Tid → Prop) (w w' : W) : Prop where
  inv : C.inv w'
  later : C.later w w'
  rely : ∀ t, spared t → C.rely t w w'

/-- From world `w` the program of thread `t` performs permitted operations only,
whatever the others do in between, and returns in a world that satisfies `Q`. -/
def Contract.wp (C : Contract Tid W Op) (M : Machine Tid Call Answer W Res) {α : Type} (t : Tid) :
    Prog Res α → (α → W → Prop) → W → Prop
  | .ret a, Q, w => Q a w
  | .op o k, Q, w => ∀ w₁, C.inv w₁ → C.rely t w w₁ →
      C.permit t o w₁ ∧ ∀ r w₂, M.exec t o r w₁ w₂ → C.inv w₂ → C.wp M t (k r) Q w₂

/-- A contract that every step of the machine keeps. -/
structure Protocol (M : Machine Tid Call Answer W Res) extends Contract Tid W Op where
  rely_refl : ∀ t w, rely t w w
  rely_trans : ∀ t w w₁ w', rely t w w₁ → rely t w₁ w' → rely t w w'
  later_refl : ∀ w, later w w
  later_trans : ∀ w w₁ w', later w w₁ → later w₁ w' → later w w'
  exec_keeps : ∀ t o r w w', inv w → permit t o w → M.exec t o r w w' →
    toContract.Keeps (· ≠ t) w w'
  start_keeps : ∀ t c w w', inv w → M.start t c w w' → toContract.Keeps (· ≠ t) w w'
  abandon_keeps : ∀ t o goesOn w w', inv w → permit t o w → M.abandon t o goesOn w w' →
    toContract.Keeps (· ≠ t) w w' ∧
      (goesOn = true → toContract.wp M t (M.leftover o) (fun _ _ => True) w')
  ambient_keeps : ∀ ended w w', inv w → M.ambient ended w w' →
    toContract.Keeps (fun t => ended t = false) w w'

namespace Protocol

variable {M : Machine Tid Call Answer W Res} (P : Protocol M)

/-- What holds before a program that keeps to the protocol and returns with `Q`. -/
abbrev wp {α : Type} (t : Tid) (p : Prog Res α) (Q : α → W → Prop) (w : W) : Prop :=
  P.toContract.wp M t p Q w

/-- The assertion of thread `t` survives what the others do. -/
def Stable (t : Tid) (A : W → Prop) : Prop :=
  ∀ w w', P.inv w → P.inv w' → P.rely t w w' → A w → A w'

variable {P} {α β : Type} {t : Tid} {w : W}

/-- A weaker condition on the results. -/
theorem wp_mono {p : Prog Res α} {Q Q' : α → W → Prop} (hQ : ∀ a w, P.inv w → Q a w → Q' a w)
    (hw : P.inv w) (h : P.wp t p Q w) : P.wp t p Q' w := by
  induction p generalizing w with
  | ret a => exact hQ a w hw h
  | op o k ih =>
    intro w₁ hw₁ hrely
    obtain ⟨hpermit, hk⟩ := h w₁ hw₁ hrely
    exact ⟨hpermit, fun r w₂ he hw₂ => ih r hw₂ (hk r w₂ he hw₂)⟩

/-- The second program runs where the first one ends. -/
theorem wp_bind {p : Prog Res α} {f : α → Prog Res β} {Q : β → W → Prop}
    (h : P.wp t p (fun a w => P.wp t (f a) Q w) w) : P.wp t (p >>= f) Q w := by
  induction p generalizing w with
  | ret a => exact h
  | op o k ih =>
    intro w₁ hw₁ hrely
    obtain ⟨hpermit, hk⟩ := h w₁ hw₁ hrely
    exact ⟨hpermit, fun r w₂ he hw₂ => ih r (hk r w₂ he hw₂)⟩

/-- What a program is about to do is not disturbed by the others. -/
theorem wp_stable {p : Prog Res α} {Q : α → W → Prop} (hQ : ∀ a, P.Stable t (Q a)) :
    P.Stable t (P.wp t p Q) := by
  intro w w' hw hw' hrely h
  cases p with
  | ret a => exact hQ a w w' hw hw' hrely h
  | op o k => exact fun w₁ hw₁ hrely' => h w₁ hw₁ (P.rely_trans t w w' w₁ hrely hrely')

variable (P) in
/-- From `A` the program returns a value and a world in the relation `Q`. -/
def Triple (t : Tid) (A : W → Prop) (p : Prog Res α) (Q : α → W → Prop) : Prop :=
  ∀ w, P.inv w → A w → P.wp t p Q w

/-- The invariant can be used after a program as well. -/
theorem Triple.bind {A : W → Prop} {p : Prog Res α} {f : α → Prog Res β} {Q : α → W → Prop}
    {R : β → W → Prop} (hp : P.Triple t A p Q) (hf : ∀ a, P.Triple t (Q a) (f a) R) :
    P.Triple t A (p >>= f) R := fun w hw hA =>
  wp_bind (wp_mono (fun a w' hw' hQ => hf a w' hw' hQ) hw (hp w hw hA))

/-- A program that has returned keeps what is known. -/
theorem Triple.ret {A : W → Prop} {a : α} {Q : α → W → Prop}
    (h : ∀ w, P.inv w → A w → Q a w) : P.Triple t A (.ret a) Q := h

/-- One operation: its precondition is stable and permits it, its effect gives the rest. -/
theorem Triple.op {A : W → Prop} {o : Op} {k : Res o → Prog Res α} {R : Res o → W → Prop}
    {Q : α → W → Prop} (hA : P.Stable t A) (hpermit : ∀ w, P.inv w → A w → P.permit t o w)
    (heffect : ∀ r w w', P.inv w → P.inv w' → A w → M.exec t o r w w' → R r w')
    (hk : ∀ r, P.Triple t (R r) (k r) Q) : P.Triple t A (.op o k) Q := by
  intro w hw hAw w₁ hw₁ hrely
  have hA₁ := hA w w₁ hw hw₁ hrely hAw
  refine ⟨hpermit w₁ hw₁ hA₁, ?_⟩
  intro r w₂ he hw₂
  exact hk r w₂ hw₂ (heffect r w₁ w₂ hw₁ hw₂ hA₁ he)

/-- Operations that need no permission and change nothing the thread counts on. -/
theorem Triple.of_all {N : Op → Prop} {A : W → Prop} {p : Prog Res α} (hp : p.All N)
    (hA : P.Stable t A) (hpermit : ∀ o w, N o → P.permit t o w)
    (hframe : ∀ o r w w', N o → P.inv w → M.exec t o r w w' → P.rely t w w') :
    P.Triple t A p fun _ => A := by
  induction hp with
  | ret a => exact fun _ _ h => h
  | @op o k ho _ ih =>
    refine Triple.op (R := fun _ => A) hA (fun w _ _ => hpermit o w ho) ?_ ih
    intro r w w' hw hw' hAw he
    exact hA w w' hw hw' (hframe o r w w' ho hw he) hAw

variable (P) in
/-- From `A` the handler returns a value in the relation `Q` or an error in the relation `E`. -/
def Spec {ε : Type} (t : Tid) (A : W → Prop) (m : Handler Res ε α) (Q : α → W → Prop)
    (E : ε → W → Prop) : Prop :=
  P.Triple t A m.run fun x w => match x with
    | .ok a => Q a w
    | .error e => E e w

section Spec

variable {ε ε' : Type} {A B : W → Prop} {Q : α → W → Prop} {R : β → W → Prop} {E : ε → W → Prop}

/-- A result keeps what is known. -/
theorem Spec.pure {a : α} (h : ∀ w, P.inv w → A w → Q a w) :
    P.Spec t A (Pure.pure a : Handler Res ε α) Q E := h

/-- An error keeps what is known. -/
theorem Spec.throw {e : ε} (h : ∀ w, P.inv w → A w → E e w) :
    P.Spec t A (throw e : Handler Res ε α) Q E := h

/-- A value at hand: the two outcomes are told apart. -/
theorem Spec.ensure {x : Except ε α} (hok : ∀ a, x = .ok a → ∀ w, P.inv w → A w → Q a w)
    (herr : ∀ e, x = .error e → ∀ w, P.inv w → A w → E e w) :
    P.Spec t A (Handler.ensure x) Q E := by
  cases x with
  | ok a => exact hok a rfl
  | error e => exact herr e rfl

/-- The second handler starts with what the first one leaves. -/
theorem Spec.bind {m : Handler Res ε α} {f : α → Handler Res ε β} (hm : P.Spec t A m Q E)
    (hf : ∀ a, P.Spec t (Q a) (f a) R E) : P.Spec t A (m >>= f) R E := by
  refine Triple.bind hm ?_
  intro x
  cases x with
  | ok a => exact hf a
  | error e => exact fun _ _ h => h

/-- An operation is permitted, and has the effect stated for it. -/
theorem Spec.call {o : Op} {R : Res o → W → Prop} (hA : P.Stable t A)
    (hpermit : ∀ w, P.inv w → A w → P.permit t o w)
    (heffect : ∀ r w w', P.inv w → P.inv w' → A w → M.exec t o r w w' → R r w') :
    P.Spec t A (Handler.call o : Handler Res ε (Res o)) R E :=
  Triple.op hA hpermit heffect fun _ _ _ h => h

/-- A fallible operation, its error reworded and returned early. -/
theorem Spec.attempt {ε₀ : Type} {o : Op} {f : ε₀ → ε} (hres : Res o = Except ε₀ α)
    (hA : P.Stable t A) (hpermit : ∀ w, P.inv w → A w → P.permit t o w)
    (heffect : ∀ r w w', P.inv w → P.inv w' → A w → M.exec t o r w w' → match cast hres r with
      | .ok a => Q a w'
      | .error e => E (f e) w') :
    P.Spec t A (Handler.call o >>= fun r => Handler.ensure ((cast hres r).mapError f)) Q E := by
  refine Spec.bind (Q := fun r w => match cast hres r with
    | .ok a => Q a w
    | .error e => E (f e) w) (Spec.call hA hpermit heffect) ?_
  intro r
  cases hr : cast hres r with
  | ok a =>
    refine Spec.pure ?_
    intro w _ h
    simpa [hr] using h
  | error e =>
    refine Spec.throw ?_
    intro w _ h
    simpa [hr] using h

/-- A fallible operation with what follows on its success. -/
theorem Spec.attempt_bind {ε₀ : Type} {o : Op} {f : ε₀ → ε} {k : α → Handler Res ε β}
    (hres : Res o = Except ε₀ α) (hA : P.Stable t A)
    (hpermit : ∀ w, P.inv w → A w → P.permit t o w)
    (heffect : ∀ r w w', P.inv w → P.inv w' → A w → M.exec t o r w w' → match cast hres r with
      | .ok a => Q a w'
      | .error e => E (f e) w')
    (hk : ∀ a, P.Spec t (Q a) (k a) R E) :
    P.Spec t A (Handler.call o >>= fun r => Handler.ensure ((cast hres r).mapError f) >>= k) R
      E := by
  have hfirst := Spec.attempt (f := f) hres hA hpermit heffect
  exact Spec.bind (m := Handler.call o >>= fun r => Handler.ensure ((cast hres r).mapError f))
    hfirst hk

/-- Consequence. -/
theorem Spec.weaken {m : Handler Res ε α} {Q' : α → W → Prop} {E' : ε → W → Prop}
    (h : P.Spec t A m Q E) (hA : ∀ w, P.inv w → B w → A w)
    (hQ : ∀ a w, P.inv w → Q a w → Q' a w) (hE : ∀ e w, P.inv w → E e w → E' e w) :
    P.Spec t B m Q' E' := by
  intro w hw hB
  refine wp_mono ?_ hw (h w hw (hA w hw hB))
  intro x w' hw'
  cases x with
  | ok a => exact hQ a w' hw'
  | error e => exact hE e w' hw'

/-- Nothing need be known after an early return. -/
theorem Spec.loose {m : Handler Res ε α} (h : P.Spec t A m Q E) :
    P.Spec t A m Q fun _ _ => True :=
  h.weaken (fun _ _ hA => hA) (fun _ _ _ hQ => hQ) fun _ _ _ _ => trivial

/-- A handler with its errors reworded. -/
theorem Spec.mapError {f : ε → ε'} {E' : ε' → W → Prop} {m : Handler Res ε α}
    (h : P.Spec t A m Q fun e => E' (f e)) : P.Spec t A (m.mapError f) Q E' := by
  refine Triple.bind h ?_
  intro x
  cases x with
  | ok a => exact fun _ _ h => h
  | error e => exact fun _ _ h => h

/-- The outcome of a handler is a value. -/
theorem Spec.outcome {m : Handler Res ε α} {E' : ε' → W → Prop} (h : P.Spec t A m Q E) :
    P.Spec t A (m.outcome : Handler Res ε' (Except ε α))
      (fun x w => match x with
        | .ok a => Q a w
        | .error e => E e w) E' :=
  Triple.bind h fun _ _ _ h => h

/-- A scope that is left early: the operation of leaving it follows the error. -/
theorem Spec.leaving {leave : Op} {m : Handler Res ε α} {E' : ε → W → Prop}
    (h : P.Spec t A m Q E) (hE : ∀ e, P.Stable t (E e))
    (hpermit : ∀ e w, P.inv w → E e w → P.permit t leave w)
    (heffect : ∀ e r w w', P.inv w → P.inv w' → E e w → M.exec t leave r w w' → E' e w') :
    P.Spec t A (m.leaving leave) Q E' := by
  refine Triple.bind h ?_
  intro x
  cases x with
  | ok a => exact fun _ _ h => h
  | error e => exact Triple.op (hE e) (hpermit e) (heffect e) fun _ _ _ h => h

/-- A handler of operations that need no permission and change nothing the thread counts on. -/
theorem Spec.of_all {N : Op → Prop} {m : Handler Res ε α} (hm : Handler.All N m)
    (hA : P.Stable t A) (hpermit : ∀ o w, N o → P.permit t o w)
    (hframe : ∀ o r w w', N o → P.inv w → M.exec t o r w w' → P.rely t w w') :
    P.Spec t A m (fun _ => A) fun _ => A := by
  intro w hw hAw
  refine wp_mono ?_ hw (Triple.of_all hm hA hpermit hframe w hw hAw)
  intro x w' _ h
  cases x <;> exact h

end Spec

variable (P) in
/-- What a thread still has to do is in order. -/
def InOrder (post : Tid → Call → Answer → W → Prop) (t : Tid) (w : W) :
    Thread Call Answer Res → Prop
  | .running c p => P.wp t p (post t c) w
  | .detached p => P.wp t p (fun _ _ => True) w

/-- So is what is left when an operation of it is over. -/
theorem InOrder.remaining {post : Tid → Call → Answer → W → Prop} {p : Prog Res Unit}
    (h : P.wp t p (fun _ _ => True) w) {th : Thread Call Answer Res}
    (hth : Thread.remaining p = some th) : P.InOrder post t w th := by
  cases p with
  | ret a => cases hth
  | op o k =>
    obtain rfl := Option.some.inj hth
    exact h

/-- The contract in a state of the machine: the invariant, every thread in order, and every
answer as promised. -/
structure Safe (P : Protocol M) (post : Tid → Call → Answer → W → Prop)
    (s : MachineState Tid Call Answer W Res) : Prop where
  inv : P.inv s.world
  threads : ∀ t th, s.threads t = some th → P.InOrder post t s.world th
  answers : ∀ t c a, (t, c, a) ∈ s.answers → post t c a s.world

/-- What calls are promised does not get lost, and their programs keep the promise. -/
structure Keeping (P : Protocol M) (post : Tid → Call → Answer → W → Prop) : Prop where
  post_later : ∀ t c a w w', P.later w w' → post t c a w → post t c a w'
  post_rely : ∀ t c a, P.Stable t (post t c a)
  programs : ∀ t c w w', P.inv w → M.start t c w w' → P.inv w' →
    P.wp t (M.program t c) (post t c) w'

section Safe

variable {post : Tid → Call → Answer → W → Prop} {s s' : MachineState Tid Call Answer W Res}

/-- What the others do leaves a thread in order. -/
theorem InOrder.stable (hk : P.Keeping post) {th : Thread Call Answer Res} {w w' : W}
    (hw : P.inv w) (hw' : P.inv w') (hrely : P.rely t w w') (h : P.InOrder post t w th) :
    P.InOrder post t w' th := by
  cases th with
  | running c p => exact wp_stable (hk.post_rely t c) w w' hw hw' hrely h
  | detached p => exact wp_stable (fun _ _ _ _ _ _ _ => trivial) w w' hw hw' hrely h

variable [DecidableEq Tid]

/-- A change that keeps the contract leaves the spared threads in order and the answers true. -/
theorem Safe.update (hk : P.Keeping post) (h : P.Safe post s) {t : Tid} {w : W}
    (hkeeps : P.Keeps (· ≠ t) s.world w) {th : Option (Thread Call Answer Res)}
    (hth : ∀ x, th = some x → P.InOrder post t w x) (started : List Tid) :
    P.Safe post ⟨w, Function.update s.threads t th, started, s.answers⟩ where
  inv := hkeeps.inv
  threads := by
    intro t' x hx
    dsimp only at hx
    by_cases ht : t' = t
    · subst ht
      rw [Function.update_self] at hx
      exact hth x hx
    · rw [Function.update_of_ne ht] at hx
      exact (h.threads t' x hx).stable hk h.inv hkeeps.inv (hkeeps.rely t' ht)
  answers := fun t' c a ha => hk.post_later t' c a _ _ hkeeps.later (h.answers t' c a ha)

/-- Every step of the machine keeps the contract. -/
theorem Safe.step (hk : P.Keeping post) (h : P.Safe post s) (hstep : M.Step s s') :
    P.Safe post s' ∧ P.later s.world s'.world := by
  cases hstep with
  | @start t c w ht hw =>
    have hkeeps := P.start_keeps t c _ w h.inv hw
    refine ⟨h.update hk hkeeps ?_ _, hkeeps.later⟩
    intro x hx
    obtain rfl := Option.some.inj hx
    exact hk.programs t c _ w h.inv hw hkeeps.inv
  | @run t c o k r w ht he =>
    obtain ⟨hpermit, hcont⟩ := h.threads t _ ht s.world h.inv (P.rely_refl t _)
    have hkeeps := P.exec_keeps t o r _ w h.inv hpermit he
    refine ⟨h.update hk hkeeps ?_ _, hkeeps.later⟩
    intro x hx
    obtain rfl := Option.some.inj hx
    exact hcont r w he hkeeps.inv
  | @answer t c a ht =>
    refine ⟨⟨h.inv, ?_, ?_⟩, P.later_refl _⟩
    · intro t' x hx
      dsimp only at hx
      by_cases htt : t' = t
      · subst htt
        simp at hx
      · rw [Function.update_of_ne htt] at hx
        exact h.threads t' x hx
    · intro t' c' a' hmem
      rcases List.mem_append.mp hmem with hmem | hmem
      · exact h.answers t' c' a' hmem
      · obtain ⟨rfl, rfl, rfl⟩ : t' = t ∧ c' = c ∧ a' = a := by simpa using hmem
        exact h.threads t' _ ht
  | @abandon t c o k goesOn w ht ha =>
    obtain ⟨hpermit, _⟩ := h.threads t _ ht s.world h.inv (P.rely_refl t _)
    obtain ⟨hkeeps, hgoesOn⟩ := P.abandon_keeps t o goesOn _ w h.inv hpermit ha
    refine ⟨h.update hk hkeeps ?_ _, hkeeps.later⟩
    intro x hx
    cases goesOn with
    | false => cases hx
    | true => exact .remaining (hgoesOn rfl) hx
  | @land t o k r w ht he =>
    obtain ⟨hpermit, hcont⟩ := h.threads t _ ht s.world h.inv (P.rely_refl t _)
    have hkeeps := P.exec_keeps t o r _ w h.inv hpermit he
    exact ⟨h.update hk hkeeps (fun x hx => .remaining (hcont r w he hkeeps.inv) hx) _, hkeeps.later⟩
  | @ambient ended w ha =>
    have hkeeps := P.ambient_keeps ended _ w h.inv ha
    refine ⟨⟨hkeeps.inv, ?_, ?_⟩, hkeeps.later⟩
    · intro t x hx
      dsimp only at hx
      cases hended : ended t with
      | true => simp [hended] at hx
      | false =>
        rw [hended, if_neg Bool.false_ne_true] at hx
        exact (h.threads t x hx).stable hk h.inv hkeeps.inv (hkeeps.rely t hended)
    · exact fun t c a hmem => hk.post_later t c a _ _ hkeeps.later (h.answers t c a hmem)

/-- Runs keep the contract, and the world only moves on. -/
theorem Safe.steps (hk : P.Keeping post) (h : P.Safe post s) (hsteps : M.Steps s s') :
    P.Safe post s' ∧ P.later s.world s'.world := by
  induction hsteps with
  | refl => exact ⟨h, P.later_refl _⟩
  | tail _ hstep ih =>
    obtain ⟨hsafe, hlater⟩ := ih
    obtain ⟨hsafe', hlater'⟩ := hsafe.step hk hstep
    exact ⟨hsafe', P.later_trans _ _ _ hlater hlater'⟩

omit [DecidableEq Tid] in
/-- Before the first call the contract is the invariant. -/
theorem Safe.initial (hw : P.inv w) : P.Safe post (Machine.initial w) where
  inv := hw
  threads := fun _ _ ht => by simp [Machine.initial] at ht
  answers := fun _ _ _ hmem => (List.not_mem_nil hmem).elim

/-- Every reachable state keeps the contract. -/
theorem Keeping.reachable (hk : P.Keeping post) (hw : P.inv w) (h : M.Reachable w s) :
    P.Safe post s := ((Safe.initial hw).steps hk h).1

end Safe

end Protocol

end Veriai
