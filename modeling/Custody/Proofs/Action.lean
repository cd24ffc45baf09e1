/-
Reading a call backwards.

A call is a sequence of steps, and each step may end it.  So a call that answered
passed every step in turn, and a call that was refused passed some steps and was
refused at the next.  The lemmas here say that for each way of combining steps;
rewriting with them turns "this call answered in that state" into the list of checks
it passed and the states it went through, and nothing about the order of evaluation
has to be unfolded again.

Most of them come in pairs, one for answers and one for refusals.  A refusal keeps
the state it was refused in, which is why it is read with the same care.
-/
import Custody.Guard

namespace Custody

open EStateM (Result)

/-! ### Checks

A check is pure, so only its answers matter here.
-/

namespace Check

variable {α β : Type}

theorem bind_eq_ok {x : Except Error α} {f : α → Except Error β} {b : β} :
    (x >>= f) = .ok b ↔ ∃ a, x = .ok a ∧ f a = .ok b := by
  cases x <;> simp [bind, Except.bind]

theorem pure_eq_ok {a b : α} : (pure a : Except Error α) = .ok b ↔ a = b := by
  simp only [pure, Except.pure, Except.ok.injEq]

theorem discard_eq_ok {x : Except Error α} {r : PUnit} :
    discard x = .ok r ↔ ∃ a, x = .ok a := by
  have hmap : discard x = Except.map (Function.const α ⟨⟩) x := rfl
  rw [hmap]
  cases x <;> simp [Except.map]

/-- Passing a guard clause means that its condition does not hold. -/
theorem refuseIf_eq_ok {c : Prop} [Decidable c] {e : Error}
    {f : Unit → Except Error α} {a : α} :
    (if c then throw e >>= f else f ()) = .ok a ↔ ¬ c ∧ f () = .ok a := by
  by_cases h : c <;> simp [h, bind_eq_ok, throw, throwThe, MonadExceptOf.throw]

/-- A check is evaluated by what it answers with. -/
theorem eq_ok_of_toOption {x : Except Error α} {a : α} (h : x.toOption = some a) : x = .ok a := by
  cases x with
  | ok b => rw [Option.some.inj h]
  | error e => cases h

/-- A list of checks passes if each of them does. -/
theorem forM_eq_ok {f : α → Except Error Unit} :
    ∀ {l : List α}, (∀ a ∈ l, f a = .ok ()) → l.forM f = .ok () := by
  intro l
  induction l with
  | nil => intro _; rfl
  | cons a rest ih =>
      intro h
      show (f a >>= fun _ => rest.forM f) = .ok ()
      rw [h a (by simp)]
      exact ih fun b hb => h b (by simp [hb])

end Check

/-- Only the address of nobody is refused. -/
theorem Address.ensureNonZero_eq_ok {a : Address} {name : String} :
    a.ensureNonZero name = .ok () ↔ a ≠ zero := by
  unfold ensureNonZero isZero
  by_cases h : a = zero <;> simp [h]

namespace Action

variable {σ τ α β γ : Type} {s t : σ}

/-! ### Reading and writing

These steps always answer, so a sequence that starts with one goes on.
-/

theorem get_bind {f : σ → Action σ α} : (get >>= f) s = f s s := rfl

theorem set_bind {u : σ} {f : PUnit → Action σ α} : (set u >>= f) s = f ⟨⟩ u := rfl

theorem modify_bind {g : σ → σ} {f : PUnit → Action σ α} :
    (modify g >>= f) s = f ⟨⟩ (g s) := rfl

theorem pure_eq_ok {a b : α} : (pure a : Action σ α) s = .ok b t ↔ a = b ∧ s = t := by
  show Result.ok a s = .ok b t ↔ _
  rw [Result.ok.injEq]

theorem pure_ne_error {a : α} {e : Error} : (pure a : Action σ α) s ≠ .error e t := nofun

theorem set_eq_ok {u : σ} {r : PUnit} : (set u : Action σ PUnit) s = .ok r t ↔ u = t := by
  show Result.ok PUnit.unit u = .ok r t ↔ _
  simp only [Result.ok.injEq, true_and]

theorem set_ne_error {u : σ} {e : Error} : (set u : Action σ PUnit) s ≠ .error e t := nofun

theorem modify_eq_ok {g : σ → σ} {r : PUnit} :
    (modify g : Action σ PUnit) s = .ok r t ↔ g s = t := by
  show Result.ok PUnit.unit (g s) = .ok r t ↔ _
  simp only [Result.ok.injEq, true_and]

theorem modify_ne_error {g : σ → σ} {e : Error} :
    (modify g : Action σ PUnit) s ≠ .error e t := nofun

/-! ### Checks inside a call -/

theorem throw_ne_ok {e : Error} {a : α} : (throw e : Action σ α) s ≠ .ok a t := nofun

theorem throw_eq_error {e e' : Error} :
    (throw e : Action σ α) s = .error e' t ↔ e = e' ∧ s = t := by
  show Result.error e s = .error e' t ↔ _
  rw [Result.error.injEq]

/-- A check that passes changes nothing. -/
theorem check_eq_ok {x : Except Error α} {a : α} :
    (liftM x : Action σ α) s = .ok a t ↔ x = .ok a ∧ s = t := by
  cases x with
  | ok b =>
    show Result.ok b s = .ok a t ↔ _
    rw [Result.ok.injEq, Except.ok.injEq]
  | error e => exact ⟨nofun, nofun⟩

/-- A check that fails changes nothing either. -/
theorem check_eq_error {x : Except Error α} {e : Error} :
    (liftM x : Action σ α) s = .error e t ↔ x = .error e ∧ s = t := by
  cases x with
  | ok b => exact ⟨nofun, nofun⟩
  | error e' =>
    show Result.error e' s = .error e t ↔ _
    rw [Result.error.injEq, Except.error.injEq]

/-! ### One step after another -/

theorem bind_of_ok {x : Action σ α} {f : α → Action σ β} {a : α} (h : x s = .ok a t) :
    (x >>= f) s = f a t := by
  show EStateM.bind x f s = _
  rw [EStateM.bind, h]

theorem bind_of_error {x : Action σ α} {f : α → Action σ β} {e : Error}
    (h : x s = .error e t) : (x >>= f) s = .error e t := by
  show EStateM.bind x f s = _
  rw [EStateM.bind, h]

theorem bind_eq_ok {x : Action σ α} {f : α → Action σ β} {b : β} :
    (x >>= f) s = .ok b t ↔ ∃ a u, x s = .ok a u ∧ f a u = .ok b t := by
  cases h : x s with
  | ok a u => simp [bind_of_ok h, and_assoc]
  | error e u => simp [bind_of_error h]

/-- A sequence is refused by its first step, or by the rest once that has answered. -/
theorem bind_eq_error {x : Action σ α} {f : α → Action σ β} {e : Error} :
    (x >>= f) s = .error e t ↔
      x s = .error e t ∨ ∃ a u, x s = .ok a u ∧ f a u = .error e t := by
  cases h : x s with
  | ok a u => simp [bind_of_ok h, and_assoc]
  | error e u => simp [bind_of_error h]

theorem discard_eq_ok {x : Action σ α} {r : PUnit} :
    discard x s = .ok r t ↔ ∃ a, x s = .ok a t := by
  have hmap : discard x = EStateM.map (Function.const α ⟨⟩) x := rfl
  rw [hmap, EStateM.map]
  cases h : x s <;> simp

theorem discard_eq_error {x : Action σ α} {e : Error} :
    discard x s = .error e t ↔ x s = .error e t := by
  have hmap : discard x = EStateM.map (Function.const α ⟨⟩) x := rfl
  rw [hmap, EStateM.map]
  cases h : x s <;> simp

/-- Passing a guard clause means that its condition does not hold. -/
theorem refuseIf_eq_ok {c : Prop} [Decidable c] {e : Error} {f : PUnit → Action σ α} {a : α} :
    (if c then throw e >>= f else f ⟨⟩) s = .ok a t ↔ ¬ c ∧ f ⟨⟩ s = .ok a t := by
  by_cases h : c <;> simp [h, bind_eq_ok, throw_ne_ok]

theorem refuseIf_eq_error {c : Prop} [Decidable c] {e e' : Error} {f : PUnit → Action σ α} :
    (if c then throw e >>= f else f ⟨⟩) s = .error e' t ↔
      c ∧ e = e' ∧ s = t ∨ ¬ c ∧ f ⟨⟩ s = .error e' t := by
  by_cases h : c <;> simp [h, bind_eq_error, throw_eq_error, throw_ne_ok]

/-! ### Several checks in one

Checks that a call makes one after another are one check, and the other way round.
-/

theorem check_pure {a : α} {f : α → Action σ β} :
    (liftM (pure a : Except Error α) : Action σ α) >>= f = f a := rfl

theorem check_bind {x : Except Error α} {g : α → Except Error β} {f : β → Action σ γ} :
    (liftM (x >>= g) : Action σ β) >>= f =
      (liftM x : Action σ α) >>= fun a => (liftM (g a) : Action σ β) >>= f := by
  cases x with
  | ok a => rfl
  | error e => rfl

theorem check_refuseIf {c : Prop} [Decidable c] {e : Error} {g : Unit → Except Error α}
    {f : α → Action σ β} :
    (liftM (if c then throw e >>= g else g ⟨⟩) : Action σ α) >>= f =
      if c then (throw e : Action σ PUnit) >>= fun _ => (liftM (g ⟨⟩) : Action σ α) >>= f
      else (liftM (g ⟨⟩) : Action σ α) >>= f := by
  by_cases h : c
  · rw [if_pos h, if_pos h]
    rfl
  · rw [if_neg h, if_neg h]

/-! ### Parts of a state, and undoing -/

variable {part : σ → τ} {update : τ → σ → σ}

theorem on_eq_ok {x : Action τ α} {a : α} :
    on part update x s = .ok a t ↔ ∃ u, x (part s) = .ok a u ∧ update u s = t := by
  unfold on
  cases x (part s) <;> simp [and_assoc]

theorem on_eq_error {x : Action τ α} {e : Error} :
    on part update x s = .error e t ↔ ∃ u, x (part s) = .error e u ∧ update u s = t := by
  unfold on
  cases x (part s) <;> simp [and_assoc]

theorem undoing_eq_ok {undo : σ → σ} {x : Action σ α} {a : α} :
    undoing undo x s = .ok a t ↔ x s = .ok a t := by
  unfold undoing
  cases x s <;> simp

theorem undoing_eq_error {undo : σ → σ} {x : Action σ α} {e : Error} :
    undoing undo x s = .error e t ↔ ∃ u, x s = .error e u ∧ undo u = t := by
  unfold undoing
  cases x s <;> simp [and_assoc]

theorem orRestore_eq_ok {restore : σ → σ → σ} {x : Action σ α} {a : α} :
    orRestore restore x s = .ok a t ↔ x s = .ok a t := by
  unfold orRestore
  cases x s <;> simp

theorem orRestore_eq_error {restore : σ → σ → σ} {x : Action σ α} {e : Error} :
    orRestore restore x s = .error e t ↔ ∃ u, x s = .error e u ∧ restore s u = t := by
  unfold orRestore
  cases x s <;> simp [and_assoc]

/-! ### The state that is left

Some facts do not depend on how an action ends.  They are collected step by step, and
a step that can be refused asks for them at the state before it as well.
-/

/-- The state after an action, whether it answered or was refused. -/
def left (x : Action σ α) (s : σ) : σ :=
  match x s with
  | .ok _ t => t
  | .error _ t => t

theorem left_of_ok {x : Action σ α} {a : α} (h : x s = .ok a t) : x.left s = t := by
  simp [left, h]

theorem left_of_error {x : Action σ α} {e : Error} (h : x s = .error e t) : x.left s = t := by
  simp [left, h]

/-- However an action ends, the state that it leaves has a property. -/
def Leaves (x : Action σ α) (s : σ) (Q : σ → Prop) : Prop := Q (x.left s)

variable {Q R : σ → Prop}

theorem Leaves.of_ok {x : Action σ α} {a : α} (hx : Leaves x s Q) (h : x s = .ok a t) : Q t :=
  left_of_ok h ▸ hx

theorem Leaves.of_error {x : Action σ α} {e : Error} (hx : Leaves x s Q)
    (h : x s = .error e t) : Q t :=
  left_of_error h ▸ hx

theorem Leaves.imp {x : Action σ α} (hx : Leaves x s R) (h : ∀ t, R t → Q t) : Leaves x s Q :=
  h _ hx

theorem leaves_of_forall {x : Action σ α} (h : ∀ t, Q t) : Leaves x s Q := h _

theorem leaves_of_cases {x : Action σ α} (hok : ∀ a t, x s = .ok a t → Q t)
    (herror : ∀ e t, x s = .error e t → Q t) : Leaves x s Q := by
  unfold Leaves left
  cases h : x s with
  | ok a t => exact hok a t h
  | error e t => exact herror e t h

theorem leaves_pure {a : α} (h : Q s) : Leaves (pure a : Action σ α) s Q := h

theorem leaves_get {f : σ → Action σ α} (h : Leaves (f s) s Q) : Leaves (get >>= f) s Q := h

theorem leaves_set {u : σ} (h : Q u) : Leaves (set u : Action σ PUnit) s Q := h

theorem leaves_modify {g : σ → σ} (h : Q (g s)) : Leaves (modify g : Action σ PUnit) s Q := h

theorem leaves_bind {x : Action σ α} {f : α → Action σ β} (hx : Leaves x s Q)
    (hf : ∀ a t, x s = .ok a t → Q t → Leaves (f a) t Q) : Leaves (x >>= f) s Q := by
  cases h : x s with
  | ok a t =>
      have ht := hf a t h (hx.of_ok h)
      unfold Leaves left at ht ⊢
      rwa [bind_of_ok h]
  | error e t =>
      have ht := hx.of_error h
      unfold Leaves left
      rwa [bind_of_error h]

theorem leaves_check {x : Except Error α} {f : α → Action σ β} (hs : Q s)
    (hf : ∀ a, x = .ok a → Leaves (f a) s Q) : Leaves (liftM x >>= f) s Q := by
  cases x with
  | ok a => exact hf a rfl
  | error e => exact hs

theorem leaves_ite {c : Prop} [Decidable c] {x y : Action σ α} (hx : c → Leaves x s Q)
    (hy : ¬ c → Leaves y s Q) : Leaves (if c then x else y) s Q := by
  by_cases h : c
  · rw [if_pos h]
    exact hx h
  · rw [if_neg h]
    exact hy h

theorem leaves_refuseIf {c : Prop} [Decidable c] {e : Error} {f : PUnit → Action σ α}
    (hs : Q s) (hf : ¬ c → Leaves (f ⟨⟩) s Q) :
    Leaves (if c then throw e >>= f else f ⟨⟩) s Q :=
  leaves_ite (fun _ => hs) hf

theorem leaves_discard {x : Action σ α} (h : Leaves x s Q) : Leaves (discard x) s Q := by
  have hmap : discard x = EStateM.map (Function.const α ⟨⟩) x := rfl
  rw [hmap]
  unfold Leaves left EStateM.map at *
  cases hx : x s with
  | ok a t => simpa only [hx] using h
  | error e t => simpa only [hx] using h

theorem leaves_on {x : Action τ α} (h : Leaves x (part s) fun u => Q (update u s)) :
    Leaves (on part update x) s Q := by
  unfold Leaves left on at *
  cases hx : x (part s) with
  | ok a u => simpa only [hx] using h
  | error e u => simpa only [hx] using h

theorem leaves_undoing {undo : σ → σ} {x : Action σ α} (h : Leaves x s Q)
    (hundo : ∀ t, Q t → Q (undo t)) : Leaves (undoing undo x) s Q := by
  unfold Leaves left undoing at *
  cases hx : x s with
  | ok a t => simpa only [hx] using h
  | error e t =>
      rw [hx] at h
      exact hundo t h

theorem leaves_orRestore {restore : σ → σ → σ} {x : Action σ α} (h : Leaves x s Q)
    (hrestore : ∀ t, Q t → Q (restore s t)) : Leaves (orRestore restore x) s Q := by
  unfold Leaves left orRestore at *
  cases hx : x s with
  | ok a t => simpa only [hx] using h
  | error e t =>
      rw [hx] at h
      exact hrestore t h

/-! ### Refusals without a trace

An action that first checks and then writes is refused before it has changed anything.
The writing at its end is not refused at all, and both are told from the text of the
action, like what it leaves.
-/

/-- The action is not refused. -/
def Answers (x : Action σ α) (s : σ) : Prop := ∀ e t, x s ≠ .error e t

theorem answers_pure {a : α} : Answers (pure a : Action σ α) s := nofun

theorem answers_set {u : σ} : Answers (set u : Action σ PUnit) s := nofun

theorem answers_modify {g : σ → σ} : Answers (modify g : Action σ PUnit) s := nofun

theorem answers_on {x : Action τ α} (h : Answers x (part s)) :
    Answers (on part update x) s := by
  intro e t hrefused
  obtain ⟨u, hu, -⟩ := on_eq_error.mp hrefused
  exact h e u hu

theorem answers_bind {x : Action σ α} {f : α → Action σ β} (hx : Answers x s)
    (hf : ∀ a t, x s = .ok a t → Answers (f a) t) : Answers (x >>= f) s := by
  intro e t hrefused
  rcases bind_eq_error.mp hrefused with h | ⟨a, u, ha, h⟩
  · exact hx e t h
  · exact hf a u ha e t h

theorem answers_get {f : σ → Action σ α} (h : Answers (f s) s) : Answers (get >>= f) s := h

theorem answers_check {x : Except Error α} {f : α → Action σ β} {a : α} (hx : x = .ok a)
    (hf : Answers (f a) s) : Answers (liftM x >>= f) s := by
  intro e t hrefused
  rw [hx] at hrefused
  exact hf e t hrefused

theorem answers_refuseIf {c : Prop} [Decidable c] {e : Error} {f : PUnit → Action σ α}
    (hc : ¬ c) (hf : Answers (f ⟨⟩) s) :
    Answers (if c then throw e >>= f else f ⟨⟩) s := by
  rw [if_neg hc]
  exact hf

theorem answers_undoing {undo : σ → σ} {x : Action σ α} (h : Answers x s) :
    Answers (undoing undo x) s := by
  intro e t hrefused
  obtain ⟨u, hu, -⟩ := undoing_eq_error.mp hrefused
  exact h e u hu

theorem answers_orRestore {restore : σ → σ → σ} {x : Action σ α} (h : Answers x s) :
    Answers (orRestore restore x) s := by
  intro e t hrefused
  obtain ⟨u, hu, -⟩ := orRestore_eq_error.mp hrefused
  exact h e u hu

theorem answers_discard {x : Action σ α} (h : Answers x s) : Answers (discard x) s :=
  fun e t hrefused => h e t (discard_eq_error.mp hrefused)

theorem answers_ite {c : Prop} [Decidable c] {x y : Action σ α} (hx : c → Answers x s)
    (hy : ¬ c → Answers y s) : Answers (if c then x else y) s := by
  by_cases hc : c
  · rw [if_pos hc]
    exact hx hc
  · rw [if_neg hc]
    exact hy hc

/-- An action that is not refused has an answer. -/
theorem Answers.exists_ok {x : Action σ α} (h : Answers x s) : ∃ a t, x s = .ok a t := by
  cases hx : x s with
  | ok a t => exact ⟨a, t, rfl⟩
  | error e t => exact absurd hx (h e t)

/-- If the action is refused, it has changed nothing. -/
def Clean (x : Action σ α) (s : σ) : Prop := ∀ e t, x s = .error e t → t = s

theorem Answers.clean {x : Action σ α} (h : Answers x s) : Clean x s :=
  fun e t hrefused => absurd hrefused (h e t)

theorem clean_get {f : σ → Action σ α} (h : Clean (f s) s) : Clean (get >>= f) s := h

theorem clean_check {x : Except Error α} {f : α → Action σ β}
    (hf : ∀ a, x = .ok a → Clean (f a) s) : Clean (liftM x >>= f) s := by
  intro e t hrefused
  rcases bind_eq_error.mp hrefused with h | ⟨a, u, ha, h⟩
  · exact (check_eq_error.mp h).2.symm
  · obtain ⟨hx, rfl⟩ := check_eq_ok.mp ha
    exact hf a hx e t h

theorem clean_refuseIf {c : Prop} [Decidable c] {e : Error} {f : PUnit → Action σ α}
    (hf : ¬ c → Clean (f ⟨⟩) s) : Clean (if c then throw e >>= f else f ⟨⟩) s := by
  intro e' t hrefused
  rcases refuseIf_eq_error.mp hrefused with ⟨-, -, rfl⟩ | ⟨hc, h⟩
  · rfl
  · exact hf hc e' t h

theorem clean_bind {x : Action σ α} {f : α → Action σ β} (hx : Clean x s)
    (hf : ∀ a t, x s = .ok a t → Answers (f a) t) : Clean (x >>= f) s := by
  intro e t hrefused
  rcases bind_eq_error.mp hrefused with h | ⟨a, u, ha, h⟩
  · exact hx e t h
  · exact absurd h (hf a u ha e t)

theorem clean_discard {x : Action σ α} (h : Clean x s) : Clean (discard x) s :=
  fun e t hrefused => h e t (discard_eq_error.mp hrefused)

theorem clean_on {x : Action τ α} (h : Clean x (part s))
    (hsame : update (part s) s = s) : Clean (on part update x) s := by
  intro e t hrefused
  obtain ⟨u, hu, rfl⟩ := on_eq_error.mp hrefused
  rw [h e u hu, hsame]

/-! ### What a refusal leaves

In between are the actions that write on the way and take back what they wrote.  What holds
after a refusal is collected for them step by step, like what holds after any end, but a
step that is not refused hands on its own state and not the property.
-/

/-- If the action is refused, the state that it leaves has a property. -/
def Refuses (x : Action σ α) (s : σ) (Q : σ → Prop) : Prop :=
    ∀ e t, x s = .error e t → Q t

theorem Answers.refuses {x : Action σ α} (h : Answers x s) : Refuses x s Q :=
  fun e t hrefused => absurd hrefused (h e t)

theorem Clean.refuses {x : Action σ α} (h : Clean x s) (hs : Q s) : Refuses x s Q :=
  fun e t hrefused => h e t hrefused ▸ hs

theorem Leaves.refuses {x : Action σ α} (h : Leaves x s Q) : Refuses x s Q :=
  fun _ _ hrefused => h.of_error hrefused

theorem Refuses.imp {x : Action σ α} (hx : Refuses x s R) (h : ∀ t, R t → Q t) :
    Refuses x s Q :=
  fun e t hrefused => h t (hx e t hrefused)

theorem refuses_pure {a : α} : Refuses (pure a : Action σ α) s Q := nofun

theorem refuses_get {f : σ → Action σ α} (h : Refuses (f s) s Q) : Refuses (get >>= f) s Q := h

theorem refuses_bind {x : Action σ α} {f : α → Action σ β} (hx : Refuses x s Q)
    (hf : ∀ a t, x s = .ok a t → Refuses (f a) t Q) : Refuses (x >>= f) s Q := by
  intro e t hrefused
  rcases bind_eq_error.mp hrefused with h | ⟨a, u, ha, h⟩
  · exact hx e t h
  · exact hf a u ha e t h

theorem refuses_check {x : Except Error α} {f : α → Action σ β} (hs : Q s)
    (hf : ∀ a, x = .ok a → Refuses (f a) s Q) : Refuses (liftM x >>= f) s Q := by
  refine refuses_bind (fun e t hrefused => ?_) fun a t ha => ?_
  · obtain ⟨-, rfl⟩ := check_eq_error.mp hrefused
    exact hs
  · obtain ⟨hx, rfl⟩ := check_eq_ok.mp ha
    exact hf a hx

theorem refuses_refuseIf {c : Prop} [Decidable c] {e : Error} {f : PUnit → Action σ α}
    (hs : Q s) (hf : ¬ c → Refuses (f ⟨⟩) s Q) :
    Refuses (if c then throw e >>= f else f ⟨⟩) s Q := by
  intro e' t hrefused
  rcases refuseIf_eq_error.mp hrefused with ⟨-, -, rfl⟩ | ⟨hc, h⟩
  · exact hs
  · exact hf hc e' t h

theorem refuses_on {x : Action τ α} (h : Refuses x (part s) fun u => Q (update u s)) :
    Refuses (on part update x) s Q := by
  intro e t hrefused
  obtain ⟨u, hu, rfl⟩ := on_eq_error.mp hrefused
  exact h e u hu

theorem refuses_undoing {undo : σ → σ} {x : Action σ α}
    (h : Refuses x s fun t => Q (undo t)) : Refuses (undoing undo x) s Q := by
  intro e t hrefused
  obtain ⟨u, hu, rfl⟩ := undoing_eq_error.mp hrefused
  exact h e u hu

/-! ### Refusals with a trace

An action that is refused and not clean is read backwards, too.  The checks that come first leave
nothing, what is not refused adds nothing, and in between is the step that left the trace.
-/

/-- The action is refused, and the state that it leaves is not the one that it found. -/
def Marks (x : Action σ α) (s t : σ) : Prop := (∃ e, x s = .error e t) ∧ t ≠ s

theorem clean_iff_marks {x : Action σ α} : Clean x s ↔ ∀ t, ¬ Marks x s t := by
  constructor
  · rintro h t ⟨⟨e, hrefused⟩, hne⟩
    exact hne (h e t hrefused)
  · intro h e t hrefused
    exact Classical.not_not.mp fun hne => h t ⟨⟨e, hrefused⟩, hne⟩

theorem marks_get {f : σ → Action σ α} : Marks (get >>= f) s t ↔ Marks (f s) s t := Iff.rfl

theorem marks_check {x : Except Error α} {f : α → Action σ β} :
    Marks (liftM x >>= f) s t ↔ ∃ a, x = .ok a ∧ Marks (f a) s t := by
  constructor
  · rintro ⟨⟨e, hrefused⟩, hne⟩
    rcases bind_eq_error.mp hrefused with h | ⟨a, u, ha, h⟩
    · exact absurd (check_eq_error.mp h).2.symm hne
    · obtain ⟨hx, rfl⟩ := check_eq_ok.mp ha
      exact ⟨a, hx, ⟨e, h⟩, hne⟩
  · rintro ⟨a, rfl, ⟨e, h⟩, hne⟩
    exact ⟨⟨e, h⟩, hne⟩

theorem marks_refuseIf {c : Prop} [Decidable c] {e : Error} {f : PUnit → Action σ α} :
    Marks (if c then throw e >>= f else f ⟨⟩) s t ↔ ¬ c ∧ Marks (f ⟨⟩) s t := by
  constructor
  · rintro ⟨⟨e', hrefused⟩, hne⟩
    rcases refuseIf_eq_error.mp hrefused with ⟨-, -, rfl⟩ | ⟨hc, h⟩
    · exact absurd rfl hne
    · exact ⟨hc, ⟨e', h⟩, hne⟩
  · rintro ⟨hc, h⟩
    rwa [if_neg hc]

/-- After a clean step it is the rest that was refused. -/
theorem marks_bind_of_clean {x : Action σ α} {f : α → Action σ β} (hx : Clean x s) :
    Marks (x >>= f) s t ↔ ∃ a u, x s = .ok a u ∧ (∃ e, f a u = .error e t) ∧ t ≠ s := by
  constructor
  · rintro ⟨⟨e, hrefused⟩, hne⟩
    rcases bind_eq_error.mp hrefused with h | ⟨a, u, ha, h⟩
    · exact absurd (hx e t h) hne
    · exact ⟨a, u, ha, ⟨e, h⟩, hne⟩
  · rintro ⟨a, u, ha, ⟨e, h⟩, hne⟩
    exact ⟨⟨e, (bind_of_ok ha).trans h⟩, hne⟩

/-- Before a rest that is not refused it is the step. -/
theorem marks_bind_of_answers {x : Action σ α} {f : α → Action σ β}
    (hf : ∀ a t, x s = .ok a t → Answers (f a) t) : Marks (x >>= f) s t ↔ Marks x s t := by
  constructor
  · rintro ⟨⟨e, hrefused⟩, hne⟩
    rcases bind_eq_error.mp hrefused with h | ⟨a, u, ha, h⟩
    · exact ⟨⟨e, h⟩, hne⟩
    · exact absurd h (hf a u ha e t)
  · rintro ⟨⟨e, h⟩, hne⟩
    exact ⟨⟨e, bind_of_error h⟩, hne⟩

/-- A clean action that does not answer is refused where it stands. -/
theorem Clean.exists_error {x : Action σ α} (h : Clean x s) (hnot : ¬ Answers x s) :
    ∃ e, x s = .error e s := by
  cases hx : x s with
  | ok a t =>
      refine absurd ?_ hnot
      intro e u hrefused
      rw [hx] at hrefused
      cases hrefused
  | error e t =>
      obtain rfl := h e t hx
      exact ⟨e, rfl⟩

/-! ### Evaluated actions -/

/-- What an action answers with, if it is not refused. -/
def reply? (x : Action σ α) (s : σ) : Option α :=
  match x s with
  | .ok a _ => some a
  | .error _ _ => none

theorem eq_ok_of_reply? {x : Action σ α} {a : α} (h : x.reply? s = some a) :
    x s = .ok a (x.left s) := by
  unfold reply? at h
  unfold left
  cases hx : x s with
  | ok b t =>
      rw [hx] at h
      rw [Option.some.inj h]
  | error e t => simp [hx] at h

theorem exists_error_of_reply? {x : Action σ α} (h : x.reply? s = none) :
    ∃ e, x s = .error e (x.left s) := by
  unfold reply? at h
  unfold left
  cases hx : x s with
  | ok a t => simp [hx] at h
  | error e t => exact ⟨e, rfl⟩

/-- A clean action without an answer is no step at all. -/
theorem Clean.left_eq {x : Action σ α} (h : Clean x s) (hrefused : x.reply? s = none) :
    x.left s = s := by
  obtain ⟨e, he⟩ := exists_error_of_reply? hrefused
  exact h e _ he

end Action

/-! ### Guards -/

namespace Guard

variable {σ α : Type} {guard : σ → Guard} {update : Guard → σ → σ} {call : Action σ α}
  {s t : σ}

theorem eq_free {g : Guard} (h : g.entered = false) : g = free :=
  congrArg Guard.mk h

theorem enter_eq_ok {g g' : Guard} {r : Unit} :
    enter g = .ok r g' ↔ g.entered = false ∧ ⟨true⟩ = g' := by
  simp only [enter, Action.get_bind, Action.refuseIf_eq_ok, Action.set_eq_ok,
    Bool.not_eq_true]

theorem enter_eq_error {g g' : Guard} {e : Error} :
    enter g = .error e g' ↔ g.entered = true ∧ .reentrantCall = e ∧ g = g' := by
  simp only [enter, Action.get_bind, Action.refuseIf_eq_error, Action.set_ne_error,
    and_false, or_false]

/-- An answered call found the guard free, ran with it entered, and left it free. -/
theorem hold_eq_ok {a : α} :
    hold guard update call s = .ok a t ↔
      (guard s).entered = false ∧
        ∃ u, call (update ⟨true⟩ s) = .ok a u ∧ update free u = t := by
  unfold hold
  cases h : enter (guard s) with
  | ok r g =>
    obtain ⟨hfree, rfl⟩ := enter_eq_ok.mp h
    cases hcall : call (update ⟨true⟩ s) <;> simp [hcall, hfree, and_assoc]
  | error e g =>
    obtain ⟨hheld, -⟩ := enter_eq_error.mp h
    simp [hheld]

/-- A refused call was refused by a guard that another call held, and changed nothing,
or by its own steps, and left the guard free. -/
theorem hold_eq_error {e : Error} :
    hold guard update call s = .error e t ↔
      (guard s).entered = true ∧ .reentrantCall = e ∧ s = t ∨
      (guard s).entered = false ∧
        ∃ u, call (update ⟨true⟩ s) = .error e u ∧ update free u = t := by
  unfold hold
  cases h : enter (guard s) with
  | ok r g =>
    obtain ⟨hfree, rfl⟩ := enter_eq_ok.mp h
    cases hcall : call (update ⟨true⟩ s) <;> simp [hcall, hfree, and_assoc]
  | error e' g =>
    obtain ⟨hheld, rfl, -⟩ := enter_eq_error.mp h
    simp [hheld]

/-- A call that finds the guard free is refused by its own steps only. -/
theorem answers_hold (hfree : (guard s).entered = false)
    (h : call.Answers (update ⟨true⟩ s)) : (hold guard update call).Answers s := by
  intro e t hrefused
  rcases hold_eq_error.mp hrefused with ⟨hheld, -, -⟩ | ⟨-, u, hu, -⟩
  · rw [hfree] at hheld
    cases hheld
  · exact h e u hu

/-- A call leaves a trace if its steps do.  They leave the guard entered, so that leaving it cannot
remove what they have changed. -/
theorem marks_hold (hread : ∀ s, update (guard s) s = s)
    (hwrite : ∀ g g' s, update g (update g' s) = update g s)
    (hentered : ∀ u, call.Marks (update ⟨true⟩ s) u → guard u = ⟨true⟩) :
    (hold guard update call).Marks s t ↔
      (guard s).entered = false ∧
        ∃ u, call.Marks (update ⟨true⟩ s) u ∧ update free u = t := by
  constructor
  · rintro ⟨⟨e, hrefused⟩, hne⟩
    rcases hold_eq_error.mp hrefused with ⟨-, -, rfl⟩ | ⟨hfree, u, hu, rfl⟩
    · exact absurd rfl hne
    · refine ⟨hfree, u, ⟨⟨e, hu⟩, ?_⟩, rfl⟩
      rintro rfl
      rw [hwrite, ← eq_free hfree, hread] at hne
      exact hne rfl
  · rintro ⟨hfree, u, hmarks, rfl⟩
    obtain ⟨⟨e, hu⟩, hne⟩ := hmarks
    refine ⟨⟨e, hold_eq_error.mpr (.inr ⟨hfree, u, hu, rfl⟩)⟩, ?_⟩
    intro hsame
    have hheld := hentered u ⟨⟨e, hu⟩, hne⟩
    refine hne ?_
    rw [← hsame, hwrite, ← hheld, hread]

theorem leaves_hold {Q : σ → Prop} (hs : Q s)
    (h : call.Leaves (update ⟨true⟩ s) fun t => Q (update free t)) :
    (hold guard update call).Leaves s Q := by
  cases hcall : hold guard update call s with
  | ok a t =>
      obtain ⟨-, u, hu, rfl⟩ := hold_eq_ok.mp hcall
      rw [Action.Leaves, Action.left_of_ok hcall]
      exact h.of_ok hu
  | error e t =>
      rw [Action.Leaves, Action.left_of_error hcall]
      rcases hold_eq_error.mp hcall with ⟨-, -, rfl⟩ | ⟨-, u, hu, rfl⟩
      · exact hs
      · exact h.of_error hu

theorem refuses_hold {Q : σ → Prop} (hs : Q s)
    (h : guard s = free → call.Refuses (update ⟨true⟩ s) fun t => Q (update free t)) :
    (hold guard update call).Refuses s Q := by
  intro e t hrefused
  rcases hold_eq_error.mp hrefused with ⟨-, -, rfl⟩ | ⟨hfree, u, hu, rfl⟩
  · exact hs
  · exact h (eq_free hfree) e u hu

end Guard

end Custody
