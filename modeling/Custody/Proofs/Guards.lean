/-
Guards are always left.

Of a guard by itself this is a fact about tokens: whoever enters gets a token, and gives it back.
A guard is entered as long as one token of it is out, so nobody gets a second one.  A copy is
another guard, and what is done with one guard leaves the others alone.

A component holds no tokens.  It is entered for one call and left when the call ends, and the
state that is left may not be the state that was entered: a refused settlement puts back a copy of
the vault while the engine is held, and a refused transaction puts back copies of both.  Copies
are free, and the vault is free whenever the engine asks it.  So between calls both are free, and
no call finds a component entered.
-/
import Custody.Proofs.Calculator

namespace Custody

open Custody.Action

/-! ### Guards and tokens -/

namespace GuardPool

/-- Something that is done with guards and tokens. -/
inductive Step where
  | enter (guard : Nat)
  | release (token : Nat)
  /-- A guard is copied, if there is one of this number. -/
  | clone (guard : Nat)

/-- The pool after a step. -/
def next (pool : GuardPool) : Step → GuardPool
  | .enter guard => (enter guard).left pool
  | .release token => (release token).left pool
  | .clone guard => if guard < pool.guards.length then copy.left pool else pool

/-- The pool after a sequence of steps. -/
def through (pool : GuardPool) (steps : List Step) : GuardPool := steps.foldl next pool

/-- Guards that nobody has entered, and no token. -/
def untouched (count : Nat) : GuardPool := ⟨List.replicate count .free, []⟩

/-- The token holds the guard. -/
def Holds (pool : GuardPool) (token guard : Nat) : Prop :=
  pool.tokens[token]? = some ⟨guard, true⟩

/-- Guards are entered by the tokens that are out, and there is at most one for each guard. -/
structure Kept (pool : GuardPool) : Prop where
  entered_iff : ∀ {i g}, pool.guards[i]? = some g →
    (g.entered = true ↔ ∃ token, pool.Holds token i)
  unique : ∀ {i j k}, pool.Holds j i → pool.Holds k i → j = k
  issued : ∀ {i j}, pool.Holds j i → i < pool.guards.length

/-- What a step makes of a pool. -/
inductive Stepped (p : GuardPool) : Step → GuardPool → Prop
  | same {step : Step} : Stepped p step p
  | entered {i : Nat} (hfree : p.guards[i]? = some .free) :
      Stepped p (.enter i) ⟨p.guards.set i ⟨true⟩, p.tokens ++ [⟨i, true⟩]⟩
  | released {i j : Nat} (hholds : p.Holds j i) :
      Stepped p (.release j) ⟨p.guards.set i .free, p.tokens.set j ⟨i, false⟩⟩
  | cloned {i : Nat} : Stepped p (.clone i) ⟨p.guards ++ [.free], p.tokens⟩

variable {p q : GuardPool} {step : Step} {i j k : Nat} {g : Guard}

theorem enter_of_entered (hguard : p.guards[i]? = some g) (h : g.entered = true) :
    enter i p = .error .reentrantCall p := by
  unfold enter
  simp only [get_bind, hguard]
  rw [if_pos h]
  rfl

theorem enter_of_free (hguard : p.guards[i]? = some g) (h : g.entered = false) :
    enter i p =
      .ok p.tokens.length ⟨p.guards.set i ⟨true⟩, p.tokens ++ [⟨i, true⟩]⟩ := by
  unfold enter
  simp only [get_bind, hguard, h]
  rfl

theorem enter_of_none (hguard : p.guards[i]? = none) : (enter i).left p = p := by
  unfold enter
  refine left_of_error (e := .internal s!"no guard {i}") ?_
  simp only [get_bind, hguard]
  rfl

theorem next_stepped (p : GuardPool) (step : Step) : Stepped p step (p.next step) := by
  cases step with
  | enter i =>
      cases hguard : p.guards[i]? with
      | none =>
          rw [next, enter_of_none hguard]
          exact .same
      | some g =>
          cases hentered : g.entered with
          | true =>
              rw [next, left_of_error (enter_of_entered hguard hentered)]
              exact .same
          | false =>
              rw [next, left_of_ok (enter_of_free hguard hentered)]
              rw [Guard.eq_free hentered] at hguard
              exact .entered hguard
  | release j =>
      unfold next release
      simp only [left, get_bind]
      cases htoken : p.tokens[j]? with
      | none => exact .same
      | some token =>
          obtain ⟨i, alive⟩ := token
          cases alive with
          | true => exact .released htoken
          | false => exact .same
  | clone i =>
      show Stepped p (.clone i) (if i < p.guards.length then copy.left p else p)
      split
      next => exact .cloned
      next => exact .same

/-! ### One step -/

theorem kept_untouched (count : Nat) : Kept (untouched count) where
  entered_iff := by
    intro i g hguard
    have hg : g = .free := (List.mem_replicate.mp (List.mem_of_getElem? hguard)).2
    rw [hg]
    exact ⟨nofun, fun ⟨token, hholds⟩ => nomatch hholds⟩
  unique := by
    intro i j k hholds
    cases hholds
  issued := by
    intro i j hholds
    cases hholds

/-- The tokens that are out after an entry: those before, and the new one. -/
theorem holds_entered {guards : List Guard} :
    Holds ⟨guards, p.tokens ++ [⟨i, true⟩]⟩ j k ↔
      p.Holds j k ∨ j = p.tokens.length ∧ k = i := by
  unfold Holds
  rcases Nat.lt_trichotomy j p.tokens.length with hlt | heq | hgt
  · rw [List.getElem?_append_left hlt]
    exact ⟨.inl, fun h => h.resolve_right fun hnew => absurd hnew.1 (Nat.ne_of_lt hlt)⟩
  · subst heq
    simp [eq_comm]
  · have hbefore : p.tokens[j]? = none := List.getElem?_eq_none (Nat.le_of_lt hgt)
    have hafter : (p.tokens ++ [⟨i, true⟩])[j]? = none := by
      refine List.getElem?_eq_none ?_
      rw [List.length_append]
      exact hgt
    simp [hbefore, hafter, Nat.ne_of_gt hgt]

/-- The tokens that are out after one was given back: the others. -/
theorem holds_released {guards : List Guard} {token : Nat} :
    Holds ⟨guards, p.tokens.set token ⟨i, false⟩⟩ j k ↔ p.Holds j k ∧ j ≠ token := by
  unfold Holds
  rw [List.getElem?_set]
  by_cases heq : token = j
  · subst heq
    rw [if_pos rfl]
    split <;> simp
  · simp [heq, Ne.symm heq]

namespace Kept

theorem entered (h : Kept p) (hfree : p.guards[i]? = some .free) :
    Kept ⟨p.guards.set i ⟨true⟩, p.tokens ++ [⟨i, true⟩]⟩ := by
  have hnone : ∀ j, ¬ p.Holds j i := by
    intro j hholds
    have hentered := (h.entered_iff hfree).mpr ⟨j, hholds⟩
    cases hentered
  constructor
  · intro k g hguard
    simp only [holds_entered]
    rw [List.getElem?_set] at hguard
    by_cases heq : i = k
    · subst heq
      have hissued : i < p.guards.length := (List.getElem?_eq_some_iff.mp hfree).1
      rw [if_pos rfl, if_pos hissued, Option.some.injEq] at hguard
      subst hguard
      exact ⟨fun _ => ⟨_, .inr ⟨rfl, rfl⟩⟩, fun _ => rfl⟩
    · rw [if_neg heq] at hguard
      rw [h.entered_iff hguard]
      refine exists_congr fun j => ⟨.inl, fun hj => hj.resolve_right fun hnew => ?_⟩
      exact heq hnew.2.symm
  · intro k j j' hj hj'
    rw [holds_entered] at hj hj'
    rcases hj with hj | ⟨rfl, rfl⟩
    · rcases hj' with hj' | ⟨-, rfl⟩
      · exact h.unique hj hj'
      · exact absurd hj (hnone j)
    · rcases hj' with hj' | ⟨rfl, -⟩
      · exact absurd hj' (hnone j')
      · rfl
  · intro k j hj
    rw [List.length_set]
    rcases holds_entered.mp hj with hj | ⟨-, rfl⟩
    · exact h.issued hj
    · exact (List.getElem?_eq_some_iff.mp hfree).1

theorem released (h : Kept p) (hholds : p.Holds j i) :
    Kept ⟨p.guards.set i .free, p.tokens.set j ⟨i, false⟩⟩ := by
  constructor
  · intro k g hguard
    simp only [holds_released]
    rw [List.getElem?_set] at hguard
    by_cases heq : i = k
    · subst heq
      rw [if_pos rfl, if_pos (h.issued hholds), Option.some.injEq] at hguard
      subst hguard
      exact ⟨nofun, fun ⟨token, hother, hne⟩ => absurd (h.unique hother hholds) hne⟩
    · rw [if_neg heq] at hguard
      rw [h.entered_iff hguard]
      refine exists_congr fun token => ⟨fun htoken => ⟨htoken, ?_⟩, And.left⟩
      rintro rfl
      rw [Holds, hholds, Option.some.injEq, GuardToken.mk.injEq] at htoken
      exact heq htoken.1
  · intro k token token' htoken htoken'
    exact h.unique (holds_released.mp htoken).1 (holds_released.mp htoken').1
  · intro k token htoken
    rw [List.length_set]
    exact h.issued (holds_released.mp htoken).1

theorem cloned (h : Kept p) : Kept ⟨p.guards ++ [.free], p.tokens⟩ := by
  have hissued : ∀ {i j}, Holds ⟨p.guards ++ [.free], p.tokens⟩ j i → i < p.guards.length :=
    fun hholds => h.issued hholds
  constructor
  · intro k g hguard
    rcases Nat.lt_or_ge k p.guards.length with hlt | hge
    · rw [List.getElem?_append_left hlt] at hguard
      exact h.entered_iff hguard
    · rw [List.getElem?_append_right hge] at hguard
      have hg : g = .free := List.mem_singleton.mp (List.mem_of_getElem? hguard)
      rw [hg]
      exact ⟨nofun, fun ⟨token, hholds⟩ => absurd (hissued hholds) (Nat.not_lt.mpr hge)⟩
  · exact fun hj hk => h.unique hj hk
  · intro k j hholds
    rw [List.length_append]
    exact Nat.lt_succ_of_lt (hissued hholds)

/-- **A step keeps the guards and the tokens in agreement.** -/
theorem next (h : Kept p) (step : Step) : Kept (p.next step) := by
  have hstepped := next_stepped p step
  generalize p.next step = q at hstepped
  cases hstepped with
  | same => exact h
  | entered hfree => exact h.entered hfree
  | released hholds => exact h.released hholds
  | cloned => exact h.cloned

theorem through (h : Kept p) (steps : List Step) : Kept (p.through steps) := by
  induction steps generalizing p with
  | nil => exact h
  | cons step rest ih => exact ih (h.next step)

end Kept

/-! ### Other guards -/

/-- The step enters the guard, or gives back a token of it. -/
def Concerns (p : GuardPool) (guard : Nat) : Step → Prop
  | .enter i => i = guard
  | .release token => ∃ alive, p.tokens[token]? = some ⟨guard, alive⟩
  | .clone _ => False

/-- No step of a sequence enters the guard or gives back a token of it. -/
def Spares (guard : Nat) : GuardPool → List Step → Prop
  | _, [] => True
  | p, step :: rest => ¬ p.Concerns guard step ∧ Spares guard (p.next step) rest

theorem next_length_le (p : GuardPool) (step : Step) :
    p.guards.length ≤ (p.next step).guards.length := by
  have hstepped := next_stepped p step
  generalize p.next step = q at hstepped
  cases hstepped with
  | same => exact Nat.le_refl _
  | entered | released => exact Nat.le_of_eq List.length_set.symm
  | cloned => simp

/-- A step that does not concern a guard leaves it alone, and the tokens of it. -/
theorem next_elsewhere (hguard : i < p.guards.length) (h : ¬ p.Concerns i step) :
    (p.next step).guards[i]? = p.guards[i]? ∧
      ∀ token, (p.next step).Holds token i ↔ p.Holds token i := by
  have hstepped := next_stepped p step
  generalize p.next step = q at hstepped
  cases hstepped with
  | same => exact ⟨rfl, fun _ => Iff.rfl⟩
  | @entered k =>
      have hne : k ≠ i := h
      refine ⟨List.getElem?_set_ne hne, fun token => ?_⟩
      rw [holds_entered]
      exact ⟨fun hholds => hholds.resolve_right fun hnew => hne hnew.2.symm, .inl⟩
  | @released k j hholds =>
      have hne : k ≠ i := by
        rintro rfl
        exact h ⟨true, hholds⟩
      refine ⟨List.getElem?_set_ne hne, fun token => ?_⟩
      rw [holds_released]
      refine ⟨And.left, fun htoken => ⟨htoken, ?_⟩⟩
      rintro rfl
      rw [Holds, hholds, Option.some.injEq, GuardToken.mk.injEq] at htoken
      exact hne htoken.1
  | cloned => exact ⟨List.getElem?_append_left hguard, fun _ => Iff.rfl⟩

/-- **What is done with other guards leaves a guard alone.** -/
theorem through_elsewhere {steps : List Step} (hguard : i < p.guards.length)
    (h : Spares i p steps) :
    (p.through steps).guards[i]? = p.guards[i]? ∧
      ∀ token, (p.through steps).Holds token i ↔ p.Holds token i := by
  induction steps generalizing p with
  | nil => exact ⟨rfl, fun _ => Iff.rfl⟩
  | cons step rest ih =>
      obtain ⟨hstep, hrest⟩ := h
      obtain ⟨hnext, htokens⟩ := next_elsewhere hguard hstep
      obtain ⟨hlast, hheld⟩ := ih (Nat.lt_of_lt_of_le hguard (next_length_le p step)) hrest
      exact ⟨hlast.trans hnext, fun token => (hheld token).trans (htokens token)⟩

/-- How a guard of a pool behaves. -/
structure Behaves (p : GuardPool) (i : Nat) (g : Guard) : Prop where
  /-- It is entered as long as a token of it is out. -/
  entered_iff : g.entered = true ↔ ∃ token, p.Holds token i
  /-- There is at most one. -/
  unique : ∀ {j k}, p.Holds j i → p.Holds k i → j = k
  /-- Then nobody can enter it. -/
  refused : g.entered = true → enter i p = .error .reentrantCall p
  /-- Otherwise anybody can, and gets the token. -/
  admitted : g.entered = false → ∃ q, enter i p = .ok p.tokens.length q ∧
    q.Holds p.tokens.length i
  /-- A copy of it is a guard that nobody has entered, and nothing else is new. -/
  cloned : p.next (.clone i) = ⟨p.guards ++ [.free], p.tokens⟩
  /-- It is as it was until a step concerns it. -/
  independent : ∀ later, Spares i p later → (p.through later).guards[i]? = some g
  /-- So neither the copy nor the guard it was copied from knows what is done with the other. -/
  apart : ∀ later,
    (Spares i (p.next (.clone i)) later →
      ((p.next (.clone i)).through later).guards[i]? = some g) ∧
    (Spares p.guards.length (p.next (.clone i)) later →
      ((p.next (.clone i)).through later).guards[p.guards.length]? = some .free)

theorem Kept.behaves (h : Kept p) (hguard : p.guards[i]? = some g) : p.Behaves i g := by
  have hissued : i < p.guards.length := (List.getElem?_eq_some_iff.mp hguard).1
  have hcloned : p.next (.clone i) = ⟨p.guards ++ [.free], p.tokens⟩ := by
    show (if i < p.guards.length then copy.left p else p) = _
    rw [if_pos hissued]
    rfl
  refine ⟨h.entered_iff hguard, h.unique, enter_of_entered hguard, fun hfree => ?_, hcloned,
    fun later hspares => (through_elsewhere hissued hspares).1.trans hguard, fun later => ?_⟩
  · exact ⟨_, enter_of_free hguard hfree, holds_entered.mpr (.inr ⟨rfl, rfl⟩)⟩
  · have hlength : (p.next (.clone i)).guards.length = p.guards.length + 1 := by
      rw [hcloned, List.length_append]
      rfl
    refine ⟨fun hspares => ?_, fun hspares => ?_⟩
    · rw [(through_elsewhere (by omega) hspares).1, hcloned]
      exact (List.getElem?_append_left hissued).trans hguard
    · rw [(through_elsewhere (by omega) hspares).1, hcloned]
      simp

end GuardPool

/-! ### Calls -/

/-- The error is not that a component was entered while it ran. -/
def Error.Admitted (e : Error) : Prop := e ≠ .reentrantCall

theorem Error.Ordinary.admitted {e : Error} (h : e.Ordinary) : e.Admitted := by
  rintro rfl
  exact h .reentrantCall

namespace Protocol

variable {p : Protocol} {ctx : Context} {caller : Address} {call : Call} {α : Type}

/-- Whoever enters the vault leaves it. -/
theorem vaultCall_frees {x : Action Protocol α} (hfree : p.vault.guard = .free) :
    (vaultCall x).Leaves p fun q => q.vault.guard = .free :=
  Guard.leaves_hold hfree (leaves_of_forall fun _ => rfl)

/-- Whoever enters the engine leaves it. -/
theorem engineCall_frees {x : Action Protocol α} (hfree : p.engine.guard = .free) :
    (engineCall x).Leaves p fun q => q.engine.guard = .free :=
  Guard.leaves_hold hfree (leaves_of_forall fun _ => rfl)

/-- A settlement enters the vault and leaves it. -/
private theorem settle_frees {borrower token : Address} {quote : Quote}
    (hfree : p.vault.guard = .free) :
    (settle ctx borrower token quote).Leaves p fun q => q.vault.guard = .free := by
  have hbank {q : Protocol} {x : Action Bank Unit} (hq : q.vault.guard = .free) :
      (onBank x).Leaves q fun q => q.vault.guard = .free :=
    leaves_on (leaves_of_forall fun _ => hq)
  refine leaves_get (leaves_bind (hbank hfree) fun _ q _ hq => ?_)
  refine leaves_bind (hbank hq) fun _ q _ hq => ?_
  exact leaves_bind (vaultCall_frees hq) fun _ q _ hq => leaves_on (leaves_of_forall fun _ => hq)

/-- What is put back when a settlement is refused is a copy, and as free as what was found. -/
private theorem liquidate_frees {borrower token : Address} {offer : Amount}
    (hfree : p.vault.guard = .free) :
    (liquidate ctx borrower token offer).Leaves p fun q => q.vault.guard = .free := by
  rw [liquidate_eq]
  refine Guard.leaves_hold hfree (leaves_get (leaves_check hfree fun _ _ => ?_))
  refine leaves_bind (leaves_orRestore (settle_frees hfree) fun _ _ => rfl) fun _ q _ hq => ?_
  exact leaves_bind (commit_leaves (Q := fun q => q.vault.guard = .free) id hq) fun _ _ _ hq =>
    leaves_pure hq

namespace Idle

/-- A call of the vault alone leaves both guards. -/
theorem administered {change : Action Vault Unit} (hp : Idle p) :
    (vaultCall (onVault change)).Leaves p Idle := by
  refine ⟨vaultCall_frees hp.vault, ?_⟩
  rw [show ((vaultCall (onVault change)).left p).engine = p.engine from vaultCall_engine]
  exact hp.engine

/-- So does a call of the engine alone. -/
theorem governed {change : Action Engine Unit} (hp : Idle p) :
    (engineCall (onEngine change)).Leaves p Idle := by
  refine ⟨?_, engineCall_frees hp.engine⟩
  rw [show ((engineCall (onEngine change)).left p).vault = p.vault from engineCall_vault]
  exact hp.vault

/-- **A call leaves every guard**, whether it answers or is refused. -/
theorem performed (hp : Idle p) : (perform ctx call).Leaves p Idle := by
  have hcustody : Custodial fun q => q.engine.guard = .free := ⟨id, id⟩
  have hreply {α : Type} {x : Action Protocol α} {f : α → Reply} (hx : x.Leaves p Idle) :
      (x >>= fun a => pure (f a)).Leaves p Idle :=
    leaves_bind hx fun _ _ _ hq => leaves_pure hq
  cases call with
  | deposit => exact hreply ⟨vaultCall_frees hp.vault, deposit_custodial hcustody hp.engine⟩
  | depositFor =>
      exact hreply ⟨vaultCall_frees hp.vault, depositFor_custodial hcustody hp.engine⟩
  | withdraw => exact hreply ⟨vaultCall_frees hp.vault, withdraw_custodial hcustody hp.engine⟩
  | seize => exact hreply ⟨vaultCall_frees hp.vault, seize_custodial hcustody hp.engine⟩
  | withdrawFor =>
      exact hreply ⟨vaultCall_frees hp.vault, withdrawFor_custodial hcustody hp.engine⟩
  | liquidate => exact hreply ⟨liquidate_frees hp.vault, engineCall_frees hp.engine⟩
  | socialize borrower =>
      refine hreply ⟨?_, engineCall_frees hp.engine⟩
      rw [show ((socialize ctx borrower).left p).vault = p.vault from socialize_vault]
      exact hp.vault
  | setCloseFactor | setFullThreshold | grantEngineRole | revokeEngineRole =>
      exact hreply hp.governed
  | pause | unpause =>
      refine leaves_bind hp.administered fun _ _ _ hq => ?_
      exact leaves_bind (governed hq) fun _ _ _ hq => leaves_pure hq
  | _ => exact hreply hp.administered

/-- What a refused transaction puts back are copies. -/
theorem submitted (hp : Idle p) : (submit caller call).Leaves p Idle :=
  leaves_orRestore (leaves_get hp.performed) fun _ _ => ⟨rfl, rfl⟩

end Idle

/-! ### No call finds a component entered -/

theorem plain_refusesBy : Calculator.plain.RefusesBy Error.Admitted where
  ordinary _ := Error.Ordinary.admitted
  minus _ _ := Check.refusedBy_ok
  subtract _ _ := Check.refusedBy_ite (fun _ => Check.refusedBy_ok) fun _ =>
    Check.refusedBy_error nofun
  penalize _ := Check.refusedBy_ok

theorem Idle.perform_refusedBy (hp : Idle p) : (perform ctx call).RefusedBy Error.Admitted p := by
  rw [← Calculator.plain_perform]
  exact Calculator.perform_refusedBy plain_refusesBy hp

theorem Idle.submit_refusedBy (hp : Idle p) : (submit caller call).RefusedBy Error.Admitted p :=
  refusedBy_orRestore (refusedBy_get hp.perform_refusedBy)

/-! ### Questions -/

/-- What can be asked without a change. -/
inductive Question where
  | collateralValue (user : Address)
  | health (borrower : Address)
  | isLiquidatable (borrower : Address)
  | maxRepayable (borrower : Address)
  | quote (borrower token : Address) (offer : Amount)
  | verify

/-- A question, of which only the refusal is looked at. -/
def ask (p : Protocol) : Question → Except Error Unit
  | .collateralValue user => discard (p.vault.collateralValue p.oracle user)
  | .health borrower => discard (p.health borrower)
  | .isLiquidatable borrower => discard (p.isLiquidatable borrower)
  | .maxRepayable borrower => discard (p.maxRepayable borrower)
  | .quote borrower token offer => discard (p.quote borrower token offer)
  | .verify => p.verify

/-- The books are summed and compared, without entering anything. -/
private theorem verify_admitted : Check.RefusedBy Error.Admitted p.verify := by
  have hadd {a b : Amount} : Check.RefusedBy Error.Admitted (a.add b) :=
    Amount.add_refusedBy.imp fun _ => (Error.Ordinary.admitted ∘ Error.Reading.ordinary)
  refine Check.refusedBy_bind ?_ fun _ _ => ?_
  · refine Check.refusedBy_bind (Check.refusedBy_foldlM (fun _ _ => ?_) _ _) fun sums _ => ?_
    · exact Check.refusedBy_bind hadd fun _ _ => Check.refusedBy_ok
    · refine Check.refusedBy_forM (fun _ => ?_) _
      exact Check.refusedBy_ite (fun _ => Check.refusedBy_error nofun) fun _ => Check.refusedBy_ok
  · refine Check.refusedBy_bind (Check.refusedBy_foldlM (fun _ _ => hadd) _ _) fun sum _ => ?_
    exact Check.refusedBy_ite (fun _ => Check.refusedBy_error nofun) fun _ => Check.refusedBy_ok

private theorem quote_admitted {borrower token : Address} {offer : Amount} :
    Check.RefusedBy Error.Admitted (p.quote borrower token offer) := by
  have hplain : Calculator.plain.quote = Engine.quote := rfl
  rw [quote, ← hplain]
  exact Calculator.quote_refusedBy plain_refusesBy

/-- A question enters no component, and may be asked in any state. -/
theorem ask_admitted {question : Question} :
    Check.RefusedBy Error.Admitted (p.ask question) := by
  have hordinary {x : Except Error Unit} (hx : Check.RefusedBy Error.Ordinary x) :
      Check.RefusedBy Error.Admitted x := hx.imp fun _ => Error.Ordinary.admitted
  cases question with
  | collateralValue =>
      exact hordinary (Check.refusedBy_discard Vault.collateralValue_ordinary)
  | health => exact hordinary (Check.refusedBy_discard health_ordinary)
  | isLiquidatable => exact hordinary (Check.refusedBy_discard isLiquidatable_ordinary)
  | maxRepayable => exact hordinary (Check.refusedBy_discard maxRepayable_ordinary)
  | quote => exact Check.refusedBy_discard quote_admitted
  | verify => exact verify_admitted

/-! ### Histories with snapshots -/

/-- A vault and an engine as they are made; what is around them is not asked. -/
structure Begun (p : Protocol) : Prop where
  vault : ∃ address admin borrowModule, Vault.start address admin borrowModule = .ok p.vault
  engine : ∃ address debtToken admin params,
    Engine.start address debtToken admin params = .ok p.engine

theorem Begun.idle (h : Begun p) : Idle p := by
  obtain ⟨address, admin, borrowModule, hvault⟩ := h.vault
  obtain ⟨engine, debtToken, governor, params, hengine⟩ := h.engine
  exact ⟨Vault.idle_of_start hvault, Engine.idle_of_start hengine⟩

/-- A snapshot: copies of the components with what is around them. -/
def copied (p : Protocol) : Protocol := { p with vault := p.vault.copy, engine := p.engine.copy }

end Protocol

/-- The present state and the snapshots that were taken. -/
structure Archive where
  present : Protocol
  snapshots : List Protocol

namespace Archive

/-- Something that is done with components, or with copies of them. -/
inductive Step where
  /-- An account calls the components, at a time that it tells. -/
  | direct (ctx : Context) (call : Call)
  /-- An account submits a call as a transaction. -/
  | submitted (caller : Address) (call : Call)
  /-- An account pauses the vault alone, or ends the pause. -/
  | pausedVault (ctx : Context) (paused : Bool)
  /-- An account pauses the engine alone, or ends the pause. -/
  | pausedEngine (ctx : Context) (paused : Bool)
  /-- The components are asked, and nothing is changed. -/
  | asked (question : Protocol.Question)
  /-- The events of both components are taken out. -/
  | drained
  /-- Anything at all happens around the components. -/
  | around (ledger : Ledger) (oracle : Oracle) (bank : Bank) (clock : Timestamp)
  /-- A snapshot is taken. -/
  | saved
  /-- A snapshot is restored as a refused transaction restores one, if it was taken. -/
  | restored (number : Nat)
  /-- The vault of a snapshot takes the place of the present one. -/
  | restoredVault (number : Nat)
  /-- The engine of a snapshot takes the place of the present one. -/
  | restoredEngine (number : Nat)

/-- Run on the present state. -/
def onPresent {α : Type} : Action Protocol α → Action Archive α :=
  Action.on present fun p a => { a with present := p }

/-- Change the present state with a snapshot, if it was taken. -/
def retrieve (number : Nat) (change : Protocol → Protocol → Protocol) : Action Archive Unit :=
  modify fun a =>
    match a.snapshots[number]? with
    | none => a
    | some snapshot => { a with present := change snapshot a.present }

/-- What is done in a step. -/
def act : Step → Action Archive Unit
  | .direct ctx call => onPresent (discard (Protocol.perform ctx call))
  | .submitted caller call => onPresent (discard (Protocol.submit caller call))
  | .pausedVault ctx paused =>
    onPresent (if paused then Protocol.pauseVault ctx else Protocol.unpauseVault ctx)
  | .pausedEngine ctx paused =>
    onPresent (if paused then Protocol.pauseEngine ctx else Protocol.unpauseEngine ctx)
  | .asked question => onPresent (do
    let p ← get
    p.ask question
    return ())
  | .drained => onPresent (modify fun p =>
    { p with
      vault := { p.vault with events := p.vault.events.drained }
      engine := { p.engine with events := p.engine.events.drained } })
  | .around ledger oracle bank clock =>
    onPresent (modify fun p => ⟨p.vault, p.engine, ledger, oracle, bank, clock⟩)
  | .saved => modify fun a => { a with snapshots := a.snapshots ++ [a.present.copied] }
  | .restored number => retrieve number Protocol.restore
  | .restoredVault number => retrieve number fun snapshot p => { p with vault := snapshot.vault }
  | .restoredEngine number => retrieve number fun snapshot p => { p with engine := snapshot.engine }

/-- What is left after a step, answered or refused. -/
def next (a : Archive) (step : Step) : Archive := (act step).left a

/-- What is left after a history. -/
def through (a : Archive) (steps : List Step) : Archive := steps.foldl next a

/-- Nobody holds a component, here or in a snapshot. -/
structure Idle (a : Archive) : Prop where
  present : a.present.Idle
  snapshots : ∀ p ∈ a.snapshots, p.Idle

variable {a : Archive} {step : Step}

namespace Idle

theorem onPresent {α : Type} {x : Action Protocol α} (h : a.Idle)
    (hx : x.Leaves a.present Protocol.Idle) : (onPresent x).Leaves a Idle :=
  leaves_on (hx.imp fun _ hp => ⟨hp, h.snapshots⟩)

theorem retrieve {change : Protocol → Protocol → Protocol} {number : Nat} (h : a.Idle)
    (hchange : ∀ {p q : Protocol}, p.Idle → q.Idle → (change p q).Idle) :
    (retrieve number change).Leaves a Idle := by
  refine leaves_modify ?_
  split
  next => exact h
  next snapshot hsnapshot =>
    exact ⟨hchange (h.snapshots snapshot (List.mem_of_getElem? hsnapshot))
      h.present, h.snapshots⟩

/-- **A step leaves every guard.** -/
theorem next (h : a.Idle) (step : Step) : (a.next step).Idle := by
  show (act step).Leaves a Idle
  have hp := h.present
  cases step with
  | direct => exact h.onPresent (leaves_discard hp.performed)
  | submitted => exact h.onPresent (leaves_discard hp.submitted)
  | pausedVault ctx paused =>
      exact h.onPresent (leaves_ite (fun _ => hp.administered) fun _ => hp.administered)
  | pausedEngine ctx paused =>
      exact h.onPresent (leaves_ite (fun _ => hp.governed) fun _ => hp.governed)
  | asked => exact h.onPresent (leaves_get (leaves_check hp fun _ _ => leaves_pure hp))
  | drained | around => exact h.onPresent (leaves_modify ⟨hp.vault, hp.engine⟩)
  | saved =>
      refine leaves_modify ⟨hp, fun p hmem => ?_⟩
      rcases List.mem_append.mp hmem with hmem | hnew
      · exact h.snapshots p hmem
      · rw [List.mem_singleton.mp hnew]
        exact ⟨rfl, rfl⟩
  | restored => exact h.retrieve fun _ _ => ⟨rfl, rfl⟩
  | restoredVault =>
      rw [act]
      exact h.retrieve fun hsnapshot hq => ⟨hsnapshot.vault, hq.engine⟩
  | restoredEngine =>
      rw [act]
      exact h.retrieve fun hsnapshot hq => ⟨hq.vault, hsnapshot.engine⟩

theorem through (h : a.Idle) (steps : List Step) : (a.through steps).Idle := by
  induction steps generalizing a with
  | nil => exact h
  | cons step rest ih => exact ih (h.next step)

/-- **Between steps no step finds a component entered.** -/
theorem act_refusedBy (h : a.Idle) : (act step).RefusedBy Error.Admitted a := by
  have hp := h.present
  have hordinary {x : Action Protocol Unit} (hx : x.RefusedBy Error.Ordinary a.present) :
      x.RefusedBy Error.Admitted a.present := hx.imp fun _ => Error.Ordinary.admitted
  cases step with
  | direct => exact refusedBy_on (refusedBy_discard hp.perform_refusedBy)
  | submitted => exact refusedBy_on (refusedBy_discard hp.submit_refusedBy)
  | pausedVault ctx paused =>
      refine refusedBy_on (hordinary (refusedBy_ite (fun _ => ?_) fun _ => ?_))
      · exact Protocol.pauseVault_ordinary hp.vault
      · exact Protocol.unpauseVault_ordinary hp.vault
  | pausedEngine ctx paused =>
      refine refusedBy_on (hordinary (refusedBy_ite (fun _ => ?_) fun _ => ?_))
      · exact Protocol.pauseEngine_ordinary hp.engine
      · exact Protocol.unpauseEngine_ordinary hp.engine
  | asked =>
      refine refusedBy_on (refusedBy_get ?_)
      exact refusedBy_check Protocol.ask_admitted fun _ _ => answers_pure.refusedBy
  | drained | around =>
      rw [act]
      exact refusedBy_on answers_modify.refusedBy
  | saved | restored | restoredVault | restoredEngine => exact answers_modify.refusedBy

end Idle

end Archive

/-! ### Every history -/

/-- **Guards are always left.**  However a vault and an engine were used since they were made, with
calls of every kind, answered or refused, and with snapshots taken and restored in between, nobody
holds one of them, and no call finds one entered.  A guard by itself is entered as long as its one
token is out, whatever is done with other guards and with copies of it. -/
theorem guards_always_left :
    (∀ p : Protocol, p.Begun → ∀ (steps : List Archive.Step) (step : Archive.Step),
      let a := (Archive.mk p []).through steps
      a.present.vault.guard.entered = false ∧ a.present.engine.guard.entered = false ∧
        ∀ b, Archive.act step a ≠ .error .reentrantCall b) ∧
    ∀ (count : Nat) (steps : List GuardPool.Step) (i : Nat) (g : Guard),
      ((GuardPool.untouched count).through steps).guards[i]? = some g →
        ((GuardPool.untouched count).through steps).Behaves i g := by
  refine ⟨fun p hbegun steps step => ?_, fun count steps i g hguard => ?_⟩
  · have hidle : ((Archive.mk p []).through steps).Idle :=
      Archive.Idle.through ⟨hbegun.idle, fun _ hmem => absurd hmem List.not_mem_nil⟩ steps
    refine ⟨?_, ?_, fun b hrefused => ?_⟩
    · rw [hidle.present.vault]
      rfl
    · rw [hidle.present.engine]
      rfl
    · exact hidle.act_refusedBy _ b hrefused rfl
  · exact ((GuardPool.kept_untouched count).through steps).behaves hguard

/-- A snapshot is taken, a deposit is refused to who calls and to who submits, the vault is paused
by an admin who may not, and what was saved is restored. -/
def Archive.restoring : List Archive.Step :=
  [.saved, .direct ⟨Sample.bob, 0⟩ (.deposit Sample.weth Sample.unit),
    .submitted Sample.bob (.deposit Sample.weth Sample.unit),
    .pausedVault ⟨Sample.admin, 0⟩ true, .restored 0, .restoredEngine 0]

/-- Two guards of which the first is entered and copied, and its copy is entered and left. -/
def GuardPool.copying : List GuardPool.Step := [.enter 0, .clone 0, .enter 2, .release 1]

/-- After all this the guards of the components are free, and so is the copy. -/
theorem guards_always_left_restoring :
    let a := (Archive.mk Sample.start []).through Archive.restoring
    let pool := (GuardPool.untouched 2).through GuardPool.copying
    Sample.start.Begun ∧
      (a.present.vault.guard.entered = false ∧ a.present.engine.guard.entered = false ∧
        ∀ b, Archive.act (.direct ⟨Sample.bob, 0⟩ .pause) a ≠ .error .reentrantCall b) ∧
      pool = ⟨[⟨true⟩, .free, .free], [⟨0, true⟩, ⟨2, false⟩]⟩ ∧
      pool.Behaves 0 ⟨true⟩ ∧ pool.Behaves 2 .free := by
  intro a pool
  have hbegun : Sample.start.Begun := ⟨Sample.fresh.vault, Sample.fresh.engine⟩
  obtain ⟨hcalls, hpool⟩ := guards_always_left
  exact ⟨hbegun, hcalls Sample.start hbegun Archive.restoring _, by decide,
    hpool 2 GuardPool.copying 0 _ (by decide), hpool 2 GuardPool.copying 2 _ (by decide)⟩

end Custody
