/-
Errors that no call should see.

Most errors tell a caller what is wrong with the call.  Four of them tell that something is wrong
with the program: a component was entered while it ran, a difference was negative, two books did
not agree, a state occurred that should not.  An error of these kinds is an alarm.

A call is refused by one of its steps, so what it is refused by is collected step by step.  Checks
and administration raise no alarm, whatever the state, as long as the component is free to be
entered.  What moves amounts computes differences, and needs more than its text.
-/
import Custody.Proofs.Cause
import Custody.Proofs.EngineAccounting

namespace Custody

/-! ### Alarms -/

/-- The error tells of the program and not of the call. -/
inductive Error.Alarm : Error → Prop
  | underflow (operation : String) : Alarm (.underflow operation)
  | invariantViolation (detail : String) : Alarm (.invariantViolation detail)
  | reentrantCall : Alarm .reentrantCall
  | internal (detail : String) : Alarm (.internal detail)

/-- The error is no alarm. -/
def Error.Ordinary (e : Error) : Prop := ¬ e.Alarm

theorem Error.Reading.ordinary {e : Error} (h : e.Reading) : e.Ordinary := by
  cases h with
  | invalidPrice | overflow => nofun

theorem Error.OutOfBounds.ordinary {e : Error} (h : e.OutOfBounds) : e.Ordinary := by
  cases h
  nofun

/-! ### Refused actions -/

theorem Check.refusedBy_discard {α : Type} {kind : Error → Prop} {x : Except Error α}
    (h : RefusedBy kind x) : RefusedBy kind (discard x) := by
  cases x with
  | ok a => exact refusedBy_ok
  | error e => exact refusedBy_error (h e rfl)

theorem Check.refusedBy_forM {α : Type} {kind : Error → Prop} {f : α → Except Error PUnit}
    (hf : ∀ a, RefusedBy kind (f a)) (l : List α) : RefusedBy kind (l.forM f) := by
  induction l with
  | nil => exact refusedBy_ok
  | cons a rest ih => exact refusedBy_bind (hf a) fun _ _ => ih

namespace Action

variable {σ τ α β : Type} {s : σ} {kind kind' : Error → Prop}

/-- If the action is refused, it is with an error of this kind. -/
def RefusedBy (kind : Error → Prop) (x : Action σ α) (s : σ) : Prop :=
  ∀ e t, x s = .error e t → kind e

theorem RefusedBy.imp {x : Action σ α} (hx : RefusedBy kind x s) (h : ∀ e, kind e → kind' e) :
    RefusedBy kind' x s :=
  fun e t hrefused => h e (hx e t hrefused)

theorem Answers.refusedBy {x : Action σ α} (h : Answers x s) : RefusedBy kind x s :=
  fun e t hrefused => absurd hrefused (h e t)

theorem refusedBy_get {f : σ → Action σ α} (h : RefusedBy kind (f s) s) :
    RefusedBy kind (get >>= f) s := h

theorem refusedBy_throw {e : Error} (h : kind e) : RefusedBy kind (throw e : Action σ α) s := by
  intro e' t hrefused
  obtain ⟨rfl, -⟩ := throw_eq_error.mp hrefused
  exact h

theorem refusedBy_bind {x : Action σ α} {f : α → Action σ β} (hx : RefusedBy kind x s)
    (hf : ∀ a t, x s = .ok a t → RefusedBy kind (f a) t) : RefusedBy kind (x >>= f) s := by
  intro e t hrefused
  rcases bind_eq_error.mp hrefused with h | ⟨a, u, ha, h⟩
  · exact hx e t h
  · exact hf a u ha e t h

theorem refusedBy_check {x : Except Error α} {f : α → Action σ β}
    (hx : Check.RefusedBy kind x)
    (hf : ∀ a, x = .ok a → RefusedBy kind (f a) s) : RefusedBy kind (liftM x >>= f) s := by
  refine refusedBy_bind (fun e t hrefused => ?_) fun a t ha => ?_
  · exact hx e (check_eq_error.mp hrefused).1
  · obtain ⟨hread, rfl⟩ := check_eq_ok.mp ha
    exact hf a hread

theorem refusedBy_ite {c : Prop} [Decidable c] {x y : Action σ α} (hx : c → RefusedBy kind x s)
    (hy : ¬ c → RefusedBy kind y s) : RefusedBy kind (if c then x else y) s := by
  by_cases hc : c
  · rw [if_pos hc]
    exact hx hc
  · rw [if_neg hc]
    exact hy hc

theorem refusedBy_refuseIf {c : Prop} [Decidable c] {e : Error} {f : PUnit → Action σ α}
    (he : kind e) (hf : ¬ c → RefusedBy kind (f ⟨⟩) s) :
    RefusedBy kind (if c then throw e >>= f else f ⟨⟩) s :=
  refusedBy_ite (fun _ => refusedBy_bind (refusedBy_throw he) fun _ _ h => nomatch h) hf

theorem refusedBy_discard {x : Action σ α} (h : RefusedBy kind x s) :
    RefusedBy kind (discard x) s :=
  fun e t hrefused => h e t (discard_eq_error.mp hrefused)

variable {part : σ → τ} {update : τ → σ → σ}

theorem refusedBy_on {x : Action τ α} (h : RefusedBy kind x (part s)) :
    RefusedBy kind (on part update x) s := by
  intro e t hrefused
  obtain ⟨u, hu, -⟩ := on_eq_error.mp hrefused
  exact h e u hu

theorem refusedBy_undoing {undo : σ → σ} {x : Action σ α} (h : RefusedBy kind x s) :
    RefusedBy kind (undoing undo x) s := by
  intro e t hrefused
  obtain ⟨u, hu, -⟩ := undoing_eq_error.mp hrefused
  exact h e u hu

theorem refusedBy_orRestore {restore : σ → σ → σ} {x : Action σ α}
    (h : RefusedBy kind x s) :
    RefusedBy kind (orRestore restore x) s := by
  intro e t hrefused
  obtain ⟨u, hu, -⟩ := orRestore_eq_error.mp hrefused
  exact h e u hu

/-- A call that finds the guard free is not refused by the guard. -/
theorem refusedBy_hold {guard : σ → Guard} {update : Guard → σ → σ} {call : Action σ α}
    (hfree : guard s = .free) (h : RefusedBy kind call (update ⟨true⟩ s)) :
    RefusedBy kind (Guard.hold guard update call) s := by
  intro e t hrefused
  rcases Guard.hold_eq_error.mp hrefused with ⟨hheld, -, -⟩ | ⟨-, u, hu, -⟩
  · rw [hfree] at hheld
    cases hheld
  · exact h e u hu

end Action

open Custody.Action

/-! ### Checks -/

theorem Address.ensureNonZero_ordinary {a : Address} {name : String} :
    Check.RefusedBy Error.Ordinary (a.ensureNonZero name) :=
  Check.refusedBy_ite (fun _ => Check.refusedBy_error nofun) fun _ => Check.refusedBy_ok

theorem Access.ensure_ordinary {a : Access} {role : Role} {account : Address} :
    Check.RefusedBy Error.Ordinary (a.ensure role account) :=
  Check.refusedBy_ite (fun _ => Check.refusedBy_ok) fun _ => Check.refusedBy_error nofun

theorem CollateralParams.validate_ordinary {params : CollateralParams} :
    Check.RefusedBy Error.Ordinary params.validate :=
  validate_refusedBy.imp fun _ => Error.OutOfBounds.ordinary

namespace Amount

variable {a b c d : Amount}

theorem mulDiv_ordinary : Check.RefusedBy Error.Ordinary (a.mulDiv b c) := by
  by_cases hdivisor : c = 0
  · rw [mulDiv, if_pos hdivisor]
    exact Check.refusedBy_error nofun
  · exact (mulDiv_refusedBy hdivisor).imp fun _ => Error.Reading.ordinary

theorem mulMulDiv_ordinary : Check.RefusedBy Error.Ordinary (a.mulMulDiv b c d) := by
  by_cases hdivisor : d = 0
  · rw [mulMulDiv, if_pos hdivisor]
    exact Check.refusedBy_error nofun
  · exact (mulMulDiv_refusedBy hdivisor).imp fun _ => Error.Reading.ordinary

end Amount

namespace Oracle

variable {o : Oracle} {mode : ReadMode} {token : Address} {amount : Amount}

theorem entry_ordinary : Check.RefusedBy Error.Ordinary (o.entry mode token) := by
  refine Check.refusedBy_ite (fun _ => Check.refusedBy_error nofun) fun _ => ?_
  refine Check.refusedBy_ite (fun _ => Check.refusedBy_error nofun) fun _ => ?_
  cases o.prices.get? token with
  | none => exact Check.refusedBy_error nofun
  | some entry => exact Check.refusedBy_ok

theorem value_ordinary : Check.RefusedBy Error.Ordinary (o.value mode token amount) := by
  refine Check.refusedBy_bind entry_ordinary fun _ _ => ?_
  refine Check.refusedBy_bind (Amount.narrow_refusedBy.imp fun _ => Error.Reading.ordinary) ?_
  exact fun _ _ => Amount.mulDiv_ordinary

end Oracle

namespace Bank

variable {b : Bank} {token : Address}

theorem decimalsOf_ordinary : Check.RefusedBy Error.Ordinary (b.decimalsOf token) := by
  unfold decimalsOf
  split
  next => exact Check.refusedBy_error nofun
  next => exact Check.refusedBy_ok

theorem ensureMovable_ordinary : Check.RefusedBy Error.Ordinary (b.ensureMovable token) :=
  Check.refusedBy_bind (Check.refusedBy_discard decimalsOf_ordinary) fun _ _ =>
    Check.refusedBy_ite (fun _ => Check.refusedBy_error nofun) fun _ => Check.refusedBy_ok

end Bank

section

variable {α κ : Type} {now : Timestamp} {delay : UInt64}

theorem PendingChange.ready_ordinary {change : PendingChange α} :
    Check.RefusedBy Error.Ordinary (change.ready now delay) :=
  Check.refusedBy_ite (fun _ => Check.refusedBy_error nofun) fun _ => Check.refusedBy_ok

theorem Timelock.Slot.required_ordinary {slot : Slot α} :
    Check.RefusedBy Error.Ordinary slot.required := by
  unfold required
  cases slot.pending with
  | none => exact Check.refusedBy_error nofun
  | some change => exact Check.refusedBy_ok

theorem Timelock.Slot.ready_ordinary {slot : Slot α} :
    Check.RefusedBy Error.Ordinary (slot.ready now delay) :=
  Check.refusedBy_bind required_ordinary fun _ _ => PendingChange.ready_ordinary

theorem Timelock.Slot.cancel_ordinary {slot : Slot α} :
    cancel.RefusedBy Error.Ordinary slot :=
  refusedBy_get (refusedBy_check required_ordinary fun _ _ =>
    (answers_bind answers_modify fun _ _ _ => answers_pure).refusedBy)

variable [Ord κ] [ToString κ] {queue : Timelock.Queue κ α} {key : κ}

theorem Timelock.Queue.required_ordinary : Check.RefusedBy Error.Ordinary (queue.required key) := by
  unfold required
  cases queue.get? key with
  | none => exact Check.refusedBy_error nofun
  | some change => exact Check.refusedBy_ok

theorem Timelock.Queue.ready_ordinary :
    Check.RefusedBy Error.Ordinary (queue.ready key now delay) :=
  Check.refusedBy_bind required_ordinary fun _ _ => PendingChange.ready_ordinary

theorem Timelock.Queue.cancel_ordinary : (cancel key).RefusedBy Error.Ordinary queue :=
  refusedBy_get (refusedBy_check required_ordinary fun _ _ =>
    (answers_bind answers_modify fun _ _ _ => answers_pure).refusedBy)

end

/-! ### Roles -/

namespace Access

variable {a : Access} {caller account : Address} {role : Role}

theorem grant_ordinary : (grant caller role account).RefusedBy Error.Ordinary a :=
  refusedBy_get (refusedBy_check ensure_ordinary fun _ _ =>
    refusedBy_check Address.ensureNonZero_ordinary fun _ _ =>
      (answers_bind answers_set fun _ _ _ => answers_pure).refusedBy)

theorem revoke_ordinary : (revoke caller role account).RefusedBy Error.Ordinary a := by
  refine refusedBy_get (refusedBy_check ensure_ordinary fun _ _ => ?_)
  refine refusedBy_refuseIf nofun fun _ => ?_
  split
  next => exact answers_pure.refusedBy
  next => exact (answers_bind answers_set fun _ _ _ => answers_pure).refusedBy

end Access

/-! ### Questions

They are answered from what is there, so no state needs to be well kept for them.
-/

theorem Vault.collateralValue_ordinary {v : Vault} {o : Oracle} {user : Address} :
    Check.RefusedBy Error.Ordinary (v.collateralValue o user) := by
  refine Check.refusedBy_foldlM (fun sum token => ?_) _ _
  refine Check.refusedBy_ite (fun _ => Check.refusedBy_ok) fun _ => ?_
  refine Check.refusedBy_bind Oracle.value_ordinary fun _ _ => ?_
  exact Amount.add_refusedBy.imp fun _ => Error.Reading.ordinary

namespace Protocol

variable {p : Protocol} {borrower : Address}

theorem health_ordinary : Check.RefusedBy Error.Ordinary (p.health borrower) :=
  Health.factor_refusedBy.imp fun _ => Error.Reading.ordinary

theorem isLiquidatable_ordinary : Check.RefusedBy Error.Ordinary (p.isLiquidatable borrower) :=
  Check.refusedBy_ite (fun _ => Check.refusedBy_ok) fun _ =>
    Check.refusedBy_bind health_ordinary fun _ _ => Check.refusedBy_ok

theorem maxRepayable_ordinary : Check.RefusedBy Error.Ordinary (p.maxRepayable borrower) := by
  refine Check.refusedBy_ite (fun _ => Check.refusedBy_ok) fun _ => ?_
  refine Check.refusedBy_bind health_ordinary fun _ _ => ?_
  refine Check.refusedBy_ite (fun _ => Check.refusedBy_ok) fun _ => ?_
  exact Engine.repayLimit_refusedBy.imp fun _ => Error.Reading.ordinary

end Protocol

/-! ### Administration of the vault -/

namespace Vault

variable {v : Vault} {ctx : Context} {token next account : Address} {params : CollateralParams}
  {enabled : Bool} {role : Role}

theorem ensureRunning_ordinary : Check.RefusedBy Error.Ordinary v.ensureRunning :=
  Check.refusedBy_ite (fun _ => Check.refusedBy_error nofun) fun _ => Check.refusedBy_ok

theorem ensureEnabled_ordinary : Check.RefusedBy Error.Ordinary (v.ensureEnabled token) := by
  unfold ensureEnabled
  split
  next => exact Check.refusedBy_error nofun
  next =>
    exact Check.refusedBy_ite (fun _ => Check.refusedBy_ok) fun _ => Check.refusedBy_error nofun

theorem requireAdded_ordinary : Check.RefusedBy Error.Ordinary (v.requireAdded token) := by
  unfold requireAdded
  split
  next => exact Check.refusedBy_error nofun
  next => exact Check.refusedBy_ok

theorem checkAdd_ordinary : Check.RefusedBy Error.Ordinary (v.checkAdd token params) := by
  refine Check.refusedBy_bind Address.ensureNonZero_ordinary fun _ _ => ?_
  refine Check.refusedBy_bind CollateralParams.validate_ordinary fun _ _ => ?_
  refine Check.refusedBy_refuseIf nofun fun _ => ?_
  exact Check.refusedBy_ite (fun _ => Check.refusedBy_error nofun) fun _ => Check.refusedBy_ok

theorem checkUpdate_ordinary : Check.RefusedBy Error.Ordinary (v.checkUpdate token params) :=
  Check.refusedBy_bind (Check.refusedBy_discard requireAdded_ordinary) fun _ _ =>
    CollateralParams.validate_ordinary

/-- What comes after the checks of an amendment is not refused. -/
private theorem closing_ordinary {now : Timestamp} {event : Event} {x : Action Vault Unit}
    (hx : x.Answers v) :
    (do
      x
      tell now event : Action Vault Unit).RefusedBy Error.Ordinary v :=
  (answers_bind hx fun _ _ _ => answers_modify).refusedBy

theorem requestAdd_ordinary : (requestAdd ctx token params).RefusedBy Error.Ordinary v :=
  refusedBy_get (refusedBy_check Access.ensure_ordinary fun _ _ =>
    refusedBy_check checkAdd_ordinary fun _ _ => closing_ordinary (answers_on answers_modify))

theorem requestUpdate_ordinary : (requestUpdate ctx token params).RefusedBy Error.Ordinary v :=
  refusedBy_get (refusedBy_check Access.ensure_ordinary fun _ _ =>
    refusedBy_check checkUpdate_ordinary fun _ _ => closing_ordinary (answers_on answers_modify))

theorem requestModule_ordinary : (requestModule ctx next).RefusedBy Error.Ordinary v :=
  refusedBy_get (refusedBy_check Access.ensure_ordinary fun _ _ =>
    refusedBy_check Address.ensureNonZero_ordinary fun _ _ =>
      closing_ordinary (answers_on answers_modify))

theorem cancelAdd_ordinary : (cancelAdd ctx token).RefusedBy Error.Ordinary v :=
  refusedBy_get (refusedBy_check Access.ensure_ordinary fun _ _ =>
    refusedBy_bind (refusedBy_discard (refusedBy_on Timelock.Queue.cancel_ordinary))
      fun _ _ _ => answers_modify.refusedBy)

theorem cancelUpdate_ordinary : (cancelUpdate ctx token).RefusedBy Error.Ordinary v :=
  refusedBy_get (refusedBy_check Access.ensure_ordinary fun _ _ =>
    refusedBy_bind (refusedBy_discard (refusedBy_on Timelock.Queue.cancel_ordinary))
      fun _ _ _ => answers_modify.refusedBy)

theorem cancelModule_ordinary : (cancelModule ctx).RefusedBy Error.Ordinary v :=
  refusedBy_get (refusedBy_check Access.ensure_ordinary fun _ _ =>
    refusedBy_bind (refusedBy_discard (refusedBy_on Timelock.Slot.cancel_ordinary))
      fun _ _ _ => answers_modify.refusedBy)

theorem executeAdd_ordinary : (executeAdd ctx token).RefusedBy Error.Ordinary v := by
  refine refusedBy_get (refusedBy_check Access.ensure_ordinary fun _ _ => ?_)
  refine refusedBy_check Timelock.Queue.ready_ordinary fun _ _ => ?_
  refine refusedBy_check checkAdd_ordinary fun _ _ => ?_
  exact refusedBy_bind answers_set.refusedBy fun _ _ _ =>
    closing_ordinary (answers_on answers_modify)

theorem executeUpdate_ordinary : (executeUpdate ctx token).RefusedBy Error.Ordinary v := by
  refine refusedBy_get (refusedBy_check Access.ensure_ordinary fun _ _ => ?_)
  refine refusedBy_check Timelock.Queue.ready_ordinary fun _ _ => ?_
  refine refusedBy_check requireAdded_ordinary fun _ _ => ?_
  refine refusedBy_check CollateralParams.validate_ordinary fun _ _ => ?_
  exact refusedBy_bind answers_set.refusedBy fun _ _ _ =>
    closing_ordinary (answers_on answers_modify)

theorem executeModule_ordinary : (executeModule ctx).RefusedBy Error.Ordinary v := by
  refine refusedBy_get (refusedBy_check Access.ensure_ordinary fun _ _ => ?_)
  refine refusedBy_check Timelock.Slot.ready_ordinary fun _ _ => ?_
  refine refusedBy_check Address.ensureNonZero_ordinary fun _ _ => ?_
  exact refusedBy_bind answers_set.refusedBy fun _ _ _ =>
    closing_ordinary (answers_on answers_modify)

theorem addCollateral_ordinary : (addCollateral ctx token params).RefusedBy Error.Ordinary v :=
  refusedBy_get (refusedBy_check Access.ensure_ordinary fun _ _ =>
    refusedBy_check checkAdd_ordinary fun _ _ => closing_ordinary answers_set)

theorem setEnabled_ordinary : (setEnabled enabled ctx token).RefusedBy Error.Ordinary v :=
  refusedBy_get (refusedBy_check Access.ensure_ordinary fun _ _ =>
    refusedBy_check requireAdded_ordinary fun _ _ => closing_ordinary answers_set)

theorem grantRole_ordinary : (grantRole ctx role account).RefusedBy Error.Ordinary v :=
  refusedBy_bind (refusedBy_on Access.grant_ordinary) fun _ _ _ =>
    (answers_ite (fun _ => answers_modify) fun _ => answers_pure).refusedBy

theorem revokeRole_ordinary : (revokeRole ctx role account).RefusedBy Error.Ordinary v :=
  refusedBy_bind (refusedBy_on Access.revoke_ordinary) fun _ _ _ =>
    (answers_ite (fun _ => answers_modify) fun _ => answers_pure).refusedBy

theorem pause_ordinary : (pause ctx).RefusedBy Error.Ordinary v :=
  refusedBy_get (refusedBy_check Access.ensure_ordinary fun _ _ => closing_ordinary answers_modify)

theorem unpause_ordinary : (unpause ctx).RefusedBy Error.Ordinary v :=
  refusedBy_get (refusedBy_check Access.ensure_ordinary fun _ _ => closing_ordinary answers_modify)

end Vault

/-! ### Government of the engine -/

namespace Engine

variable {e : Engine} {ctx : Context} {bps : UInt64} {account : Address} {role : Role}

theorem ensureRunning_ordinary : Check.RefusedBy Error.Ordinary e.ensureRunning :=
  Check.refusedBy_ite (fun _ => Check.refusedBy_error nofun) fun _ => Check.refusedBy_ok

private theorem writing_ordinary {now : Timestamp} {event : Event} {f : Engine → Engine} :
    (do
      modify f
      tell now event : Action Engine Unit).RefusedBy Error.Ordinary e :=
  (answers_bind answers_modify fun _ _ _ => answers_modify).refusedBy

theorem setCloseFactor_ordinary : (setCloseFactor ctx bps).RefusedBy Error.Ordinary e :=
  refusedBy_get (refusedBy_check Access.ensure_ordinary fun _ _ =>
    refusedBy_check (Check.refusedBy_ite (fun _ => Check.refusedBy_error nofun)
      fun _ => Check.refusedBy_ok) fun _ _ => writing_ordinary)

theorem setFullThreshold_ordinary : (setFullThreshold ctx bps).RefusedBy Error.Ordinary e :=
  refusedBy_get (refusedBy_check Access.ensure_ordinary fun _ _ =>
    refusedBy_check (Check.refusedBy_ite (fun _ => Check.refusedBy_error nofun)
      fun _ => Check.refusedBy_ok) fun _ _ => writing_ordinary)

theorem grantRole_ordinary : (grantRole ctx role account).RefusedBy Error.Ordinary e :=
  refusedBy_bind (refusedBy_on Access.grant_ordinary) fun _ _ _ =>
    (answers_ite (fun _ => answers_modify) fun _ => answers_pure).refusedBy

theorem revokeRole_ordinary : (revokeRole ctx role account).RefusedBy Error.Ordinary e :=
  refusedBy_bind (refusedBy_on Access.revoke_ordinary) fun _ _ _ =>
    (answers_ite (fun _ => answers_modify) fun _ => answers_pure).refusedBy

theorem pause_ordinary : (pause ctx).RefusedBy Error.Ordinary e :=
  refusedBy_get (refusedBy_check Access.ensure_ordinary fun _ _ => writing_ordinary)

theorem unpause_ordinary : (unpause ctx).RefusedBy Error.Ordinary e :=
  refusedBy_get (refusedBy_check Access.ensure_ordinary fun _ _ => writing_ordinary)

end Engine

/-! ### Every administrative call -/

namespace Protocol

variable {p : Protocol} {ctx : Context} {call : Call}

theorem pauseVault_ordinary (hfree : p.vault.guard = .free) :
    (pauseVault ctx).RefusedBy Error.Ordinary p :=
  refusedBy_hold hfree (refusedBy_on Vault.pause_ordinary)

theorem unpauseVault_ordinary (hfree : p.vault.guard = .free) :
    (unpauseVault ctx).RefusedBy Error.Ordinary p :=
  refusedBy_hold hfree (refusedBy_on Vault.unpause_ordinary)

theorem pauseEngine_ordinary (hfree : p.engine.guard = .free) :
    (pauseEngine ctx).RefusedBy Error.Ordinary p :=
  refusedBy_hold hfree (refusedBy_on Engine.pause_ordinary)

theorem unpauseEngine_ordinary (hfree : p.engine.guard = .free) :
    (unpauseEngine ctx).RefusedBy Error.Ordinary p :=
  refusedBy_hold hfree (refusedBy_on Engine.unpause_ordinary)

private theorem administer_ordinary {change : Action Vault Unit} (hidle : Idle p)
    (hchange : ∀ {v}, change.RefusedBy Error.Ordinary v) :
    (administer change).RefusedBy Error.Ordinary p :=
  refusedBy_bind (refusedBy_hold hidle.vault (refusedBy_on hchange)) fun _ _ _ =>
    answers_pure.refusedBy

private theorem govern_ordinary {change : Action Engine Unit} (hidle : Idle p)
    (hchange : ∀ {e}, change.RefusedBy Error.Ordinary e) :
    (govern change).RefusedBy Error.Ordinary p :=
  refusedBy_bind (refusedBy_hold hidle.engine (refusedBy_on hchange)) fun _ _ _ =>
    answers_pure.refusedBy

/-- The engine is free when the vault has answered. -/
private theorem engine_free {change : Action Vault Unit} {q : Protocol} (hidle : Idle p)
    (h : vaultCall (onVault change) p = .ok () q) : q.engine.guard = .free := by
  rw [vaultCall_engine.of_ok h]
  exact hidle.engine

/-- **Between calls administration raises no alarm.** -/
theorem perform_administers_ordinary (hidle : Idle p) (hcall : call.Administers) :
    (perform ctx call).RefusedBy Error.Ordinary p := by
  cases call with
  | deposit | depositFor | withdraw | seize | withdrawFor | liquidate | socialize => cases hcall
  | requestAdd => exact administer_ordinary hidle Vault.requestAdd_ordinary
  | cancelAdd => exact administer_ordinary hidle Vault.cancelAdd_ordinary
  | executeAdd => exact administer_ordinary hidle Vault.executeAdd_ordinary
  | addCollateral => exact administer_ordinary hidle Vault.addCollateral_ordinary
  | requestUpdate => exact administer_ordinary hidle Vault.requestUpdate_ordinary
  | cancelUpdate => exact administer_ordinary hidle Vault.cancelUpdate_ordinary
  | executeUpdate => exact administer_ordinary hidle Vault.executeUpdate_ordinary
  | requestModule => exact administer_ordinary hidle Vault.requestModule_ordinary
  | cancelModule => exact administer_ordinary hidle Vault.cancelModule_ordinary
  | executeModule => exact administer_ordinary hidle Vault.executeModule_ordinary
  | disable | enable => exact administer_ordinary hidle Vault.setEnabled_ordinary
  | setCloseFactor => exact govern_ordinary hidle Engine.setCloseFactor_ordinary
  | setFullThreshold => exact govern_ordinary hidle Engine.setFullThreshold_ordinary
  | grantVaultRole => exact administer_ordinary hidle Vault.grantRole_ordinary
  | revokeVaultRole => exact administer_ordinary hidle Vault.revokeRole_ordinary
  | grantEngineRole => exact govern_ordinary hidle Engine.grantRole_ordinary
  | revokeEngineRole => exact govern_ordinary hidle Engine.revokeRole_ordinary
  | pause =>
      refine refusedBy_bind (pauseVault_ordinary hidle.vault) fun _ _ hq => ?_
      exact refusedBy_bind (pauseEngine_ordinary (engine_free hidle hq)) fun _ _ _ =>
        answers_pure.refusedBy
  | unpause =>
      refine refusedBy_bind (unpauseVault_ordinary hidle.vault) fun _ _ hq => ?_
      exact refusedBy_bind (unpauseEngine_ordinary (engine_free hidle hq)) fun _ _ _ =>
        answers_pure.refusedBy

end Protocol

end Custody
