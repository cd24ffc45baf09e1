/-
A token that takes no deposits is a token like any other.

Whether a token takes deposits is looked at when something is deposited, and nowhere else.  A
token that was switched off goes on to count towards health factors, can be withdrawn and seized,
and its parameters can be changed.

Said of two states that differ in the flags alone: every call ends alike in both of them, a
deposit as long as its own token has the same flag, and what is left differs in the flags alone
again.  Calls that do not administer are calls on terms with the same parameters.  What
administers a vault writes configs, and it writes the parameters of the two in the same way.
-/
import Custody.Proofs.Agreement

namespace Custody

open Custody.Action

variable {ctx : Context} {token account next : Address} {params : CollateralParams} {role : Role}
  {now : Timestamp} {event : Event} {knob : Knob} {α : Type}

/-- The turn deposits nothing. -/
def Turn.NoDeposit : Turn → Prop
  | .call _ made => ∀ token, ¬ made.Deposits token
  | .happening _ => True

/-- Tables of configs that have the same parameters, and may have other flags. -/
def SameParams (configs others : Table Address CollateralConfig) : Prop :=
  ∀ token, (others.get? token).map CollateralConfig.params =
    (configs.get? token).map CollateralConfig.params

/-- Configs with the same parameters may be written over. -/
theorem SameParams.insert {configs others : Table Address CollateralConfig}
    {c d : CollateralConfig} (h : SameParams configs others) (hparams : d.params = c.params) :
    SameParams (configs.insert token c) (others.insert token d) := by
  intro other
  rw [Table.get?_insert, Table.get?_insert]
  by_cases hother : other = token
  · simp [hother, hparams]
  · simpa [hother] using h other

/-- Switching the flag of a token is writing its parameters once more. -/
theorem sameParams_insert {configs : Table Address CollateralConfig} {c d : CollateralConfig}
    (hget : configs.get? token = some c) (hparams : d.params = c.params) :
    SameParams configs (configs.insert token d) := by
  intro other
  rw [Table.get?_insert]
  by_cases hother : other = token
  · subst hother
    simp [hget, hparams]
  · simp [hother]

namespace Vault

variable {v w : Vault}

/-- The same vault with other flags. -/
inductive Reflagged (v : Vault) : Vault → Prop
  | of (configs : Table Address CollateralConfig) (h : SameParams v.configs configs) :
      Reflagged v { v with configs := configs }

/-! ### Checks -/

theorem Reflagged.added? (h : Reflagged v w) (token : Address) :
    (w.added? token).map CollateralConfig.params =
      (v.added? token).map CollateralConfig.params := by
  obtain ⟨configs, hparams⟩ := h
  exact added?_congr (hparams token)

/-- What is required of a listed token is that it was listed. -/
theorem Reflagged.requireAdded (h : Reflagged v w) (token : Address) :
    (w.requireAdded token).map CollateralConfig.params =
      (v.requireAdded token).map CollateralConfig.params := by
  have hadded := h.added? token
  unfold Vault.requireAdded
  cases hv : v.added? token <;> cases hw : w.added? token <;>
    simp only [hv, hw, Option.map_none, Option.map_some, reduceCtorEq, Option.some.injEq]
      at hadded ⊢
  exact congrArg Except.ok hadded

theorem Reflagged.checkAdd (h : Reflagged v w) (token : Address) (params : CollateralParams) :
    w.checkAdd token params = v.checkAdd token params := by
  have hadded : (w.added? token).isSome = (v.added? token).isSome := by
    rw [← Option.isSome_map, h.added? token, Option.isSome_map]
  obtain ⟨configs, hparams⟩ := h
  unfold Vault.checkAdd
  rw [hadded]

theorem Reflagged.checkUpdate (h : Reflagged v w) (token : Address) (params : CollateralParams) :
    w.checkUpdate token params = v.checkUpdate token params := by
  have hrequired := h.requireAdded token
  unfold Vault.checkUpdate
  cases hv : v.requireAdded token <;> cases hw : w.requireAdded token <;>
    simp only [hv, hw, Except.map, reduceCtorEq, Except.error.injEq, Except.ok.injEq]
      at hrequired ⊢
  · rw [hrequired]
  · rfl

/-! ### Changes -/

private theorem tell_reflagged (h : Reflagged v w) :
    Agree Reflagged (tell now event) v (tell now event) w := by
  obtain ⟨configs, hparams⟩ := h
  exact agree_modify (.of configs hparams)

private theorem onAdds_reflagged {x : Action (Timelock.Queue Address CollateralParams) α}
    (h : Reflagged v w) : Agree Reflagged (onAdds x) v (onAdds x) w := by
  obtain ⟨configs, hparams⟩ := h
  exact agree_on_same rfl fun q => .of configs hparams

private theorem onUpdates_reflagged {x : Action (Timelock.Queue Address CollateralParams) α}
    (h : Reflagged v w) : Agree Reflagged (onUpdates x) v (onUpdates x) w := by
  obtain ⟨configs, hparams⟩ := h
  exact agree_on_same rfl fun q => .of configs hparams

private theorem onModule_reflagged {x : Action (Timelock.Slot Address) α}
    (h : Reflagged v w) : Agree Reflagged (onModule x) v (onModule x) w := by
  obtain ⟨configs, hparams⟩ := h
  exact agree_on_same rfl fun s => .of configs hparams

private theorem onAccess_reflagged {x : Action Access α}
    (h : Reflagged v w) : Agree Reflagged (onAccess x) v (onAccess x) w := by
  obtain ⟨configs, hparams⟩ := h
  exact agree_on_same rfl fun a => .of configs hparams

/-- A check of roles tells no flags apart. -/
private theorem ensure_reflagged {f g : Vault → Action Vault α} (h : Reflagged v w)
    (hnext : Agree Reflagged (f v) v (g w) w) :
    Agree Reflagged
      (get >>= fun v => liftM (v.access.ensure role ctx.caller) >>= fun _ => f v) v
      (get >>= fun w => liftM (w.access.ensure role ctx.caller) >>= fun _ => g w) w := by
  have haccess : v.access = w.access := by
    obtain ⟨configs, hparams⟩ := h
    rfl
  refine agree_get (agree_check ?_ h fun _ _ => hnext)
  rw [haccess]

private theorem requestAdd_reflagged (h : Reflagged v w) :
    Agree Reflagged (requestAdd ctx token params) v (requestAdd ctx token params) w := by
  refine ensure_reflagged h (agree_check (h.checkAdd token params).symm h fun _ _ => ?_)
  exact agree_bind (onAdds_reflagged h) fun _ _ _ h => tell_reflagged h

private theorem cancelAdd_reflagged (h : Reflagged v w) :
    Agree Reflagged (cancelAdd ctx token) v (cancelAdd ctx token) w := by
  refine ensure_reflagged h (agree_bind (agree_discard (onAdds_reflagged h)) fun _ _ _ h => ?_)
  exact tell_reflagged h

private theorem withToken_reflagged (h : Reflagged v w) :
    Reflagged (v.withToken token params) (w.withToken token params) := by
  obtain ⟨configs, hparams⟩ := h
  exact .of (configs.insert token (.listed params)) (hparams.insert rfl)

private theorem executeAdd_reflagged (h : Reflagged v w) :
    Agree Reflagged (executeAdd ctx token) v (executeAdd ctx token) w := by
  have hpending : v.pendingAdds = w.pendingAdds := by
    obtain ⟨configs, hparams⟩ := h
    rfl
  refine ensure_reflagged h (agree_check (by rw [hpending]) h fun params _ => ?_)
  refine agree_check (h.checkAdd token params).symm h fun _ _ => ?_
  refine agree_bind (agree_set (withToken_reflagged h)) fun _ _ _ h => ?_
  exact agree_bind (onAdds_reflagged h) fun _ _ _ h => tell_reflagged h

private theorem addCollateral_reflagged (h : Reflagged v w) :
    Agree Reflagged (addCollateral ctx token params) v (addCollateral ctx token params) w := by
  refine ensure_reflagged h (agree_check (h.checkAdd token params).symm h fun _ _ => ?_)
  exact agree_bind (agree_set (withToken_reflagged h)) fun _ _ _ h => tell_reflagged h

private theorem requestUpdate_reflagged (h : Reflagged v w) :
    Agree Reflagged (requestUpdate ctx token params) v (requestUpdate ctx token params) w := by
  refine ensure_reflagged h (agree_check (h.checkUpdate token params).symm h fun _ _ => ?_)
  exact agree_bind (onUpdates_reflagged h) fun _ _ _ h => tell_reflagged h

private theorem cancelUpdate_reflagged (h : Reflagged v w) :
    Agree Reflagged (cancelUpdate ctx token) v (cancelUpdate ctx token) w := by
  refine ensure_reflagged h (agree_bind (agree_discard (onUpdates_reflagged h)) fun _ _ _ h => ?_)
  exact tell_reflagged h

/-- The configs that are written may differ in the flag. -/
private theorem written_reflagged {c d : CollateralConfig} (h : Reflagged v w)
    (hparams : d.params = c.params) :
    Reflagged { v with configs := v.configs.insert token c }
      { w with configs := w.configs.insert token d } := by
  obtain ⟨configs, hsame⟩ := h
  exact .of _ (hsame.insert hparams)

private theorem executeUpdate_reflagged (h : Reflagged v w) :
    Agree Reflagged (executeUpdate ctx token) v (executeUpdate ctx token) w := by
  have hpending : v.pendingUpdates = w.pendingUpdates := by
    obtain ⟨configs, hparams⟩ := h
    rfl
  refine ensure_reflagged h (agree_check (by rw [hpending]) h fun params _ => ?_)
  refine agree_check_map _ (h.requireAdded token) h fun c d _ _ => agree_check rfl h fun _ _ => ?_
  refine agree_bind (agree_set (written_reflagged h rfl)) fun _ _ _ h => ?_
  exact agree_bind (onUpdates_reflagged h) fun _ _ _ h => tell_reflagged h

private theorem setEnabled_reflagged {enabled : Bool} (h : Reflagged v w) :
    Agree Reflagged (setEnabled enabled ctx token) v (setEnabled enabled ctx token) w := by
  refine ensure_reflagged h (agree_check_map _ (h.requireAdded token) h fun c d _ hparams => ?_)
  exact agree_bind (agree_set (written_reflagged h hparams)) fun _ _ _ h => tell_reflagged h

private theorem requestModule_reflagged (h : Reflagged v w) :
    Agree Reflagged (requestModule ctx next) v (requestModule ctx next) w := by
  refine ensure_reflagged h (agree_check rfl h fun _ _ => ?_)
  exact agree_bind (onModule_reflagged h) fun _ _ _ h => tell_reflagged h

private theorem cancelModule_reflagged (h : Reflagged v w) :
    Agree Reflagged (cancelModule ctx) v (cancelModule ctx) w := by
  refine ensure_reflagged h (agree_bind (agree_discard (onModule_reflagged h)) fun _ _ _ h => ?_)
  exact tell_reflagged h

private theorem executeModule_reflagged (h : Reflagged v w) :
    Agree Reflagged (executeModule ctx) v (executeModule ctx) w := by
  refine ensure_reflagged h ?_
  obtain ⟨configs, hparams⟩ := h
  refine agree_check rfl (.of configs hparams) fun module _ => ?_
  refine agree_check rfl (.of configs hparams) fun _ _ => ?_
  refine agree_bind (agree_set (.of configs hparams)) fun _ _ _ h => ?_
  exact agree_bind (onModule_reflagged h) fun _ _ _ h => tell_reflagged h

private theorem regroup_reflagged {x : Action Access Bool} (h : Reflagged v w) :
    Agree Reflagged (onAccess x >>= fun changed => if changed then tell now event else pure ()) v
      (onAccess x >>= fun changed => if changed then tell now event else pure ()) w := by
  refine agree_bind (onAccess_reflagged h) fun changed _ _ h => ?_
  exact agree_ite (fun _ => tell_reflagged h) fun _ => agree_pure h

private theorem setPaused_reflagged {paused : Bool} (h : Reflagged v w) :
    Agree Reflagged (setPaused paused ctx) v (setPaused paused ctx) w := by
  obtain ⟨configs, hparams⟩ := h
  refine agree_bind (agree_modify (.of configs hparams)) fun _ _ _ h => tell_reflagged h

private theorem pause_reflagged (h : Reflagged v w) :
    Agree Reflagged (pause ctx) v (pause ctx) w :=
  ensure_reflagged h (setPaused_reflagged h)

private theorem unpause_reflagged (h : Reflagged v w) :
    Agree Reflagged (unpause ctx) v (unpause ctx) w :=
  ensure_reflagged h (setPaused_reflagged h)

end Vault

namespace Protocol

variable {p q : Protocol} {caller : Address} {call : Call}

/-- The same state but that the vault has other flags. -/
inductive Reflagged (p : Protocol) : Protocol → Prop
  | of (w : Vault) (h : p.vault.Reflagged w) : Reflagged p { p with vault := w }

/-- Flags are no part of what calls read of the terms, deposits apart. -/
theorem Reflagged.equivalent (h : Reflagged p q) :
    Terms.Equivalent ⟨p.vault.configs, p.oracle⟩ ⟨q.vault.configs, q.oracle⟩ := by
  obtain ⟨w, ⟨configs, hparams⟩⟩ := h
  exact ⟨hparams, fun _ => rfl⟩

theorem Reflagged.recast (h : Reflagged p q) :
    Recast ⟨p.vault.configs, p.oracle⟩ ⟨q.vault.configs, q.oracle⟩ p q := by
  obtain ⟨w, ⟨configs, hparams⟩⟩ := h
  exact .of p

theorem reflagged_of_recast {a b : Terms} (hterms : a.Equivalent b) (horacle : b.oracle = a.oracle)
    (h : Recast a b p q) : Reflagged p q := by
  obtain ⟨s⟩ := h
  have hsame : s.under b = { s.under a with vault := { s.vault with configs := b.configs } } := by
    unfold under
    rw [horacle]
  rw [hsame]
  exact .of _ (.of b.configs hterms.params)

private theorem vaultCall_reflagged {x : Action Vault Unit} (h : Reflagged p q)
    (hx : ∀ v w, Vault.Reflagged v w → Agree Vault.Reflagged x v x w) :
    Agree Reflagged (vaultCall (onVault x)) p (vaultCall (onVault x)) q := by
  refine agree_hold ?_ h ?_ ?_
  · obtain ⟨w, ⟨configs, hparams⟩⟩ := h
    rfl
  · rintro g p _ ⟨_, ⟨configs, hparams⟩⟩
    exact .of _ (.of configs hparams)
  · rintro p _ ⟨w, hw⟩
    refine agree_on (hx _ _ hw) ?_
    intro _ _ hleft
    exact .of _ hleft

/-- Flags are no part of the engine, the ledger and the bank. -/
theorem reflagged_beside : Beside Reflagged where
  engine := by
    rintro p _ ⟨w, hw⟩
    rfl
  ledger := by
    rintro p _ ⟨w, hw⟩
    rfl
  bank := by
    rintro p _ ⟨w, hw⟩
    rfl
  withEngine := by
    rintro p _ e ⟨w, hw⟩
    exact .of w hw
  withLedger := by
    rintro p _ l ⟨w, hw⟩
    exact .of w hw
  withBank := by
    rintro p _ b ⟨w, hw⟩
    exact .of w hw

private theorem administer_reflagged {x : Action Vault Unit} (h : Reflagged p q)
    (hx : ∀ v w, Vault.Reflagged v w → Agree Vault.Reflagged x v x w) :
    Agree Reflagged (administer x) p (administer x) q :=
  agree_bind (vaultCall_reflagged h hx) fun _ _ _ h => agree_pure h

private theorem govern_reflagged (x : Action Engine Unit) (h : Reflagged p q) :
    Agree Reflagged (govern x) p (govern x) q :=
  agree_bind (agree_engineChange reflagged_beside x h) fun _ _ _ h => agree_pure h

/-! ### Calls and runs -/

/-- **A call ends alike whichever tokens take deposits, a deposit if its own token does or does not
in both states.** -/
theorem perform_reflagged (h : Reflagged p q)
    (hown : ∀ token, call.Deposits token →
      q.vault.configs.get? token = p.vault.configs.get? token) :
    Agree Reflagged (perform ctx call) p (perform ctx call) q := by
  have hpause : ∀ x : Action Vault Unit, ∀ y : Action Engine Unit,
      (∀ v w, Vault.Reflagged v w → Agree Vault.Reflagged x v x w) →
      Agree Reflagged
        (vaultCall (onVault x) >>= fun _ => engineCall (onEngine y) >>= fun _ => pure Reply.done) p
        (vaultCall (onVault x) >>= fun _ => engineCall (onEngine y) >>= fun _ => pure Reply.done)
        q := by
    intro x y hx
    refine agree_bind (vaultCall_reflagged h hx) fun _ _ _ h => ?_
    exact agree_bind (agree_engineChange reflagged_beside y h) fun _ _ _ h => agree_pure h
  cases call with
  | deposit | depositFor | withdraw | seize | withdrawFor | liquidate | socialize =>
      refine (perform_recast id h.equivalent ?_ h.recast).imp ?_
      · rintro token hdeposits _ _ ⟨v⟩
        exact Vault.ensureEnabled_congr (hown token hdeposits)
      · intro s t hst
        refine reflagged_of_recast h.equivalent ?_ hst
        obtain ⟨w, hw⟩ := h
        rfl
  | requestAdd => exact administer_reflagged h fun _ _ => Vault.requestAdd_reflagged
  | cancelAdd => exact administer_reflagged h fun _ _ => Vault.cancelAdd_reflagged
  | executeAdd => exact administer_reflagged h fun _ _ => Vault.executeAdd_reflagged
  | addCollateral => exact administer_reflagged h fun _ _ => Vault.addCollateral_reflagged
  | requestUpdate => exact administer_reflagged h fun _ _ => Vault.requestUpdate_reflagged
  | cancelUpdate => exact administer_reflagged h fun _ _ => Vault.cancelUpdate_reflagged
  | executeUpdate => exact administer_reflagged h fun _ _ => Vault.executeUpdate_reflagged
  | requestModule => exact administer_reflagged h fun _ _ => Vault.requestModule_reflagged
  | cancelModule => exact administer_reflagged h fun _ _ => Vault.cancelModule_reflagged
  | executeModule => exact administer_reflagged h fun _ _ => Vault.executeModule_reflagged
  | disable | enable => exact administer_reflagged h fun _ _ => Vault.setEnabled_reflagged
  | grantVaultRole | revokeVaultRole =>
      exact administer_reflagged h fun _ _ => Vault.regroup_reflagged
  | setCloseFactor | setFullThreshold | grantEngineRole | revokeEngineRole =>
      exact govern_reflagged _ h
  | pause => exact hpause _ _ fun _ _ => Vault.pause_reflagged
  | unpause => exact hpause _ _ fun _ _ => Vault.unpause_reflagged

theorem submit_reflagged (h : Reflagged p q)
    (hown : ∀ token, call.Deposits token →
      q.vault.configs.get? token = p.vault.configs.get? token) :
    Agree Reflagged (submit caller call) p (submit caller call) q := by
  obtain ⟨w, hw⟩ := h
  refine agree_orRestore (agree_get (perform_reflagged (.of w hw) hown)) ?_
  rintro u _ ⟨x, hx⟩
  obtain ⟨configs, hparams⟩ := hw
  exact .of _ (.of configs hparams)

theorem happen_reflagged {happening : Happening} (h : Reflagged p q) :
    Agree Reflagged (happen happening) p (happen happening) q := by
  cases happening with
  | registerToken | setFee | setFrozen | mint | approve | transfer | transferFrom | burn =>
      exact agree_onBank reflagged_beside _ h
  | setDebt | setReserves | setSupplied | setRejecting | reduceDebt | absorbLoss =>
      exact agree_onLedger reflagged_beside _ h
  | setPrice | setBreaker | setDown | setTime | advance =>
      obtain ⟨w, hw⟩ := h
      exact agree_modify (.of w hw)

/-- **Flags are read by deposits alone.**  Whichever tokens take deposits, a call that deposits
nothing, or a token with the same config in both states, has the same answer or the same reason to
be refused, submitted or made of the components, and what it leaves differs in flags alone.  Health
factors, what a liquidation may repay and what it would seize, and the value of collateral are the
same, and so are runs in which nothing is deposited. -/
theorem flags_concern_deposits_only (h : Reflagged p q) :
    (∀ call : Call, (∀ token, call.Deposits token →
        q.vault.configs.get? token = p.vault.configs.get? token) →
      (∀ caller, Agree Reflagged (submit caller call) p (submit caller call) q) ∧
      ∀ ctx, Agree Reflagged (perform ctx call) p (perform ctx call) q) ∧
    (∀ ctx, Agree Reflagged (pauseVault ctx) p (pauseVault ctx) q ∧
      Agree Reflagged (unpauseVault ctx) p (unpauseVault ctx) q ∧
      Agree Reflagged (pauseEngine ctx) p (pauseEngine ctx) q ∧
      Agree Reflagged (unpauseEngine ctx) p (unpauseEngine ctx) q) ∧
    (∀ user, (∀ mode, Health.factor q.ledger q.oracle mode q.vault.view user =
        Health.factor p.ledger p.oracle mode p.vault.view user) ∧
      q.isLiquidatable user = p.isLiquidatable user ∧
      q.maxRepayable user = p.maxRepayable user ∧
      (∀ token offer, q.quote user token offer = p.quote user token offer) ∧
      q.vault.collateralValue q.oracle user = p.vault.collateralValue p.oracle user) ∧
    ∀ turns, (∀ turn ∈ turns, turn.NoDeposit) →
      q.trace turns = p.trace turns ∧ Reflagged (p.run turns) (q.run turns) := by
  refine ⟨?_, ?_, ?_, ?_⟩
  · intro call hown
    exact ⟨fun _ => submit_reflagged h hown, fun _ => perform_reflagged h hown⟩
  · intro ctx
    exact ⟨vaultCall_reflagged h fun _ _ => Vault.pause_reflagged,
      vaultCall_reflagged h fun _ _ => Vault.unpause_reflagged,
      agree_engineChange reflagged_beside _ h, agree_engineChange reflagged_beside _ h⟩
  · intro user
    obtain ⟨w, ⟨configs, hparams⟩⟩ := h
    have hterms : Terms.Equivalent ⟨p.vault.configs, p.oracle⟩ ⟨configs, p.oracle⟩ :=
      ⟨hparams, fun _ => rfl⟩
    refine ⟨?_, hterms.isLiquidatable p user, hterms.maxRepayable p user,
      hterms.quote p user, rfl⟩
    intro mode
    exact Health.factor_congr rfl rfl hparams fun _ => rfl
  · intro turns hturns
    refine run_of_turns ?_ turns hturns h
    intro p q turn hturn h
    cases turn with
    | call caller call =>
        exact turn_of_submit (submit_reflagged h fun token htoken => absurd htoken (hturn token))
    | happening happening => exact turn_of_happen (happen_reflagged h)

/-- The vault of the small world, taking no more deposits of a token with a fee. -/
def disabled : Protocol :=
  let p := Sample.indebted Sample.loan
  { p with vault :=
      { p.vault with configs := p.vault.configs.insert Sample.weth ⟨false, 7500, 8000, 500⟩ } }

/-- Deposits of the token are refused, and it is seized all the same. -/
theorem flags_concern_deposits_only_disabled :
    let p := Sample.indebted Sample.loan
    let call : Call := .liquidate Sample.alice Sample.weth .largest
    p.Reflagged disabled ∧
      p.vault.ensureEnabled Sample.weth = .ok () ∧
      disabled.vault.ensureEnabled Sample.weth = .error (.tokenDisabled Sample.weth) ∧
      Agree Reflagged (submit Sample.liquidator call) p (submit Sample.liquidator call) disabled ∧
      (disabled.after (.call Sample.liquidator call)).engine.statistics.liquidations = 1 := by
  have hget : (Sample.indebted Sample.loan).vault.configs.get? Sample.weth =
      some ⟨true, 7500, 8000, 500⟩ := by decide +kernel
  have hflags : (Sample.indebted Sample.loan).Reflagged disabled :=
    .of _ (.of _ (sameParams_insert hget rfl))
  refine ⟨hflags, ?_, ?_, ?_, by decide +kernel⟩
  · unfold Vault.ensureEnabled
    rw [hget]
    rfl
  · unfold Vault.ensureEnabled disabled
    simp [Table.get?_insert]
  · have hcalls := (flags_concern_deposits_only hflags).1
      (.liquidate Sample.alice Sample.weth .largest) fun _ hdeposits => hdeposits.elim
    exact hcalls.1 Sample.liquidator

end Protocol

end Custody
