/-
What calls leave alone.

The rules of the vault say who may do what and on which terms: the roles, the pause,
the knobs and the proposals that wait at them.  The engine has rules of its own, its
roles, its pause and the sizes of liquidations.  Deposits, releases, liquidations and
write-offs change books and leave the rules as they are, and no call at all moves prices
or time.  That is so when a call is refused as well, and so it holds of calls that are
not transactions.

Administration is where the rules change.  Refused, it leaves every knob alone.
-/
import Custody.Proofs.Administration

namespace Custody

open Custody.Action

/-! ### The vault -/

namespace Vault

variable {v w u : Vault}

/-- Two states of a vault with the same values in force and the same proposals. -/
structure SameKnobs (v w : Vault) : Prop where
  borrowModule : w.borrowModule = v.borrowModule
  configs : w.configs = v.configs
  listed : w.listed = v.listed
  pendingAdds : w.pendingAdds = v.pendingAdds
  pendingUpdates : w.pendingUpdates = v.pendingUpdates
  pendingModule : w.pendingModule = v.pendingModule

/-- Two states of a vault under the same rules. -/
structure SameRules (v w : Vault) : Prop extends SameKnobs v w where
  access : w.access = v.access
  paused : w.paused = v.paused

theorem SameKnobs.rfl : SameKnobs v v := ⟨.refl _, .refl _, .refl _, .refl _, .refl _, .refl _⟩

theorem SameRules.rfl : SameRules v v := ⟨.rfl, .refl _, .refl _⟩

theorem SameRules.trans (h : SameRules v w) (h' : SameRules w u) : SameRules v u where
  borrowModule := h'.borrowModule.trans h.borrowModule
  configs := h'.configs.trans h.configs
  listed := h'.listed.trans h.listed
  pendingAdds := h'.pendingAdds.trans h.pendingAdds
  pendingUpdates := h'.pendingUpdates.trans h.pendingUpdates
  pendingModule := h'.pendingModule.trans h.pendingModule
  access := h'.access.trans h.access
  paused := h'.paused.trans h.paused

/-- The books, the log and the guard are no part of the rules. -/
theorem SameRules.rebooked (h : SameRules v w) {deposits : Book} {totals : Tally}
    {events : EventLog} {guard : Guard} :
    SameRules v { w with
      deposits := deposits
      totals := totals
      events := events
      guard := guard } :=
  ⟨⟨h.borrowModule, h.configs, h.listed, h.pendingAdds, h.pendingUpdates, h.pendingModule⟩,
    h.access, h.paused⟩

end Vault

/-! ### What calls do not write

Deposits and withdrawals write the books of the vault and of the bank.  A call that does
not administer writes these and the engine and the ledger.  A property that does not look
there survives it, and so the text of the calls is gone through once for all such properties.
-/

namespace Protocol

/-- A property of states that does not depend on what the vault and the bank have booked. -/
structure Custodial (Q : Protocol → Prop) : Prop where
  vault : ∀ {p : Protocol} {deposits : Book} {totals : Tally} {events : EventLog} {guard : Guard},
    Q p → Q { p with vault := { p.vault with
      deposits := deposits
      totals := totals
      events := events
      guard := guard } }
  bank : ∀ {p : Protocol} {b : Bank}, Q p → Q { p with bank := b }

/-- A property of states that does not depend on the books, the engine, the ledger and the
bank. -/
structure Aside (Q : Protocol → Prop) : Prop extends Custodial Q where
  engine : ∀ {p : Protocol} {e : Engine}, Q p → Q { p with engine := e }
  ledger : ∀ {p : Protocol} {l : Ledger}, Q p → Q { p with ledger := l }
  unsettle : ∀ {p q : Protocol}, Q p → Q q → Q (unsettle p q)

variable {ctx : Context} {p : Protocol} {α : Type} {Q : Protocol → Prop}
  {funder user token recipient liquidator : Address} {amount : Amount}

section

variable (hQ : Custodial Q)

include hQ

private theorem onBank_custodial {x : Action Bank α} (h : Q p) : (onBank x).Leaves p Q :=
  leaves_on (leaves_of_forall fun _ => hQ.bank h)

private theorem tell_custodial {now : Timestamp} {event : Event} (h : Q p) :
    (onVault (Vault.tell now event)).Leaves p Q :=
  leaves_on (leaves_modify (hQ.vault h))

private theorem credit_custodial (h : Q p) :
    (onVault (Vault.credit user token amount)).Leaves p Q := by
  refine leaves_on (leaves_get (leaves_check h fun _ _ => leaves_check h fun _ _ => ?_))
  exact leaves_set (hQ.vault h)

private theorem debit_custodial (h : Q p) :
    (onVault (Vault.debit user token amount)).Leaves p Q := by
  refine leaves_on (leaves_get (leaves_refuseIf h fun _ => leaves_check h fun _ _ => ?_))
  exact leaves_bind (leaves_set (hQ.vault h)) fun _ _ _ h => leaves_pure h

/-- Entering and leaving a guard is booking, too. -/
private theorem vaultCall_custodial {x : Action Protocol α} (h : Q p)
    (hx : ∀ q, Q q → x.Leaves q Q) : (vaultCall x).Leaves p Q :=
  Guard.leaves_hold h (Leaves.imp (hx _ (hQ.vault h)) fun _ ht => hQ.vault ht)

/-! ### Collateral -/

private theorem pull_custodial (h : Q p) : (pull funder user token amount).Leaves p Q := by
  unfold pull
  refine leaves_refuseIf h fun _ => leaves_get (leaves_check h fun _ _ => ?_)
  refine leaves_bind (onBank_custodial hQ h) fun _ _ _ h => ?_
  refine leaves_get (leaves_check h fun _ _ => leaves_refuseIf h fun _ => ?_)
  refine leaves_bind (credit_custodial hQ h) fun _ _ _ h => ?_
  exact leaves_pure h

theorem deposit_custodial (h : Q p) : (deposit ctx token amount).Leaves p Q := by
  refine vaultCall_custodial hQ h fun q h => leaves_get (leaves_check h fun _ _ => ?_)
  refine leaves_bind (pull_custodial hQ h) fun _ _ _ h => ?_
  exact leaves_bind (tell_custodial hQ h) fun _ _ _ h => leaves_pure h

theorem depositFor_custodial (h : Q p) : (depositFor ctx user token amount).Leaves p Q := by
  refine vaultCall_custodial hQ h fun q h => leaves_get (leaves_check h fun _ _ => ?_)
  refine leaves_check h fun _ _ => leaves_check h fun _ _ => ?_
  refine leaves_bind (pull_custodial hQ h) fun _ _ _ h => ?_
  exact leaves_bind (tell_custodial hQ h) fun _ _ _ h => leaves_pure h

/-- A debit that is sent and told. -/
private theorem release_custodial {check : Action Protocol Unit} {now : Timestamp} {event : Event}
    (hcheck : ∀ q, Q q → check.Leaves q Q) (h : Q p) :
    (do
      let receipt ← onVault (Vault.debit user token amount)
      send receipt recipient amount check
      onVault (Vault.tell now event) : Action Protocol Unit).Leaves p Q := by
  refine leaves_bind (debit_custodial hQ h) fun receipt s _ h => ?_
  have hsend : (send receipt recipient amount check).Leaves s Q := by
    refine leaves_undoing (leaves_bind (hcheck s h) fun _ _ _ h => ?_) fun _ h => hQ.vault h
    exact leaves_get (onBank_custodial hQ h)
  exact leaves_bind hsend fun _ _ _ h => tell_custodial hQ h

theorem withdraw_custodial (h : Q p) : (withdraw ctx user token amount).Leaves p Q := by
  refine vaultCall_custodial hQ h fun q h => leaves_get (leaves_refuseIf h fun _ => ?_)
  exact leaves_refuseIf h fun _ => release_custodial hQ (fun _ h => leaves_pure h) h

theorem seize_custodial (h : Q p) :
    (seize ctx user token amount liquidator).Leaves p Q := by
  refine vaultCall_custodial hQ h fun q h => leaves_get (leaves_check h fun _ _ => ?_)
  refine leaves_check h fun _ _ => leaves_refuseIf h fun _ => ?_
  exact release_custodial hQ (fun _ h => leaves_pure h) h

omit hQ in
/-- The margin is only looked at. -/
theorem margin_aside {skipCheck : Bool} (q : Protocol) (h : Q q) :
    (do unless skipCheck do checkMargin (← get) user : Action Protocol Unit).Leaves q Q := by
  refine leaves_ite (fun _ => leaves_pure h) fun _ => ?_
  refine leaves_of_cases (fun _ t ht => ?_) fun _ t ht => ?_
  · obtain ⟨-, rfl⟩ := check_eq_ok.mp ht
    exact h
  · obtain ⟨-, rfl⟩ := check_eq_error.mp ht
    exact h

theorem withdrawFor_custodial {skipCheck : Bool} (h : Q p) :
    (withdrawFor ctx user token amount recipient skipCheck).Leaves p Q := by
  refine vaultCall_custodial hQ h fun q h => leaves_get (leaves_check h fun _ _ => ?_)
  refine leaves_check h fun _ _ => leaves_refuseIf h fun _ => leaves_check h fun _ _ => ?_
  exact leaves_refuseIf h fun _ => release_custodial hQ margin_aside h

end

/-! ### Liquidations and write-offs -/

variable {borrower : Address} {offer : Amount} {quote : Quote} (hQ : Aside Q)

include hQ

private theorem onLedger_aside {x : Action Ledger α} (h : Q p) : (onLedger x).Leaves p Q :=
  leaves_on (leaves_of_forall fun _ => hQ.ledger h)

private theorem engineCall_aside {x : Action Protocol α} (h : Q p)
    (hx : ∀ q, Q q → x.Leaves q Q) : (engineCall x).Leaves p Q :=
  Guard.leaves_hold h (Leaves.imp (hx _ (hQ.engine h)) fun _ ht => hQ.engine ht)

private theorem settle_aside (h : Q p) : (settle ctx borrower token quote).Leaves p Q := by
  have hcustody := hQ.toCustodial
  refine leaves_get (leaves_bind (onBank_custodial hcustody h) fun _ _ _ h => ?_)
  refine leaves_bind (onBank_custodial hcustody h) fun _ _ _ h => ?_
  exact leaves_bind (seize_custodial hcustody h) fun _ _ _ h => onLedger_aside hQ h

private theorem liquidate_aside (h : Q p) : (liquidate ctx borrower token offer).Leaves p Q := by
  rw [liquidate_eq]
  refine engineCall_aside hQ h fun q h => leaves_get (leaves_check h fun prepared _ => ?_)
  refine leaves_bind (leaves_orRestore (settle_aside hQ h) fun _ => hQ.unsettle h) fun _ _ _ h => ?_
  exact leaves_bind (commit_leaves hQ.engine h) fun _ _ _ h => leaves_pure h

theorem perform_aside {call : Call} (hcall : ¬ call.Administers) (h : Q p) :
    (perform ctx call).Leaves p Q := by
  have hcustody := hQ.toCustodial
  cases call with
  | deposit => exact leaves_bind (deposit_custodial hcustody h) fun _ _ _ h => leaves_pure h
  | depositFor => exact leaves_bind (depositFor_custodial hcustody h) fun _ _ _ h => leaves_pure h
  | withdraw => exact leaves_bind (withdraw_custodial hcustody h) fun _ _ _ h => leaves_pure h
  | seize => exact leaves_bind (seize_custodial hcustody h) fun _ _ _ h => leaves_pure h
  | withdrawFor => exact leaves_bind (withdrawFor_custodial hcustody h) fun _ _ _ h => leaves_pure h
  | liquidate => exact leaves_bind (liquidate_aside hQ h) fun _ _ _ h => leaves_pure h
  | socialize =>
      exact leaves_bind (socialize_leaves hQ.engine hQ.ledger h) fun _ _ _ h => leaves_pure h
  | _ => exact absurd trivial hcall

omit hQ

/-! ### Rules, and what is outside -/

/-- **A call that does not administer leaves the rules alone**, answered or refused. -/
theorem perform_rules {call : Call} (hcall : ¬ call.Administers) :
    (perform ctx call).Leaves p fun q => Vault.SameRules p.vault q.vault := by
  have haside : Aside fun q => Vault.SameRules p.vault q.vault :=
    ⟨⟨fun h => h.rebooked, id⟩, id, id, fun h _ => h.rebooked⟩
  exact perform_aside haside hcall .rfl

/-- Nothing changed that is outside of the components and their books. -/
structure SameOutside (p q : Protocol) : Prop where
  oracle : q.oracle = p.oracle
  clock : q.clock = p.clock

private theorem vaultCall_outside {change : Action Vault α} :
    (vaultCall (onVault change)).Leaves p (SameOutside p) :=
  Guard.leaves_hold ⟨rfl, rfl⟩ (leaves_on (leaves_of_forall fun _ => ⟨rfl, rfl⟩))

private theorem engineCall_outside {change : Action Engine α} {q : Protocol}
    (h : SameOutside p q) : (engineCall (onEngine change)).Leaves q (SameOutside p) :=
  Guard.leaves_hold h (leaves_on (leaves_of_forall fun _ => ⟨h.oracle, h.clock⟩))

/-- The two halves of a pause, one after the other. -/
private theorem halves_outside {first : Action Vault Unit} {second : Action Engine Unit} :
    (do
      vaultCall (onVault first)
      engineCall (onEngine second)
      return .done : Action Protocol Reply).Leaves p (SameOutside p) := by
  refine leaves_bind vaultCall_outside fun _ _ _ h => ?_
  exact leaves_bind (engineCall_outside h) fun _ _ _ h => leaves_pure h

/-- **No call moves prices or time**, answered or refused. -/
theorem perform_outside {call : Call} : (perform ctx call).Leaves p (SameOutside p) := by
  have haside : Aside (SameOutside p) :=
    ⟨⟨fun h => ⟨h.oracle, h.clock⟩, fun h => ⟨h.oracle, h.clock⟩⟩,
      fun h => ⟨h.oracle, h.clock⟩, fun h => ⟨h.oracle, h.clock⟩,
      fun _ h => ⟨h.oracle, h.clock⟩⟩
  cases call with
  | deposit | depositFor | withdraw | seize | withdrawFor | liquidate | socialize =>
      exact perform_aside haside id ⟨rfl, rfl⟩
  | pause | unpause => exact halves_outside
  | setCloseFactor | setFullThreshold | grantEngineRole | revokeEngineRole =>
      exact leaves_bind (engineCall_outside ⟨rfl, rfl⟩) fun _ _ _ h => leaves_pure h
  | _ => exact leaves_bind vaultCall_outside fun _ _ _ h => leaves_pure h

theorem submit_outside {caller : Address} {call : Call} :
    (submit caller call).Leaves p (SameOutside p) :=
  leaves_orRestore (leaves_get perform_outside) fun _ h => ⟨h.oracle, h.clock⟩

/-! ### The rules of both components -/

variable {call : Call} {reply : Reply} {q s : Protocol}

/-- Two states under the same rules. -/
structure SameRules (p q : Protocol) : Prop where
  vault : Vault.SameRules p.vault q.vault
  access : q.engine.access = p.engine.access
  params : q.engine.params = p.engine.params
  paused : q.engine.paused = p.engine.paused

theorem SameRules.trans (h : SameRules p q) (h' : SameRules q s) : SameRules p s where
  vault := h.vault.trans h'.vault
  access := h'.access.trans h.access
  params := h'.params.trans h.params
  paused := h'.paused.trans h.paused

/-- A call that does not administer leaves the rules of both components alone. -/
theorem sameRules_of_perform (hcall : ¬ call.Administers)
    (h : perform ctx call p = .ok reply q) : SameRules p q := by
  have hrules := (perform_rules hcall).of_ok h
  cases perform_ok h with
  | deposited hdeposited | depositedFor _ hdeposited =>
      refine ⟨hrules, ?_, ?_, ?_⟩ <;> rw [hdeposited.engine]
  | withdrawn _ hreleased | seized _ hreleased | withdrawnFor _ hreleased =>
      refine ⟨hrules, ?_, ?_, ?_⟩ <;> rw [hreleased.engine]
  | liquidated hliquidated => refine ⟨hrules, ?_, ?_, ?_⟩ <;> rw [hliquidated.committed.rest]
  | socialized hsocialized => refine ⟨hrules, ?_, ?_, ?_⟩ <;> rw [hsocialized.engine]
  | administered hadministers _ => exact absurd hadministers hcall

theorem Restored.sameRules (h : Restored p q) : SameRules p q := by
  refine ⟨?_, ?_, ?_, ?_⟩
  · rw [h.vault]
    exact Vault.SameRules.rfl.rebooked
  · rw [h.engine]
    rfl
  · rw [h.engine]
    rfl
  · rw [h.engine]
    rfl

end Protocol

/-! ### Refused administration

A change of a knob checks first and writes afterwards, so a refusal leaves the vault as
it was.  Roles and pauses are no knobs, so for them it is enough to see what they write.
-/

namespace Vault

variable {ctx : Context} {v w : Vault} {token next account : Address}
  {params : CollateralParams} {role : Role}

private theorem propose_clean {knob : Knob} {x : Action Vault Unit} (hx : x.Answers v) :
    (do x; tellRequested ctx.now knob : Action Vault Unit).Clean v :=
  (answers_bind hx fun _ _ _ => answers_modify).clean

theorem requestAdd_clean : (requestAdd ctx token params).Clean v := by
  refine clean_get (clean_check fun _ _ => clean_check fun _ _ => ?_)
  exact propose_clean (answers_on answers_modify)

theorem requestUpdate_clean : (requestUpdate ctx token params).Clean v := by
  refine clean_get (clean_check fun _ _ => clean_check fun _ _ => ?_)
  exact propose_clean (answers_on answers_modify)

theorem requestModule_clean : (requestModule ctx next).Clean v := by
  refine clean_get (clean_check fun _ _ => clean_check fun _ _ => ?_)
  exact propose_clean (answers_on answers_modify)

private theorem queue_cancel_clean {q : Timelock.Queue Address CollateralParams} :
    (Timelock.Queue.cancel token).Clean q := by
  refine clean_get (clean_check fun _ _ => ?_)
  exact (answers_bind answers_modify fun _ _ _ => answers_pure).clean

theorem cancelAdd_clean : (cancelAdd ctx token).Clean v := by
  refine clean_get (clean_check fun _ _ => ?_)
  exact clean_bind (clean_discard (clean_on queue_cancel_clean rfl)) fun _ _ _ => answers_modify

theorem cancelUpdate_clean : (cancelUpdate ctx token).Clean v := by
  refine clean_get (clean_check fun _ _ => ?_)
  exact clean_bind (clean_discard (clean_on queue_cancel_clean rfl)) fun _ _ _ => answers_modify

theorem cancelModule_clean : (cancelModule ctx).Clean v := by
  have hcancel : (Timelock.Slot.cancel).Clean v.pendingModule := by
    refine clean_get (clean_check fun _ _ => ?_)
    exact (answers_bind answers_modify fun _ _ _ => answers_pure).clean
  refine clean_get (clean_check fun _ _ => ?_)
  exact clean_bind (clean_discard (clean_on hcancel rfl)) fun _ _ _ => answers_modify

/-- What an execution writes at its end: the vault, the proposals and the log. -/
private theorem answers_execute {clear : Action Vault Unit} {event : Event}
    (hclear : ∀ u, clear.Answers u) :
    (do set w; clear; tell ctx.now event : Action Vault Unit).Answers v := by
  refine answers_bind answers_set fun _ u _ => ?_
  exact answers_bind (hclear u) fun _ _ _ => answers_modify

theorem executeAdd_clean : (executeAdd ctx token).Clean v := by
  refine clean_get (clean_check fun _ _ => clean_check fun _ _ => clean_check fun _ _ => ?_)
  exact (answers_execute fun _ => answers_on answers_modify).clean

theorem executeUpdate_clean : (executeUpdate ctx token).Clean v := by
  refine clean_get (clean_check fun _ _ => clean_check fun _ _ => clean_check fun _ _ => ?_)
  exact clean_check fun _ _ => (answers_execute fun _ => answers_on answers_modify).clean

theorem executeModule_clean : (executeModule ctx).Clean v := by
  refine clean_get (clean_check fun _ _ => clean_check fun _ _ => clean_check fun _ _ => ?_)
  exact (answers_execute fun _ => answers_on answers_modify).clean

theorem addCollateral_clean : (addCollateral ctx token params).Clean v := by
  refine clean_get (clean_check fun _ _ => clean_check fun _ _ => ?_)
  exact (answers_bind answers_set fun _ _ _ => answers_modify).clean

theorem setEnabled_clean {enabled : Bool} : (setEnabled enabled ctx token).Clean v := by
  refine clean_get (clean_check fun _ _ => clean_check fun _ _ => ?_)
  exact (answers_bind answers_set fun _ _ _ => answers_modify).clean

/-- The members of roles, the pause, the log and the guard are no knobs. -/
theorem SameKnobs.aside (h : SameKnobs v w) {access : Access} {paused : Bool}
    {events : EventLog} {guard : Guard} :
    SameKnobs v { w with
      access := access
      paused := paused
      events := events
      guard := guard } :=
  ⟨h.borrowModule, h.configs, h.listed, h.pendingAdds, h.pendingUpdates, h.pendingModule⟩

private theorem tell_knobs {now : Timestamp} {event : Event} (h : SameKnobs v w) :
    (tell now event).Leaves w (SameKnobs v) :=
  leaves_modify h.aside

private theorem onAccess_knobs {x : Action Access Bool} {now : Timestamp} {event : Event} :
    (onAccess x >>= fun changed => if changed then tell now event else pure ()).Leaves v
      (SameKnobs v) := by
  refine leaves_bind (leaves_on (leaves_of_forall fun _ => SameKnobs.rfl.aside)) ?_
  intro changed u _ h
  exact leaves_ite (fun _ => tell_knobs h) fun _ => leaves_pure h

theorem grantRole_knobs : (grantRole ctx role account).Leaves v (SameKnobs v) := onAccess_knobs

theorem revokeRole_knobs : (revokeRole ctx role account).Leaves v (SameKnobs v) := onAccess_knobs

private theorem setPaused_knobs {paused : Bool} :
    (setPaused paused ctx).Leaves v (SameKnobs v) :=
  leaves_bind (leaves_modify SameKnobs.rfl.aside) fun _ _ _ h => tell_knobs h

theorem pause_knobs : (pause ctx).Leaves v (SameKnobs v) :=
  leaves_get (leaves_check .rfl fun _ _ => setPaused_knobs)

theorem unpause_knobs : (unpause ctx).Leaves v (SameKnobs v) :=
  leaves_get (leaves_check .rfl fun _ _ => setPaused_knobs)

end Vault

namespace Protocol

open Vault (SameKnobs)

variable {ctx : Context} {call : Call} {p q : Protocol} {e : Error} {α : Type}

private theorem vaultCall_knobs {change : Action Vault α}
    (hchange : ∀ {v}, change.Leaves v (SameKnobs v)) :
    (vaultCall (onVault change)).Leaves p fun q => SameKnobs p.vault q.vault := by
  refine Guard.leaves_hold SameKnobs.rfl (leaves_on ?_)
  exact hchange.imp fun w h => (⟨h.borrowModule, h.configs, h.listed, h.pendingAdds,
    h.pendingUpdates, h.pendingModule⟩ : SameKnobs p.vault { w with guard := .free })

theorem pauseVault_knobs : (pauseVault ctx).Leaves p fun q => SameKnobs p.vault q.vault :=
  vaultCall_knobs Vault.pause_knobs

theorem unpauseVault_knobs : (unpauseVault ctx).Leaves p fun q => SameKnobs p.vault q.vault :=
  vaultCall_knobs Vault.unpause_knobs

private theorem vaultCall_clean {change : Action Vault α} (hchange : ∀ {v}, change.Clean v)
    (h : vaultCall (onVault change) p = .error e q) : SameKnobs p.vault q.vault := by
  simp only [vaultCall, onVault, Guard.hold_eq_error, on_eq_error] at h
  rcases h with ⟨-, -, rfl⟩ | ⟨-, _, ⟨w, hw, rfl⟩, rfl⟩
  · exact .rfl
  · rw [hchange e w hw]
    exact SameKnobs.rfl.aside

theorem administer_error {change : Action Vault Unit}
    (h : administer change p = .error e q) : vaultCall (onVault change) p = .error e q := by
  simp only [administer, bind_eq_error, pure_ne_error, and_false, exists_false, or_false] at h
  exact h

/-- The engine is governed without the vault. -/
theorem engineCall_vault {change : Action Engine α} :
    (engineCall (onEngine change)).Leaves p fun q => q.vault = p.vault :=
  Guard.leaves_hold rfl (leaves_on (leaves_of_forall fun _ => rfl))

theorem govern_vault {change : Action Engine Unit} :
    (govern change).Leaves p fun q => q.vault = p.vault :=
  leaves_bind engineCall_vault fun _ _ _ h => leaves_pure h

/-- The two halves of a pause, one after the other. -/
private theorem halves_knobs {first : Action Vault Unit} {second : Action Engine Unit}
    (hfirst : ∀ {v}, first.Leaves v (SameKnobs v)) :
    (do
      vaultCall (onVault first)
      engineCall (onEngine second)
      return .done : Action Protocol Reply).Leaves p fun q => SameKnobs p.vault q.vault := by
  refine leaves_bind (vaultCall_knobs hfirst) fun _ mid _ h => ?_
  have hsecond : (engineCall (onEngine second)).Leaves mid fun q => SameKnobs p.vault q.vault := by
    refine engineCall_vault.imp fun q hq => ?_
    rw [hq]
    exact h
  exact leaves_bind hsecond fun _ _ _ h => leaves_pure h

/-- **A refused call leaves every knob and every proposal alone.** -/
theorem perform_refused (h : perform ctx call p = .error e q) : SameKnobs p.vault q.vault := by
  cases call with
  | deposit | depositFor | withdraw | seize | withdrawFor | liquidate | socialize =>
      exact ((perform_rules id).of_error h).toSameKnobs
  | requestAdd => exact vaultCall_clean Vault.requestAdd_clean (administer_error h)
  | cancelAdd => exact vaultCall_clean Vault.cancelAdd_clean (administer_error h)
  | executeAdd => exact vaultCall_clean Vault.executeAdd_clean (administer_error h)
  | addCollateral => exact vaultCall_clean Vault.addCollateral_clean (administer_error h)
  | requestUpdate => exact vaultCall_clean Vault.requestUpdate_clean (administer_error h)
  | cancelUpdate => exact vaultCall_clean Vault.cancelUpdate_clean (administer_error h)
  | executeUpdate => exact vaultCall_clean Vault.executeUpdate_clean (administer_error h)
  | requestModule => exact vaultCall_clean Vault.requestModule_clean (administer_error h)
  | cancelModule => exact vaultCall_clean Vault.cancelModule_clean (administer_error h)
  | executeModule => exact vaultCall_clean Vault.executeModule_clean (administer_error h)
  | disable => exact vaultCall_clean Vault.setEnabled_clean (administer_error h)
  | enable => exact vaultCall_clean Vault.setEnabled_clean (administer_error h)
  | setCloseFactor | setFullThreshold | grantEngineRole | revokeEngineRole =>
      rw [govern_vault.of_error h]
      exact .rfl
  | grantVaultRole => exact (vaultCall_knobs Vault.grantRole_knobs).of_error (administer_error h)
  | revokeVaultRole => exact (vaultCall_knobs Vault.revokeRole_knobs).of_error (administer_error h)
  | pause => exact (halves_knobs Vault.pause_knobs).of_error h
  | unpause => exact (halves_knobs Vault.unpause_knobs).of_error h

end Protocol

end Custody
