/-
What a call can do.

There are many calls and few things that they do.  An answered call took a deposit,
released collateral, liquidated a position, wrote off bad debt, or changed only what
administration may change.  Whatever is to hold after every call is shown for these
effects, and the text of the calls is looked at here once.

A call that is submitted and refused has changed nothing that a later call can tell,
except that the guards are free.
-/
import Custody.Proofs.Engine
import Custody.Proofs.Liquidation
import Custody.Protocol.Call

namespace Custody

/-- Calls that configure a component, grant or pause. -/
def Call.Administers : Call → Prop
  | .deposit .. | .depositFor .. | .withdraw .. | .seize .. | .withdrawFor .. => False
  | .liquidate .. | .socialize .. => False
  | _ => True

namespace Protocol

open Custody.Action

variable {ctx : Context} {p q s : Protocol} {reply : Reply} {call : Call}

/-! ### Administration -/

/-- Only what administration may change has changed. -/
structure Administered (p q : Protocol) : Prop where
  vault : Vault.SameBooks p.vault q.vault
  engine : Engine.SameRecords p.engine q.engine
  ledger : q.ledger = p.ledger
  oracle : q.oracle = p.oracle
  bank : q.bank = p.bank
  clock : q.clock = p.clock

private theorem Administered.trans (h : Administered p q) (h' : Administered q s) :
    Administered p s where
  vault := ⟨h'.vault.address.trans h.vault.address, h'.vault.deposits.trans h.vault.deposits,
    h'.vault.totals.trans h.vault.totals⟩
  engine := ⟨h'.engine.address.trans h.engine.address,
    h'.engine.debtToken.trans h.engine.debtToken, h'.engine.badDebt.trans h.engine.badDebt,
    h'.engine.statistics.trans h.engine.statistics, h'.engine.sized ∘ h.engine.sized⟩
  ledger := h'.ledger.trans h.ledger
  oracle := h'.oracle.trans h.oracle
  bank := h'.bank.trans h.bank
  clock := h'.clock.trans h.clock

private theorem vaultCall_ok {change : Action Vault Unit} {r : Unit}
    (hchange : ∀ {v}, change.Leaves v (Vault.SameBooks v))
    (h : vaultCall (onVault change) p = .ok r q) : Administered p q := by
  simp only [vaultCall, onVault, Guard.hold_eq_ok, on_eq_ok] at h
  obtain ⟨-, _, ⟨w, hw, rfl⟩, rfl⟩ := h
  have hbooks := hchange.of_ok hw
  exact ⟨⟨hbooks.address, hbooks.deposits, hbooks.totals⟩, .rfl, rfl, rfl, rfl, rfl⟩

private theorem engineCall_ok {change : Action Engine Unit} {r : Unit}
    (hchange : ∀ {e}, change.Leaves e (Engine.SameRecords e))
    (h : engineCall (onEngine change) p = .ok r q) : Administered p q := by
  simp only [engineCall, onEngine, Guard.hold_eq_ok, on_eq_ok] at h
  obtain ⟨-, _, ⟨f, hf, rfl⟩, rfl⟩ := h
  have hrecords := hchange.of_ok hf
  exact ⟨.rfl, ⟨hrecords.address, hrecords.debtToken, hrecords.badDebt, hrecords.statistics,
    hrecords.sized⟩, rfl, rfl, rfl, rfl⟩

/-! ### Answered calls -/

/-- What an answered call did, and who was allowed to make it. -/
inductive Effect (ctx : Context) : Call → Reply → Protocol → Protocol → Prop where
  | deposited {p q : Protocol} {token : Address} {amount received : Amount} :
      Deposited ctx ctx.caller token amount received (.deposited ctx.caller token received) p q →
        Effect ctx (.deposit token amount) (.amount received) p q
  | depositedFor {p q : Protocol} {user token : Address} {amount received : Amount} :
      p.vault.access.ensure .leverageVault ctx.caller = .ok () →
        Deposited ctx user token amount received
          (.depositedFor ctx.caller user token received) p q →
        Effect ctx (.depositFor user token amount) (.amount received) p q
  | withdrawn {p q : Protocol} {user token : Address} {amount : Amount} :
      ctx.caller = p.vault.borrowModule →
        Released user token amount user ctx.now (.withdrawn user token amount) p q →
        Effect ctx (.withdraw user token amount) .done p q
  | seized {p q : Protocol} {user token liquidator : Address} {amount : Amount} :
      p.vault.access.ensure .liquidation ctx.caller = .ok () →
        Released user token amount liquidator ctx.now (.seized user token amount liquidator)
          p q →
        Effect ctx (.seize user token amount liquidator) .done p q
  | withdrawnFor {p q : Protocol} {user token recipient : Address} {amount : Amount}
      {skipCheck : Bool} :
      p.vault.access.ensure .leverageVault ctx.caller = .ok () →
        Released user token amount recipient ctx.now
          (.withdrawnFor ctx.caller user token amount recipient skipCheck) p q →
        Effect ctx (.withdrawFor user token amount recipient skipCheck) .done p q
  | liquidated {p q : Protocol} {borrower token : Address} {offer : Amount} {health : UInt64}
      {quote : Quote} :
      Liquidated ctx borrower token offer health quote p q →
        Effect ctx (.liquidate borrower token offer)
          (.outcome ⟨borrower, ctx.caller, token, health, quote.repay, quote.seize,
            quote.shortfall⟩) p q
  | socialized {p q : Protocol} {borrower : Address} {absorbed : Amount} :
      Socialized ctx borrower absorbed p q →
        Effect ctx (.socialize borrower) (.amount absorbed) p q
  | administered {p q : Protocol} {call : Call} :
      call.Administers → Administered p q → Effect ctx call .done p q

private theorem administer_ok {change : Action Vault Unit} (hcall : call.Administers)
    (hchange : ∀ {v}, change.Leaves v (Vault.SameBooks v))
    (h : administer change p = .ok reply q) : Effect ctx call reply p q := by
  simp only [administer, bind_eq_ok, pure_eq_ok] at h
  obtain ⟨_, _, hdone, rfl, rfl⟩ := h
  exact .administered hcall (vaultCall_ok hchange hdone)

private theorem govern_ok {change : Action Engine Unit} (hcall : call.Administers)
    (hchange : ∀ {e}, change.Leaves e (Engine.SameRecords e))
    (h : govern change p = .ok reply q) : Effect ctx call reply p q := by
  simp only [govern, bind_eq_ok, pure_eq_ok] at h
  obtain ⟨_, _, hdone, rfl, rfl⟩ := h
  exact .administered hcall (engineCall_ok hchange hdone)

/-- **What each answered call did.** -/
theorem perform_ok (h : perform ctx call p = .ok reply q) : Effect ctx call reply p q := by
  cases call with
  | deposit token amount =>
      simp only [perform, bind_eq_ok, pure_eq_ok] at h
      obtain ⟨_, _, hcall, rfl, rfl⟩ := h
      exact .deposited (deposit_ok hcall)
  | depositFor user token amount =>
      simp only [perform, bind_eq_ok, pure_eq_ok] at h
      obtain ⟨_, _, hcall, rfl, rfl⟩ := h
      obtain ⟨hrole, hdeposited⟩ := depositFor_ok hcall
      exact .depositedFor hrole hdeposited
  | withdraw user token amount =>
      simp only [perform, bind_eq_ok, pure_eq_ok] at h
      obtain ⟨_, _, hcall, rfl, rfl⟩ := h
      obtain ⟨hcaller, hreleased⟩ := withdraw_ok hcall
      exact .withdrawn hcaller hreleased
  | seize user token amount liquidator =>
      simp only [perform, bind_eq_ok, pure_eq_ok] at h
      obtain ⟨_, _, hcall, rfl, rfl⟩ := h
      obtain ⟨hrole, hreleased⟩ := seize_ok hcall
      exact .seized hrole hreleased
  | withdrawFor user token amount recipient skipCheck =>
      simp only [perform, bind_eq_ok, pure_eq_ok] at h
      obtain ⟨_, _, hcall, rfl, rfl⟩ := h
      obtain ⟨hrole, hreleased⟩ := withdrawFor_ok hcall
      exact .withdrawnFor hrole hreleased
  | liquidate borrower token offer =>
      simp only [perform, bind_eq_ok, pure_eq_ok] at h
      obtain ⟨o, _, hcall, rfl, rfl⟩ := h
      obtain ⟨health, quote, hliquidated, rfl⟩ := liquidate_ok hcall
      exact .liquidated hliquidated
  | socialize borrower =>
      simp only [perform, bind_eq_ok, pure_eq_ok] at h
      obtain ⟨_, _, hcall, rfl, rfl⟩ := h
      exact .socialized (socialize_ok hcall)
  | requestAdd token params => exact administer_ok trivial Vault.requestAdd_books h
  | cancelAdd token => exact administer_ok trivial Vault.cancelAdd_books h
  | executeAdd token => exact administer_ok trivial Vault.executeAdd_books h
  | addCollateral token params => exact administer_ok trivial Vault.addCollateral_books h
  | requestUpdate token params => exact administer_ok trivial Vault.requestUpdate_books h
  | cancelUpdate token => exact administer_ok trivial Vault.cancelUpdate_books h
  | executeUpdate token => exact administer_ok trivial Vault.executeUpdate_books h
  | requestModule next => exact administer_ok trivial Vault.requestModule_books h
  | cancelModule => exact administer_ok trivial Vault.cancelModule_books h
  | executeModule => exact administer_ok trivial Vault.executeModule_books h
  | disable token => exact administer_ok trivial Vault.setEnabled_books h
  | enable token => exact administer_ok trivial Vault.setEnabled_books h
  | setCloseFactor bps => exact govern_ok trivial Engine.setCloseFactor_records h
  | setFullThreshold bps => exact govern_ok trivial Engine.setFullThreshold_records h
  | grantVaultRole role account => exact administer_ok trivial Vault.grantRole_books h
  | revokeVaultRole role account => exact administer_ok trivial Vault.revokeRole_books h
  | grantEngineRole role account => exact govern_ok trivial Engine.grantRole_records h
  | revokeEngineRole role account => exact govern_ok trivial Engine.revokeRole_records h
  | pause =>
      simp only [perform, pauseVault, pauseEngine, bind_eq_ok, pure_eq_ok] at h
      obtain ⟨_, mid, hvault, _, _, hengine, rfl, rfl⟩ := h
      have hfirst := vaultCall_ok Vault.pause_books hvault
      have hsecond := engineCall_ok Engine.pause_records hengine
      exact .administered trivial (hfirst.trans hsecond)
  | unpause =>
      simp only [perform, unpauseVault, unpauseEngine, bind_eq_ok, pure_eq_ok] at h
      obtain ⟨_, mid, hvault, _, _, hengine, rfl, rfl⟩ := h
      have hfirst := vaultCall_ok Vault.unpause_books hvault
      have hsecond := engineCall_ok Engine.unpause_records hengine
      exact .administered trivial (hfirst.trans hsecond)

/-- What an answered call did to debts and to what the engine records. -/
inductive DebtEffect (ctx : Context) : Call → Reply → Protocol → Protocol → Prop where
  | liquidated {p q : Protocol} {borrower token : Address} {offer : Amount} {health : UInt64}
      {quote : Quote} :
      Liquidated ctx borrower token offer health quote p q →
        DebtEffect ctx (.liquidate borrower token offer)
          (.outcome ⟨borrower, ctx.caller, token, health, quote.repay, quote.seize,
            quote.shortfall⟩) p q
  | socialized {p q : Protocol} {borrower : Address} {absorbed : Amount} :
      Socialized ctx borrower absorbed p q →
        DebtEffect ctx (.socialize borrower) (.amount absorbed) p q
  | kept {p q : Protocol} {call : Call} {reply : Reply} :
      (∀ borrower token offer, call ≠ .liquidate borrower token offer) →
        q.ledger = p.ledger → Engine.SameRecords p.engine q.engine →
        DebtEffect ctx call reply p q

private theorem DebtEffect.of_custody (h : CustodyOnly p q)
    (hcall : ∀ borrower token offer, call ≠ .liquidate borrower token offer) :
    DebtEffect ctx call reply p q := by
  refine .kept hcall h.ledger ?_
  rw [h.engine]
  exact .rfl

/-- Only a liquidation or a write-off touches a debt or a record. -/
theorem Effect.debt (h : Effect ctx call reply p q) : DebtEffect ctx call reply p q := by
  cases h with
  | deposited hdeposited => exact .of_custody hdeposited.toCustodyOnly nofun
  | depositedFor _ hdeposited => exact .of_custody hdeposited.toCustodyOnly nofun
  | withdrawn _ hreleased => exact .of_custody hreleased.toCustodyOnly nofun
  | seized _ hreleased => exact .of_custody hreleased.toCustodyOnly nofun
  | withdrawnFor _ hreleased => exact .of_custody hreleased.toCustodyOnly nofun
  | liquidated hliquidated => exact .liquidated hliquidated
  | socialized hsocialized => exact .socialized hsocialized
  | administered hcall hadmin =>
      refine .kept ?_ hadmin.ledger hadmin.engine
      rintro borrower token offer rfl
      exact hcall.elim

/-! ### Submitted calls -/

variable {caller : Address} {e : Error}

/-- An answered transaction is the call performed at the present time. -/
theorem submit_eq_ok : submit caller call p = .ok reply q ↔
    perform ⟨caller, p.clock⟩ call p = .ok reply q := by
  simp only [submit, atomic, direct, orRestore_eq_ok, get_bind]

theorem submit_ok (h : submit caller call p = .ok reply q) :
    Effect ⟨caller, p.clock⟩ call reply p q :=
  perform_ok (submit_eq_ok.mp h)

/-- What a refused transaction leaves of the vault, the engine, the ledger and the bank. -/
structure Restored (p q : Protocol) : Prop where
  vault : q.vault = p.vault.copy
  engine : q.engine = p.engine.copy
  ledger : q.ledger = p.ledger
  bank : q.bank = p.bank

theorem submit_refused (h : submit caller call p = .error e q) : Restored p q := by
  simp only [submit, atomic, orRestore_eq_error] at h
  obtain ⟨u, -, rfl⟩ := h
  exact ⟨rfl, rfl, rfl, rfl⟩

end Protocol

end Custody
