/-
Who pays the fee for a repayment.

A liquidation pulls the repayment to the engine's account and burns it there.  What is burned is
what was asked for and not what arrived, so if moving debt tokens costs a fee, the engine burns more
than it received.  The difference comes out of what its account had before, and an account that has
not enough cannot liquidate.

Without a fee, or if the fee of the repayment is rounded down to nothing, the account is left with
what it had.  Whether it is the vault's collateral that is then sent makes no difference, since
neither the vault nor the liquidator is the engine.
-/
import Custody.Proofs.Reached
import Custody.Proofs.Settlement

namespace Custody.Protocol

open Custody.Action

variable {ctx : Context} {borrower token : Address} {offer repaid : Amount} {quote : Quote}
  {p q : Protocol}

/-- What the engine's account has of the debt token. -/
def engineFunds (p : Protocol) : Amount := p.bank.balance p.engine.debtToken p.engine.address

/-- What moving a repayment costs. -/
def repaymentFee (repaid : Amount) (p : Protocol) : Nat :=
  repaid.val * (p.bank.fee p.engine.debtToken).toNat / 10000

/-- The repayment on its way: what arrives is short of it by the fee, and all of it is burned. -/
structure Burnt (liquidator : Address) (repaid : Amount) (p q : Protocol) : Prop where
  steps : ∃ (pulled burned : Bank) (arrived : Amount),
    Bank.transferFrom p.engine.debtToken p.engine.address liquidator p.engine.address repaid
      p.bank = .ok () pulled ∧
    (pulled.balance p.engine.debtToken p.engine.address).val =
      (engineFunds p).val + arrived.val ∧
    arrived.val + repaymentFee repaid p = repaid.val ∧
    Bank.burn p.engine.debtToken p.engine.address repaid pulled = .ok () burned ∧
    q.bank.balance p.engine.debtToken p.engine.address =
      burned.balance p.engine.debtToken p.engine.address
  /-- The fee is missing in the account. -/
  funds : (q.bank.balance p.engine.debtToken p.engine.address).val + repaymentFee repaid p =
    (engineFunds p).val

/-- Collateral does not go through the engine's account, so the debt token is as it was burned. -/
theorem Settled.burnt (h : Settled ctx borrower token quote p q)
    (hapart : p.engine.address ≠ p.vault.address) (hcaller : ctx.caller ≠ p.engine.address) :
    Burnt ctx.caller quote.repay p q := by
  obtain ⟨pulled, burned, hpull, hburn, hreleased⟩ := h.moved
  obtain ⟨⟨arrived, hpulled⟩, -⟩ := Bank.transferFrom_ok hpull
  obtain ⟨⟨received, hsent⟩, -⟩ := Bank.transfer_ok hreleased.moved
  have harrived := hpulled.balance p.engine.debtToken p.engine.address
  have hburned := (Bank.burn_ok hburn).balance p.engine.debtToken p.engine.address
  have hkept := hsent.balance p.engine.debtToken p.engine.address
  rw [if_neg fun heq => hcaller heq.2.symm, if_pos ⟨rfl, rfl⟩] at harrived
  rw [if_pos ⟨rfl, rfl⟩] at hburned
  rw [if_neg fun heq => hapart heq.2, if_neg fun heq => hcaller heq.2.symm] at hkept
  have hfee : arrived.val + repaymentFee quote.repay p = quote.repay.val := hpulled.fee
  refine ⟨⟨pulled, burned, arrived, hpull, harrived, hfee, hburn, Amount.ext hkept⟩, ?_⟩
  unfold engineFunds
  change (q.bank.balance p.engine.debtToken p.engine.address).val + 0 =
    (burned.balance p.engine.debtToken p.engine.address).val + 0 at hkept
  omega

/-- The fee of a repayment is nothing if it is less than one unit. -/
theorem repaymentFee_eq_zero_iff :
    repaymentFee repaid p = 0 ↔ repaid.val * (p.bank.fee p.engine.debtToken).toNat < 10000 :=
  Nat.div_eq_zero_iff_lt (by decide)

/-- **The engine burns more than it received by the fee**, in every state, whether a liquidation is
called directly or as a transaction, if neither the vault nor the liquidator is the engine.  The
engine's account is left with what it had before exactly if that fee is less than one unit. -/
theorem liquidation_burns_fee {o : Outcome}
    (h : perform ctx (.liquidate borrower token offer) p = .ok (.outcome o) q)
    (hapart : p.engine.address ≠ p.vault.address) (hcaller : ctx.caller ≠ p.engine.address) :
    Burnt ctx.caller o.debtRepaid p q ∧
      (engineFunds q = engineFunds p ↔
        o.debtRepaid.val * (p.bank.fee p.engine.debtToken).toNat < 10000) := by
  cases perform_ok h with
  | liquidated hliquidated =>
      have hburnt := hliquidated.settled.burnt hapart hcaller
      refine ⟨hburnt, ?_⟩
      have hfunds := hburnt.funds
      have hsame : engineFunds q = q.bank.balance p.engine.debtToken p.engine.address := by
        unfold engineFunds
        rw [hliquidated.committed.rest]
      rw [hsame, ← repaymentFee_eq_zero_iff, ← Amount.val_inj]
      dsimp only
      omega

/-! ### A token with a fee

The engine happens to have debt tokens when a fee of one percent is introduced.
-/

/-- The turns before a liquidation of alice. -/
def levied : List Turn :=
  Sample.opening ++
    [.happening (.setDebt Sample.alice Sample.loan),
      .happening (.transfer Sample.debtToken Sample.liquidator Sample.engineAccount Sample.loan),
      .happening (.setFee Sample.debtToken 100)]

/-- What is left by the liquidation. -/
def subsidized : Protocol :=
  (submit Sample.liquidator (.liquidate Sample.alice Sample.wbtc .largest)).left
    (Sample.start.run levied)

private theorem levied_answered :
    submit Sample.liquidator (.liquidate Sample.alice Sample.wbtc .largest)
      (Sample.start.run levied) = .ok (.outcome foreclosure) subsidized :=
  eq_ok_of_reply? (by decide +kernel)

/-- The engine burns a repayment of some 1900 dollars and pays 19 of them. -/
theorem liquidation_burns_fee_levied :
    let p := Sample.start.run levied
    let q := subsidized
    perform ⟨Sample.liquidator, p.clock⟩ (.liquidate Sample.alice Sample.wbtc .largest) p =
        .ok (.outcome foreclosure) q ∧
      p.engine.address ≠ p.vault.address ∧ Sample.liquidator ≠ p.engine.address ∧
      repaymentFee foreclosure.debtRepaid p = 19047619047619047619 ∧
      Burnt Sample.liquidator foreclosure.debtRepaid p q ∧ engineFunds q ≠ engineFunds p := by
  intro p q
  have hperform : perform ⟨Sample.liquidator, p.clock⟩
      (.liquidate Sample.alice Sample.wbtc .largest) p = .ok (.outcome foreclosure) q :=
    submit_eq_ok.mp levied_answered
  have hapart : p.engine.address ≠ p.vault.address := by decide +kernel
  have hcaller : Sample.liquidator ≠ p.engine.address := by decide +kernel
  obtain ⟨hburnt, hsame⟩ := liquidation_burns_fee hperform hapart hcaller
  have hfee : ¬ foreclosure.debtRepaid.val * (p.bank.fee p.engine.debtToken).toNat < 10000 := by
    decide +kernel
  exact ⟨hperform, hapart, hcaller, by decide +kernel, hburnt, fun h => hfee (hsame.mp h)⟩

/-- So it is not the case that liquidations leave the engine's account with what it had. -/
theorem liquidation_not_burning_exactly :
    ¬ ∀ (p q : Protocol) (turns : List Turn) (caller borrower token : Address) (offer : Amount)
        (o : Outcome), Fresh p → caller ≠ p.engine.address →
      submit caller (.liquidate borrower token offer) (p.run turns) = .ok (.outcome o) q →
        engineFunds q = engineFunds (p.run turns) := by
  intro hexact
  have hsame := hexact _ _ levied _ _ _ _ _ Sample.fresh (by decide) levied_answered
  exact absurd hsame (by decide +kernel)

end Custody.Protocol
