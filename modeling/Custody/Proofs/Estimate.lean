/-
A liquidation does what its readings foretell.

Whoever wants to liquidate can ask first: how much may be repaid at once, and what a repayment
would seize.  The call does not ask these readings, it computes the health factor, the limit
and the quote itself.  Both ways come to the same.  An answered liquidation has repaid, seized
and recorded what the offer was quoted, an offer above the limit like one of the limit.

This is said of every state, whatever led to it.  That a call that was promised a quote is
answered needs more, and is shown elsewhere for the states that a run leads to.
-/
import Custody.Proofs.Preview
import Custody.Proofs.Settlement

namespace Custody

open Custody.Action

namespace Protocol

variable {p q : Protocol} {ctx : Context} {caller borrower token : Address} {offer limit : Amount}
  {health : UInt64} {quote : Quote} {o : Outcome}

/-! ### What is read -/

/-- What the readings say of an offer before it is made, and what comes of it. -/
structure Foreseen (borrower token : Address) (offer limit : Amount) (quote : Quote)
    (o : Outcome) (p : Protocol) : Prop where
  liquidatable : p.isLiquidatable borrower = .ok true
  read : p.health borrower = .ok o.healthBefore
  limited : p.maxRepayable borrower = .ok limit
  quoted : p.quote borrower token (min offer limit) = .ok quote
  repaid : o.debtRepaid = quote.repay
  seized : o.collateralSeized = quote.seize
  recorded : o.badDebtRecorded = quote.shortfall

theorem isLiquidatable_of_unhealthy (hread : p.health borrower = .ok health)
    (hunhealthy : health < parityBps) : p.isLiquidatable borrower = .ok true := by
  have hdebt := debt_of_unhealthy hread hunhealthy
  have hhealth : Engine.health p.vault p.ledger p.oracle borrower = .ok health := hread
  rw [isLiquidatable, Engine.isLiquidatable, if_neg hdebt, hhealth]
  exact congrArg Except.ok (decide_eq_true hunhealthy)

/-- The checks of the call are these readings. -/
theorem Prepared.foreseen (h : Prepared ctx borrower token offer p health quote) :
    ∃ limit, Foreseen borrower token offer limit quote
      ⟨borrower, ctx.caller, token, health, quote.repay, quote.seize, quote.shortfall⟩ p := by
  obtain ⟨limit, hlimit, hquote⟩ := h.quoted
  refine ⟨limit, ?_⟩
  exact {
    liquidatable := isLiquidatable_of_unhealthy h.read h.unhealthy
    read := h.read
    limited := (maxRepayable_of_unhealthy h.read h.unhealthy).trans hlimit
    quoted := hquote
    repaid := rfl
    seized := rfl
    recorded := rfl }

theorem liquidate_foreseen (h : liquidate ctx borrower token offer p = .ok o q) :
    ∃ limit quote, Foreseen borrower token offer limit quote o p := by
  obtain ⟨health, quote, hliquidated, rfl⟩ := liquidate_ok h
  obtain ⟨limit, hforeseen⟩ := (prepare_ok hliquidated.prepared).foreseen
  exact ⟨limit, quote, hforeseen⟩

/-- What was not repaid of an offer within the limit is bad debt. -/
theorem Foreseen.split (h : Foreseen borrower token offer limit quote o p) :
    o.debtRepaid.val + o.badDebtRecorded.val = (min offer limit).val := by
  rw [h.repaid, h.recorded]
  exact Engine.quote_ok h.quoted

/-! ### Every state -/

/-- The call is answered with this, made directly at some time or as a transaction. -/
def Returns (p : Protocol) (caller : Address) (call : Call) (reply : Reply) : Prop :=
  (∃ now q, perform ⟨caller, now⟩ call p = .ok reply q) ∨
    ∃ q, submit caller call p = .ok reply q

theorem Returns.exists_perform {call : Call} {reply : Reply} (h : Returns p caller call reply) :
    ∃ now q, perform ⟨caller, now⟩ call p = .ok reply q := by
  rcases h with h | ⟨q, hq⟩
  · exact h
  · exact ⟨p.clock, q, submit_eq_ok.mp hq⟩

/-- An outcome is that of a liquidation that was carried out. -/
theorem Returns.liquidated (h : p.Returns caller (.liquidate borrower token offer) (.outcome o)) :
    ∃ now q health quote, Liquidated ⟨caller, now⟩ borrower token offer health quote p q ∧
      o = ⟨borrower, caller, token, health, quote.repay, quote.seize, quote.shortfall⟩ := by
  obtain ⟨now, q, hperform⟩ := h.exists_perform
  simp only [perform, bind_eq_ok, pure_eq_ok, Reply.outcome.injEq] at hperform
  obtain ⟨_, _, hliquidate, rfl, rfl⟩ := hperform
  obtain ⟨health, quote, hliquidated, houtcome⟩ := liquidate_ok hliquidate
  exact ⟨now, _, health, quote, hliquidated, houtcome⟩

/-- **A liquidation is what it was estimated to be.**  If a liquidation is answered, then before it
there was a limit on repayments and a quote for the offer up to that limit, and the outcome is
the quote.  What was offered within the limit was repaid or is bad debt now. -/
theorem liquidation_as_estimated
    (h : p.Returns caller (.liquidate borrower token offer) (.outcome o)) :
    ∃ limit quote, p.maxRepayable borrower = .ok limit ∧
      p.quote borrower token (min offer limit) = .ok quote ∧
      o.debtRepaid = quote.repay ∧ o.collateralSeized = quote.seize ∧
      o.badDebtRecorded = quote.shortfall ∧
      o.debtRepaid.val + o.badDebtRecorded.val = (min offer limit).val := by
  obtain ⟨now, q, hperform⟩ := h.exists_perform
  simp only [perform, bind_eq_ok, pure_eq_ok, Reply.outcome.injEq] at hperform
  obtain ⟨_, _, hliquidate, rfl, rfl⟩ := hperform
  obtain ⟨limit, quote, hforeseen⟩ := liquidate_foreseen hliquidate
  exact ⟨limit, quote, hforeseen.limited, hforeseen.quoted, hforeseen.repaid, hforeseen.seized,
    hforeseen.recorded, hforeseen.split⟩

/-- An offer that passes both the limit and the deposit: all of the debt may be repaid, but what
was deposited justifies less. -/
theorem liquidation_as_estimated_foreclosure :
    let p := Sample.indebted Sample.loan
    p.Returns Sample.liquidator (.liquidate Sample.alice Sample.wbtc .largest)
        (.outcome foreclosure) ∧
      foreclosure.badDebtRecorded ≠ 0 ∧
      ∃ limit quote, p.maxRepayable Sample.alice = .ok limit ∧
        p.quote Sample.alice Sample.wbtc (min .largest limit) = .ok quote ∧
        foreclosure.debtRepaid = quote.repay ∧ foreclosure.collateralSeized = quote.seize ∧
        foreclosure.badDebtRecorded = quote.shortfall ∧
        foreclosure.debtRepaid.val + foreclosure.badDebtRecorded.val =
          (min Amount.largest limit).val := by
  intro p
  have hanswered : (submit Sample.liquidator
      (.liquidate Sample.alice Sample.wbtc .largest)).reply? p = some (.outcome foreclosure) := by
    decide +kernel
  have hreturns : p.Returns Sample.liquidator (.liquidate Sample.alice Sample.wbtc .largest)
      (.outcome foreclosure) := .inr ⟨_, eq_ok_of_reply? hanswered⟩
  exact ⟨hreturns, by decide, liquidation_as_estimated hreturns⟩

end Protocol

end Custody
