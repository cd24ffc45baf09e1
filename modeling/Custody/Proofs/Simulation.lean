/-
Why a simulation fails.

A simulation builds a world, liquidates in it, checks the books and reports.  Everything that
happens in the world is chosen by the program, except for the numbers of the scenario.  So there
should be no failure that is not about these numbers, and this is so.

A parameter may be out of its bounds, which is found while the world is built.  In the world a
liquidation is refused for the position or the offer only, and what it leaves is orderly: its books
pass their check, and the position can be read unless the price is missing or a value is too large.
The report then says how much of the debt and of the deposit is left.
-/
import Custody.Proofs.Settlement
import Custody.Proofs.World

namespace Custody

open Custody.Action

namespace Protocol

/-- The books of an orderly state pass their check. -/
theorem Orderly.verify_ok {account : Address} {p : Protocol} (h : Orderly account p) :
    p.verify = .ok () := by
  have hvault : p.vault.verify = .ok () := h.payable.balanced.verify_ok
  have hengine : p.engine.verify = .ok () := h.accounted.balanced.verify_ok
  rw [verify, hvault]
  exact hengine

end Protocol

namespace Scenario

open Protocol

variable {s : Scenario} {sizing : LiquidationParams} {p q : Protocol}

/-- The liquidation of a scenario. -/
def liquidating (s : Scenario) : Action Protocol Outcome :=
  atomic (liquidate ⟨liquidator, startTime⟩ borrower collateral s.repay)

/-- What is reported of an outcome. -/
def reporting (outcome : Outcome) : Action Protocol Simulation := do
  let p ← get
  p.verify
  return {
    timestamp := p.clock
    outcome := outcome
    healthAfter := ← p.health borrower
    remainingDebt := p.ledger.debt borrower
    remainingCollateral := p.vault.depositOf borrower collateral
    totalBadDebt := p.engine.badDebt.total }

theorem simulate_eq (s : Scenario) (sizing : LiquidationParams) :
    s.simulate sizing = s.inWorld sizing (s.liquidating >>= reporting) := rfl

/-- What an outcome leaves of the amounts of a scenario. -/
structure Left (s : Scenario) (o : Outcome) (q : Protocol) : Prop where
  debt : (q.ledger.debt borrower).val + o.debtRepaid.val = s.debt.val
  collateral : (q.vault.depositOf borrower collateral).val + o.collateralSeized.val = s.deposit.val
  badDebt : q.engine.badDebt.total = o.badDebtRecorded

/-- **In the world, a liquidation is refused for the position or the offer**, and otherwise it
leaves an orderly state. -/
theorem Ready.liquidating_cases (h : s.Ready p)
    (hdeposit : p.vault.depositOf borrower collateral = s.deposit) :
    (∃ e q, s.liquidating p = .error e q ∧ e.Declining) ∨
      ∃ o q, s.liquidating p = .ok o q ∧ Orderly vaultAccount q ∧ s.Left o q := by
  cases hrun : s.liquidating p with
  | error e q =>
      obtain ⟨u, hrefused, -⟩ := orRestore_eq_error.mp hrun
      refine .inl ⟨e, q, rfl, liquidate_refusedBy h.orderly h.unhindered h.added h.known ?_
        liquidator_ne_borrower h.funded hrefused⟩
      exact ne_of_mem_of_not_mem (by simp) zero_not_mem
  | ok o q =>
      have hliquidate := orRestore_eq_ok.mp hrun
      have hsubmit : submit liquidator (.liquidate borrower collateral s.repay) p =
          .ok (.outcome o) q := by
        rw [submit_eq_ok, h.clock]
        exact bind_of_ok hliquidate
      obtain ⟨health, quote, hliquidated, rfl⟩ := liquidate_ok hliquidate
      refine .inr ⟨_, q, rfl, h.orderly.submitted hsubmit, ?_, ?_, ?_⟩
      · rw [← h.debt]
        exact hliquidated.settled.ledgerExact.debt
      · rw [← hdeposit]
        exact hliquidated.settled.vaultExact.deposit
      · have htotal := hliquidated.engineExact.total
        rw [h.recordless] at htotal
        exact Amount.ext (htotal.trans (Nat.zero_add quote.shortfall.val))

/-- What a report says of the amounts of its scenario. -/
structure Tallies (s : Scenario) (report : Simulation) : Prop where
  debt : report.remainingDebt.val + report.outcome.debtRepaid.val = s.debt.val
  collateral :
    report.remainingCollateral.val + report.outcome.collateralSeized.val = s.deposit.val
  badDebt : report.totalBadDebt = report.outcome.badDebtRecorded

/-- Of an orderly state everything can be reported but a health factor that cannot be read. -/
theorem reporting_cases {o : Outcome} (horderly : Orderly vaultAccount q) (hleft : s.Left o q) :
    (∃ e, reporting o q = .error e q ∧ e.Reading) ∨
      ∃ report, reporting o q = .ok report q ∧ s.Tallies report := by
  have hverify := horderly.verify_ok
  cases hhealth : q.health borrower with
  | error e =>
      refine .inl ⟨e, ?_, Health.factor_refusedBy e hhealth⟩
      simp only [reporting, get_bind, bind_eq_error, check_eq_error, check_eq_ok]
      exact .inr ⟨(), q, ⟨hverify, rfl⟩, .inl ⟨hhealth, rfl⟩⟩
  | ok health =>
      refine .inr ⟨⟨q.clock, o, health, q.ledger.debt borrower,
        q.vault.depositOf borrower collateral, q.engine.badDebt.total⟩, ?_, hleft.debt,
        hleft.collateral, hleft.badDebt⟩
      simp only [reporting, get_bind, bind_eq_ok, check_eq_ok, pure_eq_ok]
      exact ⟨(), q, ⟨hverify, rfl⟩, health, q, ⟨hhealth, rfl⟩, rfl, rfl⟩

/-- **A simulation fails only for reasons of eligibility or sizing.**  Whatever the amounts,
decimals, prices and parameters are, it reports, or a parameter is refused as out of its bounds, or
the liquidation is declined: the offer is nothing or below the floor, the position is healthy or has
nothing to seize, a price is missing, or a result is too large. -/
theorem simulation_fails_for_eligibility_or_sizing (s : Scenario) (sizing : LiquidationParams) :
    (∃ report, s.simulate sizing = .ok report ∧ s.Tallies report) ∨
      ∃ e : Error, s.simulate sizing = .error e ∧
        (e.Declining ∨ e.OutOfBounds ∧ Invalid s sizing e) := by
  rw [simulate_eq]
  rcases world_cases s sizing with ⟨e, hinvalid, hnothing⟩ | ⟨p, hworld, hready, hdeposit⟩
  · exact .inr ⟨e, hnothing _ _, .inr ⟨hinvalid.outOfBounds, hinvalid⟩⟩
  obtain ⟨origin, hstart, hprepare⟩ := hworld
  have hrefused {e : Error} {q : Protocol} (h : (s.liquidating >>= reporting) p = .error e q) :
      s.inWorld sizing (s.liquidating >>= reporting) = .error e :=
    inWorld_of_error hstart ((bind_of_ok hprepare).trans h)
  rcases hready.liquidating_cases hdeposit with
    ⟨e, q, hliquidating, hdeclining⟩ | ⟨o, q, hliquidating, horderly, hleft⟩
  · exact .inr ⟨e, hrefused (bind_of_error hliquidating), .inl hdeclining⟩
  rcases reporting_cases horderly hleft with
    ⟨e, hreporting, hreading⟩ | ⟨report, hreporting, htallies⟩
  · exact .inr ⟨e, hrefused ((bind_of_ok hliquidating).trans hreporting),
      .inl (.reading hreading)⟩
  · exact .inl ⟨report, inWorld_eq_ok.mpr ⟨p, q, ⟨origin, hstart, hprepare⟩,
      (bind_of_ok hliquidating).trans hreporting⟩, htallies⟩

end Scenario

end Custody
