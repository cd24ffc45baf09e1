/-
What a refused liquidation leaves behind.

A liquidation undoes its settlement if the settlement is refused.  After that the
engine still has to add to three sums of its own.  If one of them would pass the
largest amount, the call is refused as well, and then nothing is undone: the repayment
is burned, the collateral is gone and the debt is reduced, but no outcome is recorded.

As a transaction the call would restore all of it.  Made directly, it leaves a trace in
this one case and in no other.
-/
import Custody.Proofs.Run

namespace Custody.Protocol

open Custody.Action

variable {ctx : Context} {borrower token : Address} {offer : Amount} {quote : Quote}
  {p q : Protocol}

/-- The books that a liquidation writes are as before, those of the engine included. -/
structure Untouched (p q : Protocol) : Prop where
  vault : q.vault.copy = p.vault.copy
  ledger : q.ledger = p.ledger
  bank : q.bank = p.bank
  badDebt : q.engine.badDebt = p.engine.badDebt
  statistics : q.engine.statistics = p.engine.statistics
  events : q.engine.events = p.engine.events

/-- The state in which the steps of an engine call run. -/
def entered (p : Protocol) : Protocol := { p with engine := { p.engine with guard := ⟨true⟩ } }

/-- A settlement takes a positive amount out of the debt. -/
private theorem ledger_ne_of_settled {health : UInt64}
    (hprepared : prepare ctx borrower token offer p = .ok (health, quote))
    (hsettled : Settled ctx borrower token quote p.entered q) : q.ledger ≠ p.ledger := by
  intro hsame
  have hdebt := (Ledger.reduce_ok hsettled.reduced).debt borrower
  have hrepays := (prepare_ok hprepared).repays
  rw [hsame, if_pos rfl] at hdebt
  refine hrepays (Amount.eq_zero_iff.mpr ?_)
  have hread : (p.ledger.debt borrower).val + quote.repay.val = (p.ledger.debt borrower).val :=
    hdebt
  omega

/-- **A refused liquidation leaves a trace exactly when it was settled and the engine could
not add up what it had to record.** -/
theorem liquidate_leaves_trace_iff :
    (∃ e q, liquidate ctx borrower token offer p = .error e q ∧ ¬ Untouched p q) ↔
      p.engine.guard.entered = false ∧
      ∃ health quote mid, prepare ctx borrower token offer p = .ok (health, quote) ∧
        settle ctx borrower token quote p.entered = .ok () mid ∧
        Overflows p.engine borrower quote := by
  constructor
  · rintro ⟨e, q, h, htouched⟩
    simp only [liquidate_eq, engineCall, Guard.hold_eq_error] at h
    rcases h with ⟨-, -, rfl⟩ | ⟨hfree, u, hu, rfl⟩
    · exact absurd ⟨rfl, rfl, rfl, rfl, rfl, rfl⟩ htouched
    simp only [get_bind, bind_eq_error, check_eq_error, check_eq_ok, orRestore_eq_ok,
      pure_ne_error, and_false, exists_false, or_false] at hu
    rcases hu with ⟨-, rfl⟩ | ⟨⟨health, quote⟩, _, ⟨hprepared, rfl⟩, hu⟩
    · exact absurd ⟨rfl, rfl, rfl, rfl, rfl, rfl⟩ htouched
    rcases hu with hsettle | ⟨_, mid, hsettle, hcommit⟩
    · obtain rfl := unsettled hsettle
      exact absurd ⟨rfl, rfl, rfl, rfl, rfl, rfl⟩ htouched
    · obtain ⟨-, hmid⟩ := settle_ok hsettle
      have hoverflows := commit_refused_iff.mp ⟨e, u, hcommit⟩
      rw [hmid] at hoverflows
      exact ⟨hfree, health, quote, mid, hprepared, hsettle, hoverflows⟩
  · rintro ⟨hfree, health, quote, mid, hprepared, hsettle, hoverflows⟩
    obtain ⟨hsettled, hmid⟩ := settle_ok hsettle
    have hrefused : ∃ e u, commit ctx borrower token quote mid = .error e u := by
      refine commit_refused_iff.mpr ?_
      rw [hmid]
      exact hoverflows
    obtain ⟨e, u, hcommit⟩ := hrefused
    have hledger : u.ledger = mid.ledger :=
      (commit_leaves (Q := fun q => q.ledger = mid.ledger) (fun h => h) rfl).of_error hcommit
    refine ⟨e, { u with engine := { u.engine with guard := .free } }, ?_, fun huntouched => ?_⟩
    · rw [liquidate_eq, engineCall, Guard.hold_eq_error]
      refine .inr ⟨hfree, u, ?_, rfl⟩
      have hchecked : (liftM (prepare ctx borrower token offer p) : Action Protocol _) p.entered =
          .ok (health, quote) p.entered := check_eq_ok.mpr ⟨rfl.trans hprepared, rfl⟩
      refine (bind_of_ok hchecked).trans ?_
      exact (bind_of_ok (orRestore_eq_ok.mpr hsettle)).trans (bind_of_error hcommit)
    · refine ledger_ne_of_settled hprepared hsettled ?_
      rw [← hledger]
      exact huntouched.ledger

/-- Two debts of the largest amount cannot both be on record: the liquidation of the second
is refused, and yet the debt is reduced and nothing is counted. -/
example :
    let alice := .call Sample.liquidator (.liquidate Sample.alice Sample.weth .largest)
    let p := (Sample.indebted .largest).after alice
    let q := (liquidate ⟨Sample.liquidator, 0⟩ Sample.bob Sample.weth .largest).left p
    q.ledger.debt Sample.bob < p.ledger.debt Sample.bob ∧
      q.engine.statistics.debtRepaid = p.engine.statistics.debtRepaid := by
  decide +kernel

end Custody.Protocol
