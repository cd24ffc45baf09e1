/-
What a recorded shortfall says about the borrower's collateral.

A liquidation is for collateral in one token, which the liquidator picks, and it is sized
by the whole debt.  If the deposit in that token is too small, all of it is seized, the
repayment is what its value justifies, and the rest of the offer is recorded as bad debt.

So a shortfall tells that one token is used up, and only that.  Deposits in other tokens
are not looked at; they are worth as much as before, and may well cover what was recorded.
-/
import Custody.Proofs.Run

namespace Custody.Protocol

variable {caller borrower token : Address} {offer : Amount} {p q : Protocol}

/-- A user has a deposit in a listed token that is worth something, whatever the breakers. -/
def Worth (user token : Address) (p : Protocol) : Prop :=
  token ∈ p.vault.listed ∧
    ∃ value, p.oracle.value .bypassing token (p.vault.depositOf user token) = .ok value ∧
      0 < value

/-- A deposit of nothing is worth nothing. -/
theorem not_worth_of_zero {user : Address} (h : p.vault.depositOf user token = 0) :
    ¬ Worth user token p := by
  rintro ⟨-, value, hvalue, hpositive⟩
  rw [h] at hvalue
  simp only [Oracle.value, Check.bind_eq_ok] at hvalue
  obtain ⟨entry, -, unit, -, hquotient⟩ := hvalue
  obtain ⟨-, hval⟩ := Amount.mulDiv_eq_ok.mp hquotient
  rw [Amount.val_zero, Nat.zero_mul, Nat.zero_div] at hval
  rw [Amount.pos_iff, hval] at hpositive
  exact absurd hpositive (Nat.lt_irrefl 0)

/-- **A recorded shortfall means that the deposit in the liquidated token is used up.**  All of
it was seized; of the offered repayment, what its value justifies was repaid and the rest was
recorded.  In every other token the borrower's collateral is worth something exactly if it was
before. -/
theorem shortfall_uses_up_token {o : Outcome}
    (h : submit caller (.liquidate borrower token offer) p = .ok (.outcome o) q)
    (hrecorded : 0 < o.badDebtRecorded) :
    o.collateralSeized = p.vault.depositOf borrower token ∧
    q.vault.depositOf borrower token = 0 ∧
    (∃ config value limit, p.vault.added? token = some config ∧
      p.oracle.value .bypassing token (p.vault.depositOf borrower token) = .ok value ∧
      value.repaymentFor config.params.penalty = .ok o.debtRepaid ∧
      p.engine.repayLimit (p.ledger.debt borrower) o.healthBefore = .ok limit ∧
      o.debtRepaid.val + o.badDebtRecorded.val = (min offer limit).val) ∧
    ∀ t, Worth borrower t q ↔ t ≠ token ∧ Worth borrower t p := by
  cases submit_ok h with
  | liquidated hliquidated =>
      have hprepared := prepare_ok hliquidated.prepared
      obtain ⟨limit, hlimit, hquote⟩ := hprepared.quoted
      obtain ⟨hseize, config, value, hadded, hvalue, hrepaid⟩ :=
        Engine.quote_short hquote hrecorded
      obtain ⟨pulled, burned, -, -, hreleased⟩ := hliquidated.settled.moved
      have hempty : q.vault.depositOf borrower token = 0 := by
        have hdeposit := hreleased.deposit borrower token
        rw [if_pos ⟨rfl, rfl⟩, hseize] at hdeposit
        refine Amount.eq_zero_iff.mpr ?_
        have heq : (q.vault.depositOf borrower token).val +
            (p.vault.depositOf borrower token).val =
              (p.vault.depositOf borrower token).val := hdeposit
        omega
      refine ⟨hseize, hempty, ⟨config, value, limit, hadded, hvalue, hrepaid, hlimit,
        Engine.quote_ok hquote⟩, fun t => ?_⟩
      by_cases ht : t = token
      · subst ht
        simp only [ne_eq, not_true_eq_false, false_and, iff_false]
        exact not_worth_of_zero hempty
      · have hdeposit : q.vault.depositOf borrower t = p.vault.depositOf borrower t := by
          have heq := hreleased.deposit borrower t
          rw [if_neg fun hthis => ht hthis.2] at heq
          exact Amount.ext heq
        have hlisted : q.vault.listed = p.vault.listed := by rw [hreleased.rest]
        unfold Worth
        rw [hlisted, hliquidated.oracle, hdeposit]
        simp only [ne_eq, ht, not_false_eq_true, true_and]

/-- Alice has deposits in two tokens, and one of them is liquidated for all that she owes. -/
def partSeizure : Call := .liquidate Sample.alice Sample.weth .largest

/-- What comes of it. -/
def partOutcome : Outcome where
  borrower := Sample.alice
  liquidator := Sample.liquidator
  token := Sample.weth
  healthBefore := 3184
  debtRepaid := ⟨1885714285714285714285, by decide⟩
  collateralSeized := ⟨990000000000000000, by decide⟩
  badDebtRecorded := ⟨8114285714285714285715, by decide⟩

private theorem partSeizure_answered :
    submit Sample.liquidator partSeizure (Sample.indebted Sample.loan) =
      .ok (.outcome partOutcome)
        ((submit Sample.liquidator partSeizure).left (Sample.indebted Sample.loan)) := by
  have hanswered : (submit Sample.liquidator partSeizure).reply? (Sample.indebted Sample.loan) =
      some (.outcome partOutcome) := by decide +kernel
  exact Action.eq_ok_of_reply? hanswered

theorem shortfall_uses_up_token_partSeizure :
    let p := Sample.indebted Sample.loan
    let q := (submit Sample.liquidator partSeizure).left p
    submit Sample.liquidator partSeizure p = .ok (.outcome partOutcome) q ∧
    0 < partOutcome.badDebtRecorded ∧
    partOutcome.collateralSeized = p.vault.depositOf Sample.alice Sample.weth ∧
    q.vault.depositOf Sample.alice Sample.weth = 0 ∧
    ∀ t, Worth Sample.alice t q ↔ t ≠ Sample.weth ∧ Worth Sample.alice t p := by
  intro p q
  have hrecorded : 0 < partOutcome.badDebtRecorded := by decide
  obtain ⟨hseized, hempty, -, hworth⟩ := shortfall_uses_up_token partSeizure_answered hrecorded
  exact ⟨partSeizure_answered, hrecorded, hseized, hempty, hworth⟩

/-- After this run bad debt is recorded against alice while her other deposit is worth two
thousand dollars. -/
theorem shortfall_beside_collateral :
    let p := Sample.indebted Sample.loan
    (Sample.start.Fresh ∧ ∃ turns, p = Sample.start.run turns) ∧
    ∃ (o : Outcome) (q : Protocol),
      submit Sample.liquidator partSeizure p = .ok (.outcome o) q ∧
      0 < o.badDebtRecorded ∧ Worth Sample.alice Sample.wbtc q := by
  intro p
  refine ⟨⟨Sample.fresh, _, rfl⟩, partOutcome, _, partSeizure_answered, by decide,
    by decide +kernel, Sample.price, ?_, by decide⟩
  exact Check.eq_ok_of_toOption (by decide +kernel)

end Custody.Protocol
