/-
What a liquidator gets for a repayment.

The penalty on top of a repayment is there to make liquidations pay.  It does so wherever the
deposit does not cover the offer: then the repayment is rounded down, and the value of what is
seized covers it with the penalty on it.  Where the deposit does cover the offer the seizure is
rounded down, and part of a base unit is lost to the liquidator, whatever a base unit costs.

So how many base units are seized decides.  A penalty on ten thousand of them in basis points
makes up for the unit that is lost: one hundred units at the least penalty, five at the largest.
With fewer there are prices at which a liquidator repays more than the seizure is worth.

The value of a seizure can always be read.  The call reads the health of the borrower, and that
needs the value of the whole deposit, which is at least as large.
-/
import Mathlib.Tactic.Ring
import Custody.Proofs.Estimate
import Custody.Proofs.Sizing

namespace Custody

/-! ### How many units are enough -/

namespace Rate

variable {rate : Rate} {repay units : Nat}

/-- Rounding the value down does not matter to whole repayments. -/
theorem le_value_iff :
    repay ≤ rate.value units ↔
      repay * Nat.pow 10 rate.decimals.toNat ≤ units * rate.price.val :=
  Nat.le_div_iff_mul_le unit_pos

/-- The penalty on enough units is worth the one unit that may be lacking. -/
theorem le_value_of_enough (hlacks : rate.due repay < rate.worth (units + 1))
    (henough : 10000 ≤ units * rate.penalty.toNat) : repay ≤ rate.value units := by
  rw [le_value_iff]
  refine Nat.le_of_not_lt fun hloss => ?_
  have hbelow : rate.worth (units + 1) ≤ rate.due repay := by
    calc rate.worth (units + 1)
        = rate.price.val * (units * 10000 + 10000) := by rw [worth]; ring
      _ ≤ rate.price.val * (units * 10000 + units * rate.penalty.toNat) :=
        Nat.mul_le_mul_left _ (Nat.add_le_add_left henough _)
      _ = units * rate.price.val * (10000 + rate.penalty.toNat) := by ring
      _ ≤ repay * Nat.pow 10 rate.decimals.toNat * (10000 + rate.penalty.toNat) :=
        Nat.mul_le_mul_right _ (Nat.le_of_lt hloss)
      _ = rate.due repay := Nat.mul_right_comm ..
  exact absurd hlacks (Nat.not_lt.mpr hbelow)

/-- With fewer units there is a price at which one more than they are worth buys them and no
further one. -/
theorem exists_loss {penalty : UInt64} (hfew : units * penalty.toNat < 10000) :
    ∃ (rate : Rate) (repay : Nat), rate.penalty = penalty ∧ rate.buys repay = units ∧
      rate.value units < repay := by
  have hbound := penalty.toNat_lt
  -- One more than what a repayment of one is due, so that this does not buy another unit.
  obtain ⟨price, hprice⟩ : ∃ price : Amount, price.val = 10001 + penalty.toNat :=
    ⟨⟨10001 + penalty.toNat, by simp only [Amount.size]; omega⟩, rfl⟩
  have hpositive : 0 < price := by
    rw [Amount.pos_iff]
    omega
  have hscaled : units * price.val * penalty.toNat ≤ 9999 * price.val := by
    rw [Nat.mul_right_comm]
    exact Nat.mul_le_mul_right _ (Nat.le_of_lt_succ hfew)
  have hdue : (units * price.val + 1) * (10000 + penalty.toNat) =
      units * (10000 * price.val) + units * price.val * penalty.toNat +
        (10000 + penalty.toNat) := by ring
  have hnext : (units + 1) * (10000 * price.val) =
      units * (10000 * price.val) + 10000 * price.val := Nat.succ_mul ..
  refine ⟨⟨price, penalty, 0, hpositive⟩, units * price.val + 1, rfl, ?_, ?_⟩
  · refine Nat.div_eq_of_lt_le ?_ ?_
    · show units * (10000 * price.val) ≤ (units * price.val + 1) * (10000 + penalty.toNat) * 1
      omega
    · show (units * price.val + 1) * (10000 + penalty.toNat) * 1 <
        (units + 1) * (10000 * price.val)
      omega
  · show units * price.val / 1 < units * price.val + 1
    omega

/-- **How many units are worth what bought them at every price.**  As many as it takes for the
penalty on them to come to one unit. -/
theorem rewards_iff {penalty : UInt64} :
    (∀ (rate : Rate) (repay : Nat), rate.penalty = penalty → rate.buys repay = units →
      repay ≤ rate.value units) ↔ 10000 ≤ units * penalty.toNat := by
  constructor
  · intro hrewards
    refine Nat.le_of_not_lt fun hfew => ?_
    obtain ⟨rate, repay, hpenalty, hbuys, hloss⟩ := exists_loss hfew
    exact absurd (hrewards rate repay hpenalty hbuys) (Nat.not_le.mpr hloss)
  · rintro henough rate repay rfl rfl
    exact le_value_of_enough (due_lt_worth repay) henough

namespace Sized

variable {deposit offer : Amount} {q : Quote}

theorem due_lt_next (h : rate.Sized deposit offer q) :
    rate.due q.repay.val < rate.worth (q.seize.val + 1) := by
  cases hcapped : q.capped with
  | false => exact (h.fair.1 hcapped).2
  | true => exact Nat.lt_of_le_of_lt (h.fair.2 hcapped).1 (worth_lt_succ _)

/-- Where a shortfall is left the value covers the penalty too. -/
theorem premium (h : rate.Sized deposit offer q) (hshort : 0 < q.shortfall) :
    q.repay.val * (10000 + rate.penalty.toNat) ≤ rate.value q.seize.val * 10000 := by
  cases h with
  | covered _ _ hshortfall =>
      rw [hshortfall] at hshort
      exact absurd hshort (Nat.lt_irrefl 0)
  | exhausted _ hseize hrepay =>
      rw [hrepay, hseize]
      exact justifies_mul_le _

end Sized

end Rate

/-! ### What a liquidation yields -/

/-- The value of a seizure against the repayment. -/
structure Rewarded (rate : Rate) (repaid seized shortfall value : Amount) : Prop where
  /-- The value covers the repayment if it would without being rounded down. -/
  covers_iff : repaid ≤ value ↔
    repaid.val * Nat.pow 10 rate.decimals.toNat ≤ seized.val * rate.price.val
  /-- It does if enough base units are seized. -/
  enough : 10000 ≤ seized.val * rate.penalty.toNat → repaid ≤ value
  /-- It covers the penalty as well if a shortfall is recorded. -/
  premium : 0 < shortfall → repaid.val * (10000 + rate.penalty.toNat) ≤ value.val * 10000
  /-- In any case less than one base unit is lacking of what the repayment is due. -/
  lacks : rate.due repaid.val < rate.worth (seized.val + 1)

theorem Rate.Sized.rewarded {rate : Rate} {deposit offer value : Amount} {q : Quote}
    (h : rate.Sized deposit offer q) (hvalue : value.val = rate.value q.seize.val) :
    Rewarded rate q.repay q.seize q.shortfall value where
  covers_iff := by rw [Amount.le_def, hvalue, le_value_iff]
  enough := fun henough => by
    rw [Amount.le_def, hvalue]
    exact le_value_of_enough h.due_lt_next henough
  premium := fun hshort => hvalue ▸ h.premium hshort
  lacks := h.due_lt_next

/-- The penalty of a token in a registry in order is at least one percent. -/
theorem Rate.Applies.penalty_le {rate : Rate} {v : Vault} {o : Oracle} {b : Bank} {token : Address}
    (h : rate.Applies v o b token) (hregistered : v.Registered) : 100 ≤ rate.penalty := by
  obtain ⟨config, hget, hpenalty⟩ := h.config
  rw [← hpenalty]
  exact (CollateralParams.bounds_of_validate (hregistered.valid token config hget)).2.1

namespace Protocol

open Custody.Action

variable {p : Protocol} {ctx : Context} {caller borrower token : Address} {offer : Amount}
  {quote : Quote} {health : UInt64} {o : Outcome}

/-- What is to be seized from an unhealthy position has a value. -/
theorem Prepared.exists_value (h : Prepared ctx borrower token offer p health quote)
    (hregistered : p.vault.Registered) :
    ∃ value, p.oracle.value .bypassing token quote.seize = .ok value := by
  obtain ⟨limit, -, hquote⟩ := h.quoted
  obtain ⟨config, -, -, -, hadded, -⟩ := Engine.quote_cases hquote
  have hget := Vault.get?_of_added hadded
  have hlisted := hregistered.mem_listed.mpr ⟨config, hget⟩
  have hle := Engine.quote_seize_le hquote
  have hdeposit : p.vault.depositOf borrower token ≠ 0 := by
    intro hzero
    rw [hzero] at hle
    exact h.seizes (Amount.eq_zero_iff.mpr (Nat.le_zero.mp hle))
  obtain ⟨value, hvalue⟩ := Health.exists_value (debt_of_unhealthy h.read h.unhealthy) h.read
    hlisted hget hdeposit
  exact Oracle.exists_value_of_le hle hvalue

/-- **What a liquidation is worth to its liquidator.**  After every history the value of what is
seized can be read.  It covers the repayment if one hundred base units are seized, or if the
penalty on as many as are seized comes to one unit.  It covers the penalty as well if a shortfall is
recorded.  Otherwise less than one base unit is lacking of what the repayment is due. -/
theorem liquidation_rewarded {address admin borrowModule : Address}
    (hstart : Vault.start address admin borrowModule = .ok p.vault) (episodes : List Episode)
    (hsame : SameDecimals (p.through episodes).oracle (p.through episodes).bank token)
    (h : (p.through episodes).Returns caller (.liquidate borrower token offer) (.outcome o)) :
    ∃ (rate : Rate) (value : Amount),
      rate.Applies (p.through episodes).vault (p.through episodes).oracle
        (p.through episodes).bank token ∧
      (p.through episodes).oracle.value .bypassing token o.collateralSeized = .ok value ∧
      Rewarded rate o.debtRepaid o.collateralSeized o.badDebtRecorded value ∧
      (100 ≤ o.collateralSeized.val → o.debtRepaid ≤ value) := by
  have hregistered := through_registered hstart episodes
  obtain ⟨now, q, hperform⟩ := h.exists_perform
  simp only [perform, bind_eq_ok, pure_eq_ok, Reply.outcome.injEq] at hperform
  obtain ⟨_, _, hliquidate, rfl, rfl⟩ := hperform
  obtain ⟨health, quote, hliquidated, rfl⟩ := liquidate_ok hliquidate
  have hprepared := prepare_ok hliquidated.prepared
  obtain ⟨limit, -, hquote⟩ := hprepared.quoted
  obtain ⟨rate, hrate⟩ := Engine.exists_rate hsame hquote
  obtain ⟨value, hvalue⟩ := hprepared.exists_value hregistered
  have hrewarded := (hrate.sized hquote).rewarded (hrate.value_eq hvalue)
  refine ⟨rate, value, hrate, hvalue, hrewarded, fun hhundred => hrewarded.enough ?_⟩
  have hpenalty : 100 ≤ rate.penalty.toNat :=
    UInt64.le_iff_toNat_le.mp (hrate.penalty_le hregistered)
  exact Nat.mul_le_mul hhundred hpenalty

open Custody.Sample

/-- An instalment buys part of what is divisible. -/
def instalmentPaid : Outcome :=
  ⟨alice, liquidator, wbtc, 3200, instalment, instalmentQuote.seize, 0⟩

theorem liquidation_rewarded_instalment :
    Vault.start vaultAccount admin borrowModule = .ok titled.vault ∧
      SameDecimals pawned.oracle pawned.bank wbtc ∧
      pawned.Returns liquidator (.liquidate alice wbtc instalment) (.outcome instalmentPaid) ∧
      ∃ value, pawned.oracle.value .bypassing wbtc instalmentPaid.collateralSeized = .ok value ∧
        instalmentPaid.debtRepaid ≤ value := by
  have hstart : Vault.start vaultAccount admin borrowModule = .ok titled.vault := rfl
  have hsame : SameDecimals pawned.oracle pawned.bank wbtc := wbtcRate_applies.sameDecimals
  have hanswered : (submit liquidator (.liquidate alice wbtc instalment)).reply? pawned =
      some (.outcome instalmentPaid) := by
    decide +kernel
  have hreturns : pawned.Returns liquidator (.liquidate alice wbtc instalment)
      (.outcome instalmentPaid) := .inr ⟨_, eq_ok_of_reply? hanswered⟩
  obtain ⟨rate, value, -, hvalue, -, hcovers⟩ :=
    liquidation_rewarded hstart pawning hsame hreturns
  exact ⟨hstart, hsame, hreturns, value, hvalue, hcovers (by decide)⟩

/-- Three thousand dollars for one deed of two thousand. -/
def bargain : Outcome := ⟨alice, liquidator, deed, 3200, bid, bidQuote.seize, 0⟩

/-- One base unit is seized, and half a base unit is lost. -/
theorem liquidated_at_a_loss :
    Vault.start vaultAccount admin borrowModule = .ok titled.vault ∧
      pawned = titled.through pawning ∧ SameDecimals pawned.oracle pawned.bank deed ∧
      pawned.Returns liquidator (.liquidate alice deed bid) (.outcome bargain) ∧
      ∃ value, pawned.oracle.value .bypassing deed bargain.collateralSeized = .ok value ∧
        ¬ bargain.debtRepaid ≤ value := by
  have hanswered : (submit liquidator (.liquidate alice deed bid)).reply? pawned =
      some (.outcome bargain) := by
    decide +kernel
  exact ⟨rfl, rfl, deedRate_applies.sameDecimals, .inr ⟨_, eq_ok_of_reply? hanswered⟩, price,
    Check.eq_ok_of_toOption (by decide +kernel), by decide⟩

end Protocol

end Custody
