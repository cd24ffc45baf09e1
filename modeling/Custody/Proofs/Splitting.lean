/-
Repayments in parts.

A seizure is rounded down to whole base units of collateral.  Whoever repays in parts is rounded
down once for each part, so the question is who gains from that.

Nobody does who splits.  In the measure of a rate nothing is rounded: the sum of the parts is due
what the parts are due, and what they buy is worth no more than that.  So together they buy no more
than the sum does.  Each part loses less than one base unit, and what the sum buys is whole base
units too, so less is lost by splitting than there are parts.
-/
import Custody.Proofs.Sizing

namespace Custody

namespace Rate

variable {rate : Rate}

/-- The base units that several repayments buy, each rounded down by itself. -/
def buysEach (rate : Rate) (repays : List Nat) : Nat := (repays.map rate.buys).sum

theorem buysEach_cons (repay : Nat) (rest : List Nat) :
    rate.buysEach (repay :: rest) = rate.buys repay + rate.buysEach rest := rfl

/-- What the parts buy is worth no more than the sum is due. -/
theorem worth_buysEach_le (repays : List Nat) :
    rate.worth (rate.buysEach repays) ≤ rate.due repays.sum := by
  induction repays with
  | nil => simp [buysEach, worth]
  | cons repay rest ih =>
      calc rate.worth (rate.buysEach (repay :: rest))
          = rate.worth (rate.buys repay) + rate.worth (rate.buysEach rest) := worth_add ..
        _ ≤ rate.due repay + rate.due rest.sum := Nat.add_le_add (worth_buys_le repay) ih
        _ = rate.due (repay :: rest).sum := (due_add ..).symm

/-- One more base unit for each part is worth more, at least by one for each part. -/
theorem due_sum_add_length_le (repays : List Nat) :
    rate.due repays.sum + repays.length ≤
      rate.worth (rate.buysEach repays + repays.length) := by
  induction repays with
  | nil => simp [due]
  | cons repay rest ih =>
      have hfirst : rate.due repay + 1 ≤ rate.worth (rate.buys repay + 1) := due_lt_worth repay
      calc rate.due (repay :: rest).sum + (repay :: rest).length
          = rate.due repay + rate.due rest.sum + (rest.length + 1) := by
            rw [List.sum_cons, due_add, List.length_cons]
        _ = (rate.due repay + 1) + (rate.due rest.sum + rest.length) := by omega
        _ ≤ rate.worth (rate.buys repay + 1) +
              rate.worth (rate.buysEach rest + rest.length) := Nat.add_le_add hfirst ih
        _ = rate.worth (rate.buys repay + 1 + (rate.buysEach rest + rest.length)) :=
            (worth_add ..).symm
        _ = rate.worth (rate.buysEach (repay :: rest) + (repay :: rest).length) := by
            rw [buysEach_cons, List.length_cons, Nat.add_add_add_comm, Nat.add_comm 1]

/-- The parts buy no more than the sum. -/
theorem buysEach_le (repays : List Nat) : rate.buysEach repays ≤ rate.buys repays.sum := by
  have hbelow : rate.worth (rate.buysEach repays) < rate.worth (rate.buys repays.sum + 1) :=
    Nat.lt_of_le_of_lt (worth_buysEach_le repays) (due_lt_worth repays.sum)
  exact Nat.le_of_lt_succ (lt_of_worth_lt hbelow)

/-- The sum buys fewer base units more than there are parts, if there is a part at all. -/
theorem buys_sum_le (repays : List Nat) :
    rate.buys repays.sum ≤ rate.buysEach repays + (repays.length - 1) := by
  cases repays with
  | nil => simp [buys, due]
  | cons repay rest =>
      have hlost := rate.due_sum_add_length_le (repay :: rest)
      have hbought := rate.worth_buys_le (repay :: rest).sum
      rw [List.length_cons] at hlost ⊢
      have hbelow : rate.worth (rate.buys (repay :: rest).sum) <
          rate.worth (rate.buysEach (repay :: rest) + (rest.length + 1)) := by omega
      have hfewer := lt_of_worth_lt hbelow
      omega

end Rate

namespace Amount

variable {penalty : UInt64} {price part total whole : Amount} {decimals : UInt8}

/-- A part of a repayment buys something if the repayment does. -/
theorem exists_collateralFor_of_le (hle : part ≤ total)
    (h : total.collateralFor penalty price decimals = .ok whole) :
    ∃ units, part.collateralFor penalty price decimals = .ok units := by
  simp only [collateralFor, Check.bind_eq_ok, narrow_eq_ok, powTen_eq_ok, mulMulDiv_eq_ok] at h ⊢
  obtain ⟨denominator, hdenominator, unit, hunit, hpositive, hfits, hwhole⟩ := h
  have hproduct : part.val * (withPenalty penalty).val * unit.val ≤
      total.val * (withPenalty penalty).val * unit.val :=
    Nat.mul_le_mul_right _ (Nat.mul_le_mul_right _ hle)
  have hquotient :
      part.val * (withPenalty penalty).val * unit.val / denominator.val ≤ whole.val :=
    hwhole ▸ Nat.div_le_div_right hproduct
  exact ⟨⟨_, Nat.lt_of_le_of_lt hquotient whole.isLt⟩, denominator, hdenominator, unit, hunit,
    hpositive, Nat.lt_of_le_of_lt hproduct hfits, rfl⟩

/-- The amounts that a rate buys are the answers. -/
theorem collateralFor_buys (rate : Rate)
    (h : total.collateralFor rate.penalty rate.price rate.decimals = .ok whole) :
    whole.val = rate.buys total.val :=
  (collateralFor_ok h).2

/-- If each repayment in a list buys something, so does the list, one after another. -/
theorem exists_mapM_collateralFor (rate : Rate) (repays : List Amount)
    (h : ∀ repay ∈ repays, ∃ units,
      repay.collateralFor rate.penalty rate.price rate.decimals = .ok units) :
    ∃ parts, repays.mapM (·.collateralFor rate.penalty rate.price rate.decimals) = .ok parts ∧
      (parts.map Amount.val).sum = rate.buysEach (repays.map Amount.val) := by
  induction repays with
  | nil => exact ⟨[], rfl, rfl⟩
  | cons repay rest ih =>
      obtain ⟨units, hunits⟩ := h repay (by simp)
      obtain ⟨parts, hparts, hsum⟩ := ih fun r hr => h r (by simp [hr])
      refine ⟨units :: parts, ?_, ?_⟩
      · simp only [List.mapM_cons, Check.bind_eq_ok, Check.pure_eq_ok]
        exact ⟨units, hunits, parts, hparts, rfl⟩
      · rw [List.map_cons, List.sum_cons, hsum, collateralFor_buys rate hunits]
        rfl

/-- **Splitting a repayment never pays.**  If a sum of repayments buys collateral, each of the
repayments does.  Together they buy no more than the sum, and less than one base unit for each of
them is lost.  The penalty is any word here.  For the last 10000 of them the whole and the penalty
make no word (`withPenalty`), but the bounds do not depend on what the two make. -/
theorem parts_buy_no_more {repays : List Amount} (htotal : total.val = (repays.map val).sum)
    (hwhole : total.collateralFor penalty price decimals = .ok whole) :
    ∃ parts, repays.mapM (·.collateralFor penalty price decimals) = .ok parts ∧
      (parts.map val).sum ≤ whole.val ∧
      whole.val ≤ (parts.map val).sum + (repays.length - 1) := by
  have hpositive := pos_of_ne_zero (collateralFor_ok hwhole).1
  obtain ⟨rate, rfl, rfl, rfl⟩ : ∃ rate : Rate,
      rate.penalty = penalty ∧ rate.price = price ∧ rate.decimals = decimals :=
    ⟨⟨price, penalty, decimals, hpositive⟩, rfl, rfl, rfl⟩
  have hanswered : ∀ repay ∈ repays, ∃ units,
      repay.collateralFor rate.penalty rate.price rate.decimals = .ok units := by
    intro repay hmem
    have hle : repay.val ≤ (repays.map val).sum := List.le_sum_of_mem (List.mem_map_of_mem hmem)
    rw [← htotal] at hle
    exact exists_collateralFor_of_le hle hwhole
  obtain ⟨parts, hparts, hsum⟩ := exists_mapM_collateralFor rate repays hanswered
  have hbought : whole.val = rate.buys (repays.map val).sum := by
    rw [← htotal]
    exact collateralFor_buys rate hwhole
  refine ⟨parts, hparts, ?_, ?_⟩
  · rw [hsum, hbought]
    exact Rate.buysEach_le _
  · have hlost := rate.buys_sum_le (repays.map val)
    rw [List.length_map] at hlost
    rw [hsum, hbought]
    exact hlost

end Amount

namespace Sample

/-- What most of two deeds is due. -/
def tranche : Amount := ⟨3600 * debtUnit.val, by decide⟩

end Sample

namespace Amount

open Custody.Sample

/-- Three tranches at once buy five deeds; one after another they buy three, so two are lost. -/
theorem parts_buy_no_more_tranches :
    let buys (repay : Amount) := repay.collateralFor 500 price 0
    let total : Amount := ⟨3 * tranche.val, by decide⟩
    let one : Amount := ⟨1, by decide⟩
    let five : Amount := ⟨5, by decide⟩
    total.val = ([tranche, tranche, tranche].map val).sum ∧ buys total = .ok five ∧
      [tranche, tranche, tranche].mapM buys = .ok [one, one, one] ∧
      ∃ parts, [tranche, tranche, tranche].mapM buys = .ok parts ∧
        (parts.map val).sum ≤ five.val ∧ five.val ≤ (parts.map val).sum + (3 - 1) := by
  intro buys total one five
  have htotal : total.val = ([tranche, tranche, tranche].map val).sum := rfl
  have hwhole : buys total = .ok five := Check.eq_ok_of_toOption (by decide +kernel)
  exact ⟨htotal, hwhole, Check.eq_ok_of_toOption (by decide +kernel),
    parts_buy_no_more htotal hwhole⟩

end Amount

end Custody
