/-
Quotients of wide products.

A product of two amounts always fits twice the width of an amount, so a quotient of it is lost
only where it is no amount itself.  A third factor may be too much for the width, and a seizure
has three: the repayment, the whole with the penalty, and one whole token.  The first is any amount
at all, so the other two decide.  Together they stay within the width of an amount up to 34
decimals, whatever admitted penalty there is, and leave it at 35 even without a penalty.

So for these tokens a seizure is exact like a quotient of two factors.  What is left to overflow is
what has to: the denominator, and the answer.
-/
import Custody.Proofs.Arithmetic

namespace Custody.Amount

/-- The answers of a division that is exact: the quotient, if it is an amount and what it is
computed from fits; a refusal that tells a divisor of zero from an overflow otherwise. -/
structure Exact (x : Except Error Amount) (divisor : Nat) (fits : Prop) (quotient : Nat) :
    Prop where
  ok_iff (r : Amount) :
    x = .ok r ↔ (0 < divisor ∧ fits ∧ quotient < size) ∧ r.val = quotient
  zero_iff : x = .error zeroDivisor ↔ divisor = 0
  overflow_iff :
    (∃ operation, x = .error (.overflow operation)) ↔
      0 < divisor ∧ ¬ (fits ∧ quotient < size)

variable {a b c d : Amount} {n : Nat} {fits : Prop}

/-! ### The three answers -/

theorem exact_zeroDivisor : Exact (.error zeroDivisor) 0 fits n where
  ok_iff r := by simp
  zero_iff := by simp
  overflow_iff := by simp [zeroDivisor]

/-- What does not fit overflows. -/
theorem exact_overflow {divisor : Nat} {operation : String} (hdivisor : 0 < divisor)
    (hfits : ¬ fits) : Exact (.error (.overflow operation)) divisor fits n where
  ok_iff r := by simp [hfits]
  zero_iff := by simp [zeroDivisor, Nat.ne_of_gt hdivisor]
  overflow_iff := by simp [hdivisor, hfits]

/-- What fits is narrowed to an amount. -/
theorem exact_narrow {divisor : Nat} {operation : String} (hdivisor : 0 < divisor)
    (hfits : fits) : Exact (narrow n operation) divisor fits n := by
  rcases Nat.lt_or_ge n size with hlt | hge
  · have hanswer : narrow n operation = .ok ⟨n, hlt⟩ := narrow_eq_ok.mpr rfl
    rw [hanswer]
    constructor
    · intro r
      rw [Except.ok.injEq, ← val_inj]
      exact ⟨fun h => ⟨⟨hdivisor, hfits, hlt⟩, h.symm⟩, fun h => h.2.symm⟩
    · simp [Nat.ne_of_gt hdivisor]
    · simp [hfits, hlt]
  · rw [narrow_of_size_le hge]
    constructor
    · intro r
      simp [Nat.not_lt.mpr hge]
    · simp [zeroDivisor, Nat.ne_of_gt hdivisor]
    · simp [hdivisor, Nat.not_lt.mpr hge]

/-! ### Two factors and three -/

theorem mulDiv_exact (a b c : Amount) :
    Exact (a.mulDiv b c) c.val True (a.val * b.val / c.val) := by
  unfold mulDiv
  by_cases hzero : c = 0
  · rw [if_pos hzero, hzero]
    exact exact_zeroDivisor
  · rw [if_neg hzero]
    exact exact_narrow (pos_of_ne_zero hzero) trivial

theorem mulMulDiv_exact (a b c d : Amount) :
    Exact (a.mulMulDiv b c d) d.val (a.val * b.val * c.val < size * size)
      (a.val * b.val * c.val / d.val) := by
  unfold mulMulDiv
  by_cases hzero : d = 0
  · rw [if_pos hzero, hzero]
    exact exact_zeroDivisor
  rw [if_neg hzero]
  by_cases hfits : a.val * b.val * c.val < size * size
  · rw [if_pos hfits]
    exact exact_narrow (pos_of_ne_zero hzero) hfits
  · rw [if_neg hfits]
    exact exact_overflow (pos_of_ne_zero hzero) hfits

/-! ### Seizures -/

variable {penalty : UInt64} {decimals : UInt8}

/-- What is multiplied with a repayment to seize collateral for it. -/
def multiplier (penalty : UInt64) (decimals : UInt8) : Nat :=
  (10000 + penalty.toNat) * 10 ^ decimals.toNat

/-- Up to 34 decimals the multiplier is an amount, at every admitted penalty. -/
theorem multiplier_lt_size (hpenalty : penalty.toNat ≤ 2000) (hdecimals : decimals.toNat ≤ 34) :
    multiplier penalty decimals < size :=
  calc multiplier penalty decimals
      ≤ 12000 * 10 ^ 34 := Nat.mul_le_mul (by omega) (Nat.pow_le_pow_right (by decide) hdecimals)
    _ < size := by decide

/-- From 35 decimals on the multiplier is no amount, at any penalty. -/
theorem size_lt_multiplier (hdecimals : 35 ≤ decimals.toNat) :
    size + 1 < multiplier penalty decimals :=
  calc size + 1 < 10000 * 10 ^ 35 := by decide
    _ ≤ multiplier penalty decimals :=
      Nat.mul_le_mul (by omega) (Nat.pow_le_pow_right (by decide) hdecimals)

/-- The product fits for every repayment exactly up to 34 decimals. -/
theorem forall_product_fits_iff (hpenalty : penalty.toNat ≤ 2000) :
    (∀ repay : Amount,
      repay.val * (10000 + penalty.toNat) * 10 ^ decimals.toNat < size * size) ↔
      decimals.toNat ≤ 34 := by
  constructor
  · intro hfits
    refine Nat.le_of_lt_succ (Nat.lt_of_not_le fun hlarge => ?_)
    have hlargest := hfits largest
    rw [Nat.mul_assoc] at hlargest
    have hmultiplier : size + 2 ≤ multiplier penalty decimals := size_lt_multiplier hlarge
    have hproduct : largest.val * (size + 2) ≤ largest.val * multiplier penalty decimals :=
      Nat.mul_le_mul_left _ hmultiplier
    have hwide : size * size ≤ largest.val * (size + 2) := by decide
    exact absurd hlargest (Nat.not_lt.mpr (Nat.le_trans hwide hproduct))
  · intro hdecimals repay
    rw [Nat.mul_assoc]
    exact Nat.mul_lt_mul'' repay.isLt (multiplier_lt_size hpenalty hdecimals)

/-- A seizure is exact where the product fits for every repayment. -/
theorem collateralFor_exact (repay price : Amount) (hpenalty : penalty.toNat ≤ 2000)
    (hdecimals : decimals.toNat ≤ 34) :
    Exact (repay.collateralFor penalty price decimals) (10000 * price.val)
      (10000 * price.val < size)
      (repay.val * (10000 + penalty.toNat) * 10 ^ decimals.toNat / (10000 * price.val)) := by
  have hwhole : whole.val = 10000 := rfl
  unfold collateralFor
  rw [hwhole]
  rcases Nat.lt_or_ge (10000 * price.val) size with hlt | hge
  · obtain ⟨denominator, hvalue⟩ : ∃ d : Amount, d.val = 10000 * price.val :=
      ⟨⟨_, hlt⟩, rfl⟩
    obtain ⟨unit, hunit⟩ : ∃ u : Amount, u.val = 10 ^ decimals.toNat :=
      ⟨⟨_, pow_lt_size_iff.mpr (by omega)⟩, rfl⟩
    have hdenominator : narrow (10000 * price.val) s!"{whole} * {price}" = .ok denominator :=
      narrow_eq_ok.mpr hvalue
    have hpow : powTen decimals = .ok unit := powTen_eq_ok.mpr hunit
    rw [hdenominator, hpow]
    show Exact (repay.mulMulDiv (withPenalty penalty) unit denominator) _ _ _
    have hexact := repay.mulMulDiv_exact (withPenalty penalty) unit denominator
    have hpenalized : (withPenalty penalty).val = 10000 + penalty.toNat := rfl
    -- The product fits whatever is repaid, so it is the denominator that has to.
    have hfits := (forall_product_fits_iff hpenalty).mpr hdecimals repay
    rw [hpenalized, hunit, hvalue] at hexact
    simpa only [hfits, hlt] using hexact
  · rw [narrow_of_size_le hge]
    exact exact_overflow (Nat.lt_of_lt_of_le (by decide) hge) (Nat.not_lt.mpr hge)

/-- **Division is exact, and nothing overflows that need not.**  A quotient of two factors is
answered, rounded down, exactly if the divisor is not zero and the quotient is an amount; of three
factors, if the product fits twice the width as well.  A seizure at an admitted penalty in a token
of at most 34 decimals asks nothing of the product: only the denominator and the answer have to be
amounts.  A token of 35 decimals would. -/
theorem wide_division_exact :
    (∀ a b c : Amount, Exact (a.mulDiv b c) c.val True (a.val * b.val / c.val)) ∧
    (∀ a b c d : Amount,
      Exact (a.mulMulDiv b c d) d.val (a.val * b.val * c.val < size * size)
        (a.val * b.val * c.val / d.val)) ∧
    (∀ (repay : Amount) (penalty : UInt64) (price : Amount) (decimals : UInt8),
      penalty.toNat ≤ 2000 → decimals.toNat ≤ 34 →
      Exact (repay.collateralFor penalty price decimals) (10000 * price.val)
        (10000 * price.val < size)
        (repay.val * (10000 + penalty.toNat) * 10 ^ decimals.toNat / (10000 * price.val))) ∧
    ∀ (penalty : UInt64) (decimals : UInt8), penalty.toNat ≤ 2000 →
      ((∀ repay : Amount,
        repay.val * (10000 + penalty.toNat) * 10 ^ decimals.toNat < size * size) ↔
        decimals.toNat ≤ 34) :=
  ⟨mulDiv_exact, mulMulDiv_exact,
    fun repay _ price _ hpenalty hdecimals => collateralFor_exact repay price hpenalty hdecimals,
    fun _ _ hpenalty => forall_product_fits_iff hpenalty⟩

/-- The largest repayment at the largest penalty and the most decimals seizes the largest amount. -/
theorem wide_division_exact_largest :
    collateralFor largest 2000 ⟨12 * 10 ^ 33, by decide⟩ 34 = .ok largest :=
  ((wide_division_exact.2.2.1 largest 2000 ⟨12 * 10 ^ 33, by decide⟩ 34 (by decide)
    (by decide)).ok_iff largest).mpr ⟨by decide, by decide⟩

end Custody.Amount
