/-
What an answered operation on amounts computed.

Each operation is exact on the natural numbers whenever it answers, so every lemma
here trades an amount for its value: a sum for a sum of values, a difference for the
equation that it solves, a quotient for a quotient of values.  Past this file no
proof looks at the width of an amount; it looks at numbers.
-/
import Mathlib.Algebra.Group.Nat.Defs
import Custody.Proofs.Action
import Custody.Arithmetic

namespace Custody.Amount

variable {a b c d e : Amount}

theorem val_inj : a.val = b.val ↔ a = b := ⟨ext, congrArg val⟩

theorem eq_zero_iff : a = 0 ↔ a.val = 0 := val_inj.symm

theorem pos_iff : 0 < a ↔ 0 < a.val := Iff.rfl

theorem pos_of_ne_zero (h : a ≠ 0) : 0 < a :=
  Nat.pos_of_ne_zero fun hval => h (eq_zero_iff.mpr hval)

theorem not_pos_iff : ¬ 0 < a ↔ a = 0 := by
  rw [pos_iff, eq_zero_iff]
  omega

/-- One whole token is an amount of base units up to this number of decimals. -/
theorem pow_lt_size_iff {decimals : Nat} : 10 ^ decimals < size ↔ decimals ≤ 38 := by
  constructor
  · intro hfits
    refine Nat.le_of_lt_succ (Nat.lt_of_not_le fun hlarge => ?_)
    have hpow : 10 ^ 39 ≤ 10 ^ decimals := Nat.pow_le_pow_right (by decide) hlarge
    have hsize : size ≤ 10 ^ 39 := by decide
    omega
  · intro hle
    calc 10 ^ decimals ≤ 10 ^ 38 := Nat.pow_le_pow_right (by decide) hle
      _ < size := by decide

/-! ### Sums and differences -/

theorem add_eq_ok : a.add b = .ok c ↔ c.val = a.val + b.val := by
  unfold add
  split
  next h =>
    simp only [Except.ok.injEq, ← val_inj]
    exact eq_comm
  next h =>
    have hc := c.isLt
    constructor
    · intro heq
      cases heq
    · intro hval
      exact absurd (hval ▸ hc) h

/-- A sum fails exactly when it passes the largest amount. -/
theorem add_eq_error {e : Error} :
    a.add b = .error e ↔ size ≤ a.val + b.val ∧ e = .overflow s!"{a} + {b}" := by
  unfold add
  split
  next h =>
    constructor
    · intro heq
      cases heq
    · rintro ⟨hle, -⟩
      exact absurd h (Nat.not_lt.mpr hle)
  next h =>
    simp only [Except.error.injEq, Nat.not_lt.mp h, true_and]
    exact eq_comm

theorem subtract_eq_ok : a.subtract b = .ok c ↔ c.val + b.val = a.val := by
  unfold subtract
  split
  next h =>
    simp only [le_def] at h
    simp only [Except.ok.injEq, ← val_inj, val_sub]
    omega
  next h =>
    simp only [le_def] at h
    constructor
    · intro heq
      cases heq
    · intro hval
      exact absurd (by omega) h

/-! ### Quotients -/

theorem narrow_eq_ok {n : Nat} {operation : String} :
    narrow n operation = .ok a ↔ a.val = n := by
  unfold narrow
  split
  next h =>
    simp only [Except.ok.injEq, ← val_inj]
    exact eq_comm
  next h =>
    constructor
    · intro heq
      cases heq
    · intro hval
      exact absurd (hval ▸ a.isLt) h

/-- A number that is too large is an overflow in the named operation. -/
theorem narrow_of_size_le {n : Nat} {operation : String} (h : size ≤ n) :
    narrow n operation = .error (.overflow operation) := by
  unfold narrow
  rw [dif_neg (Nat.not_lt.mpr h)]

theorem mulDiv_eq_ok : a.mulDiv b c = .ok d ↔ c ≠ 0 ∧ d.val = a.val * b.val / c.val := by
  unfold mulDiv
  split
  next h =>
    constructor
    · intro heq
      cases heq
    · rintro ⟨hc, -⟩
      exact absurd h hc
  next h => rw [narrow_eq_ok, and_iff_right h]

/-- A quotient that is too large names its operands. -/
theorem mulDiv_overflow (hdivisor : c ≠ 0) (h : size ≤ a.val * b.val / c.val) :
    a.mulDiv b c = .error (.overflow s!"({a} * {b}) / {c}") := by
  unfold mulDiv
  rw [if_neg hdivisor, narrow_of_size_le h]

theorem powTen_eq_ok {decimals : UInt8} :
    powTen decimals = .ok d ↔ d.val = Nat.pow 10 decimals.toNat :=
  narrow_eq_ok

theorem mulMulDiv_eq_ok : a.mulMulDiv b c e = .ok d ↔
    e ≠ 0 ∧ a.val * b.val * c.val < size * size ∧
      d.val = a.val * b.val * c.val / e.val := by
  unfold mulMulDiv
  by_cases hzero : e = 0
  · simp [hzero]
  by_cases hfits : a.val * b.val * c.val < size * size
  · rw [if_neg hzero, if_pos hfits, narrow_eq_ok, and_iff_right hzero, and_iff_right hfits]
  · simp [hzero, hfits]

/-- A share in basis points, rounded down. -/
theorem share_eq_ok {bps : UInt64} :
    a.share bps = .ok d ↔ d.val = a.val * bps.toNat / 10000 := by
  have hwhole : whole ≠ 0 := by decide
  rw [share, mulDiv_eq_ok, and_iff_right hwhole]
  rfl

/-- A share of at most the whole is at most the amount. -/
theorem share_le {bps : UInt64} (h : a.share bps = .ok d) (hbps : bps.toNat ≤ 10000) :
    d.val ≤ a.val := by
  rw [share_eq_ok] at h
  have hmul : a.val * bps.toNat ≤ a.val * 10000 := Nat.mul_le_mul_left _ hbps
  omega

/-- The whole and a penalty are added as words, where the sum is a word. -/
theorem withPenalty_eq_ofWord {penalty : UInt64}
    (hfits : bpsWhole.toNat + penalty.toNat < UInt64.size) :
    withPenalty penalty = ofWord (bpsWhole + penalty) := by
  rw [← val_inj]
  show bpsWhole.toNat + penalty.toNat = (bpsWhole + penalty).toNat
  rw [UInt64.toNat_add, Nat.mod_eq_of_lt hfits]

/-- Collateral units owed for a repayment, rounded down, at a price that is not zero. -/
theorem collateralFor_ok {penalty : UInt64} {price : Amount} {decimals : UInt8}
    (h : a.collateralFor penalty price decimals = .ok d) :
    price ≠ 0 ∧ d.val =
      a.val * (10000 + penalty.toNat) * Nat.pow 10 decimals.toNat / (10000 * price.val) := by
  simp only [collateralFor, Check.bind_eq_ok, narrow_eq_ok, powTen_eq_ok, mulMulDiv_eq_ok] at h
  obtain ⟨denominator, hdenominator, unit, hunit, hpositive, -, hd⟩ := h
  have hwhole : denominator.val = 10000 * price.val := hdenominator
  refine ⟨?_, ?_⟩
  · rintro rfl
    exact hpositive (eq_zero_iff.mpr hwhole)
  · rw [hd, hunit, hwhole]
    rfl

/-- The repayment that a value justifies, rounded down. -/
theorem repaymentFor_ok {value repay : Amount} {penalty : UInt64}
    (h : value.repaymentFor penalty = .ok repay) :
    repay.val = value.val * 10000 / (10000 + penalty.toNat) :=
  (mulDiv_eq_ok.mp h).2

/-- Every value justifies some repayment. -/
theorem exists_repaymentFor (value : Amount) (penalty : UInt64) :
    ∃ repay, value.repaymentFor penalty = .ok repay := by
  have hdivisor : withPenalty penalty ≠ 0 := by
    rw [Ne, eq_zero_iff]
    show ¬ 10000 + penalty.toNat = 0
    omega
  have hquotient : value.val * whole.val / (withPenalty penalty).val ≤ value.val := by
    refine Nat.div_le_of_le_mul ?_
    rw [Nat.mul_comm]
    exact Nat.mul_le_mul_right _ (Nat.le_add_right 10000 penalty.toNat)
  exact ⟨⟨_, Nat.lt_of_le_of_lt hquotient value.isLt⟩, mulDiv_eq_ok.mpr ⟨hdivisor, rfl⟩⟩

end Custody.Amount
