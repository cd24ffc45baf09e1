/-
How exact a health factor is.

A token that counts is rounded down twice, to its dollar value and to the share of it that the
threshold counts, and the quotient by the debt is rounded down once more.  Nothing is ever rounded
up, so a factor never overstates the exact one.

Both roundings of a token lose less than one unit of value: the first one is scaled by the
threshold afterwards, which makes it no larger as long as the threshold is at most the whole.  So
the error is two units of value for each token that counts, in basis points of the debt, and the
fraction of the last rounding.  A token that does not count loses nothing, whatever its price.

The exact factor is a rational number, added up token by token beside the computed one.
-/
import Mathlib.Algebra.Order.BigOperators.Group.List
import Mathlib.Algebra.Order.Field.Rat
import Mathlib.Data.Nat.Cast.Order.Field
import Mathlib.Tactic.FieldSimp
import Mathlib.Tactic.GCongr
import Mathlib.Tactic.Linarith
import Mathlib.Tactic.Ring
import Custody.Proofs.Run
import Custody.Proofs.Valuation

namespace Custody.Health

variable {l : Ledger} {o : Oracle} {mode : ReadMode} {view : CollateralView}
  {user token : Address}

/-! ### Two roundings -/

/-- Rounding down loses less than one. -/
theorem div_lt_floor_add_one (a : Nat) {b : Nat} (hb : 0 < b) :
    (a : ℚ) / b < ((a / b : ℕ) : ℚ) + 1 := by
  have hpositive : (0 : ℚ) < b := Nat.cast_pos.mpr hb
  rw [div_lt_iff₀ hpositive]
  have hlt : a < (a / b + 1) * b := by
    rw [Nat.mul_comm]
    exact Nat.lt_mul_div_succ a hb
  exact_mod_cast hlt

/-- The share rounded down of a value rounded down is at most the exact one. -/
theorem floors_le (product unit threshold : Nat) :
    ((product / unit * threshold / 10000 : ℕ) : ℚ) ≤
      (product : ℚ) / unit * threshold / 10000 := by
  calc ((product / unit * threshold / 10000 : ℕ) : ℚ)
      ≤ ((product / unit * threshold : ℕ) : ℚ) / (10000 : ℕ) := Nat.cast_div_le
    _ = ((product / unit : ℕ) : ℚ) * threshold / 10000 := by rw [Nat.cast_mul, Nat.cast_ofNat]
    _ ≤ (product : ℚ) / unit * threshold / 10000 := by
        gcongr
        exact Nat.cast_div_le

/-- It is less than two below the exact one, if the share is at most the whole. -/
theorem lt_floors_add_two (product : Nat) {unit threshold : Nat} (hunit : 0 < unit)
    (hthreshold : threshold ≤ 10000) :
    (product : ℚ) / unit * threshold / 10000 <
      ((product / unit * threshold / 10000 : ℕ) : ℚ) + 2 := by
  have hvalue : (product : ℚ) / unit ≤ ((product / unit : ℕ) : ℚ) + 1 :=
    (div_lt_floor_add_one product hunit).le
  have hshare : ((product / unit : ℕ) : ℚ) * threshold / 10000 <
      ((product / unit * threshold / 10000 : ℕ) : ℚ) + 1 := by
    exact_mod_cast div_lt_floor_add_one (product / unit * threshold) (b := 10000) (by decide)
  -- What the first rounding lost is scaled by the threshold.
  have hscaled : (threshold : ℚ) / 10000 ≤ 1 := by
    rw [div_le_one (by norm_num)]
    exact_mod_cast hthreshold
  calc (product : ℚ) / unit * threshold / 10000
      ≤ (((product / unit : ℕ) : ℚ) + 1) * threshold / 10000 := by gcongr
    _ = ((product / unit : ℕ) : ℚ) * threshold / 10000 + threshold / 10000 := by ring
    _ < ((product / unit * threshold / 10000 : ℕ) : ℚ) + 2 := by linarith

/-! ### The exact sum -/

/-- What a token adds to the weighted value, nothing rounded; a token without a config or a price
adds nothing. -/
def exactWeight (o : Oracle) (view : CollateralView) (user token : Address) : ℚ :=
  match view.config token, o.prices.get? token with
  | some config, some entry =>
    (view.deposit user token).val * entry.price.val * config.params.threshold.toNat /
      (10 ^ entry.decimals.toNat * 10000)
  | _, _ => 0

/-- The weighted value of the listed tokens, nothing rounded. -/
def exactTotalWeight (o : Oracle) (view : CollateralView) (user : Address) : ℚ :=
  (view.tokens.map (exactWeight o view user)).sum

/-- A token that adds anything adds a share of a quotient, once rounded down twice and once
exact. -/
theorem weights_cases (o : Oracle) (view : CollateralView) (user token : Address) :
    (weight o view user token = 0 ∧ exactWeight o view user token = 0) ∨
      ∃ (config : CollateralConfig) (product unit : Nat), view.config token = some config ∧
        0 < unit ∧
        weight o view user token =
          product / unit * config.params.threshold.toNat / 10000 ∧
        exactWeight o view user token =
          (product : ℚ) / unit * config.params.threshold.toNat / 10000 := by
  unfold weight exactWeight
  cases view.config token with
  | none => exact .inl ⟨rfl, rfl⟩
  | some config =>
      cases hget : o.prices.get? token with
      | none =>
          refine .inl ⟨?_, rfl⟩
          simp [Oracle.worth, hget]
      | some entry =>
          refine .inr ⟨config, (view.deposit user token).val * entry.price.val,
            10 ^ entry.decimals.toNat, rfl, Nat.pow_pos (by decide), ?_, ?_⟩
          · rw [Oracle.worth_of_get? hget]
          · push_cast
            field_simp

/-- What a token adds is never rounded up. -/
theorem weight_le_exactWeight (o : Oracle) (view : CollateralView) (user token : Address) :
    (weight o view user token : ℚ) ≤ exactWeight o view user token := by
  rcases weights_cases o view user token with
    ⟨hweight, hexact⟩ | ⟨config, product, unit, -, -, hweight, hexact⟩
  · rw [hweight, hexact, Nat.cast_zero]
  · rw [hweight, hexact]
    exact floors_le product unit _

/-- A threshold that is at most the whole loses less than two units. -/
theorem exactWeight_le (o : Oracle) (user : Address)
    (hthreshold : ∀ config, view.config token = some config →
      config.params.threshold.toNat ≤ 10000) :
    exactWeight o view user token ≤ weight o view user token + 2 := by
  rcases weights_cases o view user token with
    ⟨hweight, hexact⟩ | ⟨config, product, unit, hconfig, hunit, hweight, hexact⟩
  · rw [hweight, hexact, Nat.cast_zero, zero_add]
    norm_num
  · rw [hweight, hexact]
    exact (lt_floors_add_two product hunit (hthreshold config hconfig)).le

/-- A token that does not count adds exactly nothing. -/
theorem exactWeight_of_not_counts (h : ¬ Counts view user token) :
    exactWeight o view user token = 0 := by
  unfold exactWeight
  cases hconfig : view.config token with
  | none => rfl
  | some config =>
      have hzero := deposit_of_not_counts hconfig h
      cases o.prices.get? token with
      | none => rfl
      | some entry => simp [hzero]

/-- The weighted value is never rounded up. -/
theorem totalWeight_le_exact (o : Oracle) (view : CollateralView) (user : Address) :
    (totalWeight o view user : ℚ) ≤ exactTotalWeight o view user := by
  unfold totalWeight exactTotalWeight
  induction view.tokens with
  | nil => simp
  | cons token rest ih =>
      have hfirst := weight_le_exactWeight o view user token
      rw [List.map_cons, List.sum_cons, List.map_cons, List.sum_cons, Nat.cast_add]
      linarith

/-- Its error is at most two for each token that counts. -/
theorem exactTotalWeight_le (o : Oracle) (user : Address)
    (hthresholds : ∀ token ∈ view.tokens, ∀ config, view.config token = some config →
      config.params.threshold.toNat ≤ 10000) :
    exactTotalWeight o view user ≤ totalWeight o view user + 2 * (counted view user).length := by
  unfold totalWeight exactTotalWeight counted
  revert hthresholds
  induction view.tokens with
  | nil =>
      intro _
      simp
  | cons token rest ih =>
      intro hthresholds
      have hrest := ih fun other hmem => hthresholds other (List.mem_cons_of_mem _ hmem)
      have hfirst := exactWeight_le o user (hthresholds token List.mem_cons_self)
      rw [List.map_cons, List.sum_cons, List.map_cons, List.sum_cons, Nat.cast_add]
      by_cases hcounts : Counts view user token
      · rw [List.filter_cons_of_pos (by simpa using hcounts), List.length_cons, Nat.cast_succ]
        linarith
      · rw [List.filter_cons_of_neg (by simpa using hcounts), exactWeight_of_not_counts hcounts,
          weight_of_not_counts hcounts, Nat.cast_zero]
        linarith

/-! ### The factor -/

/-- **A health factor is exact up to its roundings, and never overstates.**  If no listed token has
a threshold above the whole, the exact factor is at least the reported one.  It is less than one
basis point above it, and two units of value in basis points of the debt for each token that counts,
unless the reported one is capped. -/
theorem factor_accurate {f : UInt64}
    (hthresholds : ∀ token ∈ view.tokens, ∀ config, view.config token = some config →
      config.params.threshold.toNat ≤ 10000)
    (hdebt : l.debt user ≠ 0) (h : factor l o mode view user = .ok f) :
    let debt : ℚ := (l.debt user).val
    let exact := exactTotalWeight o view user * 10000 / debt
    let n : ℚ := (counted view user).length
    (f.toNat : ℚ) ≤ exact ∧ (f < top → exact < f.toNat + 1 + 2 * n * 10000 / debt) := by
  intro debt exact n
  obtain ⟨-, -, -, hf⟩ := (factor_eq_ok hdebt).mp h
  have hpositive : 0 < (l.debt user).val := Amount.pos_of_ne_zero hdebt
  have hdebt : 0 < debt := Nat.cast_pos.mpr hpositive
  have hlower := totalWeight_le_exact o view user
  have hupper := exactTotalWeight_le o user hthresholds
  refine ⟨?_, fun hcapped => ?_⟩
  · have hratio : f.toNat ≤ ratio l o view user := by
      rw [hf]
      exact Nat.min_le_left _ _
    calc (f.toNat : ℚ) ≤ (ratio l o view user : ℚ) := Nat.cast_le.mpr hratio
      _ ≤ ((totalWeight o view user * 10000 : ℕ) : ℚ) / ((l.debt user).val : ℕ) :=
        Nat.cast_div_le
      _ = totalWeight o view user * 10000 / debt := by rw [Nat.cast_mul, Nat.cast_ofNat]
      _ ≤ exact := by
          show _ ≤ exactTotalWeight o view user * 10000 / debt
          gcongr
  · have hratio : f.toNat = ratio l o view user := by
      rw [UInt64.lt_iff_toNat_lt] at hcapped
      omega
    have hlast : (totalWeight o view user : ℚ) * 10000 / debt < f.toNat + 1 := by
      rw [hratio]
      exact_mod_cast div_lt_floor_add_one (totalWeight o view user * 10000) hpositive
    calc exact ≤ (totalWeight o view user + 2 * n) * 10000 / debt := by
          show exactTotalWeight o view user * 10000 / debt ≤ _
          gcongr
      _ = totalWeight o view user * 10000 / debt + 2 * n * 10000 / debt := by ring
      _ < f.toNat + 1 + 2 * n * 10000 / debt := by linarith

/-! ### A debt of three base units -/

/-- A base unit of each of two tokens, a tenth of which is worth nineteen. -/
def grains : CollateralView where
  tokens := [Sample.weth, Sample.wbtc]
  config := fun _ => some (.listed ⟨9000, 9999, 500⟩)
  deposit := fun _ _ => .ofWord 1

/-- Both tokens are rounded down to nothing, and so is the factor, which would be above parity. -/
theorem factor_accurate_grains :
    let l : Ledger := { Ledger.empty with debts := Table.empty.insert Sample.alice (.ofWord 3) }
    let o := (Oracle.empty.setPrice Sample.weth (.ofWord 19) 1).setPrice Sample.wbtc (.ofWord 19) 1
    let exact := exactTotalWeight o grains Sample.alice * 10000 / 3
    (∀ token ∈ grains.tokens, ∀ config, grains.config token = some config →
        config.params.threshold.toNat ≤ 10000) ∧
      l.debt Sample.alice ≠ 0 ∧ factor l o .bypassing grains Sample.alice = .ok 0 ∧
      (0 : UInt64) < top ∧ exact = 63327 / 5 ∧
      0 ≤ exact ∧ exact < 0 + 1 + 2 * 2 * 10000 / 3 := by
  intro l o exact
  have hthresholds : ∀ token ∈ grains.tokens, ∀ config, grains.config token = some config →
      config.params.threshold.toNat ≤ 10000 := by
    intro token _ config hconfig
    rw [← Option.some.inj hconfig]
    decide
  have hdebt : l.debt Sample.alice ≠ 0 := by decide +kernel
  have hread : factor l o .bypassing grains Sample.alice = .ok 0 :=
    Check.eq_ok_of_toOption (by decide +kernel)
  have hcapped : (0 : UInt64) < top := by decide
  have hexact : exact = 63327 / 5 := by decide +kernel
  obtain ⟨hlower, hupper⟩ := factor_accurate hthresholds hdebt hread
  exact ⟨hthresholds, hdebt, hread, hcapped, hexact, hlower, hupper hcapped⟩

end Custody.Health
