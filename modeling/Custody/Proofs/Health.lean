/-
The health factor rises with deposits and falls with debt.

Every step of the computation is monotone, rounding included, so the number that a factor is
capped from is.  This compares two readings that both answered.  A larger deposit can make a
value pass the largest amount, and then there is no factor to compare.
-/
import Mathlib.Algebra.Order.BigOperators.Group.List
import Mathlib.Algebra.Order.Group.Nat
import Custody.Proofs.Valuation

namespace Custody

/-! ### Values -/

namespace Oracle

variable {o : Oracle} {mode : ReadMode} {token : Address} {a a' : Amount}

/-- An answered read is of the entry that is there. -/
theorem get?_of_entry {entry : Price} (h : o.entry mode token = .ok entry) :
    o.prices.get? token = some entry :=
  (entry_eq_ok.mp h).2.2

/-- A price is that of the entry that is there. -/
theorem price_ok {price : Amount} (h : o.price mode token = .ok price) :
    ∃ entry, o.entry mode token = .ok entry ∧ price = entry.price := by
  simp only [Oracle.price, Check.bind_eq_ok, Check.pure_eq_ok] at h
  obtain ⟨entry, hentry, rfl⟩ := h
  exact ⟨entry, hentry, rfl⟩

/-- A value is made of the amount and of the entry that was read. -/
theorem value_congr {o' : Oracle} {amount : Amount}
    (h : o'.entry mode token = o.entry mode token) :
    o'.value mode token amount = o.value mode token amount := by
  unfold value
  rw [h]

/-- A value is the amount times the price of one whole token, rounded down. -/
theorem value_ok {amount value : Amount} (h : o.value mode token amount = .ok value) :
    ∃ entry, o.entry mode token = .ok entry ∧
      value.val = amount.val * entry.price.val / Nat.pow 10 entry.decimals.toNat := by
  obtain ⟨hpasses, ⟨hup, entry, hget, -⟩, hvalue⟩ := value_eq_ok.mp h
  rw [worth_of_get? hget] at hvalue
  exact ⟨entry, entry_eq_ok.mpr ⟨hpasses, hup, hget⟩, hvalue⟩

/-- A larger amount is worth no less. -/
theorem worth_mono (o : Oracle) (token : Address) (ha : a ≤ a') :
    o.worth token a ≤ o.worth token a' := by
  unfold worth
  cases o.prices.get? token with
  | none => exact Nat.le_refl _
  | some entry => exact Nat.div_le_div_right (Nat.mul_le_mul_right _ ha)

/-- A smaller amount has a value if a larger one has. -/
theorem exists_value_of_le {v' : Amount} (ha : a ≤ a') (h : o.value mode token a' = .ok v') :
    ∃ v, o.value mode token a = .ok v := by
  obtain ⟨hpasses, hpriced, hv'⟩ := value_eq_ok.mp h
  have hfits : o.worth token a < Amount.size := by
    calc o.worth token a ≤ o.worth token a' := o.worth_mono token ha
      _ = v'.val := hv'.symm
      _ < Amount.size := v'.isLt
  exact ⟨⟨_, hfits⟩, value_eq_ok.mpr ⟨hpasses, hpriced, rfl⟩⟩

end Oracle

namespace Health

variable {l l' : Ledger} {o : Oracle} {mode : ReadMode} {view view' : CollateralView}
  {user : Address}

/-! ### What a factor is made of -/

/-- A health factor is made of the debt and the deposits of its user, and of the parameters and
the prices of listed tokens. -/
theorem factor_eq_of_user {o' : Oracle} (hdebt : l'.debt user = l.debt user)
    (htokens : view'.tokens = view.tokens)
    (hdeposit : ∀ token, view'.deposit user token = view.deposit user token)
    (hparams : ∀ token, (view'.config token).map CollateralConfig.params =
      (view.config token).map CollateralConfig.params)
    (hentry : ∀ token, o'.entry mode token = o.entry mode token) :
    factor l' o' mode view' user = factor l o mode view user := by
  have hweighted : ∀ token,
      weighted o' mode view' user token = weighted o mode view user token := by
    intro token
    have hsame := hparams token
    simp only [weighted, hdeposit, Oracle.value_congr (hentry token)]
    cases hconfig : view.config token <;> cases hconfig' : view'.config token <;>
      simp only [hconfig, hconfig', Option.map_none, Option.map_some, reduceCtorEq,
        Option.some.injEq] at hsame ⊢
    rw [hsame]
  simp only [factor, weightedSum, hdebt, htokens, hweighted]

/-! ### More collateral, less debt -/

/-- The same tokens on the same terms, and no deposit of a user has become smaller. -/
structure Grown (user : Address) (view view' : CollateralView) : Prop where
  tokens : view'.tokens = view.tokens
  config : view'.config = view.config
  deposit : ∀ token, view.deposit user token ≤ view'.deposit user token

theorem weight_mono (o : Oracle) (token : Address) (h : Grown user view view') :
    weight o view user token ≤ weight o view' user token := by
  unfold weight
  rw [h.config]
  cases view.config token with
  | none => exact Nat.le_refl _
  | some config =>
      exact Nat.div_le_div_right (Nat.mul_le_mul_right _ (o.worth_mono token (h.deposit token)))

theorem totalWeight_mono (o : Oracle) (h : Grown user view view') :
    totalWeight o view user ≤ totalWeight o view' user := by
  unfold totalWeight
  rw [h.tokens]
  exact List.sum_le_sum fun token _ => weight_mono o token h

theorem ratio_mono (o : Oracle) (h : Grown user view view') (hdebt : l'.debt user ≤ l.debt user)
    (hsome : l'.debt user ≠ 0) : ratio l o view user ≤ ratio l' o view' user := by
  calc totalWeight o view user * 10000 / (l.debt user).val
      ≤ totalWeight o view' user * 10000 / (l.debt user).val :=
        Nat.div_le_div_right (Nat.mul_le_mul_right _ (totalWeight_mono o h))
    _ ≤ totalWeight o view' user * 10000 / (l'.debt user).val :=
        Nat.div_le_div_left hdebt (Amount.pos_of_ne_zero hsome)

theorem le_top (f : UInt64) : f ≤ top := by
  rw [UInt64.le_iff_toNat_le]
  have := f.toNat_lt
  simp only [top, UInt64.reduceToNat]
  omega

/-- A user without debt has the largest factor, whatever the prices. -/
theorem factor_of_debtless (h : l.debt user = 0) : factor l o mode view user = .ok top := by
  unfold factor
  rw [if_pos h]

/-- **More collateral and less debt never lower the health factor.** -/
theorem factor_mono {f f' : UInt64} (hgrown : Grown user view view')
    (hdebt : l'.debt user ≤ l.debt user) (h : factor l o mode view user = .ok f)
    (h' : factor l' o mode view' user = .ok f') : f ≤ f' := by
  by_cases hnone : l'.debt user = 0
  · rw [factor_of_debtless hnone] at h'
    obtain rfl := Except.ok.inj h'
    exact le_top f
  · have hsome : l.debt user ≠ 0 := by
      intro heq
      rw [heq] at hdebt
      exact hnone (Amount.eq_zero_iff.mpr (Nat.le_zero.mp hdebt))
    obtain ⟨-, -, -, hf⟩ := (factor_eq_ok hsome).mp h
    obtain ⟨-, -, -, hf'⟩ := (factor_eq_ok hnone).mp h'
    rw [UInt64.le_iff_toNat_le, hf, hf']
    exact min_le_min_right _ (ratio_mono o hgrown hdebt hnone)

/-! ### What a factor has read -/

/-- If the factor of a debtor was read, every deposit in a listed token has a value. -/
theorem exists_value {token : Address} {f : UInt64} {config : CollateralConfig}
    (hdebt : l.debt user ≠ 0) (h : factor l o mode view user = .ok f)
    (hlisted : token ∈ view.tokens) (hconfig : view.config token = some config)
    (hdeposit : view.deposit user token ≠ 0) :
    ∃ value, o.value mode token (view.deposit user token) = .ok value := by
  have hcounts : Counts view user token := ⟨hdeposit, by rw [hconfig]; rfl⟩
  obtain ⟨hread, -⟩ := (factor_eq_ok hdebt).mp h
  obtain ⟨hpasses, hreadable⟩ := hread token (mem_counted.mpr ⟨hlisted, hcounts⟩)
  exact ⟨⟨_, hreadable.worth⟩, Oracle.value_eq_ok.mpr ⟨hpasses, hreadable.priced, rfl⟩⟩

end Health

end Custody
