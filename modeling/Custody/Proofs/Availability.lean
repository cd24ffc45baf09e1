/-
When a health factor can be read.

A debtor's health read needs a price for every deposit, and it computes in amounts.  In a vault
with a history every listed token has a config, so every deposit counts, and no threshold is above
the whole, so what a token adds is an amount if its value is one.  What is left are the prices, the
values, their weighted sum, and the quotient by the debt.

The quotient is capped at the largest factor, but only once it is an amount.  A debt of a few base
units under a large value makes it too large for one.  Then the read fails, although the position
is the healthiest there is.  With ten thousand base units of debt it cannot happen, since the
quotient is then no larger than the weighted sum.
-/
import Custody.Proofs.Reached
import Custody.Proofs.Reading

namespace Custody

open Health

namespace Vault

variable {v : Vault} {l : Ledger} {o : Oracle} {user token : Address}

/-- Each deposit of the user has a price and a value that is an amount, and so has the sum of the
weighted values. -/
structure Appraised (v : Vault) (o : Oracle) (user : Address) : Prop where
  priced : ∀ token ∈ v.listed, v.depositOf user token ≠ 0 → o.Priced token
  valued : ∀ token ∈ v.listed, v.depositOf user token ≠ 0 →
    o.worth token (v.depositOf user token) < Amount.size
  summed : totalWeight o v.view user < Amount.size

/-- A listed token counts for every user who has a deposit in it. -/
theorem Registered.mem_counted_iff (h : v.Registered) :
    token ∈ counted v.view user ↔ token ∈ v.listed ∧ v.depositOf user token ≠ 0 := by
  rw [mem_counted]
  refine and_congr_right fun hlisted => ?_
  obtain ⟨config, hconfig⟩ := h.mem_listed.mp hlisted
  exact and_iff_left (Option.isSome_iff_exists.mpr ⟨config, hconfig⟩)

/-- No threshold is above the whole, so a token adds no more than its value. -/
theorem Registered.weight_le (h : v.Registered) :
    weight o v.view user token ≤ o.worth token (v.depositOf user token) := by
  unfold weight
  cases hconfig : v.view.config token with
  | none => exact Nat.zero_le _
  | some config =>
      obtain ⟨⟨-, -, hthreshold⟩, -⟩ :=
        CollateralParams.bounds_of_validate (h.valid token config hconfig)
      have hwhole : config.params.threshold.toNat ≤ 10000 :=
        Nat.le_trans (UInt64.le_iff_toNat_le.mp hthreshold) (by decide)
      exact Nat.div_le_of_le_mul (by
        rw [Nat.mul_comm 10000]
        exact Nat.mul_le_mul_left _ hwhole)

/-- What is asked of the deposits is what a bypassing read asks of the tokens that count. -/
theorem Registered.appraised_iff (h : v.Registered) : v.Appraised o user ↔
    (∀ token ∈ counted v.view user,
      o.Passes .bypassing token ∧ Readable o v.view user token) ∧
      totalWeight o v.view user < Amount.size := by
  constructor
  · intro happraised
    refine ⟨fun token hmem => ⟨o.passes_bypassing token, ?_⟩, happraised.summed⟩
    obtain ⟨hlisted, hdeposit⟩ := h.mem_counted_iff.mp hmem
    have hvalued := happraised.valued token hlisted hdeposit
    exact ⟨happraised.priced token hlisted hdeposit, hvalued,
      Nat.lt_of_le_of_lt h.weight_le hvalued⟩
  · rintro ⟨hread, hsummed⟩
    refine ⟨fun token hlisted hdeposit => ?_, fun token hlisted hdeposit => ?_, hsummed⟩
    · exact (hread token (h.mem_counted_iff.mpr ⟨hlisted, hdeposit⟩)).2.priced
    · exact (hread token (h.mem_counted_iff.mpr ⟨hlisted, hdeposit⟩)).2.worth

end Vault

namespace Health

variable {v : Vault} {l : Ledger} {o : Oracle} {user : Address}

/-- **When a health factor can be read.**  For a vault with any history, any ledger and any prices,
the bypassing factor of a debtor can be read exactly if every deposit has a price and a value, the
weighted values have a sum, and the sum in basis points of the debt is an amount; and then it is
that, capped.  If only the last is not so, the read fails by an overflow.  With a debt of at least
ten thousand base units the last is always so. -/
theorem factor_available_iff (h : v.Reached) (hdebt : l.debt user ≠ 0) :
    ((∃ f, factor l o .bypassing v.view user = .ok f) ↔
        v.Appraised o user ∧ ratio l o v.view user < Amount.size) ∧
      (∀ f, factor l o .bypassing v.view user = .ok f →
        f.toNat = min (ratio l o v.view user) top.toNat) ∧
      (v.Appraised o user → Amount.size ≤ ratio l o v.view user →
        factor l o .bypassing v.view user = .error
          (.overflow s!"({totalWeight o v.view user} * {Amount.whole}) / {l.debt user}")) ∧
      (v.Appraised o user → 10000 ≤ (l.debt user).val →
        ∃ f, factor l o .bypassing v.view user = .ok f) := by
  have hregistered := h.registered
  have hiff : (∃ f, factor l o .bypassing v.view user = .ok f) ↔
      v.Appraised o user ∧ ratio l o v.view user < Amount.size := by
    simp only [factor_eq_ok hdebt, hregistered.appraised_iff]
    constructor
    · rintro ⟨f, hread, hsummed, hratio, -⟩
      exact ⟨⟨hread, hsummed⟩, hratio⟩
    · rintro ⟨⟨hread, hsummed⟩, hratio⟩
      refine ⟨cap ⟨ratio l o v.view user, hratio⟩, hread, hsummed, hratio, ?_⟩
      exact cap_val _
  refine ⟨hiff, fun f hf => ?_, fun happraised hratio => ?_, fun happraised hlarge => ?_⟩
  · obtain ⟨-, -, -, hval⟩ := (factor_eq_ok hdebt).mp hf
    exact hval
  · obtain ⟨hread, hsummed⟩ := hregistered.appraised_iff.mp happraised
    exact factor_overflow hdebt hread hsummed hratio
  · exact hiff.mpr ⟨happraised, Nat.lt_of_le_of_lt (ratio_le_totalWeight hlarge)
      happraised.summed⟩

end Health

/-! ### A base unit of debt

Bob's token comes to cost a hundred quadrillion dollars, its breaker is open, and he owes a single
base unit.
-/

namespace Sample

/-- A hundred quadrillion dollars. -/
def windfallPrice : Amount := ⟨100000000000000000 * debtUnit.val, by decide⟩

/-- The turns that lead there. -/
def windfall : List Turn := opening ++
  [.happening (.setPrice weth windfallPrice 18), .happening (.setBreaker weth true),
    .happening (.setDebt bob (.ofWord 1))]

theorem windfall_reached : (start.run windfall).vault.Reached :=
  (fresh.reached.run windfall).vault

theorem windfall_appraised :
    (start.run windfall).vault.Appraised (start.run windfall).oracle bob := by
  have hlisted : (start.run windfall).vault.listed = [weth, wbtc] := by decide +kernel
  have hnothing : (start.run windfall).vault.depositOf bob wbtc = 0 := by decide +kernel
  have hsole : ∀ token ∈ (start.run windfall).vault.listed,
      (start.run windfall).vault.depositOf bob token ≠ 0 → token = weth := by
    intro token hmem hdeposit
    rw [hlisted] at hmem
    rcases List.mem_pair.mp hmem with rfl | rfl
    · rfl
    · exact absurd hnothing hdeposit
  refine ⟨fun token hmem hdeposit => ?_, fun token hmem hdeposit => ?_, by decide +kernel⟩
  · rw [hsole token hmem hdeposit]
    exact ⟨by decide +kernel, ⟨windfallPrice, 18⟩, by decide +kernel, by decide⟩
  · rw [hsole token hmem hdeposit]
    decide +kernel

end Sample

namespace Health

open Sample

/-- His deposit has a price, a value and a weighted value, and his health factor cannot be read. -/
theorem factor_available_iff_windfall :
    let p := start.run windfall
    p.vault.Reached ∧ p.ledger.debt bob ≠ 0 ∧ p.vault.Appraised p.oracle bob ∧
      Amount.size ≤ ratio p.ledger p.oracle p.vault.view bob ∧
      factor p.ledger p.oracle .bypassing p.vault.view bob = .error (.overflow
        s!"({totalWeight p.oracle p.vault.view bob} * {Amount.whole}) / {p.ledger.debt bob}") := by
  intro p
  have hdebt : p.ledger.debt bob ≠ 0 := by decide +kernel
  have hratio : Amount.size ≤ ratio p.ledger p.oracle p.vault.view bob := by decide +kernel
  obtain ⟨-, -, hoverflow, -⟩ :=
    factor_available_iff (o := p.oracle) windfall_reached hdebt
  exact ⟨windfall_reached, hdebt, windfall_appraised, hratio,
    hoverflow windfall_appraised hratio⟩

/-- So it is not the case that prices, values and a sum are all that a health read needs. -/
theorem appraised_not_available :
    ¬ ∀ (v : Vault) (l : Ledger) (o : Oracle) (user : Address), v.Reached →
      l.debt user ≠ 0 →
      v.Appraised o user → ∃ f, factor l o .bypassing v.view user = .ok f := by
  intro havailable
  have hdebt : (start.run windfall).ledger.debt bob ≠ 0 := by decide +kernel
  obtain ⟨f, hf⟩ := havailable _ _ _ bob windfall_reached hdebt windfall_appraised
  have hnone : (factor (start.run windfall).ledger (start.run windfall).oracle .bypassing
      (start.run windfall).vault.view bob).toOption = none := by decide +kernel
  rw [hf] at hnone
  cases hnone

end Health

end Custody
