/-
What a reading tells.

A factor is read at checked prices first and at bypassing ones if that fails.  The two reads go
through the same tokens and may fail at different ones for different reasons: a breaker here, a
missing price or a sum that is too large there.  Where a read fails does not matter.  A checked
read asks for what the bypassing one asks for and, besides, for closed breakers at the tokens that
count.  So the bypassing read decides whether there is a factor and which, and the breakers decide
how it is labelled.
-/
import Custody.Proofs.Health
import Custody.Proofs.Run
import Custody.Proofs.Valuation

namespace Custody.Health

variable {l : Ledger} {o : Oracle} {view : CollateralView} {user : Address} {n : UInt64}

/-! ### The two reads -/

/-- **A factor that was read in any mode is the factor that decides about liquidation.**  Heeding a
breaker can lose a price and never changes one. -/
theorem factor_bypassing {mode : ReadMode} (h : factor l o mode view user = .ok n) :
    factor l o .bypassing view user = .ok n := by
  by_cases hdebt : l.debt user = 0
  · rw [factor_of_debtless hdebt] at h ⊢
    exact h
  · rw [factor_eq_ok hdebt] at h ⊢
    obtain ⟨hread, hrest⟩ := h
    exact ⟨fun token hmem => ⟨o.passes_bypassing token, (hread token hmem).2⟩, hrest⟩

/-- A debtor's checked factor is the bypassing one, read while no token that counts has its breaker
open. -/
theorem factor_checked_iff (hdebt : l.debt user ≠ 0) :
    factor l o .checked view user = .ok n ↔
      factor l o .bypassing view user = .ok n ∧
        ∀ token ∈ counted view user, o.breakers.contains token = false := by
  refine ⟨fun hchecked => ⟨factor_bypassing hchecked, fun token hmem => ?_⟩, ?_⟩
  · obtain ⟨hread, -⟩ := (factor_eq_ok hdebt).mp hchecked
    exact (hread token hmem).1 rfl
  · rw [factor_eq_ok hdebt, factor_eq_ok hdebt]
    rintro ⟨⟨hread, hrest⟩, hclosed⟩
    exact ⟨fun token hmem => ⟨fun _ => hclosed token hmem, (hread token hmem).2⟩, hrest⟩

theorem read_eq_primary : read l o view user = .primary n ↔
    factor l o .checked view user = .ok n := by
  unfold read
  cases factor l o .checked view user with
  | ok f => simp
  | error e => cases factor l o .bypassing view user <;> simp

theorem read_eq_fallback : read l o view user = .fallback n ↔
    (∀ f, factor l o .checked view user ≠ .ok f) ∧
      factor l o .bypassing view user = .ok n := by
  unfold read
  cases factor l o .checked view user with
  | ok f => simp
  | error e => cases factor l o .bypassing view user <;> simp

theorem read_eq_unavailable : read l o view user = .unavailable ↔
    (∀ f, factor l o .checked view user ≠ .ok f) ∧
      ∃ e, factor l o .bypassing view user = .error e := by
  unfold read
  cases factor l o .checked view user with
  | ok f => simp
  | error e => cases factor l o .bypassing view user <;> simp

/-- **The two reads end with the bypassing factor, or with none if there is none.** -/
theorem read_value : (read l o view user).value? = (factor l o .bypassing view user).toOption := by
  unfold read
  cases hchecked : factor l o .checked view user with
  | ok f =>
      rw [factor_bypassing hchecked]
      rfl
  | error e => cases factor l o .bypassing view user <;> rfl

/-- However it was read, a factor that was read is the bypassing one. -/
theorem read_value_eq_some : (read l o view user).value? = some n ↔
    factor l o .bypassing view user = .ok n := by
  rw [read_value]
  constructor
  · exact Check.eq_ok_of_toOption
  · intro hfactor
    rw [hfactor]
    rfl

/-! ### How a reading is labelled -/

/-- Breakers are open or closed. -/
theorem closed_or_open (o : Oracle) (tokens : List Address) :
    (∀ token ∈ tokens, o.breakers.contains token = false) ∨
      ∃ token ∈ tokens, o.breakers.contains token = true := by
  by_cases hopen : ∃ token ∈ tokens, o.breakers.contains token = true
  · exact .inr hopen
  · refine .inl fun token hmem => ?_
    rw [← Bool.not_eq_true]
    exact fun hstopped => hopen ⟨token, hmem, hstopped⟩

/-- No debtor has a checked factor without a bypassing one. -/
theorem unavailable_iff (hdebt : l.debt user ≠ 0) : read l o view user = .unavailable ↔
    ∃ e, factor l o .bypassing view user = .error e := by
  rw [read_eq_unavailable, and_iff_right_iff_imp]
  rintro ⟨e, hfails⟩ f hchecked
  rw [((factor_checked_iff hdebt).mp hchecked).1] at hfails
  cases hfails

/-- Only an open breaker keeps a factor that can be read from being read at checked prices. -/
theorem fallback_iff (hdebt : l.debt user ≠ 0) : read l o view user = .fallback n ↔
    factor l o .bypassing view user = .ok n ∧
      ∃ token ∈ counted view user, o.breakers.contains token = true := by
  rw [read_eq_fallback, and_comm]
  refine and_congr_right fun hread => ?_
  constructor
  · intro hnone
    rcases closed_or_open o (counted view user) with hclosed | hopen
    · exact absurd ((factor_checked_iff hdebt).mpr ⟨hread, hclosed⟩) (hnone n)
    · exact hopen
  · rintro ⟨token, hmem, hopen⟩ f hchecked
    have hclosed := ((factor_checked_iff hdebt).mp hchecked).2 token hmem
    rw [hopen] at hclosed
    cases hclosed

/-- **What a reading tells.**  A user without debt reads the largest factor.  For a debtor the
reading is unavailable if the bypassing read fails, and otherwise it is the bypassing factor: a
primary one if no token that counts has its breaker open, and a fallback if some such token has.
In every case the value of the reading is the bypassing factor, or none if there is none. -/
theorem reading_classified (l : Ledger) (o : Oracle) (view : CollateralView) (user : Address) :
    (l.debt user = 0 → read l o view user = .primary top) ∧
      (l.debt user ≠ 0 →
        (read l o view user = .unavailable ↔
          ∃ e, factor l o .bypassing view user = .error e) ∧
        ∀ n, (read l o view user = .primary n ↔
            factor l o .bypassing view user = .ok n ∧
              ∀ token ∈ counted view user, o.breakers.contains token = false) ∧
          (read l o view user = .fallback n ↔
            factor l o .bypassing view user = .ok n ∧
              ∃ token ∈ counted view user, o.breakers.contains token = true)) ∧
      ∀ n, (read l o view user).value? = some n ↔ factor l o .bypassing view user = .ok n := by
  have hdebtless (hzero : l.debt user = 0) : read l o view user = .primary top :=
    read_eq_primary.mpr (factor_of_debtless hzero)
  refine ⟨hdebtless, fun hdebt => ⟨unavailable_iff hdebt, fun n => ?_⟩,
    fun n => read_value_eq_some⟩
  exact ⟨read_eq_primary.trans (factor_checked_iff hdebt), fallback_iff hdebt⟩

/-! ### A token that is listed twice -/

/-- Alice has a unit of the token that is listed twice and nothing of the one in between. -/
def listedTwice : CollateralView where
  tokens := [Sample.weth, Sample.wbtc, Sample.weth]
  config := fun _ => some (.listed ⟨7500, 8000, 500⟩)
  deposit := fun user token =>
    if user = Sample.alice ∧ token = Sample.weth then Sample.unit else 0

/-- A token without a deposit needs no price, and its open breaker changes nothing.  The breaker
of the token that counts makes the reading a fallback. -/
theorem reading_classified_listedTwice :
    let l : Ledger := { Ledger.empty with debts := Table.empty.insert Sample.alice Sample.loan }
    let o := (Oracle.empty.setPrice Sample.weth Sample.price 18).setBreaker Sample.wbtc true
    let stopped := o.setBreaker Sample.weth true
    l.debt Sample.alice ≠ 0 ∧
      counted listedTwice Sample.alice = [Sample.weth, Sample.weth] ∧
      read l o listedTwice Sample.alice = .primary 3200 ∧
      read l stopped listedTwice Sample.alice = .fallback 3200 ∧
      factor l stopped .bypassing listedTwice Sample.alice = .ok 3200 ∧
      ∃ token ∈ counted listedTwice Sample.alice, stopped.breakers.contains token = true := by
  intro l o stopped
  have hdebt : l.debt Sample.alice ≠ 0 := by decide +kernel
  have hread : read l stopped listedTwice Sample.alice = .fallback 3200 := by decide +kernel
  obtain ⟨-, hdebtor, -⟩ := reading_classified l stopped listedTwice Sample.alice
  obtain ⟨-, hlabels⟩ := hdebtor hdebt
  exact ⟨hdebt, by decide +kernel, by decide +kernel, hread, (hlabels 3200).2.mp hread⟩

end Custody.Health
