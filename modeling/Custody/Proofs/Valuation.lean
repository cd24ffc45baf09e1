/-
What a health factor is made of.

The weighted value is added up in a loop that skips tokens, reads prices, rounds twice for each
token and checks every sum.  None of this depends on the order of the tokens.  No summand is
negative, so the checks of the sums all pass if the last one does.  The loop therefore answers
exactly if each token that counts can be read by itself and the exact sum is an amount, and then
it answers with that sum.

Here the sum is written as a number beside the loop, and the conditions are written one by one.
`factor_eq_ok` puts them together.  Whatever is said of a factor that answers is read off it, and
the loop is not opened again for that.
-/
import Mathlib.Algebra.GroupWithZero.Nat
import Custody.Health
import Custody.Proofs.Arithmetic

namespace Custody

namespace Oracle

variable {o : Oracle} {mode : ReadMode} {token : Address} {amount value : Amount}

/-- The breaker does not stop a read in this mode. -/
def Passes (o : Oracle) (mode : ReadMode) (token : Address) : Prop :=
  mode = .checked → o.breakers.contains token = false

theorem passes_bypassing (o : Oracle) (token : Address) : o.Passes .bypassing token := by
  intro hchecked
  cases hchecked

/-- The feed is up, and there is a price for a whole token that is an amount of base units. -/
structure Priced (o : Oracle) (token : Address) : Prop where
  up : o.down.contains token = false
  price : ∃ entry, o.prices.get? token = some entry ∧ entry.decimals.toNat ≤ 38

/-- The dollar value of an amount as a number, rounded down; zero without a price. -/
def worth (o : Oracle) (token : Address) (amount : Amount) : Nat :=
  match o.prices.get? token with
  | none => 0
  | some entry => amount.val * entry.price.val / 10 ^ entry.decimals.toNat

theorem worth_of_get? {entry : Price} (h : o.prices.get? token = some entry) :
    o.worth token amount = amount.val * entry.price.val / 10 ^ entry.decimals.toNat := by
  unfold worth
  rw [h]

theorem worth_zero : o.worth token 0 = 0 := by
  unfold worth
  cases o.prices.get? token with
  | none => rfl
  | some entry => simp

/-- An entry is read if the feed is up and the breaker lets the read pass. -/
theorem entry_eq_ok {entry : Price} : o.entry mode token = .ok entry ↔
    o.Passes mode token ∧ o.down.contains token = false ∧ o.prices.get? token = some entry := by
  unfold Oracle.entry bypassingEntry Passes
  by_cases hstopped : mode = .checked ∧ o.breakers.contains token = true
  · simp [hstopped]
  · have hpasses : mode = .checked → o.breakers.contains token = false := by
      simpa only [not_and, Bool.not_eq_true] using hstopped
    simp only [hstopped, if_false, and_iff_right hpasses]
    by_cases hdown : o.down.contains token = true
    · simp [hdown]
    · cases hget : o.prices.get? token with
      | none => simp [hdown]
      | some found => simp [hdown]

/-- **When a value is read, and what it is.** -/
theorem value_eq_ok : o.value mode token amount = .ok value ↔
    o.Passes mode token ∧ o.Priced token ∧ value.val = o.worth token amount := by
  simp only [Oracle.value, Check.bind_eq_ok, entry_eq_ok, Amount.powTen_eq_ok,
    Amount.mulDiv_eq_ok]
  constructor
  · rintro ⟨entry, ⟨hpasses, hup, hget⟩, unit, hunit, -, hvalue⟩
    have hfits : 10 ^ entry.decimals.toNat < Amount.size := by
      have hlt := unit.isLt
      rw [hunit] at hlt
      exact hlt
    refine ⟨hpasses, ⟨hup, entry, hget, Amount.pow_lt_size_iff.mp hfits⟩, ?_⟩
    rw [worth_of_get? hget, hvalue, hunit]
    rfl
  · rintro ⟨hpasses, ⟨hup, entry, hget, hdecimals⟩, hvalue⟩
    have hpositive : 0 < 10 ^ entry.decimals.toNat := Nat.pow_pos (by decide)
    rw [worth_of_get? hget] at hvalue
    refine ⟨entry, ⟨hpasses, hup, hget⟩,
      ⟨10 ^ entry.decimals.toNat, Amount.pow_lt_size_iff.mpr hdecimals⟩, rfl, ?_, hvalue⟩
    rw [Ne, Amount.eq_zero_iff]
    exact Nat.ne_of_gt hpositive

end Oracle

/-! ### Sums -/

/-- Adding up over a list answers if every summand does and the exact sum is an amount, and it
answers with that sum.  The summands that answer are those of `weight`. -/
theorem Amount.foldlM_add_eq_ok {α : Type} {f : α → Except Error Amount} {weight : α → Nat}
    (hweight : ∀ x w, f x = .ok w → w.val = weight x) :
    ∀ (xs : List α) (start sum : Amount),
      xs.foldlM (fun sum x => do sum.add (← f x)) start = .ok sum ↔
        (∀ x ∈ xs, ∃ w, f x = .ok w) ∧ sum.val = start.val + (xs.map weight).sum := by
  intro xs
  induction xs with
  | nil =>
      intro start sum
      simp only [List.foldlM_nil, Check.pure_eq_ok, List.not_mem_nil, false_implies, implies_true,
        true_and, List.map_nil, List.sum_nil, Nat.add_zero, ← Amount.val_inj]
      exact eq_comm
  | cons x rest ih =>
      intro start sum
      simp only [List.foldlM_cons, Check.bind_eq_ok, Amount.add_eq_ok, ih, List.forall_mem_cons,
        List.map_cons, List.sum_cons]
      constructor
      · rintro ⟨next, ⟨w, hw, hnext⟩, hrest, hsum⟩
        have hval := hweight x w hw
        exact ⟨⟨⟨w, hw⟩, hrest⟩, by omega⟩
      · rintro ⟨⟨⟨w, hw⟩, hrest⟩, hsum⟩
        have hval := hweight x w hw
        -- The sum so far is at most the whole sum.
        have hfits : start.val + w.val < Amount.size := by
          have hlt := sum.isLt
          omega
        exact ⟨⟨_, hfits⟩, ⟨w, hw, rfl⟩, hrest, by dsimp only; omega⟩

/-! ### Health factors -/

namespace Health

variable {l : Ledger} {o : Oracle} {mode : ReadMode} {view : CollateralView}
  {user token : Address}

/-- A token counts for a user who has a deposit in it, if it has a config. -/
def Counts (view : CollateralView) (user token : Address) : Prop :=
  view.deposit user token ≠ 0 ∧ (view.config token).isSome = true

instance : Decidable (Counts view user token) := inferInstanceAs (Decidable (_ ∧ _))

/-- The listed tokens that count, each as often as it is listed. -/
def counted (view : CollateralView) (user : Address) : List Address :=
  view.tokens.filter fun token => Counts view user token

theorem mem_counted : token ∈ counted view user ↔
    token ∈ view.tokens ∧ Counts view user token := by
  simp only [counted, List.mem_filter, decide_eq_true_eq]

/-- What a token adds to the weighted value, as a number. -/
def weight (o : Oracle) (view : CollateralView) (user token : Address) : Nat :=
  match view.config token with
  | none => 0
  | some config =>
    o.worth token (view.deposit user token) * config.params.threshold.toNat / 10000

/-- The weighted value of the listed tokens, as a number. -/
def totalWeight (o : Oracle) (view : CollateralView) (user : Address) : Nat :=
  (view.tokens.map (weight o view user)).sum

/-- The weighted value in basis points of the debt, rounded down. -/
def ratio (l : Ledger) (o : Oracle) (view : CollateralView) (user : Address) : Nat :=
  totalWeight o view user * 10000 / (l.debt user).val

/-- With ten thousand base units of debt this is no more than the weighted value. -/
theorem ratio_le_totalWeight (hdebt : 10000 ≤ (l.debt user).val) :
    ratio l o view user ≤ totalWeight o view user := by
  unfold ratio
  refine Nat.div_le_of_le_mul ?_
  rw [Nat.mul_comm]
  exact Nat.mul_le_mul_right _ hdebt

/-- The token has a price, and what it adds can be computed in amounts. -/
structure Readable (o : Oracle) (view : CollateralView) (user token : Address) : Prop where
  priced : o.Priced token
  worth : o.worth token (view.deposit user token) < Amount.size
  weight : weight o view user token < Amount.size

/-- What keeps a token with a config from counting is that there is no deposit. -/
theorem deposit_of_not_counts {config : CollateralConfig}
    (hconfig : view.config token = some config) (h : ¬ Counts view user token) :
    view.deposit user token = 0 := by
  have hsome : (view.config token).isSome = true := by
    rw [hconfig]
    rfl
  exact Decidable.byContradiction fun hdeposit => h ⟨hdeposit, hsome⟩

theorem weight_of_not_counts (h : ¬ Counts view user token) : weight o view user token = 0 := by
  unfold weight
  cases hconfig : view.config token with
  | none => rfl
  | some config =>
      simp [deposit_of_not_counts hconfig h, Oracle.worth_zero]

/-- **When a token can be weighted, and what it adds.** -/
theorem weighted_eq_ok {w : Amount} : weighted o mode view user token = .ok w ↔
    (Counts view user token → o.Passes mode token ∧ Readable o view user token) ∧
      w.val = weight o view user token := by
  by_cases hcounts : Counts view user token
  · obtain ⟨hdeposit, hsome⟩ := hcounts
    obtain ⟨config, hconfig⟩ := Option.isSome_iff_exists.mp hsome
    have hweight : weight o view user token =
        o.worth token (view.deposit user token) * config.params.threshold.toNat / 10000 := by
      unfold weight
      rw [hconfig]
    have hcounts : Counts view user token := ⟨hdeposit, hsome⟩
    simp only [weighted, hdeposit, if_false, hconfig, Check.bind_eq_ok, Oracle.value_eq_ok,
      Amount.share_eq_ok]
    constructor
    · rintro ⟨value, ⟨hpasses, hpriced, hvalue⟩, hw⟩
      rw [hvalue, ← hweight] at hw
      exact ⟨fun _ => ⟨hpasses, hpriced, hvalue ▸ value.isLt, hw ▸ w.isLt⟩, hw⟩
    · rintro ⟨hread, hw⟩
      obtain ⟨hpasses, hreadable⟩ := hread hcounts
      exact ⟨⟨_, hreadable.worth⟩, ⟨hpasses, hreadable.priced, rfl⟩, hw.trans hweight⟩
  · have hnothing : weighted o mode view user token = .ok 0 := by
      unfold weighted
      by_cases hdeposit : view.deposit user token = 0
      · rw [if_pos hdeposit]
        rfl
      · have hconfig : view.config token = none := by
          rw [← Option.not_isSome_iff_eq_none]
          exact fun hsome => hcounts ⟨hdeposit, hsome⟩
        simp only [hdeposit, if_false, hconfig]
        rfl
    rw [hnothing, weight_of_not_counts hcounts, and_iff_right fun h => absurd h hcounts,
      ← Amount.eq_zero_iff]
    simp only [Except.ok.injEq]
    exact eq_comm

/-- **When the weighted value can be read, and what it is.** -/
theorem weightedSum_eq_ok {sum : Amount} : weightedSum o mode view user = .ok sum ↔
    (∀ token ∈ counted view user, o.Passes mode token ∧ Readable o view user token) ∧
      sum.val = totalWeight o view user := by
  have hweight : ∀ token w, weighted o mode view user token = .ok w →
      w.val = weight o view user token := fun token w hw => (weighted_eq_ok.mp hw).2
  unfold weightedSum
  rw [Amount.foldlM_add_eq_ok hweight, Amount.val_zero, Nat.zero_add]
  refine and_congr_left fun _ => ?_
  constructor
  · intro hall token hmem
    obtain ⟨hlisted, hcounts⟩ := mem_counted.mp hmem
    obtain ⟨w, hw⟩ := hall token hlisted
    exact (weighted_eq_ok.mp hw).1 hcounts
  · intro hall token hlisted
    have hread : Counts view user token →
        o.Passes mode token ∧ Readable o view user token :=
      fun hcounts => hall token (mem_counted.mpr ⟨hlisted, hcounts⟩)
    have hfits : weight o view user token < Amount.size := by
      by_cases hcounts : Counts view user token
      · exact (hread hcounts).2.weight
      · rw [weight_of_not_counts hcounts]
        decide
    exact ⟨⟨_, hfits⟩, weighted_eq_ok.mpr ⟨hread, rfl⟩⟩

theorem cap_val (a : Amount) : (cap a).toNat = min a.val top.toNat := by
  simp only [cap, UInt64.toNat_ofNat', top, UInt64.reduceToNat]
  omega

/-- **When the health factor of a debtor can be read, and what it is.**  The mode matters for the
breakers alone.  The cap comes last, so the factor has to be an amount before it is capped. -/
theorem factor_eq_ok {f : UInt64} (hdebt : l.debt user ≠ 0) :
    factor l o mode view user = .ok f ↔
    (∀ token ∈ counted view user, o.Passes mode token ∧ Readable o view user token) ∧
      totalWeight o view user < Amount.size ∧ ratio l o view user < Amount.size ∧
        f.toNat = min (ratio l o view user) top.toNat := by
  have hwhole : Amount.whole.val = 10000 := rfl
  simp only [factor, hdebt, if_false, Check.bind_eq_ok, Check.pure_eq_ok, weightedSum_eq_ok,
    Amount.mulDiv_eq_ok, hwhole]
  constructor
  · rintro ⟨sum, ⟨hread, hsum⟩, quotient, ⟨-, hquotient⟩, rfl⟩
    rw [hsum] at hquotient
    refine ⟨hread, hsum ▸ sum.isLt, ?_, ?_⟩
    · have hlt := quotient.isLt
      rw [hquotient] at hlt
      exact hlt
    · rw [cap_val, hquotient]
      rfl
  · rintro ⟨hread, htotal, hratio, hf⟩
    refine ⟨⟨_, htotal⟩, ⟨hread, rfl⟩, ⟨_, hratio⟩, ⟨hdebt, rfl⟩, ?_⟩
    rw [← UInt64.toNat_inj, cap_val, hf]

/-- A factor that is no amount is not capped but refused. -/
theorem factor_overflow (hdebt : l.debt user ≠ 0)
    (hread : ∀ token ∈ counted view user, o.Passes mode token ∧ Readable o view user token)
    (htotal : totalWeight o view user < Amount.size)
    (hratio : Amount.size ≤ ratio l o view user) :
    factor l o mode view user = .error
      (.overflow s!"({totalWeight o view user} * {Amount.whole}) / {l.debt user}") := by
  have hsum : weightedSum o mode view user = .ok ⟨totalWeight o view user, htotal⟩ :=
    weightedSum_eq_ok.mpr ⟨hread, rfl⟩
  have hquotient := Amount.mulDiv_overflow (a := ⟨totalWeight o view user, htotal⟩)
    (b := Amount.whole) hdebt hratio
  unfold factor
  rw [if_neg hdebt, hsum]
  show (Amount.mulDiv _ _ _ >>= _) = _
  rw [hquotient]
  rfl

end Health

end Custody
