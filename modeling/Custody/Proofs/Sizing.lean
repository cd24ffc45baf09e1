/-
How a seizure is sized.

A liquidation sells collateral at a rate, which is made of the price of the token and of the
penalty on top of the repayment.  Whether a sale is fair is judged in one measure in which
nothing is rounded: what a repayment is due, and what base units of collateral are worth.

Base units are whole, and so are the units of a repayment.  If the deposit covers what an offer
buys, the offer is repaid and the seizure is rounded down.  If it does not, all of the deposit is
seized and the repayment that it justifies is rounded down twice, once for the value and once for
the penalty.  So one sale is off by less than a base unit, and the other by less than two units of
the repayment.

The two do not meet at the limit of the deposit.  Below the limit a repayment is kept whole even
if part of a base unit is withheld for it; past the limit only what the deposit justifies is
repaid.  So a larger offer never seizes less, but it can repay less than a smaller one.
-/
import Custody.Proofs.Health
import Custody.Proofs.Registry

namespace Custody

/-- What collateral of a token is sold at in liquidations. -/
structure Rate where
  /-- The price of one whole token. -/
  price : Amount
  /-- What a repayment earns on top of it, in basis points. -/
  penalty : UInt64
  decimals : UInt8
  positive : 0 < price

namespace Rate

variable {rate : Rate} {m n repay units : Nat}

/-- What a repayment is due. -/
def due (rate : Rate) (repay : Nat) : Nat :=
  repay * (10000 + rate.penalty.toNat) * Nat.pow 10 rate.decimals.toNat

/-- What base units are worth, in the measure of what is due. -/
def worth (rate : Rate) (units : Nat) : Nat := units * rate.price.val * 10000

/-- The base units that a repayment buys, rounded down. -/
def buys (rate : Rate) (repay : Nat) : Nat := rate.due repay / (10000 * rate.price.val)

/-- The dollar value of base units, rounded down. -/
def value (rate : Rate) (units : Nat) : Nat :=
  units * rate.price.val / Nat.pow 10 rate.decimals.toNat

/-- The repayment that base units justify: their value less the penalty, rounded down. -/
def justifies (rate : Rate) (units : Nat) : Nat :=
  rate.value units * 10000 / (10000 + rate.penalty.toNat)

/-! ### The measure is linear -/

theorem unit_pos : 0 < Nat.pow 10 rate.decimals.toNat := Nat.pow_pos (by decide)

theorem cost_pos : 0 < 10000 * rate.price.val := Nat.mul_pos (by decide) rate.positive

theorem due_mono (h : m ≤ n) : rate.due m ≤ rate.due n :=
  Nat.mul_le_mul_right _ (Nat.mul_le_mul_right _ h)

theorem due_lt_due (h : m < n) : rate.due m < rate.due n :=
  Nat.mul_lt_mul_of_pos_right (Nat.mul_lt_mul_of_pos_right h (by omega)) unit_pos

theorem lt_of_due_lt (h : rate.due m < rate.due n) : m < n :=
  Nat.lt_of_not_le fun hle => absurd h (Nat.not_lt.mpr (due_mono hle))

theorem due_add (m n : Nat) : rate.due (m + n) = rate.due m + rate.due n := by
  simp only [due, Nat.add_mul]

theorem worth_mono (h : m ≤ n) : rate.worth m ≤ rate.worth n :=
  Nat.mul_le_mul_right _ (Nat.mul_le_mul_right _ h)

theorem lt_of_worth_lt (h : rate.worth m < rate.worth n) : m < n :=
  Nat.lt_of_not_le fun hle => absurd h (Nat.not_lt.mpr (worth_mono hle))

theorem worth_add (m n : Nat) : rate.worth (m + n) = rate.worth m + rate.worth n := by
  simp only [worth, Nat.add_mul]

theorem worth_eq_mul (n : Nat) : rate.worth n = n * (10000 * rate.price.val) := by
  rw [worth, Nat.mul_comm 10000, Nat.mul_assoc]

theorem worth_lt_succ (n : Nat) : rate.worth n < rate.worth (n + 1) := by
  rw [worth_add, worth_eq_mul 1, Nat.one_mul]
  exact Nat.lt_add_of_pos_right cost_pos

/-! ### Rounding -/

theorem worth_buys_le (repay : Nat) : rate.worth (rate.buys repay) ≤ rate.due repay := by
  rw [worth_eq_mul]
  exact Nat.div_mul_le_self _ _

theorem due_lt_worth (repay : Nat) : rate.due repay < rate.worth (rate.buys repay + 1) := by
  rw [worth_eq_mul, Nat.mul_comm]
  exact Nat.lt_mul_div_succ _ cost_pos

theorem buys_mono (h : m ≤ n) : rate.buys m ≤ rate.buys n :=
  Nat.div_le_div_right (due_mono h)

theorem value_mul_le (units : Nat) :
    rate.value units * Nat.pow 10 rate.decimals.toNat ≤ units * rate.price.val :=
  Nat.div_mul_le_self _ _

theorem lt_value_succ_mul (units : Nat) :
    units * rate.price.val < (rate.value units + 1) * Nat.pow 10 rate.decimals.toNat := by
  rw [Nat.mul_comm (_ + 1)]
  exact Nat.lt_mul_div_succ _ unit_pos

/-- The value covers what is justified and the penalty on it. -/
theorem justifies_mul_le (units : Nat) :
    rate.justifies units * (10000 + rate.penalty.toNat) ≤ rate.value units * 10000 :=
  Nat.div_mul_le_self _ _

theorem lt_justifies_succ_mul (units : Nat) :
    rate.value units * 10000 < (rate.justifies units + 1) * (10000 + rate.penalty.toNat) := by
  rw [Nat.mul_comm (_ + 1)]
  exact Nat.lt_mul_div_succ _ (by omega)

theorem due_justifies_le (units : Nat) : rate.due (rate.justifies units) ≤ rate.worth units := by
  calc rate.due (rate.justifies units)
      ≤ rate.value units * 10000 * Nat.pow 10 rate.decimals.toNat :=
        Nat.mul_le_mul_right _ (justifies_mul_le units)
    _ = rate.value units * Nat.pow 10 rate.decimals.toNat * 10000 := Nat.mul_right_comm ..
    _ ≤ rate.worth units := Nat.mul_le_mul_right _ (value_mul_le units)

/-- Each of the two roundings costs less than one unit of the repayment. -/
theorem worth_lt_due (units : Nat) : rate.worth units < rate.due (rate.justifies units + 2) := by
  have hjustified := rate.lt_justifies_succ_mul units
  have hnext : (rate.justifies units + 2) * (10000 + rate.penalty.toNat) =
      (rate.justifies units + 1) * (10000 + rate.penalty.toNat) +
        (10000 + rate.penalty.toNat) := Nat.succ_mul ..
  have hscaled : (rate.value units + 1) * 10000 ≤
      (rate.justifies units + 2) * (10000 + rate.penalty.toNat) := by omega
  calc rate.worth units
      < (rate.value units + 1) * Nat.pow 10 rate.decimals.toNat * 10000 :=
        Nat.mul_lt_mul_of_pos_right (lt_value_succ_mul units) (by decide)
    _ = (rate.value units + 1) * 10000 * Nat.pow 10 rate.decimals.toNat := Nat.mul_right_comm ..
    _ ≤ rate.due (rate.justifies units + 2) := Nat.mul_le_mul_right _ hscaled

/-- Fewer units than a repayment buys justify less than the repayment. -/
theorem justifies_lt (h : units < rate.buys repay) : rate.justifies units < repay := by
  have hdue : rate.due (rate.justifies units) < rate.due repay := by
    calc rate.due (rate.justifies units)
        ≤ rate.worth units := due_justifies_le units
      _ < rate.worth (units + 1) := worth_lt_succ units
      _ ≤ rate.worth (rate.buys repay) := worth_mono h
      _ ≤ rate.due repay := worth_buys_le repay
  exact lt_of_due_lt hdue

/-! ### Quotes at a rate -/

/-- How the deposit decides about the quote for an offer. -/
inductive Sized (rate : Rate) (deposit offer : Amount) (q : Quote) : Prop where
  /-- It covers what the offer buys. -/
  | covered (uncapped : q.capped = false) (repay : q.repay = offer) (shortfall : q.shortfall = 0)
      (seize : q.seize.val = rate.buys offer.val) (fits : q.seize ≤ deposit)
  /-- It does not, and what it justifies is repaid. -/
  | exhausted (capped : q.capped = true) (seize : q.seize = deposit)
      (repay : q.repay.val = rate.justifies deposit.val)
      (shortfall : q.repay.val + q.shortfall.val = offer.val)
      (lacks : deposit.val < rate.buys offer.val)

namespace Sized

variable {deposit offer offer' : Amount} {q q' : Quote}

/-- What is seized and what is repaid match to within a unit of the one that is rounded. -/
theorem fair (h : rate.Sized deposit offer q) :
    (q.capped = false → rate.worth q.seize.val ≤ rate.due q.repay.val ∧
      rate.due q.repay.val < rate.worth (q.seize.val + 1)) ∧
    (q.capped = true → rate.due q.repay.val ≤ rate.worth q.seize.val ∧
      rate.worth q.seize.val < rate.due (q.repay.val + 2)) := by
  cases h with
  | covered huncapped hrepay _ hseize =>
      rw [huncapped, hseize, hrepay]
      exact ⟨fun _ => ⟨worth_buys_le _, due_lt_worth _⟩, nofun⟩
  | exhausted hcapped hseize hrepay =>
      rw [hcapped, hseize, hrepay]
      exact ⟨nofun, fun _ => ⟨due_justifies_le _, worth_lt_due _⟩⟩

/-- A deposit that is too small always leaves a shortfall. -/
theorem capped_iff (h : rate.Sized deposit offer q) : q.capped = true ↔ 0 < q.shortfall := by
  cases h with
  | covered huncapped _ hshortfall =>
      rw [huncapped, hshortfall]
      exact ⟨nofun, fun hshort => absurd hshort (Nat.lt_irrefl 0)⟩
  | exhausted hcapped _ hrepay hshortfall hlacks =>
      have hless := justifies_lt hlacks
      rw [hcapped, Amount.pos_iff]
      exact ⟨fun _ => by omega, fun _ => rfl⟩

/-- A larger offer never seizes less and never leaves less of a shortfall.  It repays less only
past the limit, if the smaller offer was below it and more than the deposit justifies. -/
theorem mono (h : rate.Sized deposit offer q) (h' : rate.Sized deposit offer' q')
    (hle : offer ≤ offer') :
    q.seize ≤ q'.seize ∧ q.shortfall ≤ q'.shortfall ∧
      (q.repay ≤ q'.repay ↔
        q.capped = true ∨ q'.capped = false ∨ offer.val ≤ rate.justifies deposit.val) := by
  have hbuys : rate.buys offer.val ≤ rate.buys offer'.val := buys_mono hle
  cases h with
  | covered huncapped hrepay hshortfall hseize hfits =>
      rw [hrepay, hshortfall, huncapped]
      cases h' with
      | covered huncapped' hrepay' _ hseize' =>
          rw [hrepay', huncapped', Amount.le_def, hseize, hseize']
          exact ⟨hbuys, Nat.zero_le _, fun _ => .inr (.inl rfl), fun _ => hle⟩
      | exhausted hcapped' hseize' hrepay' =>
          refine ⟨hseize' ▸ hfits, Nat.zero_le _, ?_⟩
          simp only [hcapped', Amount.le_def, hrepay', Bool.false_eq_true, Bool.true_eq_false,
            false_or]
  | exhausted hcapped hseize hrepay hshortfall hlacks =>
      cases h' with
      | covered _ _ _ hseize' hfits' =>
          -- What the smaller offer buys is more than the deposit already.
          rw [Amount.le_def, hseize'] at hfits'
          omega
      | exhausted _ hseize' hrepay' hshortfall' =>
          have hsame : q.repay = q'.repay := Amount.ext (hrepay.trans hrepay'.symm)
          rw [Amount.le_def] at hle
          rw [hseize, hseize', hsame, Amount.le_def (a := q.shortfall)]
          exact ⟨Nat.le_refl _, by omega, fun _ => .inl hcapped, fun _ => Nat.le_refl _⟩

/-- A larger offer can repay less by two units at most, and what one base unit is worth. -/
theorem due_lt (h : rate.Sized deposit offer q) (h' : rate.Sized deposit offer' q')
    (hle : offer ≤ offer') :
    rate.due q.repay.val < rate.due (q'.repay.val + 2) + rate.worth 1 := by
  obtain ⟨hseize, -, hrepay⟩ := h.mono h' hle
  by_cases hgrows : q.repay ≤ q'.repay
  · have hnext : q.repay.val < q'.repay.val + 2 := Nat.lt_add_right 1 (Nat.lt_succ_of_le hgrows)
    exact Nat.lt_add_right _ (due_lt_due hnext)
  · obtain ⟨huncapped, hmore⟩ := not_or.mp (hrepay.not.mp hgrows)
    obtain ⟨hcapped, -⟩ := not_or.mp hmore
    calc rate.due q.repay.val
        < rate.worth (q.seize.val + 1) := (h.fair.1 (eq_false_of_ne_true huncapped)).2
      _ = rate.worth q.seize.val + rate.worth 1 := worth_add _ _
      _ ≤ rate.worth q'.seize.val + rate.worth 1 := Nat.add_le_add_right (worth_mono hseize) _
      _ < rate.due (q'.repay.val + 2) + rate.worth 1 :=
        Nat.add_lt_add_right (h'.fair.2 (eq_true_of_ne_false hcapped)).2 _

end Sized

/-- The rate of a token: its penalty in the vault, its price in the oracle, and the decimals about
which the bank and the oracle agree. -/
structure Applies (rate : Rate) (v : Vault) (o : Oracle) (b : Bank) (token : Address) : Prop where
  config : ∃ config, v.configs.get? token = some config ∧ config.params.penalty = rate.penalty
  entry : o.prices.get? token = some ⟨rate.price, rate.decimals⟩
  decimals : b.decimalsOf token = .ok rate.decimals

end Rate

/-- The bank and the oracle agree about the decimals of a token. -/
def SameDecimals (o : Oracle) (b : Bank) (token : Address) : Prop :=
  ∀ entry decimals, o.prices.get? token = some entry → b.decimalsOf token = .ok decimals →
    entry.decimals = decimals

namespace Rate.Applies

variable {rate : Rate} {v : Vault} {o : Oracle} {b : Bank} {borrower token : Address}
  {offer amount answer : Amount} {mode : ReadMode} {q : Quote}

theorem sameDecimals (h : rate.Applies v o b token) : SameDecimals o b token := by
  intro entry decimals hentry hdecimals
  rw [h.entry, Option.some.injEq] at hentry
  rw [h.decimals, Except.ok.injEq] at hdecimals
  rw [← hentry, ← hdecimals]

theorem price_eq (h : rate.Applies v o b token) (hprice : o.price mode token = .ok answer) :
    answer = rate.price := by
  obtain ⟨entry, hentry, rfl⟩ := Oracle.price_ok hprice
  have hget := Oracle.get?_of_entry hentry
  rw [h.entry, Option.some.injEq] at hget
  rw [← hget]

theorem value_eq (h : rate.Applies v o b token) (hvalue : o.value mode token amount = .ok answer) :
    answer.val = rate.value amount.val := by
  obtain ⟨entry, hentry, hval⟩ := Oracle.value_ok hvalue
  have hget := Oracle.get?_of_entry hentry
  rw [h.entry, Option.some.injEq] at hget
  rw [hval, ← hget]
  rfl

/-- **Quotes are sized at the rate.**  The repayment that a deposit justifies is never cut down to
the offer once more, because it is less than the offer. -/
theorem sized (h : rate.Applies v o b token)
    (hquote : Engine.quote v o b borrower token offer = .ok q) :
    rate.Sized (v.depositOf borrower token) offer q := by
  obtain ⟨config, decimals, price, wanted, hadded, hdecimals, hprice, hwanted, hcases⟩ :=
    Engine.quote_cases hquote
  have hpenalty : config.params.penalty = rate.penalty := by
    obtain ⟨found, hfound, hsame⟩ := h.config
    rw [Vault.get?_of_added hadded, Option.some.injEq] at hfound
    rw [hfound, hsame]
  have hunits : decimals = rate.decimals := Except.ok.inj (hdecimals.symm.trans h.decimals)
  have hbuys : wanted.val = rate.buys offer.val := by
    rw [(Amount.collateralFor_ok hwanted).2, hpenalty, h.price_eq hprice, hunits]
    rfl
  rcases hcases with ⟨hfits, rfl⟩ | ⟨hlack, value, justified, hvalue, hjustified, rfl⟩
  · exact .covered rfl rfl rfl hbuys hfits
  · have hlacks : (v.depositOf borrower token).val < rate.buys offer.val := hbuys ▸ hlack
    have hjustifies : justified.val = rate.justifies (v.depositOf borrower token).val := by
      rw [Amount.repaymentFor_ok hjustified, h.value_eq hvalue, hpenalty]
      rfl
    have hless : justified.val < offer.val := by
      rw [hjustifies]
      exact justifies_lt hlacks
    have hrepay : (min justified offer).val = justified.val := by
      rw [Amount.val_min]
      omega
    refine .exhausted rfl rfl (hrepay.trans hjustifies) ?_ hlacks
    rw [Amount.val_sub, hrepay]
    omega

end Rate.Applies

namespace Engine

variable {v : Vault} {o : Oracle} {b : Bank} {borrower token : Address} {offer offer' : Amount}
  {q q' : Quote} {rate : Rate}

/-- Every answered quote is made at some rate. -/
theorem exists_rate (hsame : SameDecimals o b token)
    (h : quote v o b borrower token offer = .ok q) : ∃ rate : Rate, rate.Applies v o b token := by
  obtain ⟨config, decimals, price, wanted, hadded, hdecimals, hprice, hwanted, -⟩ :=
    quote_cases h
  obtain ⟨entry, hentry, rfl⟩ := Oracle.price_ok hprice
  have hget := Oracle.get?_of_entry hentry
  obtain rfl := hsame entry decimals hget hdecimals
  have hpositive := Amount.pos_of_ne_zero (Amount.collateralFor_ok hwanted).1
  exact ⟨⟨entry.price, config.params.penalty, entry.decimals, hpositive⟩,
    ⟨config, Vault.get?_of_added hadded, rfl⟩, hget, hdecimals⟩

end Engine

/-! ### A deposit that is not divisible -/

namespace Sample

/-- A token without decimals. -/
def deed : Address := .filled 11

/-- Alice has a deed and a unit of a divisible token, each for two thousand dollars, and owes ten
thousand.  A liquidator has the means to repay that. -/
def titled : Protocol := start.run
  [.happening (.registerToken debtToken 18),
    .happening (.registerToken deed 0),
    .happening (.registerToken wbtc 18),
    .happening (.setPrice deed price 0),
    .happening (.setPrice wbtc price 18),
    .happening (.mint debtToken liquidator .largest),
    .happening (.approve debtToken liquidator engineAccount .largest),
    .happening (.mint deed alice ⟨1, by decide⟩),
    .happening (.approve deed alice vaultAccount ⟨1, by decide⟩),
    .happening (.mint wbtc alice unit),
    .happening (.approve wbtc alice vaultAccount unit),
    .happening (.setDebt alice loan)]

/-- Both tokens are listed and deposited. -/
def pawning : List Episode :=
  [.submitted admin (.grantVaultRole .governance admin),
    .submitted admin (.grantVaultRole .liquidation engineAccount),
    .submitted admin (.addCollateral deed ⟨7500, 8000, 500⟩),
    .submitted admin (.addCollateral wbtc ⟨7500, 8000, 500⟩),
    .submitted alice (.deposit deed ⟨1, by decide⟩),
    .submitted alice (.deposit wbtc unit)]

/-- Alice's position once both are deposited. -/
def pawned : Protocol := titled.through pawning

/-- What a deed is sold at. -/
def deedRate : Rate := ⟨price, 500, 0, by decide⟩

theorem deedRate_applies : deedRate.Applies pawned.vault pawned.oracle pawned.bank deed where
  config := ⟨.listed ⟨7500, 8000, 500⟩, by decide +kernel, rfl⟩
  entry := by decide +kernel
  decimals := Check.eq_ok_of_toOption (by decide +kernel)

/-- What the divisible token is sold at. -/
def wbtcRate : Rate := ⟨price, 500, 18, by decide⟩

theorem wbtcRate_applies : wbtcRate.Applies pawned.vault pawned.oracle pawned.bank wbtc where
  config := ⟨.listed ⟨7500, 8000, 500⟩, by decide +kernel, rfl⟩
  entry := by decide +kernel
  decimals := Check.eq_ok_of_toOption (by decide +kernel)

/-- Three thousand dollars, which buy one deed and a half. -/
def bid : Amount := ⟨3000 * debtUnit.val, by decide⟩

/-- Four thousand dollars, which buy two deeds. -/
def higherBid : Amount := ⟨4000 * debtUnit.val, by decide⟩

/-- The lower bid is repaid whole, for the one deed that there is. -/
def bidQuote : Quote := ⟨bid, ⟨1, by decide⟩, 0, false⟩

/-- Of the higher bid only what a deed justifies is repaid. -/
def higherBidQuote : Quote :=
  ⟨⟨40000 * debtUnit.val / 21, by decide⟩, ⟨1, by decide⟩,
    ⟨2095238095238095238096, by decide⟩, true⟩

theorem quote_bid : pawned.quote alice deed bid = .ok bidQuote :=
  Check.eq_ok_of_toOption (by decide +kernel)

theorem quote_higherBid : pawned.quote alice deed higherBid = .ok higherBidQuote :=
  Check.eq_ok_of_toOption (by decide +kernel)

end Sample

/-! ### What a quote is worth -/

namespace Engine

open Custody.Sample

variable {v : Vault} {o : Oracle} {b : Bank} {borrower token : Address} {offer offer' : Amount}
  {q q' : Quote} {rate : Rate}

/-- **Seizures are fair to within rounding.**  If the deposit covers the offer, the seizure is worth
what the repayment is due, less than one base unit short.  If it does not, the repayment is due
what the deposit is worth, less than two units short. -/
theorem seizure_fair (hrate : rate.Applies v o b token)
    (h : quote v o b borrower token offer = .ok q) :
    (q.capped = false →
      q.seize.val * rate.price.val * 10000 ≤
          q.repay.val * (10000 + rate.penalty.toNat) * Nat.pow 10 rate.decimals.toNat ∧
        q.repay.val * (10000 + rate.penalty.toNat) * Nat.pow 10 rate.decimals.toNat <
          (q.seize.val + 1) * rate.price.val * 10000) ∧
    (q.capped = true →
      q.repay.val * (10000 + rate.penalty.toNat) * Nat.pow 10 rate.decimals.toNat ≤
          q.seize.val * rate.price.val * 10000 ∧
        q.seize.val * rate.price.val * 10000 <
          (q.repay.val + 2) * (10000 + rate.penalty.toNat) * Nat.pow 10 rate.decimals.toNat) :=
  (hrate.sized h).fair

/-- A deed is seized for a bid of three thousand dollars, which is due a deed and a half, and for
the repayment that it justifies. -/
theorem seizure_fair_deed :
    deedRate.Applies pawned.vault pawned.oracle pawned.bank deed ∧
      pawned.quote alice deed bid = .ok bidQuote ∧
      pawned.quote alice deed higherBid = .ok higherBidQuote ∧
      bidQuote.repay.val * 10500 * Nat.pow 10 0 < (bidQuote.seize.val + 1) * price.val * 10000 ∧
      higherBidQuote.seize.val * price.val * 10000 <
        (higherBidQuote.repay.val + 2) * 10500 * Nat.pow 10 0 := by
  obtain ⟨hcovered, -⟩ := seizure_fair deedRate_applies quote_bid
  obtain ⟨-, hexhausted⟩ := seizure_fair deedRate_applies quote_higherBid
  exact ⟨deedRate_applies, quote_bid, quote_higherBid, (hcovered rfl).2, (hexhausted rfl).2⟩

/-- **The parts of a quote are consistent.**  They make up the offer, and no more is seized than was
deposited.  A quote is capped exactly if it leaves a shortfall; then it seizes the whole deposit and
repays all that the deposit's value justifies. -/
theorem quote_consistent (hsame : SameDecimals o b token)
    (h : quote v o b borrower token offer = .ok q) :
    q.repay.val + q.shortfall.val = offer.val ∧
      q.seize ≤ v.depositOf borrower token ∧
      (q.capped = true ↔ 0 < q.shortfall) ∧
      (q.capped = true → q.seize = v.depositOf borrower token ∧
        ∃ config value, v.added? token = some config ∧
          o.value .bypassing token (v.depositOf borrower token) = .ok value ∧
          value.repaymentFor config.params.penalty = .ok q.repay) := by
  obtain ⟨rate, hrate⟩ := exists_rate hsame h
  have hcapped := (hrate.sized h).capped_iff
  exact ⟨quote_ok h, quote_seize_le h, hcapped, fun hc => quote_short h (hcapped.mp hc)⟩

theorem quote_consistent_deed :
    SameDecimals pawned.oracle pawned.bank deed ∧
      pawned.quote alice deed higherBid = .ok higherBidQuote ∧
      higherBidQuote.repay.val + higherBidQuote.shortfall.val = higherBid.val ∧
      higherBidQuote.seize = pawned.vault.depositOf alice deed ∧
        0 < higherBidQuote.shortfall := by
  have hsame := deedRate_applies.sameDecimals
  obtain ⟨hsplit, -, hcapped, hwhole⟩ := quote_consistent hsame quote_higherBid
  exact ⟨hsame, quote_higherBid, hsplit, (hwhole rfl).1, hcapped.mp rfl⟩

/-- **What grows with the offer.**  A larger offer never seizes less and never leaves less of a
shortfall.  It repays no less either, unless it is past the limit of the deposit while the smaller
one is below it and more than the deposit justifies; what is lost then is due less than two units
of the repayment and one base unit. -/
theorem quote_grows_with_offer (hsame : SameDecimals o b token) (hle : offer ≤ offer')
    (h : quote v o b borrower token offer = .ok q)
    (h' : quote v o b borrower token offer' = .ok q') :
    q.seize ≤ q'.seize ∧ q.shortfall ≤ q'.shortfall ∧
      ∃ rate : Rate, rate.Applies v o b token ∧
        (q.repay ≤ q'.repay ↔ q.capped = true ∨ q'.capped = false ∨
          offer.val ≤ rate.justifies (v.depositOf borrower token).val) ∧
        rate.due q.repay.val < rate.due (q'.repay.val + 2) + rate.worth 1 := by
  obtain ⟨rate, hrate⟩ := exists_rate hsame h
  have hsized := hrate.sized h
  have hsized' := hrate.sized h'
  obtain ⟨hseize, hshortfall, hrepay⟩ := hsized.mono hsized' hle
  exact ⟨hseize, hshortfall, rate, hrate, hrepay, hsized.due_lt hsized' hle⟩

theorem quote_grows_with_offer_deed :
    SameDecimals pawned.oracle pawned.bank deed ∧ bid ≤ higherBid ∧
      pawned.quote alice deed bid = .ok bidQuote ∧
      pawned.quote alice deed higherBid = .ok higherBidQuote ∧
      bidQuote.seize ≤ higherBidQuote.seize ∧
      bidQuote.shortfall ≤ higherBidQuote.shortfall ∧
      ∃ rate : Rate, rate.Applies pawned.vault pawned.oracle pawned.bank deed ∧
        rate.due bidQuote.repay.val < rate.due (higherBidQuote.repay.val + 2) + rate.worth 1 := by
  have hsame := deedRate_applies.sameDecimals
  have hle : bid ≤ higherBid := by decide
  obtain ⟨hseize, hshortfall, rate, hrate, -, hlost⟩ :=
    quote_grows_with_offer hsame hle quote_bid quote_higherBid
  exact ⟨hsame, hle, quote_bid, quote_higherBid, hseize, hshortfall, rate, hrate, hlost⟩

/-- Whoever offers four thousand dollars for alice's deed repays less than with an offer of three
thousand. -/
theorem higher_bid_repays_less :
    Vault.start vaultAccount admin borrowModule = .ok titled.vault ∧
      pawned = titled.through pawning ∧
      SameDecimals pawned.oracle pawned.bank deed ∧ bid ≤ higherBid ∧
      quote pawned.vault pawned.oracle pawned.bank alice deed bid = .ok bidQuote ∧
      quote pawned.vault pawned.oracle pawned.bank alice deed higherBid = .ok higherBidQuote ∧
      ¬ (bidQuote.repay ≤ higherBidQuote.repay ∧ bidQuote.seize ≤ higherBidQuote.seize ∧
        bidQuote.shortfall ≤ higherBidQuote.shortfall) :=
  ⟨rfl, rfl, deedRate_applies.sameDecimals, by decide, quote_bid, quote_higherBid, by decide⟩

end Engine

end Custody
