/-
When a healthy position is large enough to be liquidated.

Health weights a deposit by the token's threshold, and a liquidation seizes the repayment
with the token's penalty on top.  A position at parity has a deposit worth the debt over the
threshold.  Repaying the whole debt asks for the debt times one plus the penalty.  So the
deposit is enough if the threshold times one plus the penalty is at most one.

The parameters are validated one by one, and each bound by itself says nothing about this
product.  With the largest threshold and the largest penalty it is 1.14, so there are healthy
positions that a full repayment exhausts.  Rounding is on the safe side throughout: values are
rounded down before they count toward health, and so is the seizure.
-/
import Mathlib.Tactic.Ring
import Custody.Proofs.Health
import Custody.Proofs.Registry

namespace Custody

/-! ### One deposit -/

namespace Health

variable {l : Ledger} {o : Oracle} {mode : ReadMode} {view : CollateralView}
  {user token : Address}

/-- The weighted value of a user with one deposit is at most what that token adds. -/
theorem totalWeight_le_weight (o : Oracle) (hnodup : view.tokens.Nodup)
    (hsole : ∀ t, t ≠ token → view.deposit user t = 0) :
    totalWeight o view user ≤ weight o view user token := by
  have hothers : ∀ t, t ≠ token → t ∈ view.tokens → weight o view user t = 0 :=
    fun t ht _ => weight_of_not_counts fun hcounts => hcounts.1 (hsole t ht)
  have hcount : view.tokens.count token ≤ 1 := List.nodup_iff_count_le_one.mp hnodup token
  calc totalWeight o view user
      = view.tokens.count token • weight o view user token :=
        List.sum_map_eq_nsmul_single token _ hothers
    _ ≤ 1 * weight o view user token := Nat.mul_le_mul_right _ hcount
    _ = weight o view user token := Nat.one_mul _

/-- A factor at parity or above means that the weighted value covers the debt. -/
theorem debt_le_of_parity {f : UInt64} (hdebt : l.debt user ≠ 0)
    (h : factor l o mode view user = .ok f) (hparity : parityBps ≤ f) :
    (l.debt user).val ≤ totalWeight o view user := by
  obtain ⟨-, -, -, hfactor⟩ := (factor_eq_ok hdebt).mp h
  have hcovered : 10000 ≤ ratio l o view user := by
    rw [UInt64.le_iff_toNat_le, hfactor] at hparity
    exact Nat.le_trans hparity (Nat.min_le_left _ _)
  rw [ratio, Nat.le_div_iff_mul_le (Amount.pos_of_ne_zero hdebt)] at hcovered
  omega

end Health

/-! ### Coverage -/

/-- The threshold times one plus the penalty is at most one. -/
def CollateralParams.Covering (params : CollateralParams) : Prop :=
  params.threshold.toNat * (10000 + params.penalty.toNat) ≤ 10000 * 10000

instance (params : CollateralParams) : Decidable params.Covering :=
  inferInstanceAs (Decidable (_ ≤ _))

/-- What a repayment asks for is in the deposit, if the threshold's share of the deposit's value
covers the repayment. -/
theorem seizure_fits {repay value threshold penalty unit deposit price : Nat}
    (hcovered : repay * 10000 ≤ value * threshold) (hvalue : value * unit ≤ deposit * price)
    (hcovering : threshold * (10000 + penalty) ≤ 10000 * 10000) :
    repay * (10000 + penalty) * unit ≤ 10000 * price * deposit := by
  have hscaled : 10000 * (repay * (10000 + penalty) * unit) ≤
      10000 * (10000 * price * deposit) := by
    calc 10000 * (repay * (10000 + penalty) * unit)
        = repay * 10000 * ((10000 + penalty) * unit) := by ring
      _ ≤ value * threshold * ((10000 + penalty) * unit) := Nat.mul_le_mul_right _ hcovered
      _ = threshold * (10000 + penalty) * (value * unit) := by ring
      _ ≤ 10000 * 10000 * (deposit * price) := Nat.mul_le_mul hcovering hvalue
      _ = 10000 * (10000 * price * deposit) := by ring
  exact Nat.le_of_mul_le_mul_left hscaled (by decide)

namespace Protocol

variable {params : CollateralParams} {borrower token : Address} {repay : Amount}
  {factor : UInt64} {quote : Quote} {p : Protocol}

/-- A borrower has deposits in one token only, which is listed with these parameters, and the
bank and the oracle agree about its decimals. -/
structure SoleDeposit (params : CollateralParams) (borrower token : Address) (p : Protocol) :
    Prop where
  config : ∃ config, p.vault.configs.get? token = some config ∧ config.params = params
  sole : ∀ t, t ≠ token → p.vault.depositOf borrower t = 0
  agreed : ∀ entry decimals, p.oracle.prices.get? token = some entry →
    p.bank.decimalsOf token = .ok decimals → entry.decimals = decimals

/-- What health counts of a sole deposit: the debt is at most the threshold's share of its
worth. -/
theorem SoleDeposit.debt_le (h : SoleDeposit params borrower token p)
    (hnodup : p.vault.listed.Nodup) (hdebt : p.ledger.debt borrower ≠ 0)
    (hhealth : p.health borrower = .ok factor) (hparity : parityBps ≤ factor) :
    (p.ledger.debt borrower).val * 10000 ≤
      p.oracle.worth token (p.vault.depositOf borrower token) * params.threshold.toNat := by
  obtain ⟨config, hconfig, rfl⟩ := h.config
  have hconfig : p.vault.view.config token = some config := hconfig
  have hle := Nat.le_trans (Health.debt_le_of_parity hdebt hhealth hparity)
    (Health.totalWeight_le_weight p.oracle hnodup h.sole)
  unfold Health.weight at hle
  rw [hconfig] at hle
  calc (p.ledger.debt borrower).val * 10000
      ≤ p.oracle.worth token (p.vault.depositOf borrower token) *
          config.params.threshold.toNat / 10000 * 10000 := Nat.mul_le_mul_right _ hle
    _ ≤ p.oracle.worth token (p.vault.depositOf borrower token) *
          config.params.threshold.toNat := Nat.div_mul_le_self _ _

/-- With covering parameters the deposit of a healthy borrower is enough for any repayment. -/
theorem SoleDeposit.covered (h : SoleDeposit params borrower token p)
    (hnodup : p.vault.listed.Nodup) (hcovering : params.Covering)
    (hrepay : repay ≤ p.ledger.debt borrower) (hhealth : p.health borrower = .ok factor)
    (hparity : parityBps ≤ factor) (hquote : p.quote borrower token repay = .ok quote) :
    quote.capped = false ∧ quote.shortfall = 0 := by
  obtain ⟨config, decimals, price, wanted, hadded, hdecimals, hprice, hwanted, hcases⟩ :=
    Engine.quote_cases hquote
  rcases hcases with ⟨-, rfl⟩ | ⟨hlack, -⟩
  · exact ⟨rfl, rfl⟩
  refine absurd hlack (Nat.not_lt.mpr ?_)
  obtain ⟨-, hwanted⟩ := Amount.collateralFor_ok hwanted
  by_cases hdebt : p.ledger.debt borrower = 0
  · -- Nothing is owed, so nothing is repaid and nothing asked for.
    rw [hdebt, Amount.le_def, Amount.val_zero, Nat.le_zero] at hrepay
    rw [hwanted, hrepay, Nat.zero_mul, Nat.zero_mul, Nat.zero_div]
    exact Nat.zero_le _
  · have hcovered := h.debt_le hnodup hdebt hhealth hparity
    obtain ⟨found, hfound, hparams⟩ := h.config
    have hpenalty : config.params.penalty = params.penalty := by
      have hget := Vault.get?_of_added hadded
      rw [hfound] at hget
      obtain rfl := Option.some.inj hget
      rw [hparams]
    obtain ⟨entry, hentry, rfl⟩ := Oracle.price_ok hprice
    have hget := Oracle.get?_of_entry hentry
    have hagreed := h.agreed entry decimals hget hdecimals
    rw [Oracle.worth_of_get? hget] at hcovered
    rw [hwanted, hpenalty, ← hagreed]
    refine Nat.div_le_of_le_mul (seizure_fits ?_ (Nat.div_mul_le_self _ _) hcovering)
    exact Nat.le_trans (Nat.mul_le_mul_right _ hrepay) hcovered

/-- No borrower in good health is exhausted by these parameters: in every history of a vault, a
borrower whose only deposit is in a token with these parameters and who is not below parity has
enough there for any repayment of the debt. -/
def CoversHealthy (params : CollateralParams) : Prop :=
  ∀ (p : Protocol) (address admin borrowModule : Address) (episodes : List Episode)
    (borrower token : Address) (repay : Amount) (factor : UInt64) (quote : Quote),
    Vault.start address admin borrowModule = .ok p.vault →
    SoleDeposit params borrower token (p.through episodes) →
    repay ≤ (p.through episodes).ledger.debt borrower →
    (p.through episodes).health borrower = .ok factor → parityBps ≤ factor →
    (p.through episodes).quote borrower token repay = .ok quote →
    quote.capped = false ∧ quote.shortfall = 0

/-- A vault with a history lists no token twice, and that is all that is asked of it. -/
theorem coversHealthy_of_covering (h : params.Covering) : CoversHealthy params := by
  intro p address admin borrowModule episodes borrower token repay factor quote hstart hsole hrepay
    hhealth hparity hquote
  exact hsole.covered (through_registered hstart episodes).nodup h hrepay hhealth hparity hquote

/-! ### A position at parity

Alice deposits one unit of a token and the token gets the parameters in question.  Then she
owes exactly what the threshold counts of her unit, and all of it is to be repaid.
-/

/-- Alice has one unit of a token, which costs two thousand dollars and moves without a fee. -/
def endowed : Protocol := Sample.start.run
  [.happening (.registerToken Sample.weth 18),
    .happening (.setPrice Sample.weth Sample.price 18),
    .happening (.mint Sample.weth Sample.alice Sample.unit),
    .happening (.approve Sample.weth Sample.alice Sample.vaultAccount Sample.unit)]

/-- Governance lists the token, and alice deposits her unit. -/
def pledging (params : CollateralParams) : List Episode :=
  [.submitted Sample.admin (.grantVaultRole .governance Sample.admin),
    .submitted Sample.admin (.grantVaultRole .vaultAdmin Sample.admin),
    .submitted Sample.admin (.addCollateral Sample.weth params),
    .submitted Sample.alice (.deposit Sample.weth Sample.unit)]

/-- Around the vault everything is as in the beginning, but alice has a debt. -/
def owing (debt : Amount) : Episode :=
  .around endowed.engine { Ledger.empty with debts := Table.empty.insert Sample.alice debt }
    endowed.oracle endowed.bank 0

/-- A vault with one token and one deposit. -/
structure Pledged (params : CollateralParams) (v : Vault) : Prop where
  listed : v.listed = [Sample.weth]
  config : v.configs.get? Sample.weth = some (.listed params)
  deposits : v.deposits = Book.put .empty Sample.alice Sample.weth Sample.unit

theorem debt_owing (p : Protocol) (debt : Amount) :
    (p.next (owing debt)).ledger.debt Sample.alice = debt := by
  simp only [next, owing, Ledger.debt, Tally.amount, Table.get?_insert, if_true, Option.getD_some]

private theorem value_unit :
    endowed.oracle.value .bypassing Sample.weth Sample.unit = .ok Sample.price :=
  Check.eq_ok_of_toOption (by decide +kernel)

private theorem decimalsOf_endowed : endowed.bank.decimalsOf Sample.weth = .ok 18 :=
  Check.eq_ok_of_toOption (by decide +kernel)

namespace Pledged

variable (h : Pledged params p.vault)

include h

theorem deposit : p.vault.depositOf Sample.alice Sample.weth = Sample.unit := by
  simp only [Vault.depositOf, h.deposits, Book.amount_put, and_self, if_true]

theorem sole (debt : Amount) :
    SoleDeposit params Sample.alice Sample.weth (p.next (owing debt)) where
  config := ⟨_, h.config, rfl⟩
  sole := fun t ht => by
    show Book.amount p.vault.deposits Sample.alice t = 0
    rw [h.deposits, Book.amount_put, if_neg fun hthis => ht hthis.2]
    rfl
  agreed := fun entry decimals hentry hdecimals => by
    have hread : endowed.oracle.prices.get? Sample.weth = some ⟨Sample.price, 18⟩ := by
      decide +kernel
    obtain rfl := Option.some.inj (hread.symm.trans hentry)
    exact Except.ok.inj (decimalsOf_endowed.symm.trans hdecimals)

omit h in
/-- What the threshold counts of alice's unit. -/
def parityDebt (threshold : UInt64) (h : threshold.toNat ≤ 9500) : Amount :=
  ⟨200000000000000000 * threshold.toNat, by
    simp only [Amount.size]
    omega⟩

variable (hbound : params.threshold.toNat ≤ 9500)

/-- It is what her unit adds to the weighted value. -/
private theorem weight : Health.weight endowed.oracle p.vault.view Sample.alice Sample.weth =
    (parityDebt params.threshold hbound).val := by
  have hunit : p.vault.view.deposit Sample.alice Sample.weth = Sample.unit := h.deposit
  have hconfig : p.vault.view.config Sample.weth = some (.listed params) := h.config
  obtain ⟨-, -, hworth⟩ := Oracle.value_eq_ok.mp value_unit
  unfold Health.weight
  rw [hconfig, hunit, ← hworth]
  simp only [parityDebt, Sample.price, debtUnit, CollateralConfig.listed]
  omega

/-- And nothing else adds to it. -/
private theorem totalWeight : Health.totalWeight endowed.oracle p.vault.view Sample.alice =
    (parityDebt params.threshold hbound).val := by
  have hlisted : p.vault.view.tokens = [Sample.weth] := h.listed
  unfold Health.totalWeight
  rw [hlisted, List.map_singleton, List.sum_singleton, h.weight hbound]

include hbound in
private theorem readable :
    Health.Readable endowed.oracle p.vault.view Sample.alice Sample.weth := by
  have hunit : p.vault.view.deposit Sample.alice Sample.weth = Sample.unit := h.deposit
  obtain ⟨-, hpriced, hworth⟩ := Oracle.value_eq_ok.mp value_unit
  refine ⟨hpriced, ?_, ?_⟩
  · rw [hunit, ← hworth]
    exact Sample.price.isLt
  · rw [h.weight hbound]
    exact (parityDebt params.threshold hbound).isLt

/-- With this debt alice is at parity. -/
theorem health (hpositive : 0 < params.threshold.toNat) :
    (p.next (owing (parityDebt params.threshold hbound))).health Sample.alice =
      .ok parityBps := by
  have hread := debt_owing p (parityDebt params.threshold hbound)
  have hpositive : 0 < (parityDebt params.threshold hbound).val := by
    simp only [parityDebt]
    omega
  have hdebt : (p.next (owing (parityDebt params.threshold hbound))).ledger.debt Sample.alice ≠
      0 := by
    rw [hread, Ne, Amount.eq_zero_iff]
    exact Nat.ne_of_gt hpositive
  have hratio : Health.ratio (p.next (owing (parityDebt params.threshold hbound))).ledger
      endowed.oracle p.vault.view Sample.alice = 10000 := by
    unfold Health.ratio
    rw [hread, h.totalWeight hbound, Nat.mul_div_cancel_left _ hpositive]
  show Health.factor _ endowed.oracle .bypassing p.vault.view Sample.alice = _
  refine (Health.factor_eq_ok hdebt).mpr ⟨fun token hmem => ?_, ?_, ?_, ?_⟩
  · -- No other token is listed.
    have hlisted : token ∈ p.vault.listed := (Health.mem_counted.mp hmem).1
    rw [h.listed, List.mem_singleton] at hlisted
    rw [hlisted]
    exact ⟨endowed.oracle.passes_bypassing Sample.weth, h.readable hbound⟩
  · rw [h.totalWeight hbound]
    exact (parityDebt params.threshold hbound).isLt
  · rw [hratio]
    decide
  · rw [hratio]
    rfl

omit h in
/-- What repaying this debt asks for: the share of a unit that the threshold and the penalty
make together. -/
private theorem collateralFor_parityDebt (hpenalty : params.penalty.toNat ≤ 2000) :
    ∃ wanted, (parityDebt params.threshold hbound).collateralFor params.penalty Sample.price 18 =
        .ok wanted ∧
      wanted.val = params.threshold.toNat * (10000 + params.penalty.toNat) * 10000000000 := by
  have hproduct : params.threshold.toNat * (10000 + params.penalty.toNat) ≤ 9500 * 12000 :=
    Nat.mul_le_mul hbound (by omega)
  obtain ⟨wanted, hwanted⟩ : ∃ wanted : Amount,
      wanted.val = params.threshold.toNat * (10000 + params.penalty.toNat) * 10000000000 :=
    ⟨⟨_, by simp only [Amount.size]; omega⟩, rfl⟩
  have hnumerator : (parityDebt params.threshold hbound).val *
      (Amount.withPenalty params.penalty).val * Sample.unit.val =
        wanted.val * 20000000000000000000000000 := by
    rw [hwanted]
    show 200000000000000000 * params.threshold.toNat * (10000 + params.penalty.toNat) *
      1000000000000000000 = _
    ring
  refine ⟨wanted, ?_, hwanted⟩
  simp only [Amount.collateralFor, Check.bind_eq_ok, Amount.narrow_eq_ok, Amount.powTen_eq_ok,
    Amount.mulMulDiv_eq_ok]
  refine ⟨⟨20000000000000000000000000, by decide⟩, rfl, Sample.unit, rfl, by decide, ?_, ?_⟩
  · rw [hnumerator, hwanted]
    simp only [Amount.size]
    omega
  · rw [hnumerator, Nat.mul_div_cancel _ (by decide)]

/-- If the parameters are not covering, repaying this debt asks for more than the unit. -/
theorem capped (hvalid : params.validate = .ok ()) (hsteep : ¬ params.Covering) :
    ∃ quote, (p.next (owing (parityDebt params.threshold hbound))).quote Sample.alice Sample.weth
      (parityDebt params.threshold hbound) = .ok quote ∧ quote.capped = true := by
  obtain ⟨⟨hfactor, -, -⟩, -, hpenalty⟩ := CollateralParams.bounds_of_validate hvalid
  have hpenalty : params.penalty.toNat ≤ 2000 := UInt64.le_iff_toNat_le.mp hpenalty
  have hadded : p.vault.added? Sample.weth = some (.listed params) := by
    have hpositive : (CollateralConfig.listed params).isAdded = true := decide_eq_true hfactor
    simp [Vault.added?, h.config, hpositive]
  obtain ⟨wanted, hasked, hwanted⟩ := collateralFor_parityDebt hbound hpenalty
  have hlack : p.vault.depositOf Sample.alice Sample.weth < wanted := by
    rw [h.deposit, Amount.lt_def, hwanted]
    have hunit : Sample.unit.val = 10000 * 10000 * 10000000000 := rfl
    unfold CollateralParams.Covering at hsteep
    omega
  obtain ⟨justified, hjustified⟩ := Sample.price.exists_repaymentFor params.penalty
  have hprice : endowed.oracle.price .bypassing Sample.weth = .ok Sample.price :=
    Check.eq_ok_of_toOption (by decide +kernel)
  have hvalue : endowed.oracle.value .bypassing Sample.weth
      (p.vault.depositOf Sample.alice Sample.weth) = .ok Sample.price := by
    rw [h.deposit]
    exact value_unit
  exact ⟨_, Engine.quote_of_lacking hadded decimalsOf_endowed hprice (by decide) hasked hlack
    hvalue hjustified, rfl⟩

end Pledged

/-! ### Any parameters can be set -/

section

open Custody.Action

variable {config : CollateralConfig} {ctx : Context} (hfree : p.vault.guard.entered = false)
  (hrole : p.vault.access.holds .vaultAdmin ctx.caller = true)
  (hadded : p.vault.added? token = some config)

include hfree hrole hadded

/-- Valid parameters can be requested. -/
theorem next_requestUpdate (hvalid : params.validate = .ok ()) :
    p.next (.direct ctx (.requestUpdate token params)) = { p with
      vault := (p.vault.propose (.updateCollateral token) ⟨params, ctx.now⟩).closing ctx.now
        (.adminChangeRequested (.updateCollateral token) ctx.now
          (Timestamp.after ctx.now changeDelay)) } := by
  have hvet : p.vault.checkUpdate token params = .ok () := by
    simp only [Vault.checkUpdate, Vault.requireAdded, hadded]
    exact hvalid
  refine left_of_ok (a := .done) ?_
  simp only [perform, administer, vaultCall, onVault, Vault.requestUpdate, Vault.onUpdates,
    Vault.tellRequested, Vault.tell, Timelock.Queue.propose, Guard.hold_eq_ok, get_bind,
    bind_eq_ok, check_eq_ok, on_eq_ok, modify_eq_ok, pure_eq_ok, Access.ensure_eq_ok]
  exact ⟨(), _, ⟨hfree, _,
    ⟨_, ⟨(), _, ⟨hrole, rfl⟩, (), _, ⟨hvet, rfl⟩, (), _, ⟨_, rfl, rfl⟩,
    rfl⟩, rfl⟩, rfl⟩, trivial, rfl⟩

/-- What was requested can be executed after the delay. -/
theorem next_executeUpdate {c : PendingChange CollateralParams}
    (hwaits : p.vault.pending (.updateCollateral token) = some c)
    (hready : c.readyAt changeDelay ≤ ctx.now) (hvalid : c.value.validate = .ok ()) :
    p.next (.direct ctx (.executeUpdate token)) = { p with
      vault := ({ p.vault with
        configs := p.vault.configs.insert token { config with params := c.value } }.unpropose
          (.updateCollateral token)).closing ctx.now
            (.collateralConfigured token c.value false) } := by
  have hwaits : p.vault.pendingUpdates.get? token = some c := hwaits
  refine left_of_ok (a := .done) ?_
  simp only [perform, administer, vaultCall, onVault, Vault.executeUpdate, Vault.onUpdates,
    Vault.tell, Timelock.Queue.ready, Timelock.Queue.clear, Guard.hold_eq_ok, get_bind, set_bind,
    bind_eq_ok, check_eq_ok, on_eq_ok, modify_eq_ok, pure_eq_ok, Access.ensure_eq_ok,
    Check.bind_eq_ok, Timelock.Queue.required_eq_ok, Timelock.ready_eq_ok,
    Vault.requireAdded_eq_ok]
  exact ⟨(), _, ⟨hfree, _,
    ⟨_, ⟨(), _, ⟨hrole, rfl⟩, c.value, _, ⟨⟨c, hwaits, hready, rfl⟩, rfl⟩,
    config, _, ⟨hadded, rfl⟩, (), _, ⟨hvalid, rfl⟩, (), _, ⟨_, rfl, rfl⟩, rfl⟩,
    rfl⟩, rfl⟩,
    trivial, rfl⟩

end

/-- After some history alice's unit is all there is and has these parameters: it is deposited
under others, and these are changed. -/
theorem exists_pledged (hvalid : params.validate = .ok ()) :
    ∃ episodes, Pledged params (endowed.through episodes).vault := by
  obtain ⟨p, hp⟩ : ∃ p, p = endowed.through (pledging ⟨7500, 8000, 500⟩) := ⟨_, rfl⟩
  have hpledged : Pledged ⟨7500, 8000, 500⟩ p.vault := by
    rw [hp]
    exact ⟨by decide +kernel, by decide +kernel, by decide +kernel⟩
  have hfree : p.vault.guard.entered = false := by
    rw [hp]
    decide +kernel
  have hrole : p.vault.access.holds .vaultAdmin Sample.admin = true := by
    rw [hp]
    decide +kernel
  have hadded : p.vault.added? Sample.weth = some (.listed ⟨7500, 8000, 500⟩) := by
    rw [hp]
    decide +kernel
  -- The request is made at time zero and writes a proposal only.
  obtain ⟨q, hq⟩ : ∃ q,
      q = p.next (.direct ⟨Sample.admin, 0⟩ (.requestUpdate Sample.weth params)) := ⟨_, rfl⟩
  have hrequested :
      p.next (.direct ⟨Sample.admin, 0⟩ (.requestUpdate Sample.weth params)) = _ :=
    next_requestUpdate hfree hrole hadded hvalid
  rw [hrequested] at hq
  have hwaits : q.vault.pending (.updateCollateral Sample.weth) = some ⟨params, 0⟩ := by
    rw [hq]
    exact Vault.pending_propose p.vault (.updateCollateral Sample.weth) ⟨params, 0⟩
  have hready : (PendingChange.mk params 0).readyAt changeDelay ≤ changeDelay := by
    show Timestamp.after 0 changeDelay ≤ changeDelay
    decide
  have hexecuted :
      q.next (.direct ⟨Sample.admin, changeDelay⟩ (.executeUpdate Sample.weth)) = _ :=
    next_executeUpdate (by rw [hq]; rfl) (by rw [hq]; exact hrole) (by rw [hq]; exact hadded)
      hwaits hready hvalid
  refine ⟨pledging ⟨7500, 8000, 500⟩ ++
    [.direct ⟨Sample.admin, 0⟩ (.requestUpdate Sample.weth params)] ++
    [.direct ⟨Sample.admin, changeDelay⟩ (.executeUpdate Sample.weth)], ?_⟩
  rw [through_snoc, through_snoc, ← hp, hrequested, ← hq, hexecuted, hq]
  exact ⟨hpledged.listed, Table.get?_insert .., hpledged.deposits⟩

/-! ### The bound -/

/-- **Which parameters cover healthy positions.**  Of the parameters that can be set, those with
a threshold times one plus the penalty of at most one let no healthy position have a shortfall,
and with any others there is a history after which one has. -/
theorem coversHealthy_iff (hvalid : params.validate = .ok ()) :
    CoversHealthy params ↔
      params.threshold.toNat * (10000 + params.penalty.toNat) ≤ 10000 * 10000 := by
  refine ⟨fun hcovers => ?_, coversHealthy_of_covering⟩
  by_cases hcovering : params.Covering
  · exact hcovering
  obtain ⟨⟨-, hordered, hbound⟩, -⟩ := CollateralParams.bounds_of_validate hvalid
  have hbound : params.threshold.toNat ≤ 9500 := UInt64.le_iff_toNat_le.mp hbound
  have hpositive : 0 < params.threshold.toNat := by
    have := UInt64.lt_iff_toNat_lt.mp hordered
    omega
  obtain ⟨episodes, hpledged⟩ := exists_pledged hvalid
  obtain ⟨quote, hquote, hcapped⟩ := hpledged.capped hbound hvalid hcovering
  have hdebt := debt_owing (endowed.through episodes) (Pledged.parityDebt params.threshold hbound)
  have hrepay : Pledged.parityDebt params.threshold hbound ≤
      ((endowed.through episodes).next
        (owing (Pledged.parityDebt params.threshold hbound))).ledger.debt Sample.alice := by
    rw [hdebt]
    exact Nat.le_refl _
  have hsole := hpledged.sole (Pledged.parityDebt params.threshold hbound)
  have hhealth := hpledged.health hbound hpositive
  rw [← through_snoc] at hsole hrepay hhealth hquote
  obtain ⟨huncapped, -⟩ :=
    hcovers endowed Sample.vaultAccount Sample.admin Sample.borrowModule _
    Sample.alice Sample.weth _ _ quote rfl hsole hrepay hhealth (UInt64.le_refl _) hquote
  rw [hcapped] at huncapped
  cases huncapped

/-- At a threshold of 80 percent and a penalty of 5 percent, a debt at parity is repaid in full
out of 84 percent of the deposit. -/
theorem coversHealthy_usual :
    let params : CollateralParams := ⟨7500, 8000, 500⟩
    let debt : Amount := ⟨1600 * debtUnit.val, by decide⟩
    let p := endowed.through (pledging params ++ [owing debt])
    params.validate = .ok () ∧ CoversHealthy params ∧
      SoleDeposit params Sample.alice Sample.weth p ∧ p.health Sample.alice = .ok parityBps ∧
      ∃ quote, p.quote Sample.alice Sample.weth debt = .ok quote ∧
        quote.seize.val = 840000000000000000 ∧ quote.capped = false ∧ quote.shortfall = 0 := by
  intro params debt p
  have hvalid : params.validate = .ok () := Check.eq_ok_of_toOption (by decide +kernel)
  have hcovers : CoversHealthy params := (coversHealthy_iff hvalid).mpr (by decide)
  have hpledged : Pledged params (endowed.through (pledging params)).vault :=
    ⟨by decide +kernel, by decide +kernel, by decide +kernel⟩
  have hsole : SoleDeposit params Sample.alice Sample.weth p := by
    rw [show p = _ from through_snoc endowed (pledging params) (owing debt)]
    exact hpledged.sole debt
  have hhealth : p.health Sample.alice = .ok parityBps :=
    Check.eq_ok_of_toOption (by decide +kernel)
  have hquote : p.quote Sample.alice Sample.weth debt =
      .ok ⟨debt, ⟨840000000000000000, by decide⟩, 0, false⟩ :=
    Check.eq_ok_of_toOption (by decide +kernel)
  have hcovered := hcovers endowed Sample.vaultAccount Sample.admin Sample.borrowModule _
    Sample.alice Sample.weth debt _ _ rfl hsole (by decide +kernel) hhealth (UInt64.le_refl _)
    hquote
  exact ⟨hvalid, hcovers, hsole, hhealth, _, hquote, rfl, hcovered⟩

/-- The largest threshold and the largest penalty are valid together.  With them alice is at
parity when she owes 1900 dollars, and the whole of her unit repays 1667 of these. -/
theorem healthy_position_exhausted :
    let params : CollateralParams := ⟨9000, 9500, 2000⟩
    let debt : Amount := ⟨1900 * debtUnit.val, by decide⟩
    let p := endowed.through (pledging params ++ [owing debt])
    params.validate = .ok () ∧
      Vault.start Sample.vaultAccount Sample.admin Sample.borrowModule = .ok endowed.vault ∧
      SoleDeposit params Sample.alice Sample.weth p ∧
      debt ≤ p.ledger.debt Sample.alice ∧ p.health Sample.alice = .ok parityBps ∧
      ∃ quote, p.quote Sample.alice Sample.weth debt = .ok quote ∧
        quote.repay.val = 1666666666666666666666 ∧ quote.shortfall.val = 233333333333333333334 ∧
        ¬ (quote.capped = false ∧ quote.shortfall = 0) := by
  intro params debt p
  have hpledged : Pledged params (endowed.through (pledging params)).vault :=
    ⟨by decide +kernel, by decide +kernel, by decide +kernel⟩
  have hsole : SoleDeposit params Sample.alice Sample.weth p := by
    rw [show p = _ from through_snoc endowed (pledging params) (owing debt)]
    exact hpledged.sole debt
  refine ⟨Check.eq_ok_of_toOption (by decide +kernel), rfl, hsole, by decide +kernel,
    Check.eq_ok_of_toOption (by decide +kernel), ?_⟩
  have hquote : p.quote Sample.alice Sample.weth debt =
      .ok ⟨⟨1666666666666666666666, by decide⟩, Sample.unit,
        ⟨233333333333333333334, by decide⟩, true⟩ :=
    Check.eq_ok_of_toOption (by decide +kernel)
  exact ⟨_, hquote, rfl, rfl, by decide⟩

end Protocol

end Custody
