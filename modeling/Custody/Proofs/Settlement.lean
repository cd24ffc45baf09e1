/-
What a liquidation changes, exactly.

Five components take part: the engine sizes and records, the bank moves and burns, the
vault releases, the ledger reduces.  Each has its own books, and a liquidation is exact if
every one of them moved by the amounts of the outcome and nothing else in them moved.

Two of the movements meet in the bank.  The repayment goes through the engine's account,
which is left with what it had; and the collateral comes out of the vault's account.  So
the balances are stated by one equation for all accounts first, and the accounts are told
apart afterwards.
-/
import Custody.Proofs.Run

namespace Custody.Protocol

variable {ctx : Context} {caller borrower token : Address} {offer : Amount} {quote : Quote}
  {p q : Protocol}

/-! ### The bank, account by account -/

namespace Settled

variable (h : Settled ctx borrower token quote p q)

include h

/-- The steps of a settlement in the bank: the repayment is pulled, burned, and collateral is
sent. -/
private theorem steps : ∃ pulled burned,
    (∃ received, Bank.Moved p.engine.debtToken ctx.caller p.engine.address quote.repay received
      p.bank pulled) ∧
    (∀ t o s, (pulled.allowance t o s).val +
      (if t = p.engine.debtToken ∧ o = ctx.caller ∧ s = p.engine.address
        then quote.repay.val else 0) = (p.bank.allowance t o s).val) ∧
    Bank.Burned p.engine.debtToken p.engine.address quote.repay pulled burned ∧
    (∃ received,
      Bank.Moved token p.vault.address ctx.caller quote.seize received burned q.bank) ∧
    q.bank.allowances = burned.allowances := by
  obtain ⟨pulled, burned, hpull, hburn, hreleased⟩ := h.moved
  obtain ⟨hpulled, hallowance⟩ := Bank.transferFrom_ok hpull
  obtain ⟨hsent, hsame⟩ := Bank.transfer_ok hreleased.moved
  exact ⟨pulled, burned, hpulled, hallowance, Bank.burn_ok hburn, hsent, hsame⟩

/-- Every allowance: the engine used up as much of the liquidator's as it pulled. -/
theorem allowance (t o s : Address) : (q.bank.allowance t o s).val +
    (if t = p.engine.debtToken ∧ o = ctx.caller ∧ s = p.engine.address
      then quote.repay.val else 0) = (p.bank.allowance t o s).val := by
  obtain ⟨pulled, burned, -, hallowance, hburned, -, hsame⟩ := h.steps
  have hread : q.bank.allowance t o s = pulled.allowance t o s := by
    simp only [Bank.allowance, Bank.allowanceBook, hsame, hburned.allowances]
  rw [hread]
  exact hallowance t o s

theorem properties : q.bank.decimals = p.bank.decimals ∧ q.bank.fees = p.bank.fees ∧
    q.bank.frozen = p.bank.frozen := by
  obtain ⟨pulled, burned, ⟨_, hpulled⟩, -, hburned, ⟨_, hsent⟩, -⟩ := h.steps
  refine ⟨?_, ?_, ?_⟩
  · rw [hsent.decimals, hburned.decimals, hpulled.decimals]
  · rw [hsent.fees, hburned.fees, hpulled.fees]
  · rw [hsent.frozen, hburned.frozen, hpulled.frozen]

variable (hdebt : p.bank.fee p.engine.debtToken = 0) (htoken : p.bank.fee token = 0)

include hdebt htoken

/-- Without fees all of the repayment arrives to be burned, and all of the collateral that is
sent. -/
private theorem exact_steps : ∃ pulled burned,
    Bank.Moved p.engine.debtToken ctx.caller p.engine.address quote.repay quote.repay
      p.bank pulled ∧
    Bank.Burned p.engine.debtToken p.engine.address quote.repay pulled burned ∧
    Bank.Moved token p.vault.address ctx.caller quote.seize quote.seize burned q.bank := by
  obtain ⟨pulled, burned, ⟨repaid, hpulled⟩, -, hburned, ⟨seized, hsent⟩, -⟩ := h.steps
  have hfree : burned.fee token = 0 := by
    rw [← htoken]
    simp only [Bank.fee, hburned.fees, hpulled.fees]
  have hrepaid := hpulled.received_eq hdebt
  have hseized := hsent.received_eq hfree
  subst hrepaid hseized
  exact ⟨pulled, burned, hpulled, hburned, hsent⟩

/-- Every balance, with the repayment that left the liquidator and the collateral that went
from the vault to the liquidator. -/
theorem balance (t a : Address) : (q.bank.balance t a).val +
    (if t = p.engine.debtToken ∧ a = ctx.caller then quote.repay.val else 0) +
    (if t = token ∧ a = p.vault.address then quote.seize.val else 0) =
      (p.bank.balance t a).val + if t = token ∧ a = ctx.caller then quote.seize.val else 0 := by
  obtain ⟨pulled, burned, hpulled, hburned, hsent⟩ := h.exact_steps hdebt htoken
  have hpull := hpulled.balance t a
  have hburn := hburned.balance t a
  have hsend := hsent.balance t a
  omega

/-- Every supply: what was repaid is burned. -/
theorem supply (t : Address) : (q.bank.totalSupply t).val +
    (if t = p.engine.debtToken then quote.repay.val else 0) = (p.bank.totalSupply t).val := by
  obtain ⟨pulled, burned, hpulled, hburned, hsent⟩ := h.exact_steps hdebt htoken
  have hpull := hpulled.supply t
  have hburn := hburned.supply t
  have hsend := hsent.supply t
  rw [Nat.sub_self, ite_self, Nat.sub_zero] at hpull hsend
  omega

end Settled

/-! ### Exact changes -/

/-- Collateral of one user in one token left the vault, and nothing else of it changed. -/
structure VaultExact (borrower token liquidator : Address) (seized : Amount) (now : Timestamp)
    (v w : Vault) : Prop where
  deposit : (w.depositOf borrower token).val + seized.val = (v.depositOf borrower token).val
  deposits : ∀ u t, ¬ (u = borrower ∧ t = token) → w.depositOf u t = v.depositOf u t
  total : (w.total token).val + seized.val = (v.total token).val
  totals : ∀ t, t ≠ token → w.total t = v.total t
  /-- One event is told. -/
  rest : w = { v with
    deposits := w.deposits
    totals := w.totals
    events := v.events.add now (.seized borrower token seized liquidator)
    guard := .free }

/-- One debt fell, and nothing else of the ledger changed. -/
structure LedgerExact (borrower : Address) (repaid : Amount) (l m : Ledger) : Prop where
  debt : (m.debt borrower).val + repaid.val = (l.debt borrower).val
  debts : ∀ u, u ≠ borrower → m.debt u = l.debt u
  rest : m = { l with debts := m.debts }

/-- The liquidator's debt tokens are burned and the vault's collateral is the liquidator's. -/
structure BankExact (debtToken token liquidator vault engine : Address) (repaid seized : Amount)
    (b c : Bank) : Prop where
  paid : (c.balance debtToken liquidator).val + repaid.val = (b.balance debtToken liquidator).val
  received : (c.balance token liquidator).val = (b.balance token liquidator).val + seized.val
  sent : (c.balance token vault).val + seized.val = (b.balance token vault).val
  balances : ∀ t a, ¬ (t = debtToken ∧ a = liquidator) →
    ¬ (t = token ∧ a = liquidator) → ¬ (t = token ∧ a = vault) →
    c.balance t a = b.balance t a
  allowance : (c.allowance debtToken liquidator engine).val + repaid.val =
    (b.allowance debtToken liquidator engine).val
  allowances : ∀ t o s, ¬ (t = debtToken ∧ o = liquidator ∧ s = engine) →
    c.allowance t o s = b.allowance t o s
  supply : (c.totalSupply debtToken).val + repaid.val = (b.totalSupply debtToken).val
  supplies : ∀ t, t ≠ debtToken → c.totalSupply t = b.totalSupply t
  properties : c.decimals = b.decimals ∧ c.fees = b.fees ∧ c.frozen = b.frozen

/-- The liquidation is counted, its shortfall is on record, and both are told. -/
structure EngineExact (o : Outcome) (now : Timestamp) (e f : Engine) : Prop where
  record : (f.badDebt.of o.borrower).val = (e.badDebt.of o.borrower).val + o.badDebtRecorded.val
  records : ∀ u, u ≠ o.borrower → f.badDebt.of u = e.badDebt.of u
  total : f.badDebt.total.val = e.badDebt.total.val + o.badDebtRecorded.val
  statistics : ∃ (sum : Amount) (capped : Bool),
    sum.val = e.statistics.debtRepaid.val + o.debtRepaid.val ∧
    f.statistics = counted e.statistics sum capped
  /-- A shortfall is told before the liquidation. -/
  rest : f = { e with
    badDebt := f.badDebt
    statistics := f.statistics
    events := (shortfallTold e.events now o.borrower o.badDebtRecorded f.badDebt.total).add now
      (.liquidated o.borrower o.liquidator o.token o.debtRepaid o.collateralSeized)
    guard := .free }

namespace Settled

variable (h : Settled ctx borrower token quote p q)

include h

theorem vaultExact : VaultExact borrower token ctx.caller quote.seize ctx.now p.vault q.vault := by
  obtain ⟨pulled, burned, -, -, hreleased⟩ := h.moved
  refine ⟨?_, fun u t hother => hreleased.deposit_elsewhere hother, ?_,
    fun t hother => hreleased.total_of_ne hother, hreleased.rest⟩
  · have hdeposit := hreleased.deposit borrower token
    rw [if_pos ⟨rfl, rfl⟩] at hdeposit
    exact hdeposit
  · have htotal := hreleased.total token
    rw [if_pos rfl] at htotal
    exact htotal

theorem ledgerExact : LedgerExact borrower quote.repay p.ledger q.ledger := by
  have hreduced := Ledger.reduce_ok h.reduced
  refine ⟨?_, fun u hother => hreduced.debt_of_ne hother, hreduced.rest⟩
  have hdebt := hreduced.debt borrower
  rw [if_pos rfl] at hdebt
  exact hdebt

theorem bankExact (hdebt : p.bank.fee p.engine.debtToken = 0) (htoken : p.bank.fee token = 0)
    (hne : token ≠ p.engine.debtToken) (hcaller : ctx.caller ≠ p.vault.address) :
    BankExact p.engine.debtToken token ctx.caller p.vault.address p.engine.address quote.repay
      quote.seize p.bank q.bank := by
  have hbalance := h.balance hdebt htoken
  have hallowance := h.allowance
  have hsupply := h.supply hdebt htoken
  refine ⟨?_, ?_, ?_, fun t a hpaid hreceived hsent => ?_, ?_, fun t o s hother => ?_, ?_,
    fun t hother => ?_, h.properties⟩
  · have heq := hbalance p.engine.debtToken ctx.caller
    rw [if_pos ⟨rfl, rfl⟩, if_neg fun hthis => hne hthis.1.symm,
      if_neg fun hthis => hne hthis.1.symm] at heq
    exact heq
  · have heq := hbalance token ctx.caller
    rw [if_neg fun hthis => hne hthis.1, if_neg fun hthis => hcaller hthis.2,
      if_pos ⟨rfl, rfl⟩] at heq
    exact heq
  · have heq := hbalance token p.vault.address
    rw [if_neg fun hthis => hne hthis.1, if_pos ⟨rfl, rfl⟩,
      if_neg fun hthis => hcaller hthis.2.symm] at heq
    exact heq
  · have heq := hbalance t a
    rw [if_neg hpaid, if_neg hsent, if_neg hreceived] at heq
    exact Amount.ext heq
  · have heq := hallowance p.engine.debtToken ctx.caller p.engine.address
    rw [if_pos ⟨rfl, rfl, rfl⟩] at heq
    exact heq
  · have heq := hallowance t o s
    rw [if_neg hother] at heq
    exact Amount.ext heq
  · have heq := hsupply p.engine.debtToken
    rw [if_pos rfl] at heq
    exact heq
  · have heq := hsupply t
    rw [if_neg hother] at heq
    exact Amount.ext heq

end Settled

theorem Liquidated.engineExact {health : UInt64}
    (h : Liquidated ctx borrower token offer health quote p q) :
    EngineExact ⟨borrower, ctx.caller, token, health, quote.repay, quote.seize, quote.shortfall⟩
      ctx.now p.engine q.engine := by
  have hcommitted := h.committed
  obtain ⟨sum, hsum, hstatistics⟩ := hcommitted.statistics
  refine ⟨?_, fun u hother => hcommitted.badDebt.of_of_ne hother, hcommitted.badDebt.total,
    ⟨sum, quote.capped, hsum, hstatistics⟩, ?_⟩
  · have hrecord := hcommitted.badDebt.record borrower
    rw [if_pos rfl] at hrecord
    exact hrecord
  · have hrest := hcommitted.rest
    rw [hcommitted.events, h.left] at hrest
    exact hrest

/-- **A liquidation is settled exactly.**  Between two tokens without a fee on transfers, a
liquidation with an outcome moves every book by the amounts of the outcome, and nothing else
in the vault, the ledger, the bank and the engine changes. -/
theorem liquidation_settles_exactly {o : Outcome}
    (h : submit caller (.liquidate borrower token offer) p = .ok (.outcome o) q)
    (hne : token ≠ p.engine.debtToken) (htoken : p.bank.fee token = 0)
    (hdebt : p.bank.fee p.engine.debtToken = 0) (hcaller : caller ≠ p.vault.address) :
    (o.borrower = borrower ∧ o.liquidator = caller ∧ o.token = token) ∧
    0 < o.debtRepaid ∧ 0 < o.collateralSeized ∧
    VaultExact borrower token caller o.collateralSeized p.clock p.vault q.vault ∧
    LedgerExact borrower o.debtRepaid p.ledger q.ledger ∧
    BankExact p.engine.debtToken token caller p.vault.address p.engine.address o.debtRepaid
      o.collateralSeized p.bank q.bank ∧
    EngineExact o p.clock p.engine q.engine ∧
    q.oracle = p.oracle ∧ q.clock = p.clock := by
  cases submit_ok h with
  | liquidated hliquidated =>
      have hprepared := prepare_ok hliquidated.prepared
      have hsettled := hliquidated.settled
      exact ⟨⟨rfl, rfl, rfl⟩, Amount.pos_of_ne_zero hprepared.repays,
        Amount.pos_of_ne_zero hprepared.seizes, hsettled.vaultExact, hsettled.ledgerExact,
        hsettled.bankExact hdebt htoken hne hcaller, hliquidated.engineExact,
        hliquidated.oracle, hliquidated.clock⟩

/-- The outcome of liquidating alice's second deposit, which is too small for her debt. -/
def foreclosure : Outcome where
  borrower := Sample.alice
  liquidator := Sample.liquidator
  token := Sample.wbtc
  healthBefore := 3184
  debtRepaid := ⟨1904761904761904761904, by decide⟩
  collateralSeized := Sample.unit
  badDebtRecorded := ⟨8095238095238095238096, by decide⟩

theorem liquidation_settles_exactly_foreclosure :
    let p := Sample.indebted Sample.loan
    let call := Call.liquidate Sample.alice Sample.wbtc .largest
    let q := (submit Sample.liquidator call).left p
    submit Sample.liquidator call p = .ok (.outcome foreclosure) q ∧
    Sample.wbtc ≠ p.engine.debtToken ∧ p.bank.fee Sample.wbtc = 0 ∧
    p.bank.fee p.engine.debtToken = 0 ∧ Sample.liquidator ≠ p.vault.address ∧
    VaultExact Sample.alice Sample.wbtc Sample.liquidator Sample.unit p.clock p.vault q.vault ∧
    LedgerExact Sample.alice foreclosure.debtRepaid p.ledger q.ledger ∧
    BankExact p.engine.debtToken Sample.wbtc Sample.liquidator p.vault.address p.engine.address
      foreclosure.debtRepaid Sample.unit p.bank q.bank ∧
    EngineExact foreclosure p.clock p.engine q.engine := by
  intro p call q
  have hanswered : (submit Sample.liquidator call).reply? p = some (.outcome foreclosure) := by
    decide +kernel
  have hsubmit := Action.eq_ok_of_reply? hanswered
  have hne : Sample.wbtc ≠ p.engine.debtToken := by decide +kernel
  have htoken : p.bank.fee Sample.wbtc = 0 := by decide +kernel
  have hdebt : p.bank.fee p.engine.debtToken = 0 := by decide +kernel
  have hcaller : Sample.liquidator ≠ p.vault.address := by decide +kernel
  obtain ⟨-, -, -, hvault, hledger, hbank, hengine, -, -⟩ :=
    liquidation_settles_exactly hsubmit hne htoken hdebt hcaller
  exact ⟨hsubmit, hne, htoken, hdebt, hcaller, hvault, hledger, hbank, hengine⟩

end Custody.Protocol
