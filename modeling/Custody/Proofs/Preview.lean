/-
A liquidation does what its quote says.

A liquidator decides by readings: the health factor, the limit, and what an offer is quoted.
The call checks these again and then pulls the repayment, burns it, seizes the collateral and
reduces the debt.  Each of the four can be refused for reasons of its own, of which the
readings say nothing.

In a state that a run leads to, none of these reasons is left.  Without a fee the engine
receives what it is to burn, and the supply covers that.  The quote seizes no more than the
deposit, and deposits are never stuck.  It repays no more than the limit, which is within the
debt.  So once the liquidator has the means the settlement goes through, and what can still
refuse the call are the sums that the engine keeps of all liquidations.
-/
import Custody.Proofs.Health
import Custody.Proofs.Overlap
import Custody.Proofs.Refusal
import Custody.Proofs.Release

namespace Custody

open Custody.Action

namespace Protocol

variable {p mid fin : Protocol} {ctx : Context} {caller account borrower token : Address}
  {offer limit : Amount} {health : UInt64} {quote : Quote}

/-! ### Settlement -/

/-- Nothing that others decide is in the way of liquidations in a token. -/
structure Open (token : Address) (p : Protocol) : Prop where
  running : p.engine.paused = false
  role : p.vault.access.holds .liquidation p.engine.address = true
  accepting : p.ledger.rejecting = false
  unfrozen : p.bank.frozen.contains token = false
  /-- Debt tokens move, and move whole. -/
  repayable : p.bank.frozen.contains p.engine.debtToken = false
  free : p.bank.fee p.engine.debtToken = 0

/-- An account has debt tokens and lets the engine take them. -/
structure Funded (caller : Address) (amount : Amount) (p : Protocol) : Prop where
  balance : amount ≤ p.bank.balance p.engine.debtToken caller
  allowance : amount ≤ p.bank.allowance p.engine.debtToken caller p.engine.address

theorem Funded.of_le {amount less : Amount} (h : Funded caller amount p) (hle : less ≤ amount) :
    Funded caller less p where
  balance := Nat.le_trans hle h.balance
  allowance := Nat.le_trans hle h.allowance

/-- A quote that the books of the borrower cover. -/
structure Covered (borrower token : Address) (quote : Quote) (p : Protocol) : Prop where
  seizes : quote.seize ≠ 0
  repays : quote.repay ≠ 0
  deposit : quote.seize ≤ p.vault.depositOf borrower token
  debt : quote.repay ≤ p.ledger.debt borrower

/-- A repayment leaves every deposit payable. -/
theorem Payable.paid {amount : Amount} {pulled burned : Bank} (h : Payable account p)
    (hpositive : amount ≠ 0)
    (hpull : Bank.transferFrom p.engine.debtToken p.engine.address caller p.engine.address amount
      p.bank = .ok () pulled)
    (hburn : Bank.burn p.engine.debtToken p.engine.address amount pulled = .ok () burned) :
    Payable account { p with bank := burned } where
  solvent := h.solvent.paid hpositive hpull hburn
  balanced := h.balanced
  bank := (Bank.burn_sound ((Bank.transferFrom_sound h.bank).of_ok hpull)).of_ok hburn

/-- **A covered quote is settled.**  The four books are written one after the other, and each
step finds what it needs in the state that the one before it left. -/
theorem settle_answers (h : Payable account p) (hfree : p.vault.guard = .free)
    (hengine : p.engine.address ≠ .zero) (hcaller : ctx.caller ≠ .zero) (hopen : Open token p)
    (hfunded : Funded ctx.caller quote.repay p) (hcovered : Covered borrower token quote p) :
    (settle ctx borrower token quote).Answers p := by
  have hpullable := Bank.transferFrom_answers h.bank hopen.repayable hengine hcovered.repays
    hfunded.allowance hfunded.balance
  refine answers_get (answers_bind (answers_on hpullable) fun _ s hs => ?_)
  obtain ⟨pulled, hpull, rfl⟩ := on_eq_ok.mp hs
  obtain ⟨⟨received, hmoved⟩, -⟩ := Bank.transferFrom_ok hpull
  -- Without a fee all of it arrived.
  have hburnable := Bank.burn_answers ((Bank.transferFrom_sound h.bank).of_ok hpull)
    (by rw [hmoved.frozen]; exact hopen.repayable) hcovered.repays (hmoved.le_balance hopen.free)
  refine answers_bind (answers_on hburnable) fun _ s hs => ?_
  obtain ⟨burned, hburn, rfl⟩ := on_eq_ok.mp hs
  have hpaid := h.paid hcovered.repays hpull hburn
  have hfrozen : burned.frozen.contains token = false := by
    rw [(Bank.burn_ok hburn).frozen, hmoved.frozen]
    exact hopen.unfrozen
  have hseizable :
      (seize ⟨p.engine.address, ctx.now⟩ borrower token quote.seize ctx.caller).Answers
      { p with bank := burned } :=
    hpaid.seize_answers_of_free hfree (Access.ensure_eq_ok.mpr hopen.role) hcovered.seizes
      hcovered.deposit hfrozen hcaller
  refine answers_bind hseizable fun _ s hs => ?_
  -- A seizure does not look at debts.
  obtain ⟨-, hreleased⟩ := seize_ok hs
  refine answers_on ?_
  rw [hreleased.ledger]
  exact Ledger.reduce_answers hopen.accepting hcovered.debt

/-! ### The call -/

/-- Entering the engine's guard has no part in it. -/
theorem Payable.entered (h : Payable account p) : Payable account p.entered where
  solvent := ⟨h.solvent.address, h.solvent.apart, h.solvent.allowance, h.solvent.covered⟩
  balanced := h.balanced
  bank := h.bank

/-- What the readings promise: the position is below parity, and the offer, up to the limit, is
quoted something to repay and something to seize. -/
structure Promised (borrower token : Address) (offer : Amount) (health : UInt64) (quote : Quote)
    (p : Protocol) : Prop where
  read : p.health borrower = .ok health
  unhealthy : health < parityBps
  quoted : ∃ limit, p.maxRepayable borrower = .ok limit ∧
    p.quote borrower token (min offer limit) = .ok quote
  seizes : quote.seize ≠ 0
  repays : quote.repay ≠ 0

/-- Below parity there is a debt. -/
theorem debt_of_unhealthy (hread : p.health borrower = .ok health)
    (hunhealthy : health < parityBps) : p.ledger.debt borrower ≠ 0 := by
  intro hzero
  have htop : p.health borrower = .ok Health.top := Health.factor_of_debtless hzero
  rw [htop, Except.ok.injEq] at hread
  rw [← hread] at hunhealthy
  exact absurd hunhealthy (by decide)

/-- So the reading of the limit is the limit of the call. -/
theorem maxRepayable_of_unhealthy (hread : p.health borrower = .ok health)
    (hunhealthy : health < parityBps) :
    p.maxRepayable borrower = p.engine.repayLimit (p.ledger.debt borrower) health := by
  have hdebt := debt_of_unhealthy hread hunhealthy
  have hhealth : Engine.health p.vault p.ledger p.oracle borrower = .ok health := hread
  have hbelow : ¬ parityBps ≤ health := UInt64.not_le.mpr hunhealthy
  rw [maxRepayable, Engine.maxRepayable, if_neg hdebt, hhealth]
  exact if_neg hbelow

/-- With an offer that is large enough, the call passes its checks. -/
theorem Promised.prepared (h : Promised borrower token offer health quote p)
    (hrunning : p.engine.paused = false) (hself : ctx.caller ≠ borrower)
    (hoffer : dustFloor ≤ offer) : Prepared ctx borrower token offer p health quote := by
  obtain ⟨limit, hlimit, hquote⟩ := h.quoted
  have hpositive : offer ≠ 0 := by
    rintro rfl
    exact absurd hoffer (by decide)
  rw [maxRepayable_of_unhealthy h.read h.unhealthy] at hlimit
  refine ⟨?_, checkOffer_eq_ok.mpr ⟨hself, hpositive, hoffer⟩, h.read, h.unhealthy,
    ⟨limit, hlimit, hquote⟩, h.seizes, h.repays⟩
  rw [Engine.ensureRunning, hrunning]
  rfl

/-- No more is repaid than is offered. -/
theorem Prepared.repay_le (h : Prepared ctx borrower token offer p health quote) :
    quote.repay ≤ offer := by
  obtain ⟨limit, -, hquote⟩ := h.quoted
  have hsplit := Engine.quote_ok hquote
  rw [Amount.val_min] at hsplit
  rw [Amount.le_def]
  omega

/-- No more is quoted than is deposited and than is owed. -/
theorem Prepared.covered (h : Prepared ctx borrower token offer p health quote)
    (hsized : p.engine.Sized) : Covered borrower token quote p := by
  obtain ⟨limit, hlimit, hquote⟩ := h.quoted
  refine ⟨h.seizes, h.repays, Engine.quote_seize_le hquote, ?_⟩
  have hwithin := Engine.repayLimit_le hsized hlimit
  have hsplit := Engine.quote_ok hquote
  rw [Amount.val_min] at hsplit
  rw [Amount.le_def]
  omega

section

variable (hfree : p.engine.guard.entered = false)
  (hprepared : Prepared ctx borrower token offer p health quote)
  (hsettle : settle ctx borrower token quote p.entered = .ok () mid)

include hfree hprepared hsettle

/-- Once it is settled, a liquidation answers if the engine records it. -/
theorem liquidate_of_recorded (hcommit : commit ctx borrower token quote mid = .ok () fin) :
    ∃ q, liquidate ctx borrower token offer p = .ok
      ⟨borrower, ctx.caller, token, health, quote.repay, quote.seize, quote.shortfall⟩ q := by
  refine ⟨{ fin with engine := { fin.engine with guard := .free } }, ?_⟩
  have hkept : orRestore unsettle (settle ctx borrower token quote) p.entered = .ok () mid :=
    orRestore_eq_ok.mpr hsettle
  simp only [liquidate_eq, engineCall, Guard.hold_eq_ok, get_bind, bind_eq_ok, check_eq_ok,
    pure_eq_ok]
  exact ⟨hfree, fin,
    ⟨_, _, ⟨hprepared.prepare_eq, rfl⟩, _, mid, hkept, _, fin, hcommit, rfl, rfl⟩, rfl⟩

/-- And it is refused as recording it is. -/
theorem liquidate_of_unrecorded {e : Error}
    (hcommit : commit ctx borrower token quote mid = .error e fin) :
    ∃ q, liquidate ctx borrower token offer p = .error e q := by
  refine ⟨{ fin with engine := { fin.engine with guard := .free } }, ?_⟩
  have hkept : orRestore unsettle (settle ctx borrower token quote) p.entered = .ok () mid :=
    orRestore_eq_ok.mpr hsettle
  simp only [liquidate_eq, engineCall, Guard.hold_eq_error, get_bind, bind_eq_error, check_eq_ok]
  exact .inr ⟨hfree, fin, .inr ⟨_, _, ⟨hprepared.prepare_eq, rfl⟩,
    .inr ⟨_, mid, hkept, .inl hcommit⟩⟩, rfl⟩

end

/-- How a liquidation ends that was quoted: with the outcome of the quote, or refused because a
sum that the engine keeps would pass the largest amount. -/
def Concluded (p : Protocol) (quote : Quote) (o : Outcome) :
    EStateM.Result Error Protocol Reply → Prop
  | .ok reply _ => reply = .outcome o ∧ ¬ Overflows p.engine o.borrower quote
  | .error e _ => (∃ sum, e = .overflow sum) ∧ Overflows p.engine o.borrower quote

/-- A liquidation that passes its checks and can be settled is concluded. -/
theorem concluded_of_settles (hfree : p.engine.guard.entered = false)
    (hprepared : Prepared ctx borrower token offer p health quote)
    (hsettles : (settle ctx borrower token quote).Answers p.entered) :
    Concluded p quote
      ⟨borrower, ctx.caller, token, health, quote.repay, quote.seize, quote.shortfall⟩
      (perform ctx (.liquidate borrower token offer) p) := by
  obtain ⟨_, mid, hsettle⟩ := hsettles.exists_ok
  have hoverflows : Overflows mid.engine borrower quote ↔ Overflows p.engine borrower quote := by
    rw [(settle_ok hsettle).2]
    rfl
  cases hcommit : commit ctx borrower token quote mid with
  | ok _ fin =>
      obtain ⟨q, hliquidate⟩ := liquidate_of_recorded hfree hprepared hsettle hcommit
      have hperform : perform ctx (.liquidate borrower token offer) p = .ok (.outcome _) q :=
        bind_of_ok hliquidate
      rw [hperform]
      refine ⟨rfl, fun hover => ?_⟩
      obtain ⟨e, r, hrefused⟩ := commit_refused_iff.mpr (hoverflows.mpr hover)
      rw [hcommit] at hrefused
      cases hrefused
  | error e fin =>
      obtain ⟨q, hliquidate⟩ := liquidate_of_unrecorded hfree hprepared hsettle hcommit
      have hperform : perform ctx (.liquidate borrower token offer) p = .error e q :=
        bind_of_error hliquidate
      rw [hperform]
      obtain ⟨hover, hsum⟩ := commit_error hcommit
      exact ⟨hsum, hoverflows.mp hover⟩

/-- A transaction ends as the call that it makes. -/
theorem Concluded.submitted {o : Outcome} {call : Call}
    (h : Concluded p quote o (perform ⟨caller, p.clock⟩ call p)) :
    Concluded p quote o (submit caller call p) := by
  simp only [submit, atomic, direct, orRestore, get_bind]
  cases hcall : perform ⟨caller, p.clock⟩ call p with
  | ok reply q =>
      rw [hcall] at h
      exact h
  | error e q =>
      rw [hcall] at h
      exact h

/-! ### Every run -/

/-- What holds between the calls of a run: every deposit can be paid out, no call is under way,
and the engine has an account and sizes within bounds. -/
structure Orderly (account : Address) (p : Protocol) : Prop where
  payable : Payable account p
  idle : Idle p
  accounted : Accounted p.engine
  account : p.engine.address ≠ .zero

theorem Fresh.orderly (h : Fresh p) : Orderly p.vault.address p := by
  obtain ⟨address, debtToken, admin, params, hstart⟩ := h.engine
  obtain ⟨haddress, hsized, access, -, hengine⟩ := Engine.start_ok hstart
  have haccounted : Accounted p.engine := by
    rw [hengine]
    exact ⟨hsized, BadDebt.balanced_empty⟩
  refine ⟨h.payable, h.idle, haccounted, ?_⟩
  rw [hengine]
  exact haddress

theorem Orderly.after (p : Protocol) (turn : Turn)
    (hspares : turn.Within (Happening.Spares account)) (h : Orderly account p) :
    Orderly account (p.after turn) where
  payable := h.payable.after p turn hspares
  idle := h.idle.after turn
  accounted := accounted_after p turn h.accounted
  account := by
    rw [after_engine_address]
    exact h.account

/-- Between the calls, with the liquidator's means, what is prepared can be settled. -/
theorem Orderly.settles (h : Orderly account p) (hcaller : ctx.caller ≠ .zero)
    (hopen : Open token p) (hfunded : Funded ctx.caller quote.repay p)
    (hprepared : Prepared ctx borrower token offer p health quote) :
    (settle ctx borrower token quote).Answers p.entered := by
  have hcovered := hprepared.covered h.accounted.sized
  exact settle_answers h.payable.entered h.idle.vault h.account hcaller
    ⟨hopen.running, hopen.role, hopen.accepting, hopen.unfrozen, hopen.repayable, hopen.free⟩
    ⟨hfunded.balance, hfunded.allowance⟩
    ⟨hcovered.seizes, hcovered.repays, hcovered.deposit, hcovered.debt⟩

theorem Orderly.engine_free (h : Orderly account p) : p.engine.guard.entered = false := by
  rw [h.idle.engine]
  rfl

/-- **A liquidation that is quoted never fails in settlement.**  After every run in which nobody
acts for the vault's account, a liquidator who offers no less than the floor and has the debt
tokens for the quote gets what the quote says.  Only if a sum that the engine keeps would pass
the largest amount is the call refused, and then it is refused as an overflow. -/
theorem quoted_liquidation_settles (h : Fresh p) (turns : List Turn)
    (hturns : ∀ turn ∈ turns, turn.Within (Happening.Spares p.vault.address))
    (hcaller : caller ≠ .zero) (hself : caller ≠ borrower) (hoffer : dustFloor ≤ offer)
    (hopen : Open token (p.run turns))
    (hpromised : Promised borrower token offer health quote (p.run turns))
    (hfunded : Funded caller quote.repay (p.run turns)) :
    let q := p.run turns
    let call := Call.liquidate borrower token offer
    let o : Outcome :=
      ⟨borrower, caller, token, health, quote.repay, quote.seize, quote.shortfall⟩
    (∀ now, Concluded q quote o (perform ⟨caller, now⟩ call q)) ∧
      Concluded q quote o (submit caller call q) := by
  intro q call o
  have horderly : Orderly p.vault.address q := run_induction Orderly.after turns p hturns h.orderly
  have hconcluded : ∀ now, Concluded q quote o (perform ⟨caller, now⟩ call q) := by
    intro now
    have hprepared : Prepared ⟨caller, now⟩ borrower token offer q health quote :=
      hpromised.prepared hopen.running hself hoffer
    exact concluded_of_settles horderly.engine_free hprepared
      (horderly.settles hcaller hopen hfunded hprepared)
  exact ⟨hconcluded, (hconcluded q.clock).submitted⟩

/-- Alice owes five times what a unit of her collateral is worth. -/
def distress : List Turn := Sample.opening ++ [.happening (.setDebt Sample.alice Sample.loan)]

/-- Five hundred dollars. -/
def instalment : Amount := ⟨500 * debtUnit.val, by decide⟩

/-- The instalment, and the collateral that goes for it, the penalty included. -/
def instalmentQuote : Quote := ⟨instalment, ⟨262500000000000000, by decide⟩, 0, false⟩

/-- What the liquidator is quoted for an instalment is what the liquidation then does. -/
theorem quoted_liquidation_settles_instalment :
    let q := Sample.start.run distress
    let call := Call.liquidate Sample.alice Sample.wbtc instalment
    let o : Outcome := ⟨Sample.alice, Sample.liquidator, Sample.wbtc, 3184, instalmentQuote.repay,
      instalmentQuote.seize, instalmentQuote.shortfall⟩
    Fresh Sample.start ∧
      (∀ turn ∈ distress, turn.Within (Happening.Spares Sample.start.vault.address)) ∧
      Sample.liquidator ≠ .zero ∧ Sample.liquidator ≠ Sample.alice ∧
      dustFloor ≤ instalment ∧
      Open Sample.wbtc q ∧
      Promised Sample.alice Sample.wbtc instalment 3184 instalmentQuote q ∧
      Funded Sample.liquidator instalmentQuote.repay q ∧
      ((submit Sample.liquidator call).reply? q).isSome ∧
      (∀ now, Concluded q instalmentQuote o (perform ⟨Sample.liquidator, now⟩ call q)) ∧
      Concluded q instalmentQuote o (submit Sample.liquidator call q) := by
  intro q call o
  have hturns : ∀ turn ∈ distress,
      turn.Within (Happening.Spares Sample.start.vault.address) := by
    decide
  have hcaller : Sample.liquidator ≠ .zero := by decide
  have hself : Sample.liquidator ≠ Sample.alice := by decide
  have hoffer : dustFloor ≤ instalment := by decide
  have hopen : Open Sample.wbtc q :=
    ⟨by decide +kernel, by decide +kernel, by decide +kernel, by decide +kernel,
      by decide +kernel, by decide +kernel⟩
  have hread : (q.health Sample.alice).toOption = some 3184 := by decide +kernel
  have hlimit : (q.maxRepayable Sample.alice).toOption = some Sample.loan := by decide +kernel
  have hquote : (q.quote Sample.alice Sample.wbtc (min instalment Sample.loan)).toOption =
      some instalmentQuote := by decide +kernel
  have hpromised : Promised Sample.alice Sample.wbtc instalment 3184 instalmentQuote q :=
    ⟨Check.eq_ok_of_toOption hread, by decide,
      ⟨Sample.loan, Check.eq_ok_of_toOption hlimit, Check.eq_ok_of_toOption hquote⟩,
      by decide, by decide⟩
  have hfunded : Funded Sample.liquidator instalmentQuote.repay q :=
    ⟨by decide +kernel, by decide +kernel⟩
  exact ⟨Sample.fresh, hturns, hcaller, hself, hoffer, hopen, hpromised, hfunded,
    by decide +kernel,
    quoted_liquidation_settles Sample.fresh distress hturns hcaller hself hoffer hopen hpromised
      hfunded⟩

end Protocol

end Custody
