/-
A secured position stays secured.

A liquidation takes more out of a deposit than out of the debt, because the liquidator is paid a
penalty.  A position in which little more than the debt is deposited is worse covered after it, and
at the end of that road is bad debt.

The border is where the deposit in one token is worth what the whole debt is due, the penalty
included.  A position on the right side of it is secured.  No liquidation in that token may repay
more than the debt, so none asks for more than the deposit, and none is capped.  What it seizes is
worth no more than what its repayment is due.  So it takes no more from the one side of the
comparison than from the other, and the position is as secured as before; the collateral that
stands behind a unit of debt even grows.

That is one step.  A run of liquidations is a row of them, whoever makes them and whatever the
engine's sizing is set to in between, as long as nothing else touches the position.  A call that is
made directly can be refused after it was settled, when the engine cannot add up what it has to
record, and then the settlement stands.  So each step is looked at however it ends.
-/
import Custody.Proofs.EngineAccounting
import Custody.Proofs.Estimate
import Custody.Proofs.Sizing

namespace Custody

open Custody.Action

/-! ### One sale -/

namespace Rate

variable {rate : Rate} {deposit debt units repay : Nat}

/-- What is owed is due no more than what is deposited is worth. -/
def Secures (rate : Rate) (deposit debt : Nat) : Prop := rate.due debt ≤ rate.worth deposit

/-- Base units that are worth no more than what was repaid for them is due come out of both
sides. -/
theorem Secures.of_sold (h : rate.Secures (deposit + units) (debt + repay))
    (hsold : rate.worth units ≤ rate.due repay) : rate.Secures deposit debt := by
  unfold Secures at h ⊢
  rw [due_add, worth_add] at h
  omega

/-- And the share of the deposit that is sold is no larger than the share of the debt that is
repaid. -/
theorem Secures.share_le (h : rate.Secures deposit debt)
    (hsold : rate.worth units ≤ rate.due repay) : units * debt ≤ deposit * repay := by
  have hunit : 0 < (10000 + rate.penalty.toNat) * Nat.pow 10 rate.decimals.toNat :=
    Nat.mul_pos (by omega) unit_pos
  have hscale : 0 < 10000 * rate.price.val *
      ((10000 + rate.penalty.toNat) * Nat.pow 10 rate.decimals.toNat) :=
    Nat.mul_pos cost_pos hunit
  refine Nat.le_of_mul_le_mul_right ?_ hscale
  calc units * debt * (10000 * rate.price.val *
        ((10000 + rate.penalty.toNat) * Nat.pow 10 rate.decimals.toNat))
      = rate.worth units * rate.due debt := by
        rw [worth_eq_mul, due, Nat.mul_assoc debt, Nat.mul_mul_mul_comm]
    _ ≤ rate.due repay * rate.worth deposit := Nat.mul_le_mul hsold h
    _ = deposit * repay * (10000 * rate.price.val *
        ((10000 + rate.penalty.toNat) * Nat.pow 10 rate.decimals.toNat)) := by
        rw [worth_eq_mul, due, Nat.mul_assoc repay, Nat.mul_comm, Nat.mul_mul_mul_comm]

/-- **What a secured position is quoted.**  Nothing is capped, and what is seized is worth no more
than the repayment is due. -/
theorem Sized.of_secures {offer available : Amount} {q : Quote}
    (h : rate.Sized available offer q) (hsecures : rate.Secures available.val offer.val) :
    q.capped = false ∧ q.shortfall = 0 ∧ rate.worth q.seize.val ≤ rate.due q.repay.val := by
  cases h with
  | covered huncapped hrepay hshortfall hseize =>
      refine ⟨huncapped, hshortfall, ?_⟩
      rw [hseize, hrepay]
      exact worth_buys_le _
  | exhausted _ _ _ _ hlacks =>
      -- The offer would buy one more base unit than there are, and that one is not covered.
      have hbeyond : rate.worth available.val < rate.due offer.val := by
        calc rate.worth available.val
            < rate.worth (available.val + 1) := worth_lt_succ _
          _ ≤ rate.worth (rate.buys offer.val) := worth_mono hlacks
          _ ≤ rate.due offer.val := worth_buys_le _
      exact absurd hsecures (Nat.not_le.mpr hbeyond)

end Rate

namespace Protocol

variable {rate : Rate} {p q r : Protocol} {ctx : Context} {caller borrower token : Address}
  {offer : Amount} {quote : Quote} {health : UInt64} {episode : Episode}

/-! ### Positions -/

/-- The deposit of a borrower in a token secures the debt at the rate of the token, and the engine
sizes liquidations within its bounds. -/
structure Secured (rate : Rate) (borrower token : Address) (p : Protocol) : Prop where
  applies : rate.Applies p.vault p.oracle p.bank token
  secures : rate.Secures (p.vault.depositOf borrower token).val (p.ledger.debt borrower).val
  sized : p.engine.Sized

/-- The debt has not grown, and no less collateral is left to a unit of it. -/
structure Sustained (borrower token : Address) (p q : Protocol) : Prop where
  debt : q.ledger.debt borrower ≤ p.ledger.debt borrower
  backing : (p.vault.depositOf borrower token).val * (q.ledger.debt borrower).val ≤
    (q.vault.depositOf borrower token).val * (p.ledger.debt borrower).val

/-- A position is secured still, nothing was recorded against anybody, and no liquidation was
capped. -/
structure StaysSecured (rate : Rate) (borrower token : Address) (p q : Protocol) : Prop extends
    Secured rate borrower token q, Sustained borrower token p q where
  badDebt : q.engine.badDebt = p.engine.badDebt
  capped : q.engine.statistics.capped = p.engine.statistics.capped

/-- Two comparisons of deposits per debt make one.  A debt in between that is nothing is no unit to
compare with, but then nothing is owed after it. -/
private theorem cross_trans {a b c d e f : Nat} (h : a * e ≤ b * d) (h' : b * f ≤ c * e)
    (hfalls : f ≤ e) : a * f ≤ c * d := by
  rcases Nat.eq_zero_or_pos e with rfl | hpositive
  · rw [Nat.le_zero.mp hfalls, Nat.mul_zero]
    exact Nat.zero_le _
  · refine Nat.le_of_mul_le_mul_right ?_ hpositive
    calc a * f * e = a * e * f := Nat.mul_right_comm ..
      _ ≤ b * d * f := Nat.mul_le_mul_right _ h
      _ = b * f * d := Nat.mul_right_comm ..
      _ ≤ c * e * d := Nat.mul_le_mul_right _ h'
      _ = c * d * e := Nat.mul_right_comm ..

theorem Sustained.refl (borrower token : Address) (p : Protocol) :
    Sustained borrower token p p where
  debt := Nat.le_refl _
  backing := Nat.le_refl _

theorem Sustained.trans (h : Sustained borrower token p q) (h' : Sustained borrower token q r) :
    Sustained borrower token p r where
  debt := Nat.le_trans h'.debt h.debt
  backing := cross_trans h.backing h'.backing h'.debt

namespace StaysSecured

theorem refl (h : Secured rate borrower token p) : StaysSecured rate borrower token p p where
  toSecured := h
  toSustained := .refl borrower token p
  badDebt := rfl
  capped := rfl

theorem trans (h : StaysSecured rate borrower token p q)
    (h' : StaysSecured rate borrower token q r) : StaysSecured rate borrower token p r where
  toSecured := h'.toSecured
  toSustained := h.toSustained.trans h'.toSustained
  badDebt := h'.badDebt.trans h.badDebt
  capped := h'.capped.trans h.capped

/-- What is asked of the engine is asked of a few parts of it. -/
theorem withEngine (h : StaysSecured rate borrower token p q) {e : Engine}
    (hparams : e.params = q.engine.params) (hbadDebt : e.badDebt = q.engine.badDebt)
    (hcapped : e.statistics.capped = q.engine.statistics.capped) :
    StaysSecured rate borrower token p { q with engine := e } where
  applies := h.applies
  secures := h.secures
  sized := by
    show e.params.validate = .ok ()
    rw [hparams]
    exact h.sized
  debt := h.debt
  backing := h.backing
  badDebt := hbadDebt.trans h.badDebt
  capped := hcapped.trans h.capped

/-- Nor does the guard of the vault matter. -/
theorem released (h : StaysSecured rate borrower token p q) :
    StaysSecured rate borrower token p { q with vault := q.vault.copy } where
  applies := ⟨h.applies.config, h.applies.entry, h.applies.decimals⟩
  secures := h.secures
  sized := h.sized
  debt := h.debt
  backing := h.backing
  badDebt := h.badDebt
  capped := h.capped

/-- A refusal restores everything but what the oracle says. -/
theorem restored (hp : Secured rate borrower token p) (h : StaysSecured rate borrower token p q) :
    StaysSecured rate borrower token p (restore p q) where
  applies := ⟨hp.applies.config, h.applies.entry, hp.applies.decimals⟩
  secures := hp.secures
  sized := hp.sized
  toSustained := ⟨Nat.le_refl _, Nat.le_refl _⟩
  badDebt := rfl
  capped := rfl

end StaysSecured

/-! ### Every liquidation -/

/-- An offer up to the debt is quoted without a cap. -/
theorem Secured.quoted_within (h : Secured rate borrower token p)
    (hoffer : offer ≤ p.ledger.debt borrower)
    (hquote : p.quote borrower token offer = .ok quote) :
    quote.capped = false ∧ quote.shortfall = 0 ∧
      rate.worth quote.seize.val ≤ rate.due quote.repay.val :=
  (h.applies.sized hquote).of_secures (Nat.le_trans (Rate.due_mono hoffer) h.secures)

/-- No liquidation may repay more than the debt. -/
theorem Secured.quoted (h : Secured rate borrower token p)
    (hprepared : Prepared ctx borrower token offer p health quote) :
    quote.capped = false ∧ quote.shortfall = 0 ∧
      rate.worth quote.seize.val ≤ rate.due quote.repay.val := by
  obtain ⟨limit, hlimit, hquote⟩ := hprepared.quoted
  refine h.quoted_within ?_ hquote
  have hlimited := Engine.repayLimit_le h.sized hlimit
  rw [Amount.le_def, Amount.val_min]
  omega

/-- **A settlement keeps a position secured.** -/
theorem Secured.settled (h : Secured rate borrower token p)
    (hsold : rate.worth quote.seize.val ≤ rate.due quote.repay.val)
    (hsettled : Settled ctx borrower token quote p q) (hengine : q.engine = p.engine)
    (horacle : q.oracle = p.oracle) : StaysSecured rate borrower token p q := by
  have hvault := hsettled.vaultExact
  have hledger := hsettled.ledgerExact
  have hconfigs : q.vault.configs = p.vault.configs := by rw [hvault.rest]
  have hdecimals := hsettled.properties.1
  have hsecures : rate.Secures (q.vault.depositOf borrower token).val
      (q.ledger.debt borrower).val := by
    refine Rate.Secures.of_sold ?_ hsold
    rw [hvault.deposit, hledger.debt]
    exact h.secures
  have hshare := hsecures.share_le hsold
  exact {
    applies := by
      refine ⟨?_, ?_, ?_⟩
      · rw [hconfigs]
        exact h.applies.config
      · rw [horacle]
        exact h.applies.entry
      · unfold Bank.decimalsOf
        rw [hdecimals]
        exact h.applies.decimals
    secures := hsecures
    sized := by
      rw [hengine]
      exact h.sized
    badDebt := by rw [hengine]
    capped := by rw [hengine]
    debt := by
      rw [Amount.le_def, ← hledger.debt]
      exact Nat.le_add_right ..
    backing := by
      rw [← hvault.deposit, ← hledger.debt, Nat.add_mul, Nat.mul_add]
      exact Nat.add_le_add_left hshare _ }

private theorem count_uncapped {e : Engine} {repaid : Amount} :
    (Engine.count repaid false).Leaves e fun f =>
      f.params = e.params ∧ f.badDebt = e.badDebt ∧
        f.statistics.capped = e.statistics.capped := by
  refine leaves_bind (leaves_modify ⟨rfl, rfl, rfl⟩) fun _ f hf h => ?_
  exact leaves_get (leaves_check h fun sum _ => leaves_modify h)

/-- However far the engine comes with recording a liquidation without a shortfall, it writes neither
to the record of bad debt nor to the count of capped liquidations. -/
theorem StaysSecured.committed (h : StaysSecured rate borrower token p q)
    (hcapped : quote.capped = false) (hshortfall : quote.shortfall = 0) :
    (commit ctx borrower token quote).Leaves q (StaysSecured rate borrower token p) := by
  have hrecord : (recordShortfall ctx borrower quote.shortfall).Leaves q
      (StaysSecured rate borrower token p) := by
    rw [hshortfall]
    exact leaves_pure h
  refine leaves_bind hrecord fun _ mid _ hmid => ?_
  have hcount : (onEngine (Engine.count quote.repay quote.capped)).Leaves mid
      (StaysSecured rate borrower token p) := by
    rw [hcapped]
    exact leaves_on (count_uncapped.imp fun f ⟨hparams, hbadDebt, hcount⟩ =>
      hmid.withEngine hparams hbadDebt hcount)
  exact leaves_bind hcount fun _ _ _ hfin => leaves_on (leaves_modify (hfin.withEngine rfl rfl rfl))

/-- **However a liquidation of a secured position ends**, the position is as secured as before. -/
theorem Secured.liquidated (h : Secured rate borrower token p) :
    (liquidate ctx borrower token offer).Leaves p (StaysSecured rate borrower token p) := by
  have hsame := StaysSecured.refl h
  have hentered : StaysSecured rate borrower token p p.entered := hsame.withEngine rfl rfl rfl
  rw [liquidate_eq]
  refine Guard.leaves_hold hsame (Leaves.imp (R := StaysSecured rate borrower token p) ?_ ?_)
  · refine leaves_get (leaves_check hentered fun prepared hprepared => ?_)
    obtain ⟨hcapped, hshortfall, hsold⟩ := h.quoted (prepare_ok hprepared)
    have hsettle : (orRestore unsettle (settle ctx borrower token prepared.2)).Leaves p.entered
        (StaysSecured rate borrower token p) := by
      refine leaves_of_cases (fun _ mid hmid => ?_) fun _ mid hmid => ?_
      · obtain ⟨hsettled, hrest⟩ := settle_ok (orRestore_eq_ok.mp hmid)
        have hengine : mid.engine = p.entered.engine := by rw [hrest]
        have horacle : mid.oracle = p.entered.oracle := by rw [hrest]
        exact hentered.trans (hentered.toSecured.settled hsold hsettled hengine horacle)
      · rw [unsettled hmid]
        exact hentered.released
    refine leaves_bind hsettle fun _ mid _ hmid => ?_
    exact leaves_bind (hmid.committed hcapped hshortfall) fun _ _ _ hfin => leaves_pure hfin
  · exact fun q hq => hq.withEngine rfl rfl rfl

/-! ### Every run of liquidations -/

/-- An episode in which an account liquidates a borrower's position in a token, with whatever
offer, directly or as a transaction. -/
inductive Liquidates (borrower token : Address) : Episode → Prop where
  | direct {ctx : Context} {offer : Amount} :
      Liquidates borrower token (.direct ctx (.liquidate borrower token offer))
  | submitted {caller : Address} {offer : Amount} :
      Liquidates borrower token (.submitted caller (.liquidate borrower token offer))

/-- A position and the terms of its liquidation are as before. -/
structure SamePosition (rate : Rate) (borrower token : Address) (p q : Protocol) : Prop where
  deposit : q.vault.depositOf borrower token = p.vault.depositOf borrower token
  debt : q.ledger.debt borrower = p.ledger.debt borrower
  applies : rate.Applies q.vault q.oracle q.bank token
  sized : q.engine.Sized

/-- A history in which nothing but its liquidations touches a position. -/
def Undisturbed (rate : Rate) (borrower token : Address) (p : Protocol) : List Episode → Prop
  | [] => True
  | episode :: rest =>
    (Liquidates borrower token episode ∨ SamePosition rate borrower token p (p.next episode)) ∧
      Undisturbed rate borrower token (p.next episode) rest

/-- **One liquidation**, direct or as a transaction, answered or refused. -/
theorem Secured.next_liquidated (h : Secured rate borrower token p)
    (hliquidates : Liquidates borrower token episode) :
    StaysSecured rate borrower token p (p.next episode) := by
  have hperform : ∀ ctx offer, (perform ctx (.liquidate borrower token offer)).Leaves p
      (StaysSecured rate borrower token p) :=
    fun _ _ => leaves_bind h.liquidated fun _ _ _ hq => leaves_pure hq
  cases hliquidates with
  | direct => exact hperform _ _
  | submitted =>
      exact leaves_orRestore (leaves_get (hperform _ _)) fun _ hq => hq.restored h

namespace SamePosition

/-- What leaves the position alone leaves it secured. -/
theorem secured (h : SamePosition rate borrower token p q)
    (hp : Secured rate borrower token p) : Secured rate borrower token q where
  applies := h.applies
  secures := by
    rw [h.deposit, h.debt]
    exact hp.secures
  sized := h.sized

theorem sustained (h : SamePosition rate borrower token p q) : Sustained borrower token p q where
  debt := by
    rw [h.debt]
    exact Nat.le_refl _
  backing := by rw [h.deposit, h.debt]

end SamePosition

/-- **Over an undisturbed history** a position stays secured. -/
theorem Secured.through (episodes : List Episode) : ∀ p : Protocol,
    Secured rate borrower token p → Undisturbed rate borrower token p episodes →
    Secured rate borrower token (p.through episodes) ∧
      Sustained borrower token p (p.through episodes) := by
  induction episodes with
  | nil => intro p h _; exact ⟨h, .refl borrower token p⟩
  | cons episode rest ih =>
      rintro p h ⟨hfirst, hrest⟩
      have hstep : Secured rate borrower token (p.next episode) ∧
          Sustained borrower token p (p.next episode) := by
        rcases hfirst with hliquidates | hsame
        · have hstays := h.next_liquidated hliquidates
          exact ⟨hstays.toSecured, hstays.toSustained⟩
        · exact ⟨hsame.secured h, hsame.sustained⟩
      obtain ⟨hsecured, hsustained⟩ := ih (p.next episode) hstep.1 hrest
      exact ⟨hsecured, hstep.2.trans hsustained⟩

/-- **A position that is worth what its debt is due stays so.**  Over every history in which nothing
but liquidations touches the position, in every state, the deposit is worth what the debt is due,
and no less of it is left to a unit of debt than at the start.  Whoever liquidates then, whatever is
offered and however the call ends, no bad debt is recorded, nothing is capped, and no less
collateral is left to a unit of debt than before the call. -/
theorem secured_position_stays_secured (hrate : rate.Applies p.vault p.oracle p.bank token)
    (hsized : p.engine.Sized)
    (hsecured : (p.ledger.debt borrower).val * (10000 + rate.penalty.toNat) *
        Nat.pow 10 rate.decimals.toNat ≤
      (p.vault.depositOf borrower token).val * rate.price.val * 10000)
    (episodes : List Episode) (hundisturbed : Undisturbed rate borrower token p episodes) :
    let q := p.through episodes
    (q.ledger.debt borrower).val * (10000 + rate.penalty.toNat) *
          Nat.pow 10 rate.decimals.toNat ≤
        (q.vault.depositOf borrower token).val * rate.price.val * 10000 ∧
      (p.vault.depositOf borrower token).val * (q.ledger.debt borrower).val ≤
        (q.vault.depositOf borrower token).val * (p.ledger.debt borrower).val ∧
      (∀ offer quote, offer ≤ q.ledger.debt borrower →
        q.quote borrower token offer = .ok quote → quote.capped = false) ∧
      (∀ caller offer o, q.Returns caller (.liquidate borrower token offer) (.outcome o) →
        o.badDebtRecorded = 0) ∧
      ∀ episode, Liquidates borrower token episode →
        let r := q.next episode
        r.engine.badDebt = q.engine.badDebt ∧
          r.engine.statistics.capped = q.engine.statistics.capped ∧
          (q.vault.depositOf borrower token).val * (r.ledger.debt borrower).val ≤
            (r.vault.depositOf borrower token).val * (q.ledger.debt borrower).val := by
  intro q
  have hstart : Secured rate borrower token p := ⟨hrate, hsecured, hsized⟩
  obtain ⟨hsecured, hsustained⟩ := Secured.through episodes p hstart hundisturbed
  refine ⟨hsecured.secures, hsustained.backing, ?_, ?_, fun episode hliquidates => ?_⟩
  · intro offer quote hoffer hquote
    exact (hsecured.quoted_within hoffer hquote).1
  · intro caller offer o hreturns
    obtain ⟨now, r, health, quote, hliquidated, rfl⟩ := hreturns.liquidated
    exact (hsecured.quoted (prepare_ok hliquidated.prepared)).2.1
  · have hstays := hsecured.next_liquidated hliquidates
    exact ⟨hstays.badDebt, hstays.capped, hstays.backing⟩

/-! ### A debt that is called in -/

end Protocol

namespace Sample

/-- Bob owes 1760 dollars, for a deposit that is worth 1980. -/
def mortgaged : Protocol := indebted ⟨1760 * debtUnit.val, by decide⟩

/-- What his token is sold at. -/
def wethRate : Rate := ⟨price, 500, 18, wbtcRate.positive⟩

/-- A part is repaid, governance lets larger parts be repaid at once, and as much as may be is
repaid by a direct call. -/
def dunning : List Episode :=
  [.submitted liquidator (.liquidate bob weth Protocol.instalment),
    .submitted admin (.setCloseFactor 7500),
    .direct ⟨liquidator, 0⟩ (.liquidate bob weth .largest)]

end Sample

namespace Protocol

open Custody.Sample

/-- The debt falls from 1760 dollars to 315, and stays secured. -/
theorem secured_position_stays_secured_dunning :
    let q := mortgaged.through dunning
    wethRate.Applies mortgaged.vault mortgaged.oracle mortgaged.bank weth ∧
      mortgaged.engine.Sized ∧
      (mortgaged.ledger.debt bob).val * (10000 + wethRate.penalty.toNat) *
          Nat.pow 10 wethRate.decimals.toNat ≤
        (mortgaged.vault.depositOf bob weth).val * wethRate.price.val * 10000 ∧
      Undisturbed wethRate bob weth mortgaged dunning ∧
      mortgaged.isLiquidatable bob = .ok true ∧
      q.ledger.debt bob = ⟨315 * debtUnit.val, by decide⟩ ∧
      (q.ledger.debt bob).val * (10000 + wethRate.penalty.toNat) *
          Nat.pow 10 wethRate.decimals.toNat ≤
        (q.vault.depositOf bob weth).val * wethRate.price.val * 10000 := by
  have hrate : wethRate.Applies mortgaged.vault mortgaged.oracle mortgaged.bank weth := {
    config := ⟨.listed ⟨7500, 8000, 500⟩, by decide +kernel, rfl⟩
    entry := by decide +kernel
    decimals := Check.eq_ok_of_toOption (by decide +kernel) }
  have hsized : mortgaged.engine.Sized := Check.eq_ok_of_toOption (by decide +kernel)
  have hsecured : (mortgaged.ledger.debt bob).val * (10000 + wethRate.penalty.toNat) *
        Nat.pow 10 wethRate.decimals.toNat ≤
      (mortgaged.vault.depositOf bob weth).val * wethRate.price.val * 10000 := by decide +kernel
  have hundisturbed : Undisturbed wethRate bob weth mortgaged dunning := by
    -- Governance's call is the only one that is no liquidation.
    refine ⟨.inl .submitted, .inr ?_, .inl .direct, trivial⟩
    exact {
      deposit := by decide +kernel
      debt := by decide +kernel
      applies := {
        config := ⟨.listed ⟨7500, 8000, 500⟩, by decide +kernel, rfl⟩
        entry := by decide +kernel
        decimals := Check.eq_ok_of_toOption (by decide +kernel) }
      sized := Check.eq_ok_of_toOption (by decide +kernel) }
  obtain ⟨hstays, -⟩ :=
    secured_position_stays_secured hrate hsized hsecured dunning hundisturbed
  exact ⟨hrate, hsized, hsecured, hundisturbed, Check.eq_ok_of_toOption (by decide +kernel),
    by decide +kernel, hstays⟩

end Protocol

end Custody
