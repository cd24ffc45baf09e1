/-
Whose position a call is about.

A call names several accounts.  One pays, one is paid, one calls for the others, and each of them
may have deposits and a debt of its own.  Only one position is written all the same: that of the
user for whom a deposit is booked, whose collateral is released, who is liquidated, or whose bad
debt is written off.  What part the others have in the call makes no difference to theirs.

What is read of a position is made of what is booked for its user, of the prices, and of the terms.
A call about a position changes neither prices nor terms, so the others' readings are as before as
well.  An administrative call may change the terms, but it writes no position at all.
-/
import Custody.Proofs.Allowance
import Custody.Proofs.Health
import Custody.Proofs.Rules

namespace Custody

open Custody.Action

/-- The user whose position a call is about.  Administration is about nobody's. -/
def Call.subject? (caller : Address) : Call → Option Address
  | .deposit .. => some caller
  | .depositFor user .. | .withdraw user .. | .seize user .. | .withdrawFor user .. => some user
  | .liquidate borrower .. | .socialize borrower => some borrower
  | _ => none

theorem Call.not_administers_of_subject? {caller owner : Address} {call : Call}
    (h : call.subject? caller = some owner) : ¬ call.Administers := by
  cases call with
  | deposit | depositFor | withdraw | seize | withdrawFor | liquidate | socialize => exact id
  | _ => cases h

namespace Protocol

variable {ctx : Context} {caller user owner token recipient : Address}
  {amount received offer absorbed : Amount} {told : Event} {now : Timestamp} {health : UInt64}
  {quote : Quote} {call : Call} {reply : Reply} {p q s : Protocol}

/-- What is booked for a user is as before. -/
structure SameBooking (user : Address) (p q : Protocol) : Prop where
  deposit : ∀ token, q.vault.depositOf user token = p.vault.depositOf user token
  debt : q.ledger.debt user = p.ledger.debt user
  badDebt : q.engine.badDebt.of user = p.engine.badDebt.of user

/-- What positions are measured by is as before. -/
structure SameMeasure (p q : Protocol) : Prop where
  listed : q.vault.listed = p.vault.listed
  configs : q.vault.configs = p.vault.configs
  params : q.engine.params = p.engine.params
  oracle : q.oracle = p.oracle

/-- A position is as before, and so is its measure. -/
structure Unaffected (user : Address) (p q : Protocol) : Prop
  extends SameBooking user p q, SameMeasure p q

theorem Unaffected.refl (user : Address) (p : Protocol) : Unaffected user p p :=
  ⟨⟨fun _ => rfl, rfl, rfl⟩, ⟨rfl, rfl, rfl, rfl⟩⟩

theorem Unaffected.trans (h : Unaffected user p q) (h' : Unaffected user q s) :
    Unaffected user p s where
  deposit := fun token => (h'.deposit token).trans (h.deposit token)
  debt := h'.debt.trans h.debt
  badDebt := h'.badDebt.trans h.badDebt
  listed := h'.listed.trans h.listed
  configs := h'.configs.trans h.configs
  params := h'.params.trans h.params
  oracle := h'.oracle.trans h.oracle

/-! ### What is read of a position -/

namespace Unaffected

variable (h : Unaffected user p q)

include h

/-- The health factor is as before, whether or not breakers are heeded. -/
theorem factor_eq (mode : ReadMode) :
    Health.factor q.ledger q.oracle mode q.vault.view user =
      Health.factor p.ledger p.oracle mode p.vault.view user := by
  refine Health.factor_eq_of_user h.debt h.listed h.deposit (fun token => ?_) fun token => ?_
  · show (q.vault.configs.get? token).map CollateralConfig.params = _
    rw [h.configs]
    rfl
  · rw [h.oracle]

theorem health_eq : q.health user = p.health user := h.factor_eq .bypassing

theorem isLiquidatable_eq : q.isLiquidatable user = p.isLiquidatable user := by
  have hhealth : Engine.health q.vault q.ledger q.oracle user =
      Engine.health p.vault p.ledger p.oracle user := h.health_eq
  unfold isLiquidatable Engine.isLiquidatable
  rw [h.debt, hhealth]

theorem maxRepayable_eq : q.maxRepayable user = p.maxRepayable user := by
  have hhealth : Engine.health q.vault q.ledger q.oracle user =
      Engine.health p.vault p.ledger p.oracle user := h.health_eq
  unfold maxRepayable Engine.maxRepayable Engine.repayLimit
  rw [h.debt, hhealth, h.params]

end Unaffected

/-! ### What each call leaves untouched -/

theorem Deposited.sameBooking (h : Deposited ctx owner token amount received told p q)
    (hother : user ≠ owner) : SameBooking user p q where
  deposit := h.deposit_of_ne hother
  debt := by rw [h.ledger]
  badDebt := by rw [h.engine]

theorem Released.sameBooking (h : Released owner token amount recipient now told p q)
    (hother : user ≠ owner) : SameBooking user p q where
  deposit := h.deposit_of_ne hother
  debt := by rw [h.ledger]
  badDebt := by rw [h.engine]

/-- A liquidation writes three books, each for the borrower. -/
theorem Liquidated.sameBooking (h : Liquidated ctx owner token offer health quote p q)
    (hother : user ≠ owner) : SameBooking user p q where
  deposit := by
    obtain ⟨pulled, burned, -, -, hreleased⟩ := h.settled.moved
    exact hreleased.deposit_of_ne hother
  debt := (Ledger.reduce_ok h.settled.reduced).debt_of_ne hother
  badDebt := h.committed.badDebt.of_of_ne hother

theorem Socialized.sameBooking (h : Socialized ctx owner absorbed p q) (hother : user ≠ owner) :
    SameBooking user p q where
  deposit := by
    rw [h.rest]
    exact fun _ => rfl
  debt := h.ledger.debt_of_ne hother
  badDebt := h.cleared.of_of_ne hother

theorem Administered.sameBooking (h : Administered p q) : SameBooking user p q where
  deposit := fun token => by
    unfold Vault.depositOf
    rw [h.vault.deposits]
  debt := by rw [h.ledger]
  badDebt := by rw [h.engine.badDebt]

theorem Restored.sameBooking (h : Restored p q) : SameBooking user p q where
  deposit := by
    rw [h.vault]
    exact fun _ => rfl
  debt := by rw [h.ledger]
  badDebt := by
    rw [h.engine]
    rfl

theorem Effect.sameBooking (h : Effect ctx call reply p q)
    (hother : call.subject? ctx.caller ≠ some user) : SameBooking user p q := by
  have hne : ∀ {owner}, call.subject? ctx.caller = some owner → user ≠ owner :=
    fun howner heq => hother (heq ▸ howner)
  cases h with
  | deposited hdeposited => exact hdeposited.sameBooking (hne rfl)
  | depositedFor _ hdeposited => exact hdeposited.sameBooking (hne rfl)
  | withdrawn _ hreleased => exact hreleased.sameBooking (hne rfl)
  | seized _ hreleased => exact hreleased.sameBooking (hne rfl)
  | withdrawnFor _ hreleased => exact hreleased.sameBooking (hne rfl)
  | liquidated hliquidated => exact hliquidated.sameBooking (hne rfl)
  | socialized hsocialized => exact hsocialized.sameBooking (hne rfl)
  | administered _ hadmin => exact hadmin.sameBooking

/-! ### One turn -/

/-- **A call writes no position but the one it is about**, answered or refused. -/
theorem after_call_booking (hother : call.subject? caller ≠ some user) :
    SameBooking user p (p.after (.call caller call)) := by
  rcases after_call p caller call with ⟨reply, -, heffect⟩ | ⟨e, -, hrestored⟩
  · exact heffect.sameBooking hother
  · exact hrestored.sameBooking

theorem after_call_rules (hcall : ¬ call.Administers) :
    SameRules p (p.after (.call caller call)) := by
  rcases after_call p caller call with ⟨reply, hsubmit, -⟩ | ⟨e, -, hrestored⟩
  · exact sameRules_of_perform hcall (submit_eq_ok.mp hsubmit)
  · exact hrestored.sameRules

theorem after_call_measure (hcall : ¬ call.Administers) :
    SameMeasure p (p.after (.call caller call)) := by
  have hrules : SameRules p (p.after (.call caller call)) := after_call_rules hcall
  have houtside : SameOutside p (p.after (.call caller call)) := submit_outside
  exact ⟨hrules.vault.listed, hrules.vault.configs, hrules.params, houtside.oracle⟩

/-- A call about somebody else's position, answered or refused. -/
theorem after_call_unaffected (hsubject : call.subject? caller = some owner)
    (hother : user ≠ owner) : Unaffected user p (p.after (.call caller call)) := by
  have hbooking : SameBooking user p (p.after (.call caller call)) := by
    refine after_call_booking fun hself => hother ?_
    rw [hsubject] at hself
    exact (Option.some.inj hself).symm
  have hmeasure : SameMeasure p (p.after (.call caller call)) :=
    after_call_measure (Call.not_administers_of_subject? hsubject)
  exact { hbooking, hmeasure with }

/-- **Positions are isolated.**  A call about one user's position, answered or refused, leaves what
is booked for every other user as it was, whoever calls, pays or receives, and with it whatever is
read of the other's position. -/
theorem positions_isolated (hsubject : call.subject? caller = some owner)
    (hother : user ≠ owner) :
    let q := p.after (.call caller call)
    ((∀ token, q.vault.depositOf user token = p.vault.depositOf user token) ∧
      q.ledger.debt user = p.ledger.debt user ∧
      q.engine.badDebt.of user = p.engine.badDebt.of user) ∧
    q.health user = p.health user ∧ q.healthReading user = p.healthReading user ∧
    q.maxRepayable user = p.maxRepayable user ∧
    q.isLiquidatable user = p.isLiquidatable user := by
  intro q
  have h : Unaffected user p q := after_call_unaffected hsubject hother
  have hreading : q.healthReading user = p.healthReading user := by
    unfold healthReading Health.read
    rw [h.factor_eq .checked, h.factor_eq .bypassing]
  exact ⟨⟨h.deposit, h.debt, h.badDebt⟩, h.health_eq, hreading, h.maxRepayable_eq,
    h.isLiquidatable_eq⟩

/-- Bob owes what alice owes, and is the liquidator of one of her deposits.  He pays and receives,
and her shortfall goes on record; he can be liquidated as before. -/
theorem positions_isolated_sponsored :
    let call := Call.liquidate Sample.alice Sample.wbtc Sample.loan
    let q := sponsored.after (.call Sample.bob call)
    call.subject? Sample.bob = some Sample.alice ∧ Sample.bob ≠ Sample.alice ∧
      ((submit Sample.bob call).reply? sponsored).isSome ∧
      (q.bank.balance Sample.debtToken Sample.bob <
          sponsored.bank.balance Sample.debtToken Sample.bob ∧
        q.vault.depositOf Sample.alice Sample.wbtc = 0 ∧
        q.ledger.debt Sample.alice < sponsored.ledger.debt Sample.alice ∧
        0 < q.engine.badDebt.of Sample.alice) ∧
      (q.vault.depositOf Sample.bob Sample.weth =
        sponsored.vault.depositOf Sample.bob Sample.weth ∧
        q.ledger.debt Sample.bob = sponsored.ledger.debt Sample.bob ∧
        q.engine.badDebt.of Sample.bob = sponsored.engine.badDebt.of Sample.bob) ∧
      q.health Sample.bob = .ok 1584 ∧ q.maxRepayable Sample.bob = .ok Sample.loan ∧
      q.isLiquidatable Sample.bob = .ok true := by
  intro call q
  have hsubject : call.subject? Sample.bob = some Sample.alice := rfl
  have hother : Sample.bob ≠ Sample.alice := by decide
  obtain ⟨⟨hdeposit, hdebt, hrecord⟩, hhealth, -, hlimit, hliquidatable⟩ :=
    positions_isolated (p := sponsored) hsubject hother
  have hbefore : sponsored.health Sample.bob = .ok 1584 :=
    Check.eq_ok_of_toOption (by decide +kernel)
  have hlimitBefore : sponsored.maxRepayable Sample.bob = .ok Sample.loan :=
    Check.eq_ok_of_toOption (by decide +kernel)
  have hliquidatableBefore : sponsored.isLiquidatable Sample.bob = .ok true :=
    Check.eq_ok_of_toOption (by decide +kernel)
  refine ⟨hsubject, hother, by decide +kernel, by decide +kernel,
    ⟨hdeposit Sample.weth, hdebt, ?_⟩, hhealth.trans hbefore, hlimit.trans hlimitBefore,
    hliquidatable.trans hliquidatableBefore⟩
  rw [← hrecord]

end Protocol

/-! ### Every run

The rest of the world goes on as well.  Tokens move, time passes, and debts of others change.
-/

/-- Neither a price changes nor the debt of the user. -/
def Happening.Elsewhere (user : Address) : Happening → Prop
  | .setDebt debtor _ | .reduceDebt debtor _ => user ≠ debtor
  | .setPrice .. | .setBreaker .. | .setDown .. => False
  | _ => True

/-- A turn that is about others. -/
def Turn.Elsewhere (user : Address) : Turn → Prop
  | .call caller request => ∃ owner, request.subject? caller = some owner ∧ user ≠ owner
  | .happening change => change.Elsewhere user

namespace Protocol

variable {user : Address} {p : Protocol}

theorem happen_elsewhere {change : Happening} (h : change.Elsewhere user) :
    (happen change).Leaves p fun q =>
      q.ledger.debt user = p.ledger.debt user ∧ q.oracle = p.oracle := by
  have honBank : ∀ {x : Action Bank Unit}, (onBank x).Leaves p fun q =>
      q.ledger.debt user = p.ledger.debt user ∧ q.oracle = p.oracle :=
    leaves_on (leaves_of_forall fun _ => ⟨rfl, rfl⟩)
  have honLedger : ∀ {x : Action Ledger Unit},
      (x.Leaves p.ledger fun l => l.debt user = p.ledger.debt user) →
        (onLedger x).Leaves p fun q =>
          q.ledger.debt user = p.ledger.debt user ∧ q.oracle = p.oracle :=
    fun hx => leaves_on (hx.imp fun _ hdebt => ⟨hdebt, rfl⟩)
  cases change with
  | registerToken | setFee | setFrozen | mint | approve | transfer | transferFrom | burn =>
      exact honBank
  | setDebt => exact honLedger (Ledger.setDebt_of_ne h)
  | setReserves | setSupplied | setRejecting => exact honLedger (leaves_modify rfl)
  | reduceDebt => exact honLedger (Ledger.reduce_of_ne h)
  | absorbLoss => exact honLedger (Ledger.absorb_debts.imp fun _ hdebts => by
      unfold Ledger.debt
      rw [hdebts])
  | setPrice | setBreaker | setDown => exact h.elim
  | setTime | advance => exact ⟨rfl, rfl⟩

theorem after_unaffected {turn : Turn} (hturn : turn.Elsewhere user) :
    Unaffected user p (p.after turn) := by
  cases turn with
  | call caller call =>
      obtain ⟨owner, hsubject, hother⟩ := hturn
      exact after_call_unaffected hsubject hother
  | happening change =>
      obtain ⟨hvault, hengine⟩ := after_happening p change
      obtain ⟨hdebt, horacle⟩ : (p.after (.happening change)).ledger.debt user =
          p.ledger.debt user ∧ (p.after (.happening change)).oracle = p.oracle :=
        happen_elsewhere hturn
      exact {
        deposit := fun _ => by rw [hvault]
        debt := hdebt
        badDebt := by rw [hengine]
        listed := by rw [hvault]
        configs := by rw [hvault]
        params := by rw [hengine]
        oracle := horacle }

/-- **Whom no turn is about is unaffected by the run**, with all that is read of the position. -/
theorem uninvolved_unaffected (turns : List Turn)
    (hturns : ∀ turn ∈ turns, turn.Elsewhere user) : Unaffected user p (p.run turns) :=
  run_induction (fun _ _ hturn h => h.trans (after_unaffected hturn)) turns p hturns (.refl user p)

end Protocol

end Custody
