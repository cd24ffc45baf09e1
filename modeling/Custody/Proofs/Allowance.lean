/-
What an approval can cost.

Users approve the vault and the engine for more than one deposit and more than one
repayment, and some calls name a user or a borrower besides the caller.  An approval would
be abused if such a call pulled from the user it names, or from anybody else who has
approved the component.

Whatever leaves an account in the course of a call leaves the caller's, the vault's or the
engine's.  A deposit pulls from the caller, a release sends from the vault, and a
liquidation pulls from the caller and burns in the engine's account.  So nothing happens to
the others while they do not act, however long that is.
-/
import Custody.Proofs.Solvency

namespace Custody

/-- A turn without an account: others call, and what happens spares it. -/
def Turn.Without (account : Address) : Turn → Prop
  | .call caller _ => caller ≠ account
  | .happening change => change.Spares account

instance (account : Address) : DecidablePred (Turn.Without account) := fun turn =>
  match turn with
  | .call caller _ => inferInstanceAs (Decidable (caller ≠ account))
  | .happening change => inferInstanceAs (Decidable (change.Spares account))

namespace Protocol

variable {ctx : Context} {user token recipient borrower account : Address}
  {amount received offer : Amount} {told : Event} {now : Timestamp} {health : UInt64}
  {quote : Quote} {p q : Protocol} {b : Bank}

/-! ### Whose tokens move -/

/-- A deposit is pulled from the caller, for whomever it is booked. -/
theorem Deposited.spared (h : Deposited ctx user token amount received told p q)
    (hcaller : ctx.caller ≠ account) : Bank.Spared account p.bank q.bank :=
  (Bank.transferFrom_spared hcaller).of_ok h.moved

/-- A release is sent from the vault. -/
theorem Released.spared (h : Released user token amount recipient now told p q)
    (hvault : p.vault.address ≠ account) : Bank.Spared account p.bank q.bank :=
  (Bank.transfer_spared hvault).of_ok h.moved

/-- A repayment is pulled from the caller and burned in the engine's account. -/
theorem Liquidated.spared (h : Liquidated ctx borrower token offer health quote p q)
    (hcaller : ctx.caller ≠ account) (hvault : p.vault.address ≠ account)
    (hengine : p.engine.address ≠ account) : Bank.Spared account p.bank q.bank := by
  obtain ⟨pulled, burned, hpull, hburn, hreleased⟩ := h.settled.moved
  have hpulled := (Bank.transferFrom_spared hcaller).of_ok hpull
  have hburned := (Bank.burn_spared hengine).of_ok hburn
  have hsent := (Bank.transfer_spared hvault).of_ok hreleased.moved
  exact (hpulled.trans hburned).trans hsent

/-! ### One turn -/

/-- An account that belongs to no component, and that has at least the balances and exactly
the allowances that it had. -/
structure Unabused (account : Address) (b : Bank) (p : Protocol) : Prop where
  vault : p.vault.address ≠ account
  engine : p.engine.address ≠ account
  spared : Bank.Spared account b p.bank

namespace Unabused

variable (h : Unabused account b p)

include h

/-- What spares the account and keeps the addresses of the components. -/
theorem of_spared (hspared : Bank.Spared account p.bank q.bank)
    (hvault : q.vault.address = p.vault.address)
    (hengine : q.engine.address = p.engine.address) : Unabused account b q where
  vault := by rw [hvault]; exact h.vault
  engine := by rw [hengine]; exact h.engine
  spared := h.spared.trans hspared

/-- A call of another account, answered or refused. -/
theorem after_call {caller : Address} (hcaller : caller ≠ account) (call : Call) :
    Unabused account b (p.after (.call caller call)) := by
  rcases Protocol.after_call p caller call with ⟨reply, -, heffect⟩ | ⟨e, -, hrestored⟩
  · generalize p.after (.call caller call) = q at heffect
    cases heffect with
    | deposited hdeposited | depositedFor _ hdeposited =>
        exact h.of_spared (hdeposited.spared hcaller) hdeposited.address (by rw [hdeposited.engine])
    | withdrawn _ hreleased | seized _ hreleased | withdrawnFor _ hreleased =>
        exact h.of_spared (hreleased.spared h.vault) hreleased.address (by rw [hreleased.engine])
    | liquidated hliquidated =>
        obtain ⟨pulled, burned, -, -, hreleased⟩ := hliquidated.settled.moved
        refine h.of_spared (hliquidated.spared hcaller h.vault h.engine) hreleased.address ?_
        rw [hliquidated.committed.rest]
    | socialized hsocialized =>
        refine h.of_spared ?_ ?_ ?_
        · rw [hsocialized.rest]
          exact .rfl
        · rw [hsocialized.rest]
        · rw [hsocialized.engine]
    | administered _ hadmin =>
        refine h.of_spared ?_ hadmin.vault.address hadmin.engine.address
        rw [hadmin.bank]
        exact .rfl
  · refine h.of_spared ?_ ?_ ?_
    · rw [hrestored.bank]
      exact .rfl
    · rw [hrestored.vault]
      rfl
    · rw [hrestored.engine]
      rfl

omit h in
theorem after_turn (p : Protocol) (turn : Turn) (hturn : turn.Without account)
    (h : Unabused account b p) : Unabused account b (p.after turn) := by
  cases turn with
  | call caller call => exact h.after_call hturn call
  | happening happening =>
      obtain ⟨hvault, hengine⟩ := Protocol.after_happening p happening
      exact h.of_spared (spared_after_happening hturn) (by rw [hvault]) (by rw [hengine])

end Unabused

/-! ### Every call and every run -/

/-- **Approvals cannot be abused.**  Whatever another account calls, with whatever arguments,
answered or refused: an account that belongs to neither component has at least the same
balance of every token afterwards, and every allowance that it gave is as it was. -/
theorem approvals_not_abused {caller : Address} (call : Call) (hcaller : account ≠ caller)
    (hvault : account ≠ p.vault.address) (hengine : account ≠ p.engine.address)
    (token : Address) :
    p.bank.balance token account ≤
        (p.after (.call caller call)).bank.balance token account ∧
      ∀ spender, (p.after (.call caller call)).bank.allowance token account spender =
        p.bank.allowance token account spender := by
  have hstart : Unabused account p.bank p := ⟨hvault.symm, hengine.symm, .rfl⟩
  have hspared := (hstart.after_call hcaller.symm call).spared
  exact ⟨hspared.balance token, hspared.allowance token⟩

/-- Bob gets debt tokens of the liquidator and approves the engine for them.  The liquidator
is left with the most that can be approved. -/
def sponsored : Protocol :=
  (Sample.indebted Sample.loan).run
    [.happening (.transfer Sample.debtToken Sample.liquidator Sample.bob Sample.loan),
      .happening (.approve Sample.debtToken Sample.bob Sample.engineAccount Sample.loan)]

/-- Bob liquidates alice, and though the liquidator's approval covers it, bob pays. -/
theorem approvals_not_abused_sponsored :
    let call := Call.liquidate Sample.alice Sample.wbtc Sample.loan
    let q := sponsored.after (.call Sample.bob call)
    Sample.liquidator ≠ Sample.bob ∧ Sample.liquidator ≠ sponsored.vault.address ∧
      Sample.liquidator ≠ sponsored.engine.address ∧
      sponsored.bank.allowance Sample.debtToken Sample.liquidator Sample.engineAccount =
        .largest ∧
      ((submit Sample.bob call).reply? sponsored).isSome ∧
      q.bank.balance Sample.debtToken Sample.bob <
        sponsored.bank.balance Sample.debtToken Sample.bob ∧
      sponsored.bank.balance Sample.debtToken Sample.liquidator ≤
        q.bank.balance Sample.debtToken Sample.liquidator ∧
      ∀ spender, q.bank.allowance Sample.debtToken Sample.liquidator spender =
        sponsored.bank.allowance Sample.debtToken Sample.liquidator spender := by
  intro call q
  have hcaller : Sample.liquidator ≠ Sample.bob := by decide
  have hvault : Sample.liquidator ≠ sponsored.vault.address := by decide +kernel
  have hengine : Sample.liquidator ≠ sponsored.engine.address := by decide +kernel
  have hspared := approvals_not_abused call hcaller hvault hengine Sample.debtToken
  exact ⟨hcaller, hvault, hengine, by decide +kernel, by decide +kernel, by decide +kernel,
    hspared⟩

/-- **Who does not act loses nothing**, in any run of calls of others and of happenings that
spare the account. -/
theorem absent_account_spared (turns : List Turn)
    (hturns : ∀ turn ∈ turns, turn.Without account) (hvault : account ≠ p.vault.address)
    (hengine : account ≠ p.engine.address) : Bank.Spared account p.bank (p.run turns).bank := by
  have hstart : Unabused account p.bank p := ⟨hvault.symm, hengine.symm, .rfl⟩
  exact (run_induction Unabused.after_turn turns p hturns hstart).spared

end Protocol

end Custody
