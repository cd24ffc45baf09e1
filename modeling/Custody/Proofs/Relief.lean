/-
What relieves a position.

Between two states with the same prices, the same tokens and the same terms, a user whose deposits
have not shrunk and whose debt has not grown has no lower health factor, whichever prices it is
read at.  A deposit leaves such a state behind for everybody, not only for the user who gets it,
and so does a reduction of a debt.  The relation between the states composes.  So any sequence of
deposits and reductions is compared from end to end, and it does not matter whether the factor
could be read in between.
-/
import Mathlib.Logic.Relation
import Custody.Proofs.Debt
import Custody.Proofs.Health
import Custody.Proofs.Run

namespace Custody.Protocol

open Custody.Action

variable {p q s : Protocol} {user : Address} {mode : ReadMode}

/-- Nothing that the user's health factor is read from has become worse. -/
structure Eased (user : Address) (p q : Protocol) : Prop where
  grown : Health.Grown user p.vault.view q.vault.view
  debt : q.ledger.debt user ≤ p.ledger.debt user
  oracle : q.oracle = p.oracle

namespace Eased

theorem refl (user : Address) (p : Protocol) : Eased user p p where
  grown := ⟨rfl, rfl, fun _ => Nat.le_refl _⟩
  debt := Nat.le_refl _
  oracle := rfl

theorem trans (h : Eased user p q) (h' : Eased user q s) : Eased user p s where
  grown := {
    tokens := h'.grown.tokens.trans h.grown.tokens
    config := h'.grown.config.trans h.grown.config
    deposit := fun token => Nat.le_trans (h.grown.deposit token) (h'.grown.deposit token) }
  debt := Nat.le_trans h'.debt h.debt
  oracle := h'.oracle.trans h.oracle

/-- Eased positions have no lower factors. -/
theorem factor_le {f f' : UInt64} (h : Eased user p q)
    (hbefore : Health.factor p.ledger p.oracle mode p.vault.view user = .ok f)
    (hafter : Health.factor q.ledger q.oracle mode q.vault.view user = .ok f') : f ≤ f' := by
  rw [h.oracle] at hafter
  exact Health.factor_mono h.grown h.debt hbefore hafter

end Eased

/-! ### Deposits and reductions -/

/-- A deposit that was answered, or a reduction of a debt that the ledger took. -/
inductive Relieves (p q : Protocol) : Prop
  | deposited {ctx : Context} {token : Address} {amount received : Amount} :
      deposit ctx token amount p = .ok received q → Relieves p q
  | depositedFor {ctx : Context} {user token : Address} {amount received : Amount} :
      depositFor ctx user token amount p = .ok received q → Relieves p q
  | reduced {user : Address} {amount : Amount} :
      onLedger (Ledger.reduce user amount) p = .ok () q → Relieves p q

/-- A deposit eases the position of its user and of everybody else. -/
theorem Deposited.eased {ctx : Context} {owner token : Address} {amount received : Amount}
    {told : Event} (h : Deposited ctx owner token amount received told p q) (user : Address) :
    Eased user p q where
  grown := by
    obtain ⟨deposit, total, -, -, hvault⟩ := h.vault
    refine ⟨?_, ?_, fun t => ?_⟩
    · rw [hvault]
      rfl
    · rw [hvault]
      rfl
    · exact h.le_deposit user t
  debt := by
    rw [h.ledger]
    exact Nat.le_refl _
  oracle := h.oracle

theorem Relieves.eased (h : Relieves p q) (user : Address) : Eased user p q := by
  cases h with
  | deposited hdeposit => exact (deposit_ok hdeposit).eased user
  | depositedFor hdeposit => exact (depositFor_ok hdeposit).2.eased user
  | reduced hreduce =>
      simp only [onLedger, on_eq_ok] at hreduce
      obtain ⟨m, hreduce, rfl⟩ := hreduce
      have hdebt := (Ledger.reduce_ok hreduce).debt user
      refine ⟨(Eased.refl user p).grown, ?_, rfl⟩
      rw [Amount.le_def]
      exact Nat.le.intro hdebt

theorem eased_of_relieved (h : Relation.ReflTransGen Relieves p q) (user : Address) :
    Eased user p q := by
  induction h with
  | refl => exact Eased.refl user p
  | tail _ hlast ih => exact ih.trans (hlast.eased user)

/-- **More collateral and less debt never lower a health factor.**  Of two readings in the same
mode, at the same prices and on the same terms, the one with no smaller deposit in any token and no
larger debt is not the lower one.  So the reading after any sequence of answered deposits and
reductions of debts, if there is one, is no lower than the reading before it, for every user. -/
theorem relief_never_lowers_health :
    (∀ (l l' : Ledger) (o : Oracle) (mode : ReadMode) (view view' : CollateralView)
        (user : Address) (f f' : UInt64), Health.Grown user view view' →
      l'.debt user ≤ l.debt user → Health.factor l o mode view user = .ok f →
        Health.factor l' o mode view' user = .ok f' → f ≤ f') ∧
      ∀ (p q : Protocol), Relation.ReflTransGen Relieves p q →
        ∀ (user : Address) (mode : ReadMode) (f f' : UInt64),
          Health.factor p.ledger p.oracle mode p.vault.view user = .ok f →
            Health.factor q.ledger q.oracle mode q.vault.view user = .ok f' → f ≤ f' := by
  refine ⟨fun l l' o mode view view' user f f' hgrown hdebt hbefore hafter => ?_,
    fun p q hrelieved user mode f f' hbefore hafter => ?_⟩
  · exact Health.factor_mono hgrown hdebt hbefore hafter
  · exact (eased_of_relieved hrelieved user).factor_le hbefore hafter

/-! ### A top-up

Alice owes five times the price of a unit and has another unit of the token without a fee.
-/

/-- Before she deposits it. -/
def strained : Protocol := (Sample.indebted Sample.loan).run
  [.happening (.mint Sample.wbtc Sample.alice Sample.unit),
    .happening (.approve Sample.wbtc Sample.alice Sample.vaultAccount Sample.unit)]

/-- After she has deposited it. -/
def toppedUp : Protocol :=
  (deposit ⟨Sample.alice, 0⟩ Sample.wbtc Sample.unit).left strained

/-- After most of her debt is repaid as well. -/
def disburdened : Protocol :=
  (onLedger (Ledger.reduce Sample.alice ⟨8000 * debtUnit.val, by decide⟩)).left toppedUp

/-- The deposit and the repayment raise her factor from 31.84 to 239.2 percent. -/
theorem relief_never_lowers_health_topUp :
    let factor (p : Protocol) :=
      Health.factor p.ledger p.oracle .checked p.vault.view Sample.alice
    Relation.ReflTransGen Relieves strained disburdened ∧
      factor strained = .ok 3184 ∧ factor disburdened = .ok 23920 ∧
      (3184 : UInt64) ≤ 23920 := by
  intro factor
  have hdeposit : deposit ⟨Sample.alice, 0⟩ Sample.wbtc Sample.unit strained =
      .ok Sample.unit toppedUp := eq_ok_of_reply? (by decide +kernel)
  have hreduce :
      onLedger (Ledger.reduce Sample.alice ⟨8000 * debtUnit.val, by decide⟩) toppedUp =
      .ok () disburdened := eq_ok_of_reply? (by decide +kernel)
  have hrelieved : Relation.ReflTransGen Relieves strained disburdened :=
    (Relation.ReflTransGen.single (.deposited hdeposit)).tail (.reduced hreduce)
  have hbefore : factor strained = .ok 3184 := Check.eq_ok_of_toOption (by decide +kernel)
  have hafter : factor disburdened = .ok 23920 := Check.eq_ok_of_toOption (by decide +kernel)
  obtain ⟨-, hruns⟩ := relief_never_lowers_health
  exact ⟨hrelieved, hbefore, hafter,
    hruns _ _ hrelieved Sample.alice .checked _ _ hbefore hafter⟩

end Custody.Protocol
