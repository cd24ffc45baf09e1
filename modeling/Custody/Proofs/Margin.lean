/-
A checked withdrawal leaves a margin.

The check stands between the debit and the transfer.  It reads the health factor from
checked prices, and from the bypassing ones if that fails.  A liquidation reads bypassing
prices only, and it reads them later, in the state that the withdrawal left.  So two
readings have to agree.  They do, because a checked price that answers is the bypassing
price, and because sending tokens changes nothing that a health factor is read from.
-/
import Custody.Proofs.Reading

namespace Custody

namespace Protocol

open Custody.Action

variable {ctx : Context} {user token recipient : Address} {amount : Amount} {p q : Protocol}
  {r : Unit}

/-! ### The check -/

/-- The check passes a user without debt, and one whose factor was read and is large enough. -/
theorem checkMargin_ok (h : checkMargin p user = .ok r) :
    p.ledger.debt user = 0 ∨
      ∃ factor, p.health user = .ok factor ∧ withdrawalMarginBps ≤ factor := by
  unfold checkMargin at h
  split at h
  next hdebt => exact .inl hdebt
  next =>
    split at h
    next => cases h
    next factor hread =>
      split at h
      next => cases h
      next hmargin =>
        exact .inr ⟨factor, Health.read_value_eq_some.mp hread, UInt64.not_lt.mp hmargin⟩

/-- A checked withdrawal was checked in a state with the debts, the prices and the collateral
of the state that it left. -/
theorem withdrawFor_checked (h : withdrawFor ctx user token amount recipient false p = .ok r q) :
    ∃ s : Protocol, checkMargin s user = .ok () ∧ q.ledger = s.ledger ∧
      q.oracle = s.oracle ∧
      q.vault.view = s.vault.view := by
  simp only [withdrawFor, send, vaultCall, onVault, onBank, Vault.tell, Guard.hold_eq_ok, get_bind,
    refuseIf_eq_ok, bind_eq_ok, check_eq_ok, on_eq_ok, modify_eq_ok, undoing_eq_ok] at h
  obtain ⟨-, _, ⟨_, _, ⟨-, rfl⟩, _, _, ⟨-, rfl⟩, -, _, _, ⟨-, rfl⟩, -, receipt, _,
    ⟨w, -, rfl⟩, _, _, ⟨_, _, hcheck, c, -, rfl⟩, _, rfl, rfl⟩, rfl⟩ := h
  obtain ⟨hmargin, rfl⟩ := check_eq_ok.mp hcheck
  exact ⟨_, hmargin, rfl, rfl, rfl⟩

/-! ### After the call -/

/-- A factor at the margin is above parity. -/
private theorem not_liquidatable {factor : UInt64} (h : p.health user = .ok factor)
    (hmargin : withdrawalMarginBps ≤ factor) : p.isLiquidatable user = .ok false := by
  have hread : Engine.health p.vault p.ledger p.oracle user = .ok factor := h
  have hparity : ¬ factor < parityBps := by
    refine UInt64.not_lt.mpr (UInt64.le_trans ?_ hmargin)
    decide
  unfold isLiquidatable Engine.isLiquidatable
  split
  next => rfl
  next =>
    rw [hread]
    show Except.ok (decide (factor < parityBps)) = _
    rw [decide_eq_false hparity]

/-- **A checked withdrawal never leaves a position that can be liquidated.**  Whatever
breakers are open and whatever feeds are down, the user is without debt afterwards or has a
health factor of at least 110 percent by the reading that decides about liquidation. -/
theorem withdrawal_leaves_margin
    (h : withdrawFor ctx user token amount recipient false p = .ok r q) :
    (q.ledger.debt user = 0 ∨ ∃ factor, q.health user = .ok factor ∧ 11000 ≤ factor) ∧
      q.isLiquidatable user = .ok false := by
  obtain ⟨s, hchecked, hledger, horacle, hview⟩ := withdrawFor_checked h
  rcases checkMargin_ok hchecked with hdebt | ⟨factor, hfactor, hmargin⟩
  · rw [← hledger] at hdebt
    refine ⟨.inl hdebt, ?_⟩
    unfold isLiquidatable Engine.isLiquidatable
    rw [if_pos hdebt]
    rfl
  · have hafter : q.health user = .ok factor := by
      rw [← hfactor]
      simp only [health, Engine.health, hledger, horacle, hview]
    exact ⟨.inr ⟨factor, hafter, hmargin⟩, not_liquidatable hafter hmargin⟩

/-- Alice owes what one unit costs, the breaker of one of her two tokens is open, and an
integrator may withdraw for her. -/
def leveraged : Protocol :=
  (Sample.indebted Sample.price).run
    [.call Sample.admin (.grantVaultRole .leverageVault Sample.admin),
      .happening (.setBreaker Sample.weth true)]

/-- Withdrawing half a unit is checked by the fallback reading and leaves a factor of 119.2
percent. -/
theorem withdrawal_leaves_margin_leveraged :
    let half : Amount := ⟨500000000000000000, by decide⟩
    let call := withdrawFor ⟨Sample.admin, 0⟩ Sample.alice Sample.weth half Sample.admin false
    let q := call.left leveraged
    call leveraged = .ok () q ∧
      q.healthReading Sample.alice = .fallback 11920 ∧
      ((q.ledger.debt Sample.alice = 0 ∨
        ∃ factor, q.health Sample.alice = .ok factor ∧ 11000 ≤ factor) ∧
        q.isLiquidatable Sample.alice = .ok false) := by
  intro half call q
  have hanswered : call leveraged = .ok () q := eq_ok_of_reply? (by decide +kernel)
  exact ⟨hanswered, by decide +kernel, withdrawal_leaves_margin hanswered⟩

end Protocol

end Custody
