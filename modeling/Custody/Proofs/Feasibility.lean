/-
Which operations of the bank are carried out.

A movement has taken the amount from the sender before it finds out whether the recipient's balance
has room, and burning has written the balance before it finds out whether the supply covers the
amount.  A refusal at that point would leave half an operation.  Neither the room nor the supply is
among the conditions here, since in a bank with a history both are there whenever the sender has
the amount.  The conditions can all be read before anything is written, and they decide: an
operation that meets them is carried out whole, and any other one is not begun.
-/
import Custody.Proofs.Circulation

namespace Custody.Bank

open Custody.Action

variable {b : Bank} {token sender recipient spender owner account : Address} {amount : Amount}
  {bps : UInt64} {operation : Operation}

/-- What an operation asks of the bank: a token of the right kind, means, and room where tokens
are created. -/
def Operation.Feasible (b : Bank) : Operation → Prop
  | .register .. | .setFrozen .. | .approve .. => True
  | .setFee _ bps => bps ≤ bpsWhole
  | .mint token _ amount =>
    b.decimals.contains token = true ∧ (b.totalSupply token).val + amount.val < Amount.size
  | .transfer token sender recipient amount =>
    b.Movable token ∧ recipient ≠ .zero ∧ amount ≤ b.balance token sender
  | .transferFrom token spender owner recipient amount =>
    b.Movable token ∧ recipient ≠ .zero ∧ amount ≤ b.allowance token owner spender ∧
      amount ≤ b.balance token owner
  | .burn token account amount => b.Movable token ∧ amount ≤ b.balance token account

/-! ### What is feasible is carried out -/

theorem setFee_answers (hbps : bps ≤ bpsWhole) : (setFee token bps).Answers b := by
  unfold setFee
  exact answers_refuseIf (UInt64.not_lt.mpr hbps) answers_modify

/-- Room in the supply is room in every balance. -/
theorem mint_answers (h : Sound b) (hknown : b.decimals.contains token = true)
    (hroom : (b.totalSupply token).val + amount.val < Amount.size) :
    (mint token recipient amount).Answers b := by
  have hle := h.balance_le token recipient
  have hsupply : (b.totalSupply token).add amount = .ok ⟨_, hroom⟩ := Amount.add_eq_ok.mpr rfl
  have hbalance : (b.balance token recipient).add amount =
      .ok ⟨(b.balance token recipient).val + amount.val, by omega⟩ := Amount.add_eq_ok.mpr rfl
  refine answers_get (answers_check (ensureKnown_eq_ok.mpr hknown) ?_)
  refine answers_check hsupply (answers_check hbalance ?_)
  exact answers_bind answers_modify fun _ _ _ => answers_modify

theorem operate_answers (h : Sound b) (hfeasible : operation.Feasible b) :
    (operate operation).Answers b := by
  cases operation with
  | register | setFrozen | approve => exact answers_modify
  | setFee => exact setFee_answers hfeasible
  | mint => exact mint_answers h hfeasible.1 hfeasible.2
  | transfer =>
      obtain ⟨hmovable, hrecipient, hcovered⟩ := hfeasible
      exact transfer_answers_of_movable h (ensureMovable_eq_ok.mpr hmovable) hrecipient hcovered
  | transferFrom =>
      obtain ⟨hmovable, hrecipient, hallowed, hcovered⟩ := hfeasible
      exact transferFrom_answers_of_movable h (ensureMovable_eq_ok.mpr hmovable) hrecipient hallowed
        hcovered
  | burn => exact burn_answers_of_movable h (ensureMovable_eq_ok.mpr hfeasible.1) hfeasible.2

/-! ### What is carried out was feasible -/

theorem feasible_of_ok {c : Bank} (h : operate operation b = .ok () c) : operation.Feasible b := by
  cases operation with
  | register | setFrozen | approve => trivial
  | setFee =>
      unfold operate setFee at h
      obtain ⟨hbps, -⟩ := refuseIf_eq_ok.mp h
      exact UInt64.not_lt.mp hbps
  | mint token =>
      have hminted := mint_ok h
      have hsupply := hminted.supply token
      rw [if_pos rfl] at hsupply
      exact ⟨hminted.known, hsupply ▸ (c.totalSupply token).isLt⟩
  | transfer =>
      obtain ⟨hmovable, hrecipient, hmove⟩ := transfer_move h
      obtain ⟨⟨_, hmoved⟩, -⟩ := move_ok hmove
      exact ⟨ensureMovable_eq_ok.mp hmovable, hrecipient, hmoved.covered⟩
  | transferFrom =>
      obtain ⟨hmovable, hrecipient, hallowed, _, hmove, -⟩ := transferFrom_move h
      obtain ⟨⟨_, hmoved⟩, -⟩ := move_ok hmove
      exact ⟨ensureMovable_eq_ok.mp hmovable, hrecipient, hallowed, hmoved.covered⟩
  | burn =>
      simp only [operate, burn, get_bind, bind_eq_ok, check_eq_ok, refuseIf_eq_ok] at h
      obtain ⟨_, _, ⟨hmovable, rfl⟩, hcovered, -⟩ := h
      exact ⟨ensureMovable_eq_ok.mp hmovable, Nat.not_lt.mp hcovered⟩

theorem operate_ok_iff (h : Sound b) : (∃ c, operate operation b = .ok () c) ↔
    operation.Feasible b := by
  constructor
  · rintro ⟨c, hc⟩
    exact feasible_of_ok hc
  · intro hfeasible
    obtain ⟨_, c, hc⟩ := (operate_answers h hfeasible).exists_ok
    exact ⟨c, hc⟩

/-- **Operations of the bank are all or nothing.**  After every history of operations, whatever is
asked of the bank is carried out if what it asks for is there, and if it is refused, the bank is
exactly as before. -/
theorem operations_all_or_nothing (history : List Operation) (operation : Operation) :
    let b := empty.through history
    (∀ e c, operate operation b = .error e c → c = b) ∧
      ((∃ c, operate operation b = .ok () c) ↔ operation.Feasible b) := by
  intro b
  have hsound : Sound b := through_sound history sound_empty
  exact ⟨operate_clean hsound operation, operate_ok_iff hsound⟩

end Custody.Bank
