/-
The supply of a token is the sum of its balances.

A bank writes balances and supplies in separate steps, and a movement first takes from the
sender and then gives to the recipient, whose balance might turn out too large.  It never does.
The supply is an amount and bounds the sum of all balances, so what one account gave up fits
into any other.  Hence a movement is refused before it has written anything, and whoever has
the tokens can move them unless the token is frozen.

The sum runs over all addresses, also over those that never had a balance.
-/
import Mathlib.Algebra.Order.BigOperators.Group.Finset
import Custody.Proofs.Bank
import Custody.Proofs.Books

namespace Custody

/-- A share of at most the whole is an amount. -/
theorem Amount.exists_share (a : Amount) {bps : UInt64} (hbps : bps.toNat ≤ 10000) :
    ∃ share, a.share bps = .ok share := by
  have hle : a.val * bps.toNat / 10000 ≤ a.val := by
    have hmul : a.val * bps.toNat ≤ a.val * 10000 := Nat.mul_le_mul_left _ hbps
    omega
  exact ⟨⟨_, Nat.lt_of_le_of_lt hle a.isLt⟩, Amount.share_eq_ok.mpr rfl⟩

/-- What is added for one account of one token, seen in the sum over all accounts. -/
theorem sum_add_at (f : Address → Nat) (t token account : Address) (amount : Nat) :
    ∑ a, (f a + if t = token ∧ a = account then amount else 0) =
      (∑ a, f a) + if t = token then amount else 0 := by
  rw [Finset.sum_add_distrib]
  by_cases ht : t = token
  · simp only [ht, true_and, if_true, Finset.sum_ite_eq', Finset.mem_univ]
  · simp only [ht, false_and, if_false, Finset.sum_const_zero]

namespace Bank

open Custody.Action

variable {token sender recipient owner spender account : Address} {amount received : Amount}
  {b c : Bank} {r : Unit} {e : Error}

/-- Supplies are sums of balances, fees are shares, and only registered tokens exist. -/
structure Sound (b : Bank) : Prop where
  supply : ∀ t, (b.totalSupply t).val = ∑ a, (b.balance t a).val
  fee : ∀ t, (b.fee t).toNat ≤ 10000
  known : ∀ t, b.totalSupply t ≠ 0 → ∃ decimals, b.decimals.get? t = some decimals

theorem sound_empty : Sound empty where
  supply := fun _ => Finset.sum_const_zero.symm
  fee := fun _ => Nat.zero_le _
  known := fun _ h => absurd rfl h

namespace Sound

/-- No balance is larger than the supply. -/
theorem balance_le (h : Sound b) (token account : Address) :
    (b.balance token account).val ≤ (b.totalSupply token).val := by
  rw [h.supply token]
  exact Finset.single_le_sum (f := fun a => (b.balance token a).val) (fun _ _ => Nat.zero_le _)
    (Finset.mem_univ account)

/-- A token that somebody has is registered. -/
theorem known_of_balance (h : Sound b) (hbalance : b.balance token account ≠ 0) :
    ∃ decimals, b.decimals.get? token = some decimals := by
  refine h.known token ?_
  intro hsupply
  have hle := h.balance_le token account
  rw [hsupply, Amount.val_zero] at hle
  exact hbalance (Amount.eq_zero_iff.mpr (by omega))

/-! ### Movements -/

/-- What left an account leaves room for it in the balance of any account. -/
theorem room (h : Sound b) (hcovered : amount.val ≤ (b.balance token sender).val)
    (recipient : Address) :
    (balance { b with
        balances := Book.put b.balances token sender (b.balance token sender - amount) }
      token recipient).val + amount.val ≤ (b.totalSupply token).val := by
  have hread : ∀ a, (balance { b with
        balances := Book.put b.balances token sender (b.balance token sender - amount) }
      token a).val = if a = sender then (b.balance token sender).val - amount.val
        else (b.balance token a).val := by
    intro a
    rw [balance_put]
    by_cases ha : a = sender <;> simp [ha]
  have hsingle := Finset.single_le_sum (f := fun a => if a = sender
    then (b.balance token sender).val - amount.val else (b.balance token a).val)
    (fun _ _ => Nat.zero_le _) (Finset.mem_univ recipient)
  have hsum := sum_replace (fun a => (b.balance token a).val) sender
    ((b.balance token sender).val - amount.val)
  rw [h.supply token, hread]
  omega

/-- If no supply grows and fees and tokens stay, only the sums are in question. -/
theorem of_supply_le (h : Sound b) (hdecimals : c.decimals = b.decimals) (hfees : c.fees = b.fees)
    (hless : ∀ t, (c.totalSupply t).val ≤ (b.totalSupply t).val)
    (hsupply : ∀ t, (c.totalSupply t).val = ∑ a, (c.balance t a).val) : Sound c := by
  refine ⟨hsupply, ?_, ?_⟩
  · intro t
    rw [Bank.fee, hfees]
    exact h.fee t
  · intro t hpositive
    rw [hdecimals]
    refine h.known t ?_
    intro hzero
    have hle := hless t
    rw [hzero, Amount.val_zero] at hle
    exact hpositive (Amount.eq_zero_iff.mpr (by omega))

/-- A movement keeps supplies the sums of balances: the fee leaves both. -/
theorem of_moved (h : Sound b) (hmoved : Moved token sender recipient amount received b c) :
    Sound c := by
  have hfee := hmoved.fee
  have hcovered := hmoved.covered
  refine h.of_supply_le hmoved.decimals hmoved.fees (fun t => ?_) fun t => ?_
  · rw [hmoved.supply t]
    exact Nat.sub_le _ _
  · have hbefore := h.supply t
    have hafter := hmoved.supply t
    have hle := h.balance_le token sender
    have hsum : ∑ a, ((c.balance t a).val + if t = token ∧ a = sender then amount.val else 0) =
        ∑ a, ((b.balance t a).val + if t = token ∧ a = recipient then received.val else 0) :=
      Finset.sum_congr rfl fun a _ => hmoved.balance t a
    rw [sum_add_at, sum_add_at] at hsum
    by_cases ht : t = token
    · subst ht
      simp only [if_true] at hsum hafter
      omega
    · simp only [ht, if_false] at hsum hafter
      omega

theorem of_burned (h : Sound b) (hburned : Burned token account amount b c) : Sound c := by
  refine h.of_supply_le hburned.decimals hburned.fees (fun t => ?_) fun t => ?_
  · rw [← hburned.supply t]
    exact Nat.le_add_right _ _
  · have hbefore := h.supply t
    have hafter := hburned.supply t
    have hsum : ∑ a, ((c.balance t a).val + if t = token ∧ a = account then amount.val else 0) =
        ∑ a, (b.balance t a).val :=
      Finset.sum_congr rfl fun a _ => hburned.balance t a
    rw [sum_add_at] at hsum
    omega

/-- What is created is added to both. -/
theorem of_minted (h : Sound b) (hminted : Minted token recipient amount b c) : Sound c := by
  refine ⟨fun t => ?_, fun t => ?_, fun t hpositive => ?_⟩
  · have hbefore := h.supply t
    have hafter := hminted.supply t
    have hsum : ∑ a, (c.balance t a).val =
        ∑ a, ((b.balance t a).val + if t = token ∧ a = recipient then amount.val else 0) :=
      Finset.sum_congr rfl fun a _ => hminted.balance t a
    rw [sum_add_at] at hsum
    omega
  · rw [Bank.fee, hminted.fees]
    exact h.fee t
  · rw [hminted.decimals]
    by_cases ht : t = token
    · rw [ht]
      exact Option.isSome_iff_exists.mp hminted.known
    · refine h.known t ?_
      rw [← hminted.supply_elsewhere ht]
      exact hpositive

end Sound

/-! ### Who has the tokens can move them -/

/-- A movement that the sender can pay is carried out. -/
theorem move_answers (h : Sound b) (hcovered : amount ≤ b.balance token sender) :
    (move token sender recipient amount).Answers b := by
  rw [Amount.le_def] at hcovered
  obtain ⟨fee, hfee⟩ := Amount.exists_share amount (h.fee token)
  have hle := Amount.share_le hfee (h.fee token)
  have hreceived : amount.subtract fee = .ok (amount - fee) := by
    rw [Amount.subtract_eq_ok, Amount.val_sub]
    omega
  refine answers_get (answers_refuseIf (Nat.not_lt.mpr hcovered) ?_)
  refine answers_check hfee (answers_check hreceived (answers_bind answers_modify ?_))
  intro _ drawn hdrawn
  rw [putBalance, modify_eq_ok] at hdrawn
  subst hdrawn
  -- What arrives is no more than what left, and for that there is room.
  have hroom := h.room hcovered recipient
  have hsupply := (b.totalSupply token).isLt
  obtain ⟨arrived, harrived⟩ : ∃ arrived : Amount, arrived.val =
      (balance { b with
          balances := Book.put b.balances token sender (b.balance token sender - amount) }
        token recipient).val + (amount - fee).val := by
    rw [Amount.val_sub]
    exact ⟨⟨_, by omega⟩, rfl⟩
  refine answers_get (answers_check (Amount.add_eq_ok.mpr harrived) ?_)
  refine answers_bind answers_modify fun _ _ _ => ?_
  split
  · exact answers_modify
  · exact answers_pure

/-- A refused movement has changed nothing: its sender could not pay. -/
theorem move_clean (h : Sound b) : (move token sender recipient amount).Clean b := by
  intro e c hrefused
  by_cases hcovered : amount ≤ b.balance token sender
  · exact absurd hrefused (move_answers h hcovered e c)
  · have hshort : b.balance token sender < amount := Nat.lt_of_not_le hcovered
    simp only [move, get_bind, if_pos hshort, bind_eq_error, throw_eq_error, throw_ne_ok,
      false_and, exists_false, or_false] at hrefused
    exact hrefused.2.symm

/-- A token may move if somebody has any of it and it is not frozen. -/
theorem Sound.movable (h : Sound b) (hfrozen : b.frozen.contains token = false)
    (hpositive : amount ≠ 0) (hcovered : amount ≤ b.balance token account) :
    b.ensureMovable token = .ok () := by
  have hbalance : b.balance token account ≠ 0 := by
    intro hzero
    rw [hzero, Amount.le_def, Amount.val_zero] at hcovered
    exact hpositive (Amount.eq_zero_iff.mpr (by omega))
  obtain ⟨decimals, hknown⟩ := h.known_of_balance hbalance
  exact ensureMovable_eq_ok.mpr ⟨by rw [Table.contains, hknown, Option.isSome_some], hfrozen⟩

/-- A transfer that the sender can pay is carried out, if the token may move. -/
theorem transfer_answers_of_movable (h : Sound b) (hmovable : b.ensureMovable token = .ok ())
    (hrecipient : recipient ≠ .zero) (hcovered : amount ≤ b.balance token sender) :
    (transfer token sender recipient amount).Answers b := by
  refine answers_get (answers_check hmovable ?_)
  refine answers_check (Address.ensureNonZero_eq_ok.mpr hrecipient) ?_
  exact move_answers h hcovered

theorem transferFrom_answers_of_movable (h : Sound b) (hmovable : b.ensureMovable token = .ok ())
    (hrecipient : recipient ≠ .zero) (hallowed : amount ≤ b.allowance token owner spender)
    (hcovered : amount ≤ b.balance token owner) :
    (transferFrom token spender owner recipient amount).Answers b := by
  refine answers_get (answers_check hmovable ?_)
  refine answers_check (Address.ensureNonZero_eq_ok.mpr hrecipient) ?_
  refine answers_refuseIf (Nat.not_lt.mpr hallowed) ?_
  exact answers_bind (move_answers h hcovered) fun _ _ _ => answers_modify

/-- **Whoever has tokens that are not frozen can send them** to any account but that of
nobody. -/
theorem transfer_answers (h : Sound b) (hfrozen : b.frozen.contains token = false)
    (hrecipient : recipient ≠ .zero) (hpositive : amount ≠ 0)
    (hcovered : amount ≤ b.balance token sender) :
    (transfer token sender recipient amount).Answers b :=
  transfer_answers_of_movable h (h.movable hfrozen hpositive hcovered) hrecipient hcovered

/-- Within an allowance others can send them, too. -/
theorem transferFrom_answers (h : Sound b) (hfrozen : b.frozen.contains token = false)
    (hrecipient : recipient ≠ .zero) (hpositive : amount ≠ 0)
    (hallowed : amount ≤ b.allowance token owner spender)
    (hcovered : amount ≤ b.balance token owner) :
    (transferFrom token spender owner recipient amount).Answers b :=
  transferFrom_answers_of_movable h (h.movable hfrozen hpositive hcovered) hrecipient hallowed
    hcovered

/-- What an account has can be written off, for the supply is no smaller. -/
private theorem destroy_answers (h : Sound b) (hcovered : amount ≤ b.balance token account) :
    (do
      putBalance token account (b.balance token account - amount)
      let supply ← (b.totalSupply token).subtract amount
      putSupply token supply : Action Bank Unit).Answers b := by
  have hle := h.balance_le token account
  have hsupply : (b.totalSupply token).subtract amount = .ok (b.totalSupply token - amount) := by
    rw [Amount.le_def] at hcovered
    rw [Amount.subtract_eq_ok, Amount.val_sub]
    omega
  refine answers_bind answers_modify fun _ _ _ => ?_
  exact answers_check hsupply answers_modify

theorem burn_answers_of_movable (h : Sound b) (hmovable : b.ensureMovable token = .ok ())
    (hcovered : amount ≤ b.balance token account) : (burn token account amount).Answers b := by
  refine answers_get (answers_check hmovable ?_)
  exact answers_refuseIf (Nat.not_lt.mpr hcovered) (destroy_answers h hcovered)

theorem burn_answers (h : Sound b) (hfrozen : b.frozen.contains token = false)
    (hpositive : amount ≠ 0) (hcovered : amount ≤ b.balance token account) :
    (burn token account amount).Answers b :=
  burn_answers_of_movable h (h.movable hfrozen hpositive hcovered) hcovered

theorem transfer_clean (h : Sound b) : (transfer token sender recipient amount).Clean b :=
  clean_get (clean_check fun _ _ => clean_check fun _ _ => move_clean h)

theorem transferFrom_clean (h : Sound b) :
    (transferFrom token spender owner recipient amount).Clean b := by
  refine clean_get (clean_check fun _ _ => clean_check fun _ _ => clean_refuseIf fun _ => ?_)
  exact clean_bind (move_clean h) fun _ _ _ => answers_modify

theorem burn_clean (h : Sound b) : (burn token account amount).Clean b := by
  refine clean_get (clean_check fun _ _ => clean_refuseIf fun hcovered => Answers.clean ?_)
  exact destroy_answers h (Nat.not_lt.mp hcovered)

/-! ### Every operation -/

theorem register_sound (h : Sound b) {decimals : UInt8} :
    (register token decimals).Leaves b Sound := by
  refine leaves_modify ⟨h.supply, h.fee, ?_⟩
  intro t hpositive
  obtain ⟨before, hknown⟩ := h.known t hpositive
  simp only [Table.get?_insert]
  by_cases ht : t = token
  · exact ⟨decimals, by rw [if_pos ht]⟩
  · exact ⟨before, by rw [if_neg ht, hknown]⟩

theorem setFee_sound (h : Sound b) {bps : UInt64} : (setFee token bps).Leaves b Sound := by
  unfold setFee
  refine leaves_refuseIf h fun hwithin => leaves_modify ⟨h.supply, ?_, h.known⟩
  intro t
  simp only [fee, Table.get?_insert]
  by_cases ht : t = token
  · rw [if_pos ht, Option.getD_some]
    exact UInt64.le_iff_toNat_le.mp (UInt64.not_lt.mp hwithin)
  · rw [if_neg ht]
    exact h.fee t

theorem setFrozen_sound (h : Sound b) {frozen : Bool} :
    (setFrozen token frozen).Leaves b Sound :=
  leaves_modify ⟨h.supply, h.fee, h.known⟩

theorem approve_sound (h : Sound b) : (approve token owner spender amount).Leaves b Sound :=
  leaves_modify ⟨h.supply, h.fee, h.known⟩

theorem transfer_sound (h : Sound b) :
    (transfer token sender recipient amount).Leaves b Sound := by
  refine leaves_of_cases (fun _ c hanswered => ?_) fun e c hrefused => ?_
  · obtain ⟨⟨received, hmoved⟩, -⟩ := transfer_ok hanswered
    exact h.of_moved hmoved
  · rw [transfer_clean h e c hrefused]
    exact h

theorem transferFrom_sound (h : Sound b) :
    (transferFrom token spender owner recipient amount).Leaves b Sound := by
  refine leaves_of_cases (fun _ c hanswered => ?_) fun e c hrefused => ?_
  · obtain ⟨⟨received, hmoved⟩, -⟩ := transferFrom_ok hanswered
    exact h.of_moved hmoved
  · rw [transferFrom_clean h e c hrefused]
    exact h

theorem burn_sound (h : Sound b) : (burn token account amount).Leaves b Sound := by
  refine leaves_of_cases (fun _ c hanswered => ?_) fun e c hrefused => ?_
  · exact h.of_burned (burn_ok hanswered)
  · rw [burn_clean h e c hrefused]
    exact h

theorem mint_sound (h : Sound b) : (mint token recipient amount).Leaves b Sound := by
  refine leaves_of_cases (fun _ c hanswered => ?_) fun e c hrefused => ?_
  · exact h.of_minted (mint_ok hanswered)
  · rw [mint_clean e c hrefused]
    exact h

end Bank

end Custody
