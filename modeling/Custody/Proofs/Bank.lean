/-
What the operations of the bank do to balances, allowances and supplies.

A movement takes the amount from the sender and gives what the fee leaves of it to
the recipient.  Sender and recipient may be the same account, so the lemmas state
one equation that holds of every account: what left it on one side, what arrived on
the other.  All other readings of a movement are cases of that equation.

A refused movement is not harmless by itself: the amount may have left the sender
before the recipient's balance turned out too large.  What matters to everybody else
is that nothing but the sender's balance can have changed.
-/
import Custody.Proofs.Sums
import Custody.Bank

namespace Custody.Bank

open Custody.Action

variable {token sender recipient owner spender account : Address} {amount : Amount}
  {b c : Bank} {r : Unit} {e : Error}

/-! ### Reading what was written -/

theorem balance_put (b : Bank) (token account t a : Address) (v : Amount) :
    balance { b with balances := Book.put b.balances token account v } t a =
      if t = token ∧ a = account then v else b.balance t a :=
  Book.amount_put ..

theorem totalSupply_insert (b : Bank) (token t : Address) (v : Amount) :
    totalSupply { b with supply := b.supply.insert token v } t =
      if t = token then v else b.totalSupply t :=
  Tally.amount_insert ..

theorem allowance_insert (b : Bank) (token owner spender t o s : Address) (v : Amount) :
    allowance { b with
      allowances := b.allowances.insert token (Book.put (b.allowanceBook token) owner spender v) }
        t o s =
      if t = token ∧ o = owner ∧ s = spender then v else b.allowance t o s := by
  by_cases ht : t = token
  · subst ht
    simp only [allowance, allowanceBook, Table.get?_insert, if_true, Option.getD_some,
      Book.amount_put, true_and]
  · simp [allowance, allowanceBook, Table.get?_insert, ht]

/-! ### Checks -/

/-- Only registered tokens are known. -/
theorem ensureKnown_eq_ok : b.ensureKnown token = .ok () ↔ b.decimals.contains token = true := by
  rw [ensureKnown, Check.discard_eq_ok, decimalsOf, Table.contains]
  cases b.decimals.get? token <;> simp

/-- A registered token that is not frozen. -/
structure Movable (b : Bank) (token : Address) : Prop where
  known : b.decimals.contains token = true
  unfrozen : b.frozen.contains token = false

theorem ensureMovable_eq_ok : b.ensureMovable token = .ok () ↔ b.Movable token := by
  rw [ensureMovable, Check.bind_eq_ok]
  constructor
  · rintro ⟨_, hknown, h⟩
    refine ⟨ensureKnown_eq_ok.mp hknown, Bool.eq_false_iff.mpr fun hfrozen => ?_⟩
    rw [if_pos hfrozen] at h
    cases h
  · intro h
    refine ⟨(), ensureKnown_eq_ok.mpr h.known, ?_⟩
    rw [h.unfrozen, if_neg Bool.false_ne_true]
    rfl

/-! ### Movements -/

/-- A movement that was carried out. -/
structure Moved (token sender recipient : Address) (amount received : Amount)
    (b c : Bank) : Prop where
  /-- The sender had the amount. -/
  covered : amount.val ≤ (b.balance token sender).val
  /-- What does not arrive is the fee. -/
  fee : received.val + amount.val * (b.fee token).toNat / 10000 = amount.val
  /-- Every balance, with what left it and what arrived. -/
  balance : ∀ t a,
    (c.balance t a).val + (if t = token ∧ a = sender then amount.val else 0) =
      (b.balance t a).val + if t = token ∧ a = recipient then received.val else 0
  /-- The fee leaves the supply. -/
  supply : ∀ t, (c.totalSupply t).val =
    (b.totalSupply t).val - if t = token then amount.val - received.val else 0
  decimals : c.decimals = b.decimals
  fees : c.fees = b.fees
  frozen : c.frozen = b.frozen

theorem Moved.balance_elsewhere {received : Amount} {t a : Address}
    (h : Moved token sender recipient amount received b c) (hsender : ¬ (t = token ∧ a = sender))
    (hrecipient : ¬ (t = token ∧ a = recipient)) : c.balance t a = b.balance t a := by
  have hbalance := h.balance t a
  rw [if_neg hsender, if_neg hrecipient] at hbalance
  exact Amount.ext hbalance

theorem Moved.supply_elsewhere {received : Amount} {t : Address}
    (h : Moved token sender recipient amount received b c) (ht : t ≠ token) :
    c.totalSupply t = b.totalSupply t := by
  have hsupply := h.supply t
  rw [if_neg ht, Nat.sub_zero] at hsupply
  exact Amount.ext hsupply

/-- Without a fee all of it arrives. -/
theorem Moved.received_eq {received : Amount}
    (h : Moved token sender recipient amount received b c) (hfree : b.fee token = 0) :
    received = amount := by
  have hfee := h.fee
  rw [hfree, UInt64.toNat_zero, Nat.mul_zero, Nat.zero_div, Nat.add_zero] at hfee
  exact Amount.ext hfee

/-- And then the recipient has it, also if it was the sender. -/
theorem Moved.le_balance {received : Amount}
    (h : Moved token sender recipient amount received b c) (hfree : b.fee token = 0) :
    amount ≤ c.balance token recipient := by
  obtain rfl := h.received_eq hfree
  have hcovered := h.covered
  have hbalance := h.balance token recipient
  rw [Amount.le_def]
  by_cases hself : recipient = sender
  · subst hself
    omega
  · rw [if_neg fun h => hself h.2, if_pos ⟨rfl, rfl⟩] at hbalance
    omega

/-- What a movement writes. -/
theorem move_written (h : move token sender recipient amount b = .ok r c) :
    ∃ fee received arrived : Amount,
      amount.val ≤ (b.balance token sender).val ∧
      fee.val = amount.val * (b.fee token).toNat / 10000 ∧
      received.val + fee.val = amount.val ∧
      arrived.val = (balance { b with
          balances := Book.put b.balances token sender (b.balance token sender - amount) }
        token recipient).val + received.val ∧
      c = { b with
        balances := Book.put (Book.put b.balances token sender (b.balance token sender - amount))
          token recipient arrived
        supply := if 0 < fee then b.supply.insert token (b.totalSupply token - fee)
          else b.supply } := by
  simp only [move, putBalance, putSupply, get_bind, modify_bind, refuseIf_eq_ok, bind_eq_ok,
    check_eq_ok, Amount.share_eq_ok, Amount.subtract_eq_ok, Amount.add_eq_ok] at h
  obtain ⟨hcovered, fee, _, ⟨hfee, rfl⟩, received, _, ⟨hreceived, rfl⟩, arrived, _,
    ⟨harrived, rfl⟩, h⟩ := h
  rw [Amount.lt_def, Nat.not_lt] at hcovered
  refine ⟨fee, received, arrived, hcovered, hfee, hreceived, harrived, ?_⟩
  split at h
  next hpos => rw [← modify_eq_ok.mp h]; simp [hpos]
  next hzero => rw [← (pure_eq_ok.mp h).2]; simp [hzero]

theorem move_ok (h : move token sender recipient amount b = .ok r c) :
    (∃ received, Moved token sender recipient amount received b c) ∧
      c.allowances = b.allowances := by
  obtain ⟨fee, received, arrived, hcovered, hfee, hreceived, harrived, rfl⟩ := move_written h
  rw [balance_put] at harrived
  refine ⟨⟨received, ⟨hcovered, by omega, fun t a => ?_, fun t => ?_, rfl, rfl, rfl⟩⟩,
    rfl⟩
  · simp only [balance, Book.amount_put] at hcovered harrived ⊢
    by_cases ht : t = token
    · subst ht
      by_cases hr : a = recipient
      · subst hr
        by_cases hs : a = sender
        · subst hs
          simp only [and_self, if_true, Amount.val_sub] at harrived ⊢
          omega
        · simp only [and_self, hs, and_false, if_true, if_false] at harrived ⊢
          omega
      · by_cases hs : a = sender
        · subst hs
          simp only [and_self, hr, and_false, if_true, if_false, Amount.val_sub]
          omega
        · simp only [hr, hs, and_false, if_false]
    · simp [ht]
  · by_cases hpos : 0 < fee
    · simp only [hpos, if_true, totalSupply, Tally.amount_insert]
      split
      next ht =>
        subst ht
        simp only [Amount.val_sub]
        omega
      next => simp
    · simp only [hpos, if_false, totalSupply]
      rw [Amount.pos_iff] at hpos
      split <;> omega

/-- A transfer is a movement of a token that may move, to somebody. -/
theorem transfer_move (h : transfer token sender recipient amount b = .ok r c) :
    b.ensureMovable token = .ok () ∧ recipient ≠ .zero ∧
      move token sender recipient amount b = .ok r c := by
  simp only [transfer, get_bind, bind_eq_ok, check_eq_ok] at h
  obtain ⟨_, _, ⟨hmovable, rfl⟩, _, _, ⟨hrecipient, rfl⟩, h⟩ := h
  exact ⟨hmovable, Address.ensureNonZero_eq_ok.mp hrecipient, h⟩

/-- With an allowance it is one that uses up that much of the allowance. -/
theorem transferFrom_move (h : transferFrom token spender owner recipient amount b = .ok r c) :
    b.ensureMovable token = .ok () ∧ recipient ≠ .zero ∧
      amount ≤ b.allowance token owner spender ∧
      ∃ mid, move token owner recipient amount b = .ok () mid ∧
        c = { mid with allowances := b.allowances.insert token (Book.put (b.allowanceBook token)
          owner spender (b.allowance token owner spender - amount)) } := by
  simp only [transferFrom, approve, get_bind, refuseIf_eq_ok, bind_eq_ok, check_eq_ok,
    modify_eq_ok] at h
  obtain ⟨_, _, ⟨hmovable, rfl⟩, _, _, ⟨hrecipient, rfl⟩, hallowed, _, mid,
    hmove, rfl⟩ := h
  obtain ⟨-, hsame⟩ := move_ok hmove
  refine ⟨hmovable, Address.ensureNonZero_eq_ok.mp hrecipient, Nat.not_lt.mp hallowed, mid, hmove,
    ?_⟩
  simp only [allowanceBook, hsame]

theorem transfer_ok (h : transfer token sender recipient amount b = .ok r c) :
    (∃ received, Moved token sender recipient amount received b c) ∧
      c.allowances = b.allowances := by
  obtain ⟨-, -, hmove⟩ := transfer_move h
  exact move_ok hmove

theorem transferFrom_ok (h : transferFrom token spender owner recipient amount b = .ok r c) :
    (∃ received, Moved token owner recipient amount received b c) ∧
      ∀ t o s, (c.allowance t o s).val +
        (if t = token ∧ o = owner ∧ s = spender then amount.val else 0) =
          (b.allowance t o s).val := by
  obtain ⟨-, -, hallowed, mid, hmove, rfl⟩ := transferFrom_move h
  obtain ⟨⟨received, hmoved⟩, hsame⟩ := move_ok hmove
  rw [Amount.le_def] at hallowed
  refine ⟨⟨received, ?_⟩, fun t o s => ?_⟩
  · exact ⟨hmoved.covered, hmoved.fee, hmoved.balance, hmoved.supply, hmoved.decimals,
      hmoved.fees, hmoved.frozen⟩
  · have hspent : allowance { mid with
        allowances := b.allowances.insert token (Book.put (b.allowanceBook token) owner spender
          (b.allowance token owner spender - amount)) } t o s =
        if t = token ∧ o = owner ∧ s = spender then b.allowance token owner spender - amount
          else b.allowance t o s :=
      allowance_insert b token owner spender t o s (b.allowance token owner spender - amount)
    rw [hspent]
    split
    next hthis =>
      obtain ⟨rfl, rfl, rfl⟩ := hthis
      simp only [Amount.val_sub]
      omega
    next => simp

/-- Tokens of an account that were destroyed. -/
structure Burned (token account : Address) (amount : Amount) (b c : Bank) : Prop where
  balance : ∀ t a, (c.balance t a).val +
    (if t = token ∧ a = account then amount.val else 0) = (b.balance t a).val
  supply : ∀ t, (c.totalSupply t).val + (if t = token then amount.val else 0) =
    (b.totalSupply t).val
  allowances : c.allowances = b.allowances
  decimals : c.decimals = b.decimals
  fees : c.fees = b.fees
  frozen : c.frozen = b.frozen

theorem Burned.balance_elsewhere {t a : Address} (h : Burned token account amount b c)
    (hother : ¬ (t = token ∧ a = account)) : c.balance t a = b.balance t a := by
  have hbalance := h.balance t a
  rw [if_neg hother] at hbalance
  exact Amount.ext hbalance

theorem Burned.supply_elsewhere {t : Address} (h : Burned token account amount b c)
    (ht : t ≠ token) : c.totalSupply t = b.totalSupply t := by
  have hsupply := h.supply t
  rw [if_neg ht] at hsupply
  exact Amount.ext hsupply

theorem burn_ok (h : burn token account amount b = .ok r c) : Burned token account amount b c := by
  simp only [burn, putBalance, putSupply, get_bind, modify_bind, bind_eq_ok, check_eq_ok,
    refuseIf_eq_ok, modify_eq_ok, Amount.subtract_eq_ok] at h
  obtain ⟨_, _, ⟨_, rfl⟩, hcovered, supply, _, ⟨hsupply, rfl⟩, rfl⟩ := h
  simp only [Amount.lt_def, Nat.not_lt] at hcovered
  refine ⟨fun t a => ?_, fun t => ?_, rfl, rfl, rfl, rfl⟩
  · simp only [balance, Book.amount_put] at hcovered ⊢
    split
    next hthis =>
      obtain ⟨rfl, rfl⟩ := hthis
      simp only [Amount.val_sub]
      omega
    next => simp
  · simp only [totalSupply, Tally.amount_insert] at hsupply ⊢
    split
    next ht => rw [ht, hsupply]
    next => simp

/-- Tokens that were created for an account. -/
structure Minted (token recipient : Address) (amount : Amount) (b c : Bank) : Prop where
  known : b.decimals.contains token = true
  balance : ∀ t a, (c.balance t a).val =
    (b.balance t a).val + if t = token ∧ a = recipient then amount.val else 0
  supply : ∀ t, (c.totalSupply t).val =
    (b.totalSupply t).val + if t = token then amount.val else 0
  allowances : c.allowances = b.allowances
  decimals : c.decimals = b.decimals
  fees : c.fees = b.fees
  frozen : c.frozen = b.frozen

theorem Minted.balance_elsewhere {t a : Address} (h : Minted token recipient amount b c)
    (hother : ¬ (t = token ∧ a = recipient)) : c.balance t a = b.balance t a := by
  have hbalance := h.balance t a
  rw [if_neg hother] at hbalance
  exact Amount.ext hbalance

theorem Minted.supply_elsewhere {t : Address} (h : Minted token recipient amount b c)
    (ht : t ≠ token) : c.totalSupply t = b.totalSupply t := by
  have hsupply := h.supply t
  rw [if_neg ht] at hsupply
  exact Amount.ext hsupply

theorem mint_ok (h : mint token recipient amount b = .ok r c) :
    Minted token recipient amount b c := by
  simp only [mint, putBalance, putSupply, get_bind, modify_bind, bind_eq_ok, check_eq_ok,
    modify_eq_ok, Amount.add_eq_ok] at h
  obtain ⟨_, _, ⟨hknown, rfl⟩, supply, _, ⟨hsupply, rfl⟩, balance, _,
    ⟨hbalance, rfl⟩, rfl⟩ := h
  refine ⟨ensureKnown_eq_ok.mp hknown, fun t a => ?_, fun t => ?_, rfl, rfl, rfl, rfl⟩
  · simp only [Bank.balance, Book.amount_put] at hbalance ⊢
    split
    next hthis =>
      obtain ⟨rfl, rfl⟩ := hthis
      exact hbalance
    next => rfl
  · simp only [totalSupply, Tally.amount_insert] at hsupply ⊢
    split
    next ht => rw [ht, hsupply]
    next => rfl

/-- Creating tokens checks both sums first and writes at its end. -/
theorem mint_clean : (mint token recipient amount).Clean b := by
  refine clean_get (clean_check fun _ _ => clean_check fun _ _ => clean_check fun _ _ => ?_)
  exact (answers_bind answers_modify fun _ _ _ => answers_modify).clean

/-! ### Refused movements -/

/-- Nothing changed, or the amount left the account and went nowhere. -/
def Drawn (token account : Address) (amount : Amount) (b c : Bank) : Prop :=
  c = b ∨
    c = { b with
      balances := Book.put b.balances token account (b.balance token account - amount) }

theorem move_refused (h : move token sender recipient amount b = .error e c) :
    Drawn token sender amount b c := by
  simp only [move, putBalance, putSupply, get_bind, modify_bind, refuseIf_eq_error,
    bind_eq_error, check_eq_error, check_eq_ok] at h
  rcases h with ⟨_, _, rfl⟩ | ⟨_, ⟨_, rfl⟩ | ⟨fee, _, ⟨_, rfl⟩, h⟩⟩
  · exact .inl rfl
  · exact .inl rfl
  rcases h with ⟨_, rfl⟩ | ⟨received, _, ⟨_, rfl⟩,
    ⟨_, rfl⟩ | ⟨arrived, _, ⟨_, rfl⟩, h⟩⟩
  · exact .inl rfl
  · exact .inr rfl
  · -- Writing the supply is not refused.
    split at h
    · exact absurd h modify_ne_error
    · exact absurd h pure_ne_error

theorem transfer_refused (h : transfer token sender recipient amount b = .error e c) :
    Drawn token sender amount b c := by
  simp only [transfer, get_bind, bind_eq_error, check_eq_error, check_eq_ok] at h
  rcases h with ⟨_, rfl⟩ | ⟨_, _, ⟨_, rfl⟩, ⟨_, rfl⟩ | ⟨_, _, ⟨_, rfl⟩, h⟩⟩
  · exact .inl rfl
  · exact .inl rfl
  · exact move_refused h

theorem transferFrom_refused
    (h : transferFrom token spender owner recipient amount b = .error e c) :
    Drawn token owner amount b c := by
  simp only [transferFrom, approve, get_bind, refuseIf_eq_error, bind_eq_error, check_eq_error,
    check_eq_ok, modify_ne_error, and_false, exists_false, or_false] at h
  rcases h with ⟨_, rfl⟩ | ⟨_, _, ⟨_, rfl⟩,
    ⟨_, rfl⟩ | ⟨_, _, ⟨_, rfl⟩, ⟨_, _, rfl⟩ | ⟨_, h⟩⟩⟩
  · exact .inl rfl
  · exact .inl rfl
  · exact .inl rfl
  · exact move_refused h

theorem burn_refused (h : burn token account amount b = .error e c) :
    Drawn token account amount b c := by
  simp only [burn, putBalance, putSupply, get_bind, modify_bind, bind_eq_error, check_eq_error,
    check_eq_ok, refuseIf_eq_error, modify_ne_error, and_false, exists_false, or_false] at h
  rcases h with ⟨_, rfl⟩ | ⟨_, _, ⟨_, rfl⟩, ⟨_, _, rfl⟩ | ⟨_, _, rfl⟩⟩
  · exact .inl rfl
  · exact .inl rfl
  · exact .inr rfl

/-! ### Sparing an account

Tokens leave an account in three ways: its owner moves them, somebody moves them with
its allowance, or they are burned.  Everything else that happens to the bank spares
the account.
-/

/-- No balance of an account became smaller, and no allowance that it gave changed. -/
structure Spared (account : Address) (b c : Bank) : Prop where
  balance : ∀ t, b.balance t account ≤ c.balance t account
  allowance : ∀ t s, c.allowance t account s = b.allowance t account s

namespace Spared

theorem rfl : Spared account b b := ⟨fun _ => Nat.le_refl _, fun _ _ => .refl _⟩

theorem trans {d : Bank} (h : Spared account b c) (h' : Spared account c d) :
    Spared account b d :=
  ⟨fun t => Nat.le_trans (h.balance t) (h'.balance t),
    fun t s => (h'.allowance t s).trans (h.allowance t s)⟩

theorem of_moved {received : Amount} (hne : sender ≠ account)
    (hmoved : Moved token sender recipient amount received b c)
    (hsame : ∀ t s, c.allowance t account s = b.allowance t account s) :
    Spared account b c := by
  refine ⟨fun t => ?_, hsame⟩
  have hbalance := hmoved.balance t account
  rw [if_neg fun h => hne h.2.symm] at hbalance
  rw [Amount.le_def]
  omega

theorem of_burned (hne : owner ≠ account) (hburned : Burned token owner amount b c) :
    Spared account b c := by
  refine ⟨fun t => ?_, fun t s => ?_⟩
  · have hbalance := hburned.balance t account
    rw [if_neg fun h => hne h.2.symm] at hbalance
    rw [Amount.le_def]
    omega
  · simp only [Bank.allowance, Bank.allowanceBook, hburned.allowances]

/-- A refused movement can only have drawn on its sender. -/
theorem of_drawn (hne : sender ≠ account) (hdrawn : Drawn token sender amount b c) :
    Spared account b c := by
  rcases hdrawn with h | h
  · rw [h]
    exact rfl
  · subst h
    refine ⟨fun t => ?_, fun _ _ => .refl _⟩
    rw [balance_put, if_neg fun h => hne h.2.symm]
    exact Nat.le_refl _

end Spared

theorem register_spared {decimals : UInt8} :
    (register token decimals).Leaves b (Spared account b) :=
  leaves_modify ⟨fun _ => Nat.le_refl _, fun _ _ => rfl⟩

theorem setFee_spared {bps : UInt64} : (setFee token bps).Leaves b (Spared account b) := by
  unfold setFee
  exact leaves_refuseIf .rfl fun _ => leaves_modify ⟨fun _ => Nat.le_refl _, fun _ _ => rfl⟩

theorem setFrozen_spared {frozen : Bool} :
    (setFrozen token frozen).Leaves b (Spared account b) :=
  leaves_modify ⟨fun _ => Nat.le_refl _, fun _ _ => rfl⟩

theorem approve_spared (hne : owner ≠ account) :
    (approve token owner spender amount).Leaves b (Spared account b) := by
  refine leaves_modify ⟨fun _ => Nat.le_refl _, fun t s => ?_⟩
  rw [allowance_insert, if_neg fun h => hne h.2.1.symm]

theorem mint_spared : (mint token recipient amount).Leaves b (Spared account b) := by
  refine leaves_of_cases (fun _ c h => ?_) fun e c h => ?_
  · have hminted := mint_ok h
    refine ⟨fun t => ?_, fun t s => ?_⟩
    · rw [Amount.le_def, hminted.balance t account]
      exact Nat.le_add_right _ _
    · simp only [allowance, allowanceBook, hminted.allowances]
  · rw [mint_clean e c h]
    exact .rfl

theorem transfer_spared (hne : sender ≠ account) :
    (transfer token sender recipient amount).Leaves b (Spared account b) := by
  refine leaves_of_cases (fun _ c h => ?_) fun _ _ h => .of_drawn hne (transfer_refused h)
  obtain ⟨⟨received, hmoved⟩, hsame⟩ := transfer_ok h
  exact .of_moved hne hmoved fun _ _ => by simp only [allowance, allowanceBook, hsame]

theorem transferFrom_spared (hne : owner ≠ account) :
    (transferFrom token spender owner recipient amount).Leaves b (Spared account b) := by
  refine leaves_of_cases (fun _ c h => ?_) fun _ _ h => .of_drawn hne (transferFrom_refused h)
  obtain ⟨⟨received, hmoved⟩, hallowance⟩ := transferFrom_ok h
  refine .of_moved hne hmoved fun t s => ?_
  have heq := hallowance t account s
  rw [if_neg fun h => hne h.2.1.symm] at heq
  exact Amount.ext heq

theorem burn_spared (hne : owner ≠ account) :
    (burn token owner amount).Leaves b (Spared account b) :=
  leaves_of_cases (fun _ _ h => .of_burned hne (burn_ok h))
    fun _ _ h => .of_drawn hne (burn_refused h)

/-! ### Keeping a supply

The supply of a token changes when it is minted or burned, and when a transfer costs a
fee.
-/

/-- The supply of a token is as before, and transfers of it still cost no fee. -/
structure Steady (token : Address) (b c : Bank) : Prop where
  supply : c.totalSupply token = b.totalSupply token
  free : c.fee token = 0

namespace Steady

variable {d : Address}

theorem rfl (hfree : b.fee d = 0) : Steady d b b := ⟨.refl _, hfree⟩

theorem of_moved {received : Amount} (hfree : b.fee d = 0)
    (hmoved : Moved token sender recipient amount received b c) : Steady d b c := by
  refine ⟨?_, ?_⟩
  · by_cases hd : d = token
    · have hsupply := hmoved.supply d
      obtain rfl := hmoved.received_eq (hd ▸ hfree)
      rw [Nat.sub_self, ite_self, Nat.sub_zero] at hsupply
      exact Amount.ext hsupply
    · exact hmoved.supply_elsewhere hd
  · rw [← hfree]
    simp only [Bank.fee, hmoved.fees]

/-- A refused movement leaves every supply alone. -/
theorem of_drawn (hfree : b.fee d = 0) (hdrawn : Drawn token sender amount b c) :
    Steady d b c := by
  rcases hdrawn with h | h
  · rw [h]
    exact .rfl hfree
  · rw [h]
    exact ⟨.refl _, hfree⟩

end Steady

variable {d : Address} (hfree : b.fee d = 0)

include hfree

theorem register_steady {decimals : UInt8} : (register token decimals).Leaves b (Steady d b) :=
  leaves_modify ⟨rfl, hfree⟩

theorem setFrozen_steady {frozen : Bool} : (setFrozen token frozen).Leaves b (Steady d b) :=
  leaves_modify ⟨rfl, hfree⟩

theorem setFee_steady {bps : UInt64} (hbps : token = d → bps = 0) :
    (setFee token bps).Leaves b (Steady d b) := by
  unfold setFee
  refine leaves_refuseIf (.rfl hfree) fun _ => leaves_modify ⟨rfl, ?_⟩
  simp only [fee, Table.get?_insert]
  by_cases hd : d = token
  · rw [if_pos hd, Option.getD_some, hbps hd.symm]
  · rw [if_neg hd]
    exact hfree

theorem approve_steady : (approve token owner spender amount).Leaves b (Steady d b) :=
  leaves_modify ⟨rfl, hfree⟩

theorem transfer_steady : (transfer token sender recipient amount).Leaves b (Steady d b) := by
  refine leaves_of_cases (fun _ c h => ?_) fun _ _ h => .of_drawn hfree (transfer_refused h)
  obtain ⟨⟨received, hmoved⟩, -⟩ := transfer_ok h
  exact .of_moved hfree hmoved

theorem transferFrom_steady :
    (transferFrom token spender owner recipient amount).Leaves b (Steady d b) := by
  refine leaves_of_cases (fun _ c h => ?_) fun _ _ h => .of_drawn hfree (transferFrom_refused h)
  obtain ⟨⟨received, hmoved⟩, -⟩ := transferFrom_ok h
  exact .of_moved hfree hmoved

theorem mint_steady (hne : token ≠ d) :
    (mint token recipient amount).Leaves b (Steady d b) := by
  refine leaves_of_cases (fun _ c h => ?_) fun e c h => ?_
  · have hminted := mint_ok h
    refine ⟨hminted.supply_elsewhere hne.symm, ?_⟩
    rw [← hfree]
    simp only [fee, hminted.fees]
  · rw [mint_clean e c h]
    exact .rfl hfree

theorem burn_steady (hne : token ≠ d) : (burn token account amount).Leaves b (Steady d b) := by
  refine leaves_of_cases (fun _ c h => ?_) fun _ _ h => .of_drawn hfree (burn_refused h)
  have hburned := burn_ok h
  refine ⟨hburned.supply_elsewhere hne.symm, ?_⟩
  rw [← hfree]
  simp only [fee, hburned.fees]

end Custody.Bank
