/-
What is in circulation is what is held.

The bank writes balances and supplies apart from each other, and an operation may be refused
between two writings.  After any history of operations the supply of each token is nevertheless
the exact sum of its balances.  A movement to oneself and a fee that takes the whole amount are
no exceptions, nor are operations that were refused: in such a history a refusal comes before
the first writing.

The fee of a movement is taken off the supply by a subtraction that would stop at zero.  It
never gets there, because the sender had the fee and the supply covers every balance.
-/
import Custody.Proofs.Supply

namespace Custody

open Custody.Action

namespace Bank

/-- Something that is asked of the bank. -/
inductive Operation where
  | register (token : Address) (decimals : UInt8)
  | setFee (token : Address) (bps : UInt64)
  | setFrozen (token : Address) (frozen : Bool)
  | mint (token recipient : Address) (amount : Amount)
  | approve (token owner spender : Address) (amount : Amount)
  | transfer (token sender recipient : Address) (amount : Amount)
  | transferFrom (token spender owner recipient : Address) (amount : Amount)
  | burn (token account : Address) (amount : Amount)
deriving DecidableEq

/-- The token that an operation is about. -/
def Operation.token : Operation → Address
  | .register token _ | .setFee token _ | .setFrozen token _ | .mint token .. | .approve token ..
  | .transfer token .. | .transferFrom token .. | .burn token .. => token

/-- Carry out an operation. -/
def operate : Operation → Action Bank Unit
  | .register token decimals => register token decimals
  | .setFee token bps => setFee token bps
  | .setFrozen token frozen => setFrozen token frozen
  | .mint token recipient amount => mint token recipient amount
  | .approve token owner spender amount => approve token owner spender amount
  | .transfer token sender recipient amount => transfer token sender recipient amount
  | .transferFrom token spender owner recipient amount =>
    transferFrom token spender owner recipient amount
  | .burn token account amount => burn token account amount

/-- The bank after an operation, answered or refused. -/
def after (b : Bank) (operation : Operation) : Bank := (operate operation).left b

/-- The bank after a history of operations. -/
def through (b : Bank) (history : List Operation) : Bank := history.foldl after b

variable {b c : Bank} {token t : Address} {amount received fee : Amount}

/-! ### One operation -/

theorem operate_sound (h : Sound b) (operation : Operation) :
    (operate operation).Leaves b Sound := by
  cases operation with
  | register => exact register_sound h
  | setFee => exact setFee_sound h
  | setFrozen => exact setFrozen_sound h
  | mint => exact mint_sound h
  | approve => exact approve_sound h
  | transfer => exact transfer_sound h
  | transferFrom => exact transferFrom_sound h
  | burn => exact burn_sound h

theorem Sound.after (h : Sound b) (operation : Operation) : Sound (b.after operation) :=
  operate_sound h operation

/-- **A refused operation has changed nothing.** -/
theorem operate_clean (h : Sound b) (operation : Operation) : (operate operation).Clean b := by
  cases operation with
  | register | setFrozen | approve => exact answers_modify.clean
  | setFee =>
      unfold operate setFee
      exact clean_refuseIf fun _ => answers_modify.clean
  | mint => exact mint_clean
  | transfer => exact transfer_clean h
  | transferFrom => exact transferFrom_clean h
  | burn => exact burn_clean h

/-- What is held of a token, and how much of it there is, is as before. -/
structure SameHoldings (t : Address) (b c : Bank) : Prop where
  balance : ∀ a, c.balance t a = b.balance t a
  supply : c.totalSupply t = b.totalSupply t

theorem SameHoldings.rfl : SameHoldings t b b := ⟨fun _ => .refl _, .refl _⟩

theorem Moved.sameHoldings {sender recipient : Address}
    (h : Moved token sender recipient amount received b c) (ht : t ≠ token) :
    SameHoldings t b c where
  balance := fun _ => h.balance_elsewhere (fun heq => ht heq.1) fun heq => ht heq.1
  supply := h.supply_elsewhere ht

theorem Burned.sameHoldings {account : Address} (h : Burned token account amount b c)
    (ht : t ≠ token) : SameHoldings t b c where
  balance := fun _ => h.balance_elsewhere fun heq => ht heq.1
  supply := h.supply_elsewhere ht

theorem Minted.sameHoldings {recipient : Address} (h : Minted token recipient amount b c)
    (ht : t ≠ token) : SameHoldings t b c where
  balance := fun _ => h.balance_elsewhere fun heq => ht heq.1
  supply := h.supply_elsewhere ht

/-- **An operation touches what is held of its own token only.** -/
theorem operate_elsewhere (h : Sound b) {operation : Operation} (ht : t ≠ operation.token) :
    (operate operation).Leaves b (SameHoldings t b) := by
  -- A refused operation is not even felt by its own token.
  have hrefused : ∀ e c, operate operation b = .error e c → SameHoldings t b c := by
    intro e c hc
    rw [operate_clean h operation e c hc]
    exact .rfl
  cases operation with
  | register | setFrozen | approve => exact leaves_modify ⟨fun _ => rfl, rfl⟩
  | setFee =>
      unfold operate setFee
      exact leaves_refuseIf .rfl fun _ => leaves_modify ⟨fun _ => rfl, rfl⟩
  | mint => exact leaves_of_cases (fun _ c hc => (mint_ok hc).sameHoldings ht) hrefused
  | transfer =>
      refine leaves_of_cases (fun _ c hc => ?_) hrefused
      obtain ⟨⟨received, hmoved⟩, -⟩ := transfer_ok hc
      exact hmoved.sameHoldings ht
  | transferFrom =>
      refine leaves_of_cases (fun _ c hc => ?_) hrefused
      obtain ⟨⟨received, hmoved⟩, -⟩ := transferFrom_ok hc
      exact hmoved.sameHoldings ht
  | burn => exact leaves_of_cases (fun _ c hc => (burn_ok hc).sameHoldings ht) hrefused

/-- **The fee of a movement that the sender can pay is in circulation**, so that taking it off the
supply is exact. -/
theorem Sound.fee_in_supply {sender : Address} (h : Sound b)
    (hcovered : amount ≤ b.balance token sender) (hfee : amount.share (b.fee token) = .ok fee) :
    (b.totalSupply token - fee).val + fee.val = (b.totalSupply token).val := by
  have hshare := Amount.share_le hfee (h.fee token)
  have hsupply := h.balance_le token sender
  rw [Amount.le_def] at hcovered
  rw [Amount.val_sub]
  omega

/-! ### Every history -/

theorem through_sound (history : List Operation) (h : Sound b) : Sound (b.through history) := by
  induction history generalizing b with
  | nil => exact h
  | cons operation rest ih => exact ih (h.after operation)

/-- **The supply of every token is the sum of its balances**, after every history of operations
from the empty bank.  Whatever is asked of the bank next, a fee is taken off a supply that covers
it, a refused operation changes nothing, and an answered one only what is held of its token. -/
theorem supply_is_held (history : List Operation) :
    let b := empty.through history
    (∀ token, (b.totalSupply token).val = ∑ account, (b.balance token account).val) ∧
    (∀ token sender amount fee, amount ≤ b.balance token sender →
      amount.share (b.fee token) = .ok fee →
        (b.totalSupply token - fee).val + fee.val = (b.totalSupply token).val) ∧
    (∀ operation, (operate operation).Clean b) ∧
    ∀ operation t, t ≠ operation.token → SameHoldings t b (b.after operation) := by
  intro b
  have hsound : Sound b := through_sound history sound_empty
  refine ⟨hsound.supply, ?_, operate_clean hsound, ?_⟩
  · intro token sender amount fee hcovered hfee
    exact hsound.fee_in_supply hcovered hfee
  · intro operation t ht
    exact operate_elsewhere hsound ht

end Bank

end Custody
