/-
What an approval lets a spender pull.

An allowance is read before the tokens move and written again when they have moved.  In between the
tokens may come back to their owner, a fee may take part of them, or none may move at all.  None of
this matters to the allowance, which goes down by the amount that was asked for.  Nor does it matter
what others pull, since each owner, spender and token have an allowance of their own.

A new approval replaces what is left of an old one.  Between two of them the allowance and what was
pulled add up to the same amount all the time.
-/
import Custody.Proofs.Circulation
import Custody.Proofs.Run

namespace Custody.Bank

open Custody.Action

variable {b c : Bank} {token owner spender : Address} {operation : Operation}

/-- The operation sets this allowance. -/
def Operation.Approves (token owner spender : Address) : Operation → Prop
  | .approve t o s _ => token = t ∧ owner = o ∧ spender = s
  | _ => False

instance (token owner spender : Address) : DecidablePred (Operation.Approves token owner spender)
  | .approve .. => inferInstanceAs (Decidable (_ ∧ _ ∧ _))
  | .register .. | .setFee .. | .setFrozen .. | .mint .. | .transfer .. | .transferFrom ..
  | .burn .. => .isFalse id

/-- The amount that it sets it to. -/
def Operation.approval (token owner spender : Address) : Operation → Nat
  | .approve t o s amount => if token = t ∧ owner = o ∧ spender = s then amount.val else 0
  | _ => 0

/-- The amount that the operation pulls with this allowance, if it is answered. -/
def Operation.pull (token owner spender : Address) : Operation → Nat
  | .transferFrom t s o _ amount =>
    if token = t ∧ owner = o ∧ spender = s then amount.val else 0
  | _ => 0

/-- The amount that it pulls from a bank, which is nothing if it is refused. -/
def pulledBy (token owner spender : Address) (b : Bank) (operation : Operation) : Nat :=
  match operate operation b with
  | .ok _ _ => operation.pull token owner spender
  | .error _ _ => 0

/-- The sum of what a history of operations pulls. -/
def pulled (token owner spender : Address) (b : Bank) : List Operation → Nat
  | [] => 0
  | operation :: rest =>
    b.pulledBy token owner spender operation + (b.after operation).pulled token owner spender rest

/-- The sum of what it approves. -/
def approved (token owner spender : Address) (history : List Operation) : Nat :=
  (history.map (Operation.approval token owner spender)).sum

/-! ### One operation -/

theorem approve_allowance (b : Bank) (token owner spender t o s : Address) (amount : Amount) :
    (b.after (.approve t o s amount)).allowance token owner spender =
      if token = t ∧ owner = o ∧ spender = s then amount else b.allowance token owner spender :=
  allowance_insert ..

/-- An answered operation pulls what the allowance loses. -/
theorem operate_allowance (h : operate operation b = .ok () c)
    (hnone : ¬ operation.Approves token owner spender) :
    operation.pull token owner spender + (c.allowance token owner spender).val =
      (b.allowance token owner spender).val := by
  have hsame : c.allowances = b.allowances →
      0 + (c.allowance token owner spender).val = (b.allowance token owner spender).val := by
    intro hallowances
    simp only [allowance, allowanceBook, hallowances, Nat.zero_add]
  cases operation with
  | register | setFrozen => exact hsame (by rw [← modify_eq_ok.mp h])
  | setFee =>
      unfold operate setFee at h
      obtain ⟨-, h⟩ := refuseIf_eq_ok.mp h
      exact hsame (by rw [← modify_eq_ok.mp h])
  | mint => exact hsame (mint_ok h).allowances
  | approve t o s amount =>
      have hafter : b.after (.approve t o s amount) = c := left_of_ok h
      have hother : ¬ (token = t ∧ owner = o ∧ spender = s) := hnone
      rw [← hafter, approve_allowance, if_neg hother]
      exact Nat.zero_add _
  | transfer => exact hsame (transfer_ok h).2
  | transferFrom =>
      have hspent := (transferFrom_ok h).2 token owner spender
      rw [Nat.add_comm]
      exact hspent
  | burn => exact hsame (burn_ok h).allowances

/-- What an operation pulls is what the allowance loses. -/
theorem after_allowance (h : Sound b) (hnone : ¬ operation.Approves token owner spender) :
    b.pulledBy token owner spender operation +
        ((b.after operation).allowance token owner spender).val =
      (b.allowance token owner spender).val := by
  unfold pulledBy after left
  cases hresult : operate operation b with
  | ok _ c => exact operate_allowance hresult hnone
  | error e c =>
      rw [operate_clean h operation e c hresult]
      exact Nat.zero_add _

/-- An operation that neither approves nor pulls does not touch the allowance. -/
theorem after_allowance_eq (h : Sound b) (hnone : ¬ operation.Approves token owner spender)
    (hpull : operation.pull token owner spender = 0) :
    (b.after operation).allowance token owner spender = b.allowance token owner spender := by
  have hstep := after_allowance h hnone
  have hnothing : b.pulledBy token owner spender operation = 0 := by
    unfold pulledBy
    split
    · exact hpull
    · rfl
  rw [hnothing, Nat.zero_add] at hstep
  exact Amount.ext hstep

/-- An approval replaces the allowance and pulls nothing. -/
theorem after_allowance_le (h : Sound b) (token owner spender : Address) (operation : Operation) :
    b.pulledBy token owner spender operation +
        ((b.after operation).allowance token owner spender).val ≤
      (b.allowance token owner spender).val + operation.approval token owner spender := by
  by_cases happroves : operation.Approves token owner spender
  · cases operation with
    | approve t o s amount =>
        obtain ⟨rfl, rfl, rfl⟩ := happroves
        have happroval : (Operation.approve token owner spender amount).approval token owner
            spender = amount.val := if_pos ⟨rfl, rfl, rfl⟩
        have hpulled : b.pulledBy token owner spender (.approve token owner spender amount) = 0 :=
          rfl
        rw [approve_allowance, if_pos ⟨rfl, rfl, rfl⟩, happroval, hpulled]
        omega
    | _ => exact happroves.elim
  · rw [after_allowance h happroves]
    exact Nat.le_add_right _ _

/-! ### Every history -/

/-- After an approval the allowance is what was approved, whatever was before. -/
theorem allowance_of_approved (b : Bank) (token owner spender : Address) (earlier : List Operation)
    (amount : Amount) :
    (b.through (earlier ++ [.approve token owner spender amount])).allowance token owner spender =
      amount := by
  have hlast : b.through (earlier ++ [.approve token owner spender amount]) =
      (b.through earlier).after (.approve token owner spender amount) := List.foldl_concat ..
  rw [hlast, approve_allowance, if_pos ⟨rfl, rfl, rfl⟩]

/-- As long as nothing is approved, what was pulled and what may still be pulled add up. -/
theorem through_allowance (h : Sound b) (stretch : List Operation)
    (hstretch : ∀ operation ∈ stretch, ¬ operation.Approves token owner spender) :
    b.pulled token owner spender stretch +
        ((b.through stretch).allowance token owner spender).val =
      (b.allowance token owner spender).val := by
  induction stretch generalizing b with
  | nil => exact Nat.zero_add _
  | cons operation rest ih =>
      have hstep := after_allowance h (hstretch operation (by simp))
      have hrest := ih (h.after operation) fun o ho => hstretch o (by simp [ho])
      rw [pulled, ← hstep, ← hrest]
      exact Nat.add_assoc ..

/-- **Over a whole history no more is pulled than was approved in it**, however often approvals
replace each other. -/
theorem pulled_le_approved (h : Sound b) (history : List Operation) :
    b.pulled token owner spender history +
        ((b.through history).allowance token owner spender).val ≤
      (b.allowance token owner spender).val + approved token owner spender history := by
  induction history generalizing b with
  | nil => exact Nat.le_of_eq (Nat.add_comm _ _)
  | cons operation rest ih =>
      have hstep := after_allowance_le h token owner spender operation
      have hrest := ih (h.after operation)
      simp only [pulled, approved, List.map_cons, List.sum_cons] at hrest ⊢
      show _ + (((b.after operation).through rest).allowance token owner spender).val ≤ _
      omega

/-- **A spender pulls no more than was approved.**  From any approval to the next, the amounts that
the spender pulls are exactly what the allowance loses.  Nothing else changes the allowance, and
neither does an operation that is refused. -/
theorem pulls_within_approval (history stretch : List Operation)
    (hstretch : ∀ operation ∈ stretch, ¬ operation.Approves token owner spender) :
    let b := empty.through history
    let c := b.through stretch
    b.pulled token owner spender stretch + (c.allowance token owner spender).val =
        (b.allowance token owner spender).val ∧
      (∀ earlier amount, history = earlier ++ [.approve token owner spender amount] →
        b.allowance token owner spender = amount ∧
          b.pulled token owner spender stretch ≤ amount.val) ∧
      (∀ operation e d, operate operation c = .error e d →
        d.allowance token owner spender = c.allowance token owner spender) ∧
      ∀ operation, ¬ operation.Approves token owner spender →
        operation.pull token owner spender = 0 →
          (c.after operation).allowance token owner spender =
            c.allowance token owner spender := by
  intro b c
  have hsound : Sound b := through_sound history sound_empty
  have hdone : Sound c := through_sound stretch hsound
  have hstill := through_allowance hsound stretch hstretch
  refine ⟨hstill, ?_, ?_, ?_⟩
  · intro earlier amount hhistory
    have hallowance : b.allowance token owner spender = amount := by
      show (empty.through history).allowance token owner spender = amount
      rw [hhistory, allowance_of_approved]
    rw [hallowance] at hstill
    exact ⟨hallowance, hstill ▸ Nat.le_add_right _ _⟩
  · intro operation e d hrefused
    rw [operate_clean hdone operation e d hrefused]
  · intro operation hnone hpull
    exact after_allowance_eq hdone hnone hpull

/-- Alice lets bob pull a hundred of a token that costs a fee. -/
def allowing : List Operation :=
  [.register Sample.weth 18, .setFee Sample.weth 1000,
    .mint Sample.weth Sample.alice ⟨1000, by decide⟩,
    .approve Sample.weth Sample.alice Sample.bob ⟨100, by decide⟩]

/-- Bob sends sixty to himself and leaves thirty with alice, both counted with the fee.  Then he
asks for more than is left, for nothing, and for a token that is frozen, while somebody else
pulls, too. -/
def errands : List Operation :=
  [.transferFrom Sample.weth Sample.bob Sample.alice Sample.bob ⟨60, by decide⟩,
    .transferFrom Sample.weth Sample.bob Sample.alice Sample.alice ⟨30, by decide⟩,
    .transferFrom Sample.weth Sample.bob Sample.alice Sample.bob ⟨11, by decide⟩,
    .transferFrom Sample.weth Sample.bob Sample.alice Sample.bob 0,
    .approve Sample.weth Sample.alice Sample.liquidator .largest,
    .transferFrom Sample.weth Sample.liquidator Sample.alice Sample.bob ⟨500, by decide⟩,
    .setFrozen Sample.weth true,
    .transferFrom Sample.weth Sample.bob Sample.alice Sample.bob ⟨10, by decide⟩]

theorem pulls_within_approval_errands :
    let b := empty.through allowing
    let c := b.through errands
    (∀ operation ∈ errands, ¬ operation.Approves Sample.weth Sample.alice Sample.bob) ∧
      b.allowance Sample.weth Sample.alice Sample.bob = ⟨100, by decide⟩ ∧
      b.pulled Sample.weth Sample.alice Sample.bob errands = 90 ∧
      c.allowance Sample.weth Sample.alice Sample.bob = ⟨10, by decide⟩ ∧
      c.balance Sample.weth Sample.alice = ⟨437, by decide⟩ := by
  intro b c
  have hnone : ∀ operation ∈ errands,
      ¬ operation.Approves Sample.weth Sample.alice Sample.bob := by decide
  obtain ⟨hstill, hlast, -, -⟩ := pulls_within_approval allowing errands hnone
  obtain ⟨hallowance, -⟩ := hlast (allowing.take 3) ⟨100, by decide⟩ rfl
  have hpulled : b.pulled Sample.weth Sample.alice Sample.bob errands = 90 := by decide +kernel
  refine ⟨hnone, hallowance, hpulled, Amount.ext ?_, by decide +kernel⟩
  rw [hallowance, hpulled] at hstill
  exact Nat.add_left_cancel hstill

end Custody.Bank
