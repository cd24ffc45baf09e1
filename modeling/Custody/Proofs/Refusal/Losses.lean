/-
What a refused loss leaves behind.

A reduction of a debt is refused before anything is written.  A loss is not: that the suppliers can
bear their part is checked first, but then reserves and suppliers pay, and only after that is the
payment added to the haircut, what suppliers have lost so far.  If the sum would pass the largest
amount, the loss is refused and nobody gets back what was paid.  A write-off restores the ledger
then; whoever charges a loss directly has to do the same.

Suppliers lose no more than what was supplied, and it takes deposits that were lost and supplied
again to come to this.  As long as everything that was ever supplied adds up to an amount, a refused
loss leaves no trace.
-/
import Custody.Proofs.WriteOff

namespace Custody.Ledger

open Custody.Action

variable {user : Address} {loss : Amount} {l m : Ledger}

/-- Something that is asked of the ledger. -/
inductive Operation where
  | setDebt (user : Address) (amount : Amount)
  | setReserves (amount : Amount)
  | setSupplied (amount : Amount)
  | setRejecting (rejecting : Bool)
  | reduce (user : Address) (amount : Amount)
  | absorb (loss : Amount)
deriving DecidableEq

/-- Carry out an operation. -/
def operate : Operation → Action Ledger Unit
  | .setDebt user amount => setDebt user amount
  | .setReserves amount => setReserves amount
  | .setSupplied amount => setSupplied amount
  | .setRejecting rejecting => setRejecting rejecting
  | .reduce user amount => reduce user amount
  | .absorb loss => absorb loss

/-- The ledger after an operation, answered or refused. -/
def after (l : Ledger) (operation : Operation) : Ledger := (operate operation).left l

/-- The ledger after a history of operations. -/
def through (l : Ledger) (history : List Operation) : Ledger := history.foldl after l

/-! ### One loss -/

/-- Suppliers have what the reserves lack, but what they have lost would not be an amount. -/
structure Uncountable (loss : Amount) (l : Ledger) : Prop where
  covered : l.bySuppliers loss ≤ l.supplied.val
  overflows : Amount.size ≤ l.haircut.val + l.bySuppliers loss

/-- A loss that was paid by reserves and suppliers and is not on record. -/
def paid (loss : Amount) (l : Ledger) : Ledger :=
  { l with reserves := l.reserves - loss, supplied := l.supplied - (loss - l.reserves) }

/-- A loss that cannot be counted is one to the suppliers. -/
theorem Uncountable.paid_ne (h : Uncountable loss l) : l.paid loss ≠ l := by
  have hcovered := h.covered
  have hoverflows := h.overflows
  have hbound := l.haircut.isLt
  rw [l.bySuppliers_eq] at hcovered hoverflows
  intro hsame
  have hsupplied : l.supplied.val - (loss.val - l.reserves.val) = l.supplied.val :=
    congrArg (fun l => l.supplied.val) hsame
  omega

/-- What is taken from either side is the loss as far as it goes. -/
private theorem paid_eq : { l with
    reserves := l.reserves - min loss l.reserves
    supplied := l.supplied - (loss - min loss l.reserves) } = l.paid loss := by
  have hreserves : l.reserves - min loss l.reserves = l.reserves - loss := by
    refine Amount.ext ?_
    simp only [Amount.val_sub, Amount.val_min]
    omega
  have hremainder : loss - min loss l.reserves = loss - l.reserves := by
    refine Amount.ext ?_
    simp only [Amount.val_sub, Amount.val_min]
    omega
  rw [hreserves, hremainder]
  rfl

/-- **A refused loss leaves a trace exactly if it could not be counted.** -/
theorem absorb_marks_iff : (absorb loss).Marks l m ↔ Uncountable loss l ∧ m = l.paid loss := by
  have hremainder : (loss - min loss l.reserves).val = l.bySuppliers loss := by
    rw [Amount.val_sub, Amount.val_min]
    rfl
  unfold absorb
  rw [marks_get, marks_refuseIf, marks_bind_of_clean answers_set.clean]
  simp only [set_eq_ok, bind_eq_error, check_eq_error, modify_ne_error, and_false, exists_false,
    or_false, Amount.add_eq_error, Amount.lt_def, hremainder, paid_eq]
  constructor
  · rintro ⟨hcovered, _, _, rfl, ⟨_, ⟨hoverflows, -⟩, rfl⟩, -⟩
    exact ⟨⟨Nat.not_lt.mp hcovered, hoverflows⟩, rfl⟩
  · rintro ⟨h, rfl⟩
    exact ⟨Nat.not_lt.mpr h.covered, ⟨⟩, _, rfl,
      ⟨_, ⟨h.overflows, rfl⟩, rfl⟩, h.paid_ne⟩

/-! ### Every history -/

/-- What an operation supplies. -/
def Operation.supply : Operation → Nat
  | .setSupplied amount => amount.val
  | _ => 0

/-- All that was ever supplied. -/
def supplies : List Operation → Nat
  | [] => 0
  | operation :: rest => operation.supply + supplies rest

/-- What suppliers have and what they have lost. -/
def entrusted (l : Ledger) : Nat := l.haircut.val + l.supplied.val

/-- A loss moves deposits into the haircut.  If it is refused, they are in neither. -/
theorem absorb_entrusted : (absorb loss).Leaves l fun m => m.entrusted ≤ l.entrusted := by
  refine leaves_of_cases (fun _ m h => ?_) fun e m h => ?_
  · have habsorbed := absorb_ok h
    have hsupplied := habsorbed.supplied
    have hhaircut := habsorbed.haircut
    unfold entrusted
    omega
  · by_cases hsame : m = l
    · exact Nat.le_of_eq (congrArg entrusted hsame)
    · obtain ⟨-, rfl⟩ := absorb_marks_iff.mp ⟨⟨e, h⟩, hsame⟩
      exact Nat.add_le_add_left (Nat.sub_le _ _) _

theorem reduce_entrusted {amount : Amount} :
    (reduce user amount).Leaves l fun m => m.entrusted ≤ l.entrusted := by
  refine leaves_of_cases (fun _ m h => ?_) fun e m h => ?_
  · rw [(reduce_ok h).rest]
    exact Nat.le_refl _
  · exact Nat.le_of_eq (congrArg entrusted (reduce_clean e m h))

theorem after_entrusted (l : Ledger) (operation : Operation) :
    (l.after operation).entrusted ≤ l.entrusted + operation.supply := by
  cases operation with
  | setDebt | setReserves | setRejecting => exact Nat.le_refl _
  | setSupplied amount =>
      show l.haircut.val + amount.val ≤ l.haircut.val + l.supplied.val + amount.val
      omega
  | reduce => exact reduce_entrusted
  | absorb => exact absorb_entrusted

/-- **What suppliers have and have lost was supplied.** -/
theorem through_entrusted (history : List Operation) :
    (l.through history).entrusted ≤ l.entrusted + supplies history := by
  induction history generalizing l with
  | nil => exact Nat.le_refl _
  | cons operation rest ih =>
      have hstep := after_entrusted l operation
      have hrest := ih (l := l.after operation)
      show ((l.after operation).through rest).entrusted ≤
        l.entrusted + (operation.supply + supplies rest)
      omega

/-- **A refused loss is half borne or leaves no trace.**  After every history of operations, a
refused reduction has changed nothing.  If a loss is refused and the ledger is not as before, the
loss was paid and could not be counted; and whenever it is so, the loss is refused and leaves this.
While all that was ever supplied is an amount, it never is. -/
theorem refused_loss_half_borne_iff (history : List Operation) (user : Address)
    (amount loss : Amount) :
    let l := empty.through history
    (reduce user amount).Clean l ∧
      (∀ m, (absorb loss).Marks l m ↔ Uncountable loss l ∧ m = l.paid loss) ∧
      (supplies history < Amount.size → (absorb loss).Clean l) := by
  intro l
  refine ⟨reduce_clean, fun m => absorb_marks_iff, fun hamount => ?_⟩
  refine clean_iff_marks.mpr fun m hmarks => ?_
  obtain ⟨huncountable, -⟩ := absorb_marks_iff.mp hmarks
  have hentrusted : l.entrusted ≤ empty.entrusted + supplies history := through_entrusted history
  have hnothing : empty.entrusted = 0 := rfl
  have hcovered := huncountable.covered
  have hoverflows := huncountable.overflows
  unfold entrusted at hentrusted hnothing
  omega

/-- Suppliers have lost the largest amount, and as much is supplied again. -/
def resupplied : List Operation :=
  [.setSupplied .largest, .absorb .largest, .setSupplied .largest]

/-- So it is not the case that every refused operation leaves the ledger as it was: a loss of one
unit is refused, and the suppliers have paid it. -/
theorem refused_loss_not_undone :
    ¬ ∀ (history : List Operation) (loss : Amount) (e : Error) (m : Ledger),
      absorb loss (empty.through history) = .error e m →
        m.debts = (empty.through history).debts ∧
          m.reserves = (empty.through history).reserves ∧
          m.supplied = (empty.through history).supplied ∧
          m.haircut = (empty.through history).haircut := by
  intro hundone
  have huncountable : Uncountable ⟨1, by decide⟩ (empty.through resupplied) :=
    ⟨by decide +kernel, by decide +kernel⟩
  obtain ⟨⟨e, hrefused⟩, -⟩ := absorb_marks_iff.mpr ⟨huncountable, rfl⟩
  obtain ⟨-, -, hsupplied, -⟩ := hundone resupplied _ e _ hrefused
  have hpaid : (paid ⟨1, by decide⟩ (empty.through resupplied)).supplied ≠
      (empty.through resupplied).supplied := by decide +kernel
  exact hpaid hsupplied

end Custody.Ledger
