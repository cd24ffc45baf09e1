/-
How far a book of bad debt is off.

The total of a book is written beside its records and never read from them.  A book that comes
from stored data can hold any total, and the records can add up to more than any amount.  What
such a book lacks, or has too much, is a whole number, and no record and no write-off changes it.
A book that is not off stays so, and it says so itself.

Two sums are formed when a shortfall is recorded, the total and the borrower's own, and each can
pass the largest amount.  In a book that is not off the second one is no danger by itself, since
one record is a part of the total.  For the same reason a record can always be taken out of the
total.
-/
import Custody.Proofs.EngineAccounting
import Custody.Proofs.WriteOff

namespace Custody

open Custody.Action

namespace BadDebt

variable {borrower : Address} {amount : Amount} {b c : BadDebt}

/-- What the records hold more than the total says. -/
def discrepancy (b : BadDebt) : Int := (b.records.sum : Int) - b.total.val

/-! ### The two ways of writing a book -/

theorem Recorded.discrepancy (h : Recorded borrower amount b c) :
    c.discrepancy = b.discrepancy := by
  unfold BadDebt.discrepancy
  rw [h.sum, h.total]
  omega

theorem Cleared.discrepancy (h : Cleared borrower b c) : c.discrepancy = b.discrepancy := by
  have hsum := h.sum
  have htotal := h.total
  unfold BadDebt.discrepancy
  omega

/-! ### A book that is not off -/

/-- In a balanced book the borrower's own sum passes the largest amount only if the total does. -/
theorem Balanced.record_refused_iff (h : Balanced b) :
    (∃ e c, record borrower amount b = .error e c) ↔
      Amount.largest.val < b.total.val + amount.val := by
  have hpart := h.of_le_total borrower
  have hlargest : Amount.largest.val + 1 = Amount.size := by decide
  rw [exists_comm]
  simp only [BadDebt.record_refused_iff, exists_eq_left']
  omega

/-- In a balanced book every record can be taken out of the total. -/
theorem Balanced.clear_refused_iff (h : Balanced b) :
    (∃ e c, clear borrower b = .error e c) ↔ b.of borrower = 0 := by
  constructor
  · rintro ⟨e, c, hrefused⟩
    by_contra hrecorded
    exact clear_answers h hrecorded e c hrefused
  · intro hzero
    refine ⟨.noBadDebt borrower, b, ?_⟩
    rw [clear, get_bind, refuseIf_eq_error]
    exact .inl ⟨hzero, rfl, rfl⟩

theorem Balanced.record_leaves (h : Balanced b) :
    (record borrower amount).Leaves b Balanced := by
  refine leaves_of_cases (fun _ _ hrecord => (record_ok hrecord).2.balanced h) ?_
  intro e _ hrefused
  rwa [record_clean e _ hrefused]

theorem Balanced.clear_leaves (h : Balanced b) : (clear borrower).Leaves b Balanced := by
  refine leaves_of_cases (fun _ _ hclear => (clear_ok hclear).2.balanced h) ?_
  intro e _ hrefused
  rwa [clear_clean e _ hrefused]

/-- **A book of bad debt stays as far off as it is.**  Whatever its records and its total are,
recording a shortfall raises the total by it, dropping a record lowers the total by that, both keep
the exact difference, and a refusal changes nothing.  A book that passes its own check goes on to
pass it; there a shortfall is refused exactly if the new total is no amount, and a record can be
dropped exactly if there is one. -/
theorem discrepancy_kept (b : BadDebt) (borrower : Address) (amount : Amount) :
    ((∀ total c, record borrower amount b = .ok total c →
        c.total.val = b.total.val + amount.val ∧ c.discrepancy = b.discrepancy) ∧
      ∀ recorded c, clear borrower b = .ok recorded c →
        c.total.val + (b.of borrower).val = b.total.val ∧ c.discrepancy = b.discrepancy) ∧
    ((∀ e c, record borrower amount b = .error e c → c = b) ∧
      ∀ e c, clear borrower b = .error e c → c = b) ∧
    (b.verify = .ok () →
      ((∃ e c, record borrower amount b = .error e c) ↔
        Amount.largest.val < b.total.val + amount.val) ∧
      ((∃ e c, clear borrower b = .error e c) ↔ b.of borrower = 0) ∧
      (record borrower amount).Leaves b (fun c => c.verify = .ok ()) ∧
      (clear borrower).Leaves b fun c => c.verify = .ok ()) := by
  refine ⟨⟨fun _ _ hok => ?_, fun _ _ hok => ?_⟩, ⟨record_clean, clear_clean⟩,
    fun hverify => ?_⟩
  · obtain ⟨-, hrecorded⟩ := record_ok hok
    exact ⟨hrecorded.total, hrecorded.discrepancy⟩
  · obtain ⟨-, hcleared⟩ := clear_ok hok
    exact ⟨hcleared.total, hcleared.discrepancy⟩
  have hbalanced := verify_eq_ok.mp hverify
  exact ⟨hbalanced.record_refused_iff, hbalanced.clear_refused_iff,
    hbalanced.record_leaves.imp fun _ => verify_eq_ok.mpr,
    hbalanced.clear_leaves.imp fun _ => verify_eq_ok.mpr⟩

/-- Alice and bob are on record, and the total is given. -/
def onRecord (total : Amount) : BadDebt where
  total
  records :=
    (Table.empty.insert Sample.alice ⟨125, by decide⟩).insert Sample.bob ⟨50, by decide⟩

/-- With a total of 175 the book passes its check, and 50 are left of it without alice.  With a
total of 100 her record cannot be dropped, and the book stays 75 off. -/
theorem discrepancy_kept_onRecord :
    let b := onRecord ⟨175, by decide⟩
    let off := onRecord ⟨100, by decide⟩
    b.verify = .ok () ∧ (¬ ∃ e c, clear Sample.alice b = .error e c) ∧
      ((clear Sample.alice).left b).total.val = 50 ∧
      ((clear Sample.alice).left b).verify = .ok () ∧
      off.discrepancy = 75 ∧ off.of Sample.alice ≠ 0 ∧
      ∃ e, clear Sample.alice off = .error e off := by
  intro b off
  have hverify : b.verify = .ok () := by decide +kernel
  obtain ⟨-, -, hchecked⟩ := discrepancy_kept b Sample.alice 0
  obtain ⟨-, hclear, -, hleaves⟩ := hchecked hverify
  refine ⟨hverify, fun hrefused => ?_, by decide +kernel, hleaves, by decide +kernel,
    by decide +kernel, ?_⟩
  · exact absurd (hclear.mp hrefused) (by decide +kernel)
  · obtain ⟨-, ⟨-, hclean⟩, -⟩ := discrepancy_kept off Sample.alice 0
    obtain ⟨e, hrefused⟩ := exists_error_of_reply? (x := clear Sample.alice) (s := off)
      (by decide +kernel)
    exact ⟨e, hclean e _ hrefused ▸ hrefused⟩

end BadDebt

end Custody
