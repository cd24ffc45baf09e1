/-
What happens to debts and to the record of bad debt.

A reduction takes an amount out of one debt and so out of the sum of all debts.  What
is charged as a loss comes out of the reserves and then of the suppliers' deposits,
and out of nothing else.

The record of bad debt is written by a liquidation that falls short and dropped when
the bad debt is written off.  Its total is the sum of its records, and both ways of
writing it keep that.
-/
import Custody.Proofs.Sums
import Custody.BadDebt
import Custody.Ledger

namespace Custody

open Custody.Action

/-! ### The ledger -/

namespace Ledger

variable {user : Address} {amount : Amount} {l m : Ledger} {r : Unit}

/-- The exact sum of all debts. -/
def outstanding (l : Ledger) : Nat := l.debts.sum

/-- The ledger with this debt; a debt of zero has no entry. -/
private def written (user : Address) (v : Amount) (l : Ledger) : Ledger :=
  { l with debts := if v = 0 then l.debts.erase user else l.debts.insert user v }

/-- Without an entry a debt reads the same as with an entry of zero. -/
private theorem debt_written (user u : Address) (v : Amount) (l : Ledger) :
    (written user v l).debt u = if u = user then v else l.debt u := by
  unfold written debt
  by_cases hv : v = 0
  · simp only [hv, if_true, Tally.amount_erase]
  · simp only [hv, if_false, Tally.amount_insert]

private theorem outstanding_written (user : Address) (v : Amount) (l : Ledger) :
    (written user v l).outstanding + (l.debt user).val = l.outstanding + v.val := by
  unfold written outstanding debt
  by_cases hv : v = 0
  · simp only [hv, if_true, Tally.sum_erase, Amount.val_zero, Nat.add_zero]
  · simp only [hv, if_false, Tally.sum_insert]

theorem setDebt_self : (setDebt user amount).Leaves l fun m => m.debt user = amount := by
  refine leaves_modify ?_
  exact (debt_written user user amount l).trans (if_pos rfl)

/-- Writing a debt changes that debt alone. -/
theorem setDebt_of_ne {u : Address} (hother : u ≠ user) :
    (setDebt user amount).Leaves l fun m => m.debt u = l.debt u := by
  refine leaves_modify ?_
  have hdebt := debt_written user u amount l
  rw [if_neg hother] at hdebt
  exact hdebt

/-- A debt that was reduced. -/
structure Reduced (user : Address) (amount : Amount) (l m : Ledger) : Prop where
  accepting : l.rejecting = false
  /-- Every debt, and what was taken out of it. -/
  debt : ∀ u, (m.debt u).val + (if u = user then amount.val else 0) = (l.debt u).val
  outstanding : m.outstanding + amount.val = l.outstanding
  /-- Nothing but debts changed. -/
  rest : m = { l with debts := m.debts }

theorem Reduced.debt_of_ne {u : Address} (h : Reduced user amount l m) (hother : u ≠ user) :
    m.debt u = l.debt u := by
  have hdebt := h.debt u
  rw [if_neg hother] at hdebt
  exact Amount.ext hdebt

theorem reduce_ok (h : reduce user amount l = .ok r m) : Reduced user amount l m := by
  simp only [reduce, setDebt, get_bind, refuseIf_eq_ok, modify_eq_ok, Bool.not_eq_true] at h
  obtain ⟨haccepting, hcovered, rfl⟩ := h
  simp only [Amount.lt_def, Nat.not_lt] at hcovered
  refine ⟨haccepting, fun u => ?_, ?_, rfl⟩
  · have hdebt := debt_written user u (l.debt user - amount) l
    unfold written at hdebt
    rw [hdebt]
    by_cases hu : u = user
    · subst hu
      simp only [if_true, Amount.val_sub]
      omega
    · simp only [hu, if_false, Nat.add_zero]
  · have hsum := outstanding_written user (l.debt user - amount) l
    unfold written at hsum
    rw [Amount.val_sub] at hsum
    omega

/-- What is owed can be repaid while reductions are taken. -/
theorem reduce_answers (haccepting : l.rejecting = false) (hcovered : amount ≤ l.debt user) :
    (reduce user amount).Answers l := by
  refine answers_get (answers_refuseIf ?_ ?_)
  · rw [haccepting]
    exact Bool.false_ne_true
  · exact answers_refuseIf (Nat.not_lt.mpr hcovered) answers_modify

/-- A reduction checks first and writes at its end. -/
theorem reduce_clean : (reduce user amount).Clean l :=
  clean_get (clean_refuseIf fun _ => clean_refuseIf fun _ => answers_modify.clean)

theorem reduce_of_ne {u : Address} (hother : u ≠ user) :
    (reduce user amount).Leaves l fun m => m.debt u = l.debt u := by
  refine leaves_of_cases (fun _ m h => (reduce_ok h).debt_of_ne hother) fun e m h => ?_
  rw [reduce_clean e m h]

/-- A loss that was charged. -/
structure Absorbed (amount : Amount) (l m : Ledger) : Prop where
  reserves : m.reserves.val = l.reserves.val - amount.val
  /-- Suppliers bear what the reserves do not cover. -/
  supplied : m.supplied.val + (amount.val - l.reserves.val) = l.supplied.val
  haircut : m.haircut.val = l.haircut.val + (amount.val - l.reserves.val)
  debts : m.debts = l.debts
  rejecting : m.rejecting = l.rejecting

theorem absorb_ok (h : absorb amount l = .ok r m) : Absorbed amount l m := by
  simp only [absorb, get_bind, set_bind, refuseIf_eq_ok, bind_eq_ok, check_eq_ok, modify_eq_ok,
    Amount.add_eq_ok] at h
  obtain ⟨hcovered, haircut, _, ⟨hhaircut, rfl⟩, rfl⟩ := h
  simp only [Amount.lt_def, Nat.not_lt, Amount.val_sub, Amount.val_min] at hcovered hhaircut
  refine ⟨?_, ?_, ?_, rfl, rfl⟩
  · simp only [Amount.val_sub, Amount.val_min]
    omega
  · simp only [Amount.val_sub, Amount.val_min]
    omega
  · simp only [hhaircut]
    omega

/-- Charging a loss leaves the debts alone, also when it is refused halfway. -/
theorem absorb_debts : (absorb amount).Leaves l fun m => m.debts = l.debts := by
  refine leaves_get ?_
  refine leaves_refuseIf rfl fun _ => leaves_bind (leaves_set rfl) fun _ m _ h => ?_
  exact leaves_check h fun _ _ => leaves_modify h

/-- A debt that was reduced by an amount which was charged as a loss. -/
structure WrittenOff (user : Address) (amount : Amount) (l m : Ledger) : Prop where
  debt : ∀ u, (m.debt u).val + (if u = user then amount.val else 0) = (l.debt u).val
  outstanding : m.outstanding + amount.val = l.outstanding
  reserves : m.reserves.val = l.reserves.val - amount.val
  supplied : m.supplied.val + (amount.val - l.reserves.val) = l.supplied.val
  haircut : m.haircut.val = l.haircut.val + (amount.val - l.reserves.val)
  rejecting : m.rejecting = l.rejecting

theorem Reduced.writtenOff {k : Ledger} (hreduced : Reduced user amount l k)
    (habsorbed : Absorbed amount k m) : WrittenOff user amount l m := by
  obtain ⟨-, hdebt, hsum, hrest⟩ := hreduced
  obtain ⟨hreserves, hsupplied, hhaircut, hdebts, hrejecting⟩ := habsorbed
  have hread : ∀ u, m.debt u = k.debt u := fun u => by simp only [Ledger.debt, hdebts]
  have hout : m.outstanding = k.outstanding := by simp only [Ledger.outstanding, hdebts]
  rw [hrest] at hreserves hsupplied hhaircut hrejecting
  refine ⟨fun u => ?_, ?_, hreserves, hsupplied, hhaircut, hrejecting⟩
  · rw [hread, hdebt]
  · rw [hout, hsum]

theorem WrittenOff.debt_of_ne {u : Address} (h : WrittenOff user amount l m) (hother : u ≠ user) :
    m.debt u = l.debt u := by
  have hdebt := h.debt u
  rw [if_neg hother] at hdebt
  exact Amount.ext hdebt

/-- Writing off nothing. -/
theorem WrittenOff.none (hzero : amount = 0) : WrittenOff user amount l l := by
  subst hzero
  refine ⟨fun u => ?_, rfl, ?_, ?_, ?_, rfl⟩
  · split <;> rfl
  all_goals simp

end Ledger

/-! ### The record of bad debt -/

namespace BadDebt

variable {borrower : Address} {amount total recorded : Amount} {b c : BadDebt}

/-- The total is the sum of the records. -/
def Balanced (b : BadDebt) : Prop := b.total.val = b.records.sum

theorem balanced_empty : Balanced empty := rfl

/-- A shortfall that was added. -/
structure Recorded (borrower : Address) (amount : Amount) (b c : BadDebt) : Prop where
  /-- Every record, and what was added to it. -/
  record : ∀ k, (c.of k).val = (b.of k).val + if k = borrower then amount.val else 0
  total : c.total.val = b.total.val + amount.val
  sum : c.records.sum = b.records.sum + amount.val

theorem Recorded.of_of_ne {u : Address} (h : Recorded borrower amount b c)
    (hother : u ≠ borrower) :
    c.of u = b.of u := by
  have hrecord := h.record u
  rw [if_neg hother] at hrecord
  exact Amount.ext hrecord

/-- Adding nothing. -/
theorem Recorded.none (hzero : amount = 0) : Recorded borrower amount b b := by
  subst hzero
  refine ⟨fun k => ?_, rfl, rfl⟩
  split <;> rfl

theorem record_ok (h : record borrower amount b = .ok total c) :
    total = c.total ∧ Recorded borrower amount b c := by
  simp only [record, get_bind, bind_eq_ok, check_eq_ok, set_eq_ok, pure_eq_ok,
    Amount.add_eq_ok] at h
  obtain ⟨total, _, ⟨htotal, rfl⟩, own, _, ⟨hown, rfl⟩, _, _, rfl, rfl, rfl⟩ := h
  refine ⟨rfl, fun k => ?_, htotal, ?_⟩
  · simp only [of, Tally.amount_insert] at hown ⊢
    by_cases hk : k = borrower
    · simp only [hk, if_true, hown]
    · simp only [hk, if_false, Nat.add_zero]
  · have hsum := b.records.sum_insert borrower own
    simp only [of] at hown
    show Tally.sum (b.records.insert borrower own) = _
    omega

/-- A shortfall is refused when a sum would pass the largest amount, and then nothing
is recorded. -/
theorem record_refused_iff :
    (∃ e, record borrower amount b = .error e c) ↔
      b = c ∧ (Amount.size ≤ b.total.val + amount.val ∨
        Amount.size ≤ (b.of borrower).val + amount.val) := by
  simp only [record, get_bind, bind_eq_error, check_eq_error, check_eq_ok, set_ne_error,
    pure_ne_error, and_false, exists_false, or_false, Amount.add_eq_error, Amount.add_eq_ok]
  constructor
  · rintro ⟨e, ⟨⟨htotal, -⟩, rfl⟩ | ⟨_, _, ⟨_, rfl⟩, ⟨hown, -⟩, rfl⟩⟩
    · exact ⟨rfl, .inl htotal⟩
    · exact ⟨rfl, .inr hown⟩
  · rintro ⟨rfl, h⟩
    by_cases htotal : Amount.size ≤ b.total.val + amount.val
    · exact ⟨_, .inl ⟨⟨htotal, rfl⟩, rfl⟩⟩
    · have hown := h.resolve_left htotal
      exact ⟨_, .inr
        ⟨⟨_, Nat.not_le.mp htotal⟩, _, ⟨rfl, rfl⟩, ⟨hown, rfl⟩, rfl⟩⟩

/-- Nothing else refuses a shortfall. -/
theorem record_error {e : Error} (h : record borrower amount b = .error e c) :
    ∃ sum, e = .overflow sum := by
  simp only [record, get_bind, bind_eq_error, check_eq_error, check_eq_ok, set_ne_error,
    pure_ne_error, and_false, exists_false, or_false, Amount.add_eq_error, Amount.add_eq_ok] at h
  rcases h with ⟨⟨-, rfl⟩, -⟩ | ⟨_, _, ⟨-, rfl⟩, ⟨-, rfl⟩, -⟩
  · exact ⟨_, rfl⟩
  · exact ⟨_, rfl⟩

/-- A record that was dropped. -/
structure Cleared (borrower : Address) (b c : BadDebt) : Prop where
  record : ∀ k, (c.of k).val = if k = borrower then 0 else (b.of k).val
  total : c.total.val + (b.of borrower).val = b.total.val
  sum : c.records.sum + (b.of borrower).val = b.records.sum

theorem Cleared.of_of_ne {u : Address} (h : Cleared borrower b c) (hother : u ≠ borrower) :
    c.of u = b.of u := by
  have hrecord := h.record u
  rw [if_neg hother] at hrecord
  exact Amount.ext hrecord

theorem clear_ok (h : clear borrower b = .ok recorded c) :
    recorded = b.of borrower ∧ Cleared borrower b c := by
  simp only [clear, get_bind, refuseIf_eq_ok, bind_eq_ok, check_eq_ok, set_eq_ok, pure_eq_ok,
    Amount.subtract_eq_ok] at h
  obtain ⟨-, total, _, ⟨htotal, rfl⟩, _, _, rfl, rfl, rfl⟩ := h
  refine ⟨rfl, fun k => ?_, htotal, b.records.sum_erase borrower⟩
  simp only [of, Tally.amount_erase]
  by_cases hk : k = borrower
  · simp only [hk, if_true, Amount.val_zero]
  · simp only [hk, if_false]

theorem Recorded.balanced (h : Recorded borrower amount b c) (hb : Balanced b) :
    Balanced c := by
  rw [Balanced, h.total, h.sum, hb]

theorem Cleared.balanced (h : Cleared borrower b c) (hb : Balanced b) : Balanced c := by
  have htotal := h.total
  have hsum := h.sum
  unfold Balanced at hb ⊢
  omega

end BadDebt

end Custody
