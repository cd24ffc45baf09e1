/-
Exact sums over tables.

The books of the protocol are tables, and what is conserved are sums over them.  A
sum here is a natural number, so it has no largest value and nothing saturates.

Writing one entry changes a sum by that entry alone: the new value comes in and the
old one, zero if there was none, goes out.  That needs the order of the keys, which
is part of every table, because it is what makes the entry for a key unique.
-/
import Custody.Proofs.Arithmetic
import Custody.Book

namespace Custody

namespace Table

variable {κ ν : Type} [Ord κ] {k : κ} {l : List (κ × ν)}

/-! ### A key below all entries -/

theorem find_eq_none (h : ∀ e ∈ l, compare k e.1 = .lt) : find k l = none := by
  induction l with
  | nil => rfl
  | cons head rest ih =>
      have hhead := h head (by simp)
      simp only [find, hhead, reduceCtorEq, if_false]
      exact ih fun e he => h e (by simp [he])

theorem drop_eq_self (h : ∀ e ∈ l, compare k e.1 = .lt) : drop k l = l := by
  induction l with
  | nil => rfl
  | cons head rest ih =>
      have hhead := h head (by simp)
      simp only [drop, hhead, reduceCtorEq, if_false]
      rw [ih fun e he => h e (by simp [he])]

/-- An entry is what its key reads, because no other entry has the same key. -/
theorem get?_of_mem [Std.TransOrd κ] {t : Table κ ν} {e : κ × ν} (h : e ∈ t.entries) :
    t.get? e.1 = some e.2 := by
  obtain ⟨entries, hasc⟩ := t
  simp only [get?] at h ⊢
  induction entries with
  | nil => simp at h
  | cons head rest ih =>
      obtain ⟨hhead, hrest⟩ := List.pairwise_cons.1 hasc
      rcases List.mem_cons.1 h with rfl | hmem
      · simp [find]
      · have hgt : compare e.1 head.1 = .gt := Std.OrientedCmp.gt_of_lt (hhead e hmem)
        simp only [find, hgt, reduceCtorEq, if_false]
        exact ih hrest hmem

/-! ### Sums of entries -/

/-- The sum of what `f` reads of the values in a list of entries. -/
def entrySum (f : ν → Nat) : List (κ × ν) → Nat
  | [] => 0
  | e :: rest => f e.2 + entrySum f rest

/-- The sum of what `f` reads of the values. -/
def sumOf (f : ν → Nat) (t : Table κ ν) : Nat := entrySum f t.entries

/-- What `f` reads at a key, zero if there is no entry. -/
private def entryAt (f : ν → Nat) (k : κ) (l : List (κ × ν)) : Nat :=
    ((find k l).map f).getD 0

variable [Std.TransOrd κ]

private theorem entrySum_place (f : ν → Nat) (k : κ) (v : ν)
    (h : l.Pairwise fun a b => compare a.1 b.1 = .lt) :
    entrySum f (place k v l) + entryAt f k l = entrySum f l + f v := by
  induction l with
  | nil => simp [entrySum, entryAt, place, find]
  | cons head rest ih =>
      obtain ⟨k', v'⟩ := head
      obtain ⟨hhead, hrest⟩ := List.pairwise_cons.1 h
      have ih := ih hrest
      simp only [entryAt, place, find] at ih ⊢
      cases hcmp : compare k k' with
      | lt =>
          have hnone : find k rest = none :=
            find_eq_none fun e he => Std.TransCmp.lt_trans hcmp (hhead e he)
          simp only [entrySum, hnone, reduceCtorEq, if_false, Option.map_none,
            Option.getD_none]
          omega
      | eq =>
          simp only [entrySum, if_true, Option.map_some, Option.getD_some]
          omega
      | gt =>
          simp only [entrySum, reduceCtorEq, if_false]
          omega

private theorem entrySum_drop (f : ν → Nat) (k : κ)
    (h : l.Pairwise fun a b => compare a.1 b.1 = .lt) :
    entrySum f (drop k l) + entryAt f k l = entrySum f l := by
  induction l with
  | nil => simp [entrySum, entryAt, drop, find]
  | cons head rest ih =>
      obtain ⟨k', v'⟩ := head
      obtain ⟨hhead, hrest⟩ := List.pairwise_cons.1 h
      have ih := ih hrest
      simp only [entryAt, drop, find] at ih ⊢
      by_cases heq : compare k k' = .eq
      · -- The keys after `k'` are larger, so none of them is dropped as well.
        have hself : drop k rest = rest :=
          drop_eq_self fun e he => Std.TransCmp.lt_of_eq_of_lt heq (hhead e he)
        simp only [entrySum, heq, if_true, hself, Option.map_some, Option.getD_some]
        omega
      · simp only [entrySum, heq, if_false]
        omega

/-- Writing a value brings it into the sum and takes the old one out. -/
theorem sumOf_insert (f : ν → Nat) (t : Table κ ν) (k : κ) (v : ν) :
    (t.insert k v).sumOf f + ((t.get? k).map f).getD 0 = t.sumOf f + f v :=
  entrySum_place f k v t.ascending

/-- Erasing a key takes its value out of the sum. -/
theorem sumOf_erase (f : ν → Nat) (t : Table κ ν) (k : κ) :
    (t.erase k).sumOf f + ((t.get? k).map f).getD 0 = t.sumOf f :=
  entrySum_drop f k t.ascending

end Table

/-! ### Tallies -/

namespace Tally

variable {t u : Tally}

/-- The exact sum of the amounts of a tally. -/
def sum (t : Tally) : Nat := t.sumOf Amount.val

private theorem val_amount (t : Tally) (k : Address) :
    (t.amount k).val = ((t.get? k).map Amount.val).getD 0 := by
  unfold amount
  cases t.get? k <;> rfl

theorem amount_insert (t : Tally) (k k' : Address) (v : Amount) :
    amount (t.insert k v) k' = if k' = k then v else t.amount k' := by
  simp only [amount, Table.get?_insert]
  split <;> rfl

theorem amount_erase (t : Tally) (k k' : Address) :
    amount (t.erase k) k' = if k' = k then 0 else t.amount k' := by
  simp only [amount, Table.get?_erase]
  split <;> rfl

theorem sum_insert (t : Tally) (k : Address) (v : Amount) :
    sum (t.insert k v) + (t.amount k).val = t.sum + v.val := by
  rw [val_amount]
  exact Table.sumOf_insert Amount.val t k v

theorem sum_erase (t : Tally) (k : Address) : sum (t.erase k) + (t.amount k).val = t.sum := by
  rw [val_amount]
  exact Table.sumOf_erase Amount.val t k

/-- A list of entries adds up to no more than a tally that has at least as much at
every key.  The entries are paid for one after another: each is taken out of the
tally, and later entries have other keys. -/
private theorem entries_le_sum (l : List (Address × Amount)) :
    ∀ u : Tally, (l.Pairwise fun a b => compare a.1 b.1 = .lt) →
      (∀ e ∈ l, e.2 ≤ u.amount e.1) → Table.entrySum Amount.val l ≤ u.sum := by
  induction l with
  | nil => intro u _ _; exact Nat.zero_le _
  | cons head rest ih =>
      intro u hasc hle
      obtain ⟨hhead, hrest⟩ := List.pairwise_cons.1 hasc
      have hpaid : ∀ e ∈ rest, e.2 ≤ amount (u.erase head.1) e.1 := by
        intro e he
        have hne : e.1 ≠ head.1 := by
          intro heq
          have hlt := hhead e he
          have hself : compare head.1 head.1 = .eq := Std.ReflOrd.compare_self
          rw [heq, hself] at hlt
          cases hlt
        rw [amount_erase, if_neg hne]
        exact hle e (by simp [he])
      have hrec := ih (u.erase head.1) hrest hpaid
      have hfirst : head.2.val ≤ (u.amount head.1).val := hle head (by simp)
      have hsum := sum_erase u head.1
      simp only [Table.entrySum]
      omega

private theorem amount_of_mem {e : Address × Amount} (h : e ∈ t.entries) :
    t.amount e.1 = e.2 := by
  rw [amount, Table.get?_of_mem h]
  rfl

/-- A tally that is nowhere larger has no larger sum. -/
theorem sum_le_sum (h : ∀ k, t.amount k ≤ u.amount k) : t.sum ≤ u.sum := by
  have hle : ∀ e ∈ t.entries, e.2 ≤ u.amount e.1 := by
    intro e he
    rw [← amount_of_mem he]
    exact h e.1
  exact entries_le_sum t.entries u t.ascending hle

end Tally

end Custody
