/-
Books that are written back, and sums over all accounts.

A debit that is undone has written an entry twice, and the second time it wrote what had
been there.  The book is then the same book, and not only one that reads the same, because
a table has one form for each content.

The sum over all accounts counts accounts without an entry too.  They add nothing, and an
account with an entry has one entry only, so the sum over the accounts is the sum over the
entries.
-/
import Mathlib.Algebra.BigOperators.Group.Finset.Piecewise
import Mathlib.Algebra.GroupWithZero.Nat
import Mathlib.Data.FinEnum
import Mathlib.Data.Fintype.Vector
import Custody.Proofs.Sums

namespace Custody

/-! ### Writing back -/

namespace Table

variable {κ ν : Type} [Ord κ] [Std.TransOrd κ]

/-- Of two values placed at one key the second one stays. -/
theorem place_place (k : κ) (v w : ν) (l : List (κ × ν)) :
    place k w (place k v l) = place k w l := by
  induction l with
  | nil => simp [place]
  | cons head rest ih =>
      obtain ⟨j, u⟩ := head
      cases hcmp : compare k j with
      | lt => simp [place, hcmp]
      | eq => simp [place, hcmp]
      | gt => simp [place, hcmp, ih]

theorem insert_insert (t : Table κ ν) (k : κ) (v w : ν) :
    (t.insert k v).insert k w = t.insert k w := by
  simp only [insert, place_place]

variable [Std.LawfulEqOrd κ] {k : κ} {v : ν}

/-- Placing what is there changes nothing. -/
theorem place_of_find {l : List (κ × ν)} (hasc : l.Pairwise fun a b => compare a.1 b.1 = .lt)
    (h : find k l = some v) : place k v l = l := by
  induction l with
  | nil => cases h
  | cons head rest ih =>
      obtain ⟨j, u⟩ := head
      obtain ⟨hhead, hrest⟩ := List.pairwise_cons.1 hasc
      cases hcmp : compare k j with
      | lt =>
          -- Then the key is below all entries and reads nothing.
          have hnone : find k rest = none :=
            find_eq_none fun e he => Std.TransCmp.lt_trans hcmp (hhead e he)
          simp [find, hcmp, hnone] at h
      | eq =>
          obtain rfl := Std.LawfulEqOrd.eq_of_compare hcmp
          simp only [find, hcmp, if_true, Option.some.injEq] at h
          simp [place, h]
      | gt =>
          simp only [find, hcmp, reduceCtorEq, if_false] at h
          simp [place, hcmp, ih hrest h]

theorem insert_of_get? {t : Table κ ν} (h : t.get? k = some v) : t.insert k v = t := by
  obtain ⟨entries, hasc⟩ := t
  simp only [insert, mk.injEq]
  exact place_of_find hasc h

omit [Std.TransOrd κ] [Std.LawfulEqOrd κ] in
/-- Dropping a key that reads nothing changes nothing. -/
theorem drop_of_find {l : List (κ × ν)} (h : find k l = none) : drop k l = l := by
  induction l with
  | nil => rfl
  | cons head rest ih =>
      simp only [find] at h
      split at h
      next => cases h
      next hne => simp only [drop, hne, if_false, ih h]

omit [Std.TransOrd κ] [Std.LawfulEqOrd κ] in
theorem erase_of_get? {t : Table κ ν} (h : t.get? k = none) : t.erase k = t := by
  obtain ⟨entries, hasc⟩ := t
  simp only [erase, mk.injEq]
  exact drop_of_find h

end Table

/-- Only an entry reads a positive amount, so writing that amount changes nothing. -/
theorem Tally.insert_amount {t : Tally} {k : Address} (h : t.amount k ≠ 0) :
    t.insert k (t.amount k) = t := by
  refine Table.insert_of_get? ?_
  unfold amount at h ⊢
  cases hget : t.get? k with
  | none => simp [hget] at h
  | some v => rfl

namespace Book

variable {b : Book} {x y : Address}

theorem put_put (b : Book) (x y : Address) (v w : Amount) :
    put (put b x y v) x y w = put b x y w := by
  have hrow : row (put b x y v) x = (row b x).insert y v := by
    simp [row, put]
  unfold put at hrow ⊢
  rw [hrow, Table.insert_insert, Table.insert_insert]

theorem put_amount (h : b.amount x y ≠ 0) : put b x y (b.amount x y) = b := by
  unfold amount at h
  unfold put amount
  rw [Tally.insert_amount h]
  refine Table.insert_of_get? ?_
  unfold row at h ⊢
  cases hget : b.get? x with
  | none =>
      rw [hget] at h
      exact absurd rfl h
  | some r => rfl

end Book

/-! ### Sums over all keys -/

namespace Address

/-- The bytes of an address as a vector. -/
def vector (a : Address) : List.Vector UInt8 20 := ⟨a.bytes, a.size⟩

theorem vector_injective : Function.Injective vector := by
  intro a b h
  have hbytes : a.bytes = b.bytes := congrArg List.Vector.toList h
  cases a
  cases b
  simp_all

/-- There are finitely many addresses, so a sum may run over all of them. -/
noncomputable instance : Fintype Address := Fintype.ofInjective vector vector_injective

end Address

/-- Replacing one summand brings the new one in and takes the old one out. -/
theorem sum_replace {ι : Type} [Fintype ι] [DecidableEq ι] (f : ι → Nat) (i : ι) (a : Nat) :
    (∑ j, if j = i then a else f j) + f i = (∑ j, f j) + a := by
  have hsplit := Finset.add_sum_erase Finset.univ f (Finset.mem_univ i)
  have hsplit' := Finset.add_sum_erase Finset.univ (fun j => if j = i then a else f j)
    (Finset.mem_univ i)
  have hothers : ∑ j ∈ Finset.univ.erase i, (if j = i then a else f j) =
      ∑ j ∈ Finset.univ.erase i, f j :=
    Finset.sum_congr rfl fun j hj => if_neg (Finset.ne_of_mem_erase hj)
  rw [if_pos rfl, hothers] at hsplit'
  omega

namespace Table

variable {κ ν : Type} [Ord κ] [Std.LawfulEqOrd κ] [DecidableEq κ] (f : ν → Nat)

/-- What is read at a key is the sum of the entries that have this key. -/
theorem find_eq_sum (k : κ) {l : List (κ × ν)}
    (hasc : l.Pairwise fun a b => compare a.1 b.1 = .lt) :
    ((find k l).map f).getD 0 = (l.map fun e => if k = e.1 then f e.2 else 0).sum := by
  induction l with
  | nil => rfl
  | cons head rest ih =>
      obtain ⟨j, u⟩ := head
      obtain ⟨hhead, hrest⟩ := List.pairwise_cons.1 hasc
      have ih := ih hrest
      rw [List.map_cons, List.sum_cons, ← ih]
      by_cases hk : k = j
      · subst hk
        simp [find, find_eq_none hhead]
      · simp [find, hk]

theorem get?_eq_sum (t : Table κ ν) (k : κ) :
    ((t.get? k).map f).getD 0 = (t.entries.map fun e => if k = e.1 then f e.2 else 0).sum :=
  find_eq_sum f k t.ascending

/-- The sum over all keys is the sum over the entries. -/
theorem sum_get? [Fintype κ] (t : Table κ ν) :
    ∑ k, ((t.get? k).map f).getD 0 = (t.entries.map fun e => f e.2).sum := by
  simp only [get?_eq_sum]
  generalize t.entries = l
  induction l with
  | nil => simp
  | cons head rest ih =>
      simp only [List.map_cons, List.sum_cons, Finset.sum_add_distrib, ih, Finset.sum_ite_eq',
        Finset.mem_univ, if_true]

end Table

/-- The amounts in the lines of a book that have this second address. -/
def linesSum (y : Address) (lines : List (Address × Address × Amount)) : Nat :=
  (lines.map fun line => if y = line.2.1 then line.2.2.val else 0).sum

/-- The sum of a column over all accounts is the sum over its lines. -/
theorem Book.sum_amount (b : Book) (y : Address) :
    ∑ x, (b.amount x y).val = linesSum y b.lines := by
  have hread : ∀ x, (b.amount x y).val =
      ((b.get? x).map fun row => (Tally.amount row y).val).getD 0 := by
    intro x
    unfold amount row
    cases b.get? x <;> rfl
  have hrow : ∀ row : Tally, (Tally.amount row y).val =
      (row.entries.map fun e => if y = e.1 then e.2.val else 0).sum := by
    intro row
    rw [← Table.get?_eq_sum Amount.val row y]
    unfold Tally.amount
    cases row.get? y <;> rfl
  simp only [hread, Table.sum_get?, hrow, linesSum, lines]
  induction b.entries with
  | nil => rfl
  | cons head rest ih =>
      simp only [List.map_cons, List.sum_cons, List.flatMap_cons, List.map_append, List.sum_append,
        List.map_map, ih]
      rfl

end Custody
