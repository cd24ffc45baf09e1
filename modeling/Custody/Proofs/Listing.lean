/-
Tables that were written in another order.

A table is told by the keys that it lists and by what it reads at them.  Which keys are listed
depends on where was written, not on what or in which order.  So if two tables come from one
by writing in the same places, it is enough that they read the same: they are then the same
table, entries of zero included.

What a movement of tokens writes is said in these terms here, next to what it changes.
-/
import Custody.Proofs.Bank
import Custody.Proofs.Books

namespace Custody

/-! ### One form for each content -/

namespace Table

variable {κ ν : Type} [Ord κ] [Std.TransOrd κ] [Std.LawfulEqOrd κ] {k : κ} {v d : ν}
  {t u u' w w' : Table κ ν} {A B : κ → Prop}

/-- Ascending lists that read the same are the same list. -/
theorem eq_of_find {l m : List (κ × ν)} (hl : l.Pairwise fun a b => compare a.1 b.1 = .lt)
    (hm : m.Pairwise fun a b => compare a.1 b.1 = .lt) (h : ∀ k, find k l = find k m) :
    l = m := by
  induction l generalizing m with
  | nil =>
      cases m with
      | nil => rfl
      | cons head rest => simpa [find] using h head.1
  | cons lhead lrest ih =>
      obtain ⟨i, v⟩ := lhead
      obtain ⟨hlhead, hlrest⟩ := List.pairwise_cons.1 hl
      cases m with
      | nil => simpa [find] using h i
      | cons mhead mrest =>
          obtain ⟨j, w⟩ := mhead
          obtain ⟨hmhead, hmrest⟩ := List.pairwise_cons.1 hm
          cases hcmp : compare i j with
          | lt =>
              -- A key below all of the other list is not read there.
              have hnone : find i mrest = none :=
                find_eq_none fun e he => Std.TransCmp.lt_trans hcmp (hmhead e he)
              simpa [find, hcmp, hnone] using h i
          | gt =>
              have hlt : compare j i = .lt := Std.OrientedCmp.lt_of_gt hcmp
              have hnone : find j lrest = none :=
                find_eq_none fun e he => Std.TransCmp.lt_trans hlt (hlhead e he)
              simpa [find, hlt, hnone] using h j
          | eq =>
              obtain rfl := Std.LawfulEqOrd.eq_of_compare hcmp
              have hvalue : v = w := by simpa [find] using h i
              have hrest : lrest = mrest := by
                refine ih hlrest hmrest fun k => ?_
                by_cases hk : compare k i = .eq
                · obtain rfl := Std.LawfulEqOrd.eq_of_compare hk
                  rw [find_eq_none hlhead, find_eq_none hmhead]
                · simpa [find, hk] using h k
              rw [hvalue, hrest]

/-- **Tables that read the same are the same.** -/
theorem ext_get? (h : ∀ k, t.get? k = u.get? k) : t = u := by
  obtain ⟨l, hl⟩ := t
  obtain ⟨m, hm⟩ := u
  simp only [mk.injEq]
  exact eq_of_find hl hm h

/-- What is read may be a default as long as the same keys are listed. -/
theorem ext_getD (hlists : ∀ k, t.contains k = true ↔ u.contains k = true)
    (hreads : ∀ k, (t.get? k).getD d = (u.get? k).getD d) : t = u := by
  refine ext_get? fun k => ?_
  have hlists := hlists k
  have hreads := hreads k
  unfold contains at hlists
  cases ht : t.get? k <;> cases hu : u.get? k <;> simp_all

/-! ### Where was written -/

/-- A table lists what another one lists and the keys that were written. -/
def Writes (written : κ → Prop) (t u : Table κ ν) : Prop :=
  ∀ k, u.contains k = true ↔ t.contains k = true ∨ written k

omit [Std.TransOrd κ] [Std.LawfulEqOrd κ] in
theorem Writes.rfl : Writes (fun _ => False) t t := fun _ => (or_false _).symm.to_iff

theorem writes_insert [DecidableEq κ] : Writes (· = k) t (t.insert k v) := by
  intro j
  unfold contains
  rw [get?_insert]
  by_cases hj : j = k <;> simp [hj]

omit [Std.TransOrd κ] [Std.LawfulEqOrd κ] in
theorem Writes.trans (h : Writes A t u) (h' : Writes B u w) :
    Writes (fun k => A k ∨ B k) t w := by
  intro k
  rw [h' k, h k, or_assoc]

omit [Std.TransOrd κ] [Std.LawfulEqOrd κ] in
theorem Writes.congr (h : Writes A t u) (hsame : ∀ k, A k ↔ B k) : Writes B t u := by
  intro k
  rw [h k, hsame k]

/-- **Two writings in either order**: if the outcomes read the same, they are the same. -/
theorem eq_of_swapped (hA : Writes A t u) (hB : Writes B u w) (hB' : Writes B t u')
    (hA' : Writes A u' w') (hreads : ∀ k, (w.get? k).getD d = (w'.get? k).getD d) : w = w' := by
  refine ext_getD (fun k => ?_) hreads
  rw [hB k, hA k, hA' k, hB' k, or_right_comm]

/-- Two different keys can be written in either order. -/
theorem insert_comm [DecidableEq κ] {j : κ} {x y : ν} (hne : k ≠ j) :
    (t.insert k x).insert j y = (t.insert j y).insert k x := by
  refine ext_get? fun i => ?_
  simp only [get?_insert]
  by_cases hj : i = j
  · subst hj
    simp [hne.symm]
  · simp [hj]

end Table

theorem Tally.eq_of_swapped {t u w u' w' : Tally} {A B : Address → Prop} (hA : Table.Writes A t u)
    (hB : Table.Writes B u w) (hB' : Table.Writes B t u') (hA' : Table.Writes A u' w')
    (hreads : ∀ k, w.amount k = w'.amount k) : w = w' :=
  Table.eq_of_swapped hA hB hB' hA' hreads

namespace Book

variable {b c d c' d' : Book} {x y : Address} {v : Amount} {A B : Address → Address → Prop}

/-- A book lists what another one lists and the pairs that were written. -/
structure Writes (written : Address → Address → Prop) (b c : Book) : Prop where
  rows : Table.Writes (fun x => ∃ y, written x y) b c
  row : ∀ x, Table.Writes (written x) (row b x) (row c x)

theorem writes_put : Writes (fun i j => i = x ∧ j = y) b (put b x y v) where
  rows := Table.writes_insert.congr fun i => ⟨fun h => ⟨y, h, rfl⟩, fun ⟨_, h, _⟩ => h⟩
  row := by
    intro i
    by_cases hi : i = x
    · subst hi
      have hrow : row (put b i y v) i = (row b i).insert y v := by
        simp [row, put]
      rw [hrow]
      exact Table.writes_insert.congr fun j => by simp
    · have hrow : row (put b x y v) i = row b i := by
        simp [row, put, hi]
      rw [hrow]
      exact Table.Writes.rfl.congr fun j => by simp [hi]

theorem Writes.trans (h : Writes A b c) (h' : Writes B c d) :
    Writes (fun x y => A x y ∨ B x y) b d where
  rows := (h.rows.trans h'.rows).congr fun _ => exists_or.symm
  row := fun x => (h.row x).trans (h'.row x)

theorem Writes.congr (h : Writes A b c) (hsame : ∀ x y, A x y ↔ B x y) : Writes B b c where
  rows := h.rows.congr fun x => exists_congr (hsame x)
  row := fun x => (h.row x).congr (hsame x)

/-- Two writings in either order: if the outcomes read the same, they are the same. -/
theorem eq_of_swapped (hA : Writes A b c) (hB : Writes B c d) (hB' : Writes B b c')
    (hA' : Writes A c' d') (hreads : ∀ x y, d.amount x y = d'.amount x y) : d = d' := by
  refine Table.eq_of_swapped (d := Table.empty) hA.rows hB.rows hB'.rows hA'.rows fun x => ?_
  exact Tally.eq_of_swapped (hA.row x) (hB.row x) (hB'.row x) (hA'.row x) (hreads x)

/-- The rows of different addresses can be written in either order. -/
theorem put_comm {z : Address} {u : Amount} {i j : Address} (hne : x ≠ z) :
    put (put b x i v) z j u = put (put b z j u) x i v := by
  have hz : row (put b x i v) z = row b z := by
    simp [row, put, hne.symm]
  have hx : row (put b z j u) x = row b x := by
    simp [row, put, hne]
  unfold put at hz hx ⊢
  rw [hz, hx]
  exact Table.insert_comm hne

end Book

/-! ### Movements -/

namespace Bank

variable {token sender recipient : Address} {amount : Amount} {b c : Bank} {r : Unit}

/-- **A movement writes the balances of its two accounts**, and the supply if there is a fee. -/
theorem move_writes (h : move token sender recipient amount b = .ok r c) :
    ∃ received, Moved token sender recipient amount received b c ∧
      Book.Writes (fun t a => t = token ∧ (a = sender ∨ a = recipient)) b.balances
          c.balances ∧
      Table.Writes (fun t => t = token ∧ received < amount) b.supply c.supply := by
  obtain ⟨⟨received, hmoved⟩, -⟩ := move_ok h
  have hreceived := hmoved.fee
  refine ⟨received, hmoved, ?_⟩
  obtain ⟨fee, -, arrived, -, hfee, -, -, rfl⟩ := move_written h
  refine ⟨?_, ?_⟩
  · refine (Book.writes_put.trans Book.writes_put).congr fun t a => ?_
    rw [← and_or_left]
  · by_cases hpos : 0 < fee
    · have hless : received < amount := by
        rw [Amount.pos_iff] at hpos
        rw [Amount.lt_def]
        omega
      simp only [hpos, if_true]
      exact Table.writes_insert.congr fun t => by simp [hless]
    · have hall : ¬ received < amount := by
        rw [Amount.pos_iff] at hpos
        rw [Amount.lt_def]
        omega
      simp only [hpos, if_false]
      exact Table.Writes.rfl.congr fun t => by simp [hall]

end Bank

end Custody
