/-
Finite maps and sets with ordered keys.

A table lists its entries by ascending key, and the proof of that is part of the
value.  So two tables with the same entries are equal, whatever calls made them, and
listing a table needs no sorting.
-/

namespace Custody

/-- A finite map whose entries are listed by ascending key. -/
structure Table (κ ν : Type) [Ord κ] where
  entries : List (κ × ν)
  ascending : entries.Pairwise fun a b => compare a.1 b.1 = .lt

namespace Table

variable {κ ν : Type} [Ord κ]

/-- The table without entries. -/
def empty : Table κ ν := ⟨[], .nil⟩

instance : EmptyCollection (Table κ ν) := ⟨empty⟩

instance : Inhabited (Table κ ν) := ⟨empty⟩

instance [DecidableEq κ] [DecidableEq ν] : DecidableEq (Table κ ν) := fun t u =>
  if h : t.entries = u.entries then
    .isTrue (by cases t; cases u; simp_all)
  else
    .isFalse fun e => h (e ▸ rfl)

/-! ### Reading -/

/-- The value of the first entry with this key. -/
def find (k : κ) : List (κ × ν) → Option ν
  | [] => none
  | (k', v) :: rest => if compare k k' = .eq then some v else find k rest

/-- The value at a key. -/
def get? (t : Table κ ν) (k : κ) : Option ν :=
  find k t.entries

/-- Whether a key has a value. -/
def contains (t : Table κ ν) (k : κ) : Bool :=
  (t.get? k).isSome

/-- The keys in ascending order. -/
def keys (t : Table κ ν) : List κ :=
  t.entries.map (·.1)

/-- The values by ascending key. -/
def values (t : Table κ ν) : List ν :=
  t.entries.map (·.2)

/-- The number of entries. -/
def size (t : Table κ ν) : Nat :=
  t.entries.length

/-! ### Changing -/

/-- Put an entry in its place, instead of an entry with the same key. -/
def place (k : κ) (v : ν) : List (κ × ν) → List (κ × ν)
  | [] => [(k, v)]
  | (k', v') :: rest =>
    match compare k k' with
    | .lt => (k, v) :: (k', v') :: rest
    | .eq => (k, v) :: rest
    | .gt => (k', v') :: place k v rest

/-- Leave out the entries with this key. -/
def drop (k : κ) : List (κ × ν) → List (κ × ν)
  | [] => []
  | (k', v) :: rest => if compare k k' = .eq then drop k rest else (k', v) :: drop k rest

/-- An entry that was placed is the new one or was there before. -/
theorem mem_place {k : κ} {v : ν} {e : κ × ν} {l : List (κ × ν)}
    (h : e ∈ place k v l) : e = (k, v) ∨ e ∈ l := by
  induction l with
  | nil => simpa [place] using h
  | cons head rest ih =>
    obtain ⟨k', v'⟩ := head
    simp only [place] at h
    split at h
    · simpa using h
    · rcases List.mem_cons.1 h with h | h <;> simp [h]
    · rcases List.mem_cons.1 h with h | h
      · simp [h]
      · rcases ih h with h | h <;> simp [h]

/-- Dropping a key leaves entries that were there before, in their order. -/
theorem drop_sublist (k : κ) (l : List (κ × ν)) : (drop k l).Sublist l := by
  induction l with
  | nil => exact .slnil
  | cons head rest ih =>
    simp only [drop]
    split
    · exact ih.cons _
    · exact ih.cons_cons _

variable [Std.TransOrd κ]

/-- Placing an entry keeps the order of the keys. -/
theorem ascending_place (k : κ) (v : ν) {l : List (κ × ν)}
    (h : l.Pairwise fun a b => compare a.1 b.1 = .lt) :
    (place k v l).Pairwise fun a b => compare a.1 b.1 = .lt := by
  induction l with
  | nil => simp [place]
  | cons head rest ih =>
    obtain ⟨k', v'⟩ := head
    obtain ⟨hhead, hrest⟩ := List.pairwise_cons.1 h
    simp only [place]
    split
    next hlt =>
      refine List.pairwise_cons.2 ⟨fun e he => ?_, h⟩
      rcases List.mem_cons.1 he with rfl | he
      · exact hlt
      · exact Std.TransCmp.lt_trans hlt (hhead e he)
    next heq =>
      refine List.pairwise_cons.2 ⟨fun e he => ?_, hrest⟩
      exact Std.TransCmp.lt_of_eq_of_lt heq (hhead e he)
    next hgt =>
      refine List.pairwise_cons.2 ⟨fun e he => ?_, ih hrest⟩
      rcases mem_place he with rfl | he
      · exact Std.OrientedCmp.lt_of_gt hgt
      · exact hhead e he

/-- The table with this value at this key. -/
def insert (t : Table κ ν) (k : κ) (v : ν) : Table κ ν :=
  ⟨place k v t.entries, ascending_place k v t.ascending⟩

omit [Std.TransOrd κ] in
/-- Dropping a key keeps the order of the others. -/
theorem ascending_drop (k : κ) {l : List (κ × ν)}
    (h : l.Pairwise fun a b => compare a.1 b.1 = .lt) :
    (drop k l).Pairwise fun a b => compare a.1 b.1 = .lt :=
  h.sublist (drop_sublist k l)

/-- The table without a value at this key. -/
def erase (t : Table κ ν) (k : κ) : Table κ ν :=
  ⟨drop k t.entries, ascending_drop k t.ascending⟩

/-- The table of a list of entries; of equal keys the last one counts. -/
def ofList (l : List (κ × ν)) : Table κ ν :=
  l.foldl (fun t e => t.insert e.1 e.2) empty

/-! ### Reading what was changed -/

omit [Std.TransOrd κ]

@[simp] theorem get?_empty (k : κ) : (empty : Table κ ν).get? k = none := rfl

variable [Std.LawfulEqOrd κ]

/-- After placing an entry its key has the new value and the others are as before. -/
theorem find_place [DecidableEq κ] (k k' : κ) (v : ν) (l : List (κ × ν)) :
    find k' (place k v l) = if k' = k then some v else find k' l := by
  induction l with
  | nil => simp [place, find]
  | cons head rest ih =>
    obtain ⟨j, w⟩ := head
    simp only [place]
    split
    next => simp [find]
    next heq =>
      have := Std.LawfulEqOrd.eq_of_compare heq
      subst this
      simp only [find, Std.LawfulEqOrd.compare_eq_iff_eq]
      split <;> simp_all
    next hgt =>
      have hne : k ≠ j := by
        rintro rfl
        simp at hgt
      simp only [find, ih, Std.LawfulEqOrd.compare_eq_iff_eq]
      split
      · rename_i h; subst h
        simp [Ne.symm hne]
      · rfl

/-- After dropping a key it has no value and the others are as before. -/
theorem find_drop [DecidableEq κ] (k k' : κ) (l : List (κ × ν)) :
    find k' (drop k l) = if k' = k then none else find k' l := by
  induction l with
  | nil => simp [drop, find]
  | cons head rest ih =>
    obtain ⟨j, w⟩ := head
    simp only [drop, find, Std.LawfulEqOrd.compare_eq_iff_eq]
    split
    · rename_i h; subst h
      rw [ih]
      split <;> rfl
    · rename_i h
      simp only [find, ih, Std.LawfulEqOrd.compare_eq_iff_eq]
      split
      · rename_i h'; subst h'
        simp [Ne.symm h]
      · rfl

@[simp] theorem get?_erase [DecidableEq κ] (t : Table κ ν) (k k' : κ) :
    (t.erase k).get? k' = if k' = k then none else t.get? k' :=
  find_drop k k' t.entries

@[simp] theorem get?_insert [Std.TransOrd κ] [DecidableEq κ] (t : Table κ ν)
    (k k' : κ) (v : ν) :
    (t.insert k v).get? k' = if k' = k then some v else t.get? k' :=
  find_place k k' v t.entries

end Table

/-- A finite set, listed in ascending order. -/
abbrev KeySet (κ : Type) [Ord κ] := Table κ Unit

namespace KeySet

variable {κ : Type} [Ord κ] [Std.TransOrd κ]

/-- The set with one more member. -/
def add (s : KeySet κ) (k : κ) : KeySet κ :=
  Table.insert s k ()

/-- The set with this member or without it. -/
def put (s : KeySet κ) (k : κ) (member : Bool) : KeySet κ :=
  if member then add s k else Table.erase s k

/-- The set of a list. -/
def ofList (l : List κ) : KeySet κ :=
  l.foldl add Table.empty

end KeySet

end Custody
