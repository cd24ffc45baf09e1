/-
Values are read back from their bytes.

A value is read from the front of a byte string, and what stands behind it does not matter.  So
that a value is read back is said of its bytes with any bytes behind them, and said so it can be
put together: what is read one after another is read back if each part is.

A length has eight bytes.  Texts and lists longer than such a length can say are not read back, and
nothing else is asked of any value.  Entries of a map may be listed in any order, because no two of
them have one key.
-/
import Custody.Binary
import Custody.Proofs.Hex
import Mathlib.Algebra.Group.Nat.Defs

namespace Custody

/-! ### Maps that are listed in any order -/

namespace Table

variable {κ ν : Type} [Ord κ] [Std.TransOrd κ] [Std.LawfulEqOrd κ]

omit [Std.TransOrd κ] in
/-- An entry with a new key comes on top of those that are there. -/
theorem place_perm {k : κ} {v : ν} {l : List (κ × ν)} (h : k ∉ l.map Prod.fst) :
    (place k v l).Perm ((k, v) :: l) := by
  induction l with
  | nil => exact .refl _
  | cons head rest ih =>
      obtain ⟨j, w⟩ := head
      simp only [List.map_cons, List.mem_cons, not_or] at h
      obtain ⟨hkey, hrest⟩ := h
      cases hcmp : compare k j with
      | lt =>
          simp only [place, hcmp]
          exact .refl _
      | eq => exact absurd (Std.LawfulEqOrd.eq_of_compare hcmp) hkey
      | gt =>
          simp only [place, hcmp]
          exact ((ih hrest).cons (j, w)).trans (.swap ..)

omit [Std.LawfulEqOrd κ] in
/-- Each key is listed once. -/
theorem nodup_keys (t : Table κ ν) : (t.entries.map Prod.fst).Nodup := by
  refine List.pairwise_map.mpr (t.ascending.imp ?_)
  intro a b hlt heq
  rw [heq] at hlt
  exact absurd hlt (by simp [Std.ReflCmp.compare_self])

/-- Entries with different keys are all there in the end. -/
theorem foldl_insert_perm (l : List (κ × ν)) (t : Table κ ν)
    (h : ((l ++ t.entries).map Prod.fst).Nodup) :
    (l.foldl (fun t e => t.insert e.1 e.2) t).entries.Perm (l ++ t.entries) := by
  induction l generalizing t with
  | nil => exact .refl _
  | cons head rest ih =>
      obtain ⟨k, v⟩ := head
      have hkey : k ∉ t.entries.map Prod.fst := by
        simp only [List.cons_append, List.map_cons, List.nodup_cons, List.map_append,
          List.mem_append, not_or] at h
        exact h.1.2
      have hmoved : (rest ++ (t.insert k v).entries).Perm ((k, v) :: rest ++ t.entries) :=
        ((place_perm hkey).append_left rest).trans List.perm_middle
      exact (ih (t.insert k v) ((hmoved.map Prod.fst).nodup_iff.mpr h)).trans hmoved

/-- **A table is made of its entries in any order.** -/
theorem ofList_of_perm {t : Table κ ν} {l : List (κ × ν)} (h : l.Perm t.entries) :
    ofList l = t := by
  have hkeys : ((l ++ (empty : Table κ ν).entries).map Prod.fst).Nodup := by
    simp only [empty, List.append_nil]
    exact (h.map Prod.fst).nodup_iff.mpr t.nodup_keys
  have hentries : (ofList l).entries.Perm t.entries := by
    have hfold := foldl_insert_perm l empty hkeys
    simp only [empty, List.append_nil] at hfold
    exact hfold.trans h
  have hsame : (ofList l).entries = t.entries := by
    refine hentries.eq_of_pairwise ?_ (ofList l).ascending t.ascending
    intro a b _ _ hab hba
    exact absurd (Std.TransCmp.lt_trans hab hba) (by simp [Std.ReflCmp.compare_self])
  revert hsame
  generalize ofList l = u
  intro hsame
  cases u
  cases t
  simp only [mk.injEq]
  exact hsame

end Table

/-- A set is made of its members. -/
theorem KeySet.ofList_keys {κ : Type} [Ord κ] [Std.TransOrd κ] [Std.LawfulEqOrd κ]
    (s : KeySet κ) : KeySet.ofList (Table.keys s) = s := by
  have hfold : KeySet.ofList (Table.keys s) = Table.ofList s.entries := by
    unfold KeySet.ofList Table.ofList Table.keys
    rw [List.foldl_map]
    rfl
  rw [hfold]
  exact Table.ofList_of_perm (.refl _)

namespace Binary

variable {α β : Type} {x : Reader α} {a : α} {bytes more : List UInt8}

/-! ### Reading from the front -/

/-- The reader reads this value from these bytes, whatever stands behind them. -/
def Reads (x : Reader α) (bytes : List UInt8) (a : α) : Prop :=
  ∀ rest, x (bytes ++ rest) = .ok (a, rest)

theorem reads_pure (a : α) : Reads (pure a) [] a := fun _ => rfl

/-- What is read one after another is read back if each part is. -/
theorem reads_bind {f : α → Reader β} {b : β} (hx : Reads x bytes a)
    (hf : Reads (f a) more b) :
    Reads (x >>= f) (bytes ++ more) b := by
  intro rest
  show (x (bytes ++ more ++ rest) >>= fun p => f p.1 p.2) = .ok (b, rest)
  rw [List.append_assoc, hx]
  exact hf rest

/-- The last part of a value. -/
theorem reads_last {f : α → β} (hx : Reads x bytes a) :
    Reads (x >>= fun a => pure (f a)) bytes (f a) := by
  have h : Reads (x >>= fun a => pure (f a)) (bytes ++ []) (f a) :=
    reads_bind hx (reads_pure (f a))
  rwa [List.append_nil] at h

/-- Bytes from which a value is read to the end are read as that value. -/
theorem read_of_reads [Binary α] (h : Reads decode bytes a) : read bytes = .ok a := by
  have hread := h []
  rw [List.append_nil] at hread
  unfold read StateT.run
  rw [hread]

/-! ### Numbers -/

theorem length_littleEndian (width n : Nat) : (littleEndian width n).length = width := by
  induction width generalizing n with
  | zero => rfl
  | succ width ih => rw [littleEndian, List.length_cons, ih]

/-- A number below the limit of its width is the number of its bytes. -/
theorem ofLittleEndian_littleEndian {width n : Nat} (h : n < 256 ^ width) :
    ofLittleEndian (littleEndian width n) = n := by
  induction width generalizing n with
  | zero =>
      simp only [Nat.pow_zero, Nat.lt_one_iff] at h
      rw [h]
      rfl
  | succ width ih =>
      have hrest : n / 256 < 256 ^ width := by
        rw [Nat.pow_succ] at h
        omega
      rw [littleEndian, ofLittleEndian, ih hrest, UInt8.toNat_ofNat']
      omega

theorem split_append (front rest : List UInt8) :
    split front.length (front ++ rest) = some (front, rest) := by
  induction front with
  | nil => cases rest <;> rfl
  | cons b front ih => simp only [List.length_cons, List.cons_append, split, ih]

theorem reads_take (bytes : List UInt8) : Reads (take bytes.length) bytes bytes := by
  intro rest
  unfold take
  rw [split_append]

theorem reads_number {width n : Nat} (h : n < 256 ^ width) :
    Reads (number width) (littleEndian width n) n := by
  have htake := reads_take (littleEndian width n)
  rw [length_littleEndian] at htake
  have hread : Reads (number width) (littleEndian width n)
      (ofLittleEndian (littleEndian width n)) := reads_last htake
  rwa [ofLittleEndian_littleEndian h] at hread

/-- A length that eight bytes can say. -/
abbrev Countable (n : Nat) : Prop := n < UInt64.size

theorem reads_count {n : Nat} (h : Countable n) : Reads (number 8) (count n) n := reads_number h

/-! ### Values -/

/-- A value that is read back from its bytes. -/
def Kept [Binary α] (a : α) : Prop := Reads decode (encode a) a

theorem kept_word (n : UInt64) : Kept n := by
  have h : Reads (decode : Reader UInt64) (encode n) (UInt64.ofNat n.toNat) :=
    reads_last (reads_number n.toNat_lt)
  rwa [UInt64.ofNat_toNat] at h

theorem kept_amount (n : Amount) : Kept n := by
  have h : Reads (decode : Reader Amount) (encode n)
      ⟨n.val % Amount.size, Nat.mod_lt _ (by decide)⟩ := reads_last (reads_number n.isLt)
  have hval : (⟨n.val % Amount.size, Nat.mod_lt _ (by decide)⟩ : Amount) = n :=
    Amount.ext (Nat.mod_eq_of_lt n.isLt)
  rwa [hval] at h

theorem kept_flag (b : Bool) : Kept b := by
  cases b <;> exact fun _ => rfl

/-! ### Texts -/

theorem reads_sized {bytes : List UInt8} {f : List UInt8 → Reader α}
    (hlength : Countable bytes.length) (h : Reads (f bytes) [] a) :
    Reads (number 8 >>= fun n => take n >>= f) (sized bytes) a := by
  refine reads_bind (reads_count hlength) ?_
  have hread := reads_bind (reads_take bytes) h
  rwa [List.append_nil] at hread

theorem fromUTF8?_textBytes (text : String) :
    String.fromUTF8? ⟨(Hex.textBytes text).toArray⟩ = some text := by
  have hbytes : (⟨(Hex.textBytes text).toArray⟩ : ByteArray) = text.toByteArray := by
    unfold Hex.textBytes
    rw [String.toUTF8_eq_toByteArray]
  rw [hbytes]
  exact dif_pos text.isValidUTF8

/-- **A text is read back**, whatever characters it has. -/
theorem reads_textBytes {text : String} (h : Countable (Hex.textBytes text).length) :
    Reads textBytes (sized (Hex.textBytes text)) text := by
  refine reads_sized h ?_
  rw [fromUTF8?_textBytes]
  exact reads_pure text

theorem kept_text {text : String} (h : Countable (Hex.textBytes text).length) : Kept text :=
  reads_textBytes h

theorem kept_address (a : Address) : Kept a := by
  have hlength : Countable (Hex.textBytes a.toHex).length := by
    rw [Address.length_textBytes_toHex]
    decide
  have hread : Reads (decode : Reader Address) (sized (Hex.textBytes a.toHex) ++ []) a := by
    refine reads_bind (reads_textBytes hlength) ?_
    rw [Address.ofHex_toHex]
    exact reads_pure a
  rwa [List.append_nil] at hread

/-! ### Composed values -/

section

variable [Binary α] [Binary β]

theorem kept_pair {p : α × β} (hfst : Kept p.1) (hsnd : Kept p.2) : Kept p :=
  reads_bind hfst (reads_last hsnd)

theorem kept_option {o : Option α} (h : ∀ a ∈ o, Kept a) : Kept o := by
  cases o with
  | none => exact fun _ => rfl
  | some a => exact reads_bind (kept_flag true) (reads_last (h a rfl))

theorem reads_many {l : List α} (h : ∀ a ∈ l, Kept a) :
    Reads (many l.length) (l.flatMap encode) l := by
  induction l with
  | nil => exact reads_pure []
  | cons a rest ih =>
      have hrest : ∀ b ∈ rest, Kept b := fun b hb => h b (List.mem_cons_of_mem a hb)
      exact reads_bind (h a List.mem_cons_self) (reads_last (ih hrest))

/-- **A list is read back if its members are.** -/
theorem kept_list {l : List α} (hlength : Countable l.length) (h : ∀ a ∈ l, Kept a) : Kept l :=
  reads_bind (reads_count hlength) (reads_many h)

theorem kept_array {l : Array α} (hsize : Countable l.size)
    (h : ∀ a ∈ l, Kept a) : Kept l := by
  have hlist : Kept l.toList := by
    refine kept_list ?_ fun a ha => h a (Array.mem_toList_iff.mp ha)
    rwa [Array.length_toList]
  have hread : Reads (decode : Reader (Array α)) (encode l) l.toList.toArray := reads_last hlist
  rwa [Array.toArray_toList] at hread

variable [Ord α] [Std.TransOrd α] [Std.LawfulEqOrd α]

/-- **A map is read back from its entries in any order.** -/
theorem reads_table {t : Table α β} {l : List (α × β)} (horder : l.Perm t.entries)
    (hsize : Countable t.size) (h : ∀ e ∈ t.entries, Kept e.1 ∧ Kept e.2) :
    Reads decode (encode l) t := by
  have hlist : Kept l := by
    refine kept_list ?_ fun e he => ?_
    · rw [horder.length_eq]
      exact hsize
    · obtain ⟨hkey, hvalue⟩ := h e (horder.mem_iff.mp he)
      exact kept_pair hkey hvalue
  have hread : Reads (decode : Reader (Table α β)) (encode l) (Table.ofList l) := reads_last hlist
  rwa [Table.ofList_of_perm horder] at hread

theorem kept_table {t : Table α β} (hsize : Countable t.size)
    (h : ∀ e ∈ t.entries, Kept e.1 ∧ Kept e.2) : Kept t :=
  reads_table (.refl _) hsize h

theorem kept_set {s : KeySet α} (hsize : Countable s.size) (h : ∀ a ∈ Table.keys s, Kept a) :
    Kept s := by
  have hlist : Kept (Table.keys s) := by
    refine kept_list ?_ h
    rw [Table.keys, List.length_map]
    exact hsize
  have hread : Reads (decode : Reader (KeySet α)) (encode s) (KeySet.ofList (Table.keys s)) :=
    reads_last hlist
  rwa [KeySet.ofList_keys] at hread

end

/-! ### Alternatives -/

/-- The position of an alternative says which reader goes on. -/
theorem reads_position {n : Nat} {f : Nat → Reader α} (hn : n < 256 ^ 4)
    (h : Reads (f n) bytes a) : Reads (number 4 >>= f) (position n ++ bytes) a :=
  reads_bind (reads_number hn) h

theorem kept_role (r : Role) : Kept r := by
  cases r <;> exact fun _ => rfl

end Binary

end Custody
