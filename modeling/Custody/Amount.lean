/-
Amounts of tokens, debts and dollar values.

An amount is a natural number of sixteen bytes.  The bound is part of the type, so a
sum that passes it has no amount and has to be reported by whoever adds.  Plain
subtraction stops at zero; callers that subtract have compared before.
-/

namespace Custody

/-- The number of amounts, two to the power of 128. -/
abbrev Amount.size : Nat := 340282366920938463463374607431768211456

/-- A number of token units. -/
structure Amount where
  val : Nat
  isLt : val < Amount.size := by decide
deriving DecidableEq

namespace Amount

/-- The largest amount. -/
def largest : Amount := ⟨size - 1, by decide⟩

instance : Zero Amount := ⟨⟨0, by decide⟩⟩

instance : OfNat Amount 0 := ⟨⟨0, by decide⟩⟩

instance : Inhabited Amount := ⟨0⟩

instance : ToString Amount := ⟨fun a => toString a.val⟩

/-- The amount of a number, if it is below the limit. -/
def ofNat? (n : Nat) : Option Amount :=
  if h : n < size then some ⟨n, h⟩ else none

/-- A word as an amount. -/
def ofWord (n : UInt64) : Amount :=
  ⟨n.toNat, Nat.lt_of_lt_of_le n.toNat_lt (by decide)⟩

/-! ### Order and subtraction -/

instance : LE Amount := ⟨fun a b => a.val ≤ b.val⟩

instance : LT Amount := ⟨fun a b => a.val < b.val⟩

instance (a b : Amount) : Decidable (a ≤ b) := inferInstanceAs (Decidable (a.val ≤ b.val))

instance (a b : Amount) : Decidable (a < b) := inferInstanceAs (Decidable (a.val < b.val))

instance : Min Amount := ⟨fun a b => if a ≤ b then a else b⟩

instance : Sub Amount :=
  ⟨fun a b => ⟨a.val - b.val, Nat.lt_of_le_of_lt (Nat.sub_le ..) a.isLt⟩⟩

/-! ### Values -/

@[ext] theorem ext {a b : Amount} (h : a.val = b.val) : a = b := by
  cases a; cases b; simp_all

@[simp] theorem val_zero : (0 : Amount).val = 0 := rfl

@[simp] theorem val_sub (a b : Amount) : (a - b).val = a.val - b.val := rfl

theorem le_def {a b : Amount} : a ≤ b ↔ a.val ≤ b.val := Iff.rfl

theorem lt_def {a b : Amount} : a < b ↔ a.val < b.val := Iff.rfl

@[simp] theorem val_min (a b : Amount) : (min a b).val = min a.val b.val := by
  show (if a ≤ b then a else b).val = _
  simp only [le_def, Nat.min_def]
  split <;> rfl

end Amount

end Custody
