/-
The capabilities an account may hold.

Each component keeps its own members for each role, so the same account may hold a
role in one component and lack it in another.
-/

namespace Custody

/-- A capability. -/
inductive Role where
  /-- Grants and revokes roles, and ends a pause. -/
  | admin
  /-- Proposes, cancels and executes delayed changes of collateral. -/
  | vaultAdmin
  /-- Adds collateral at once, sets liquidation parameters, writes off bad debt. -/
  | governance
  /-- Seizes collateral. -/
  | liquidation
  /-- Deposits and withdraws for other users. -/
  | leverageVault
  /-- Starts a pause. -/
  | pauser
deriving DecidableEq, Repr

namespace Role

/-- Every role, in ascending order. -/
def all : List Role :=
  [.admin, .vaultAdmin, .governance, .liquidation, .leverageVault, .pauser]

/-- The position of a role in `all`. -/
def index : Role → Nat
  | .admin => 0
  | .vaultAdmin => 1
  | .governance => 2
  | .liquidation => 3
  | .leverageVault => 4
  | .pauser => 5

/-- The role at a position. -/
def ofIndex? : Nat → Option Role
  | 0 => some .admin
  | 1 => some .vaultAdmin
  | 2 => some .governance
  | 3 => some .liquidation
  | 4 => some .leverageVault
  | 5 => some .pauser
  | _ => none

/-- The name shown to people. -/
def name : Role → String
  | .admin => "ADMIN"
  | .vaultAdmin => "VAULT_ADMIN"
  | .governance => "GOVERNANCE"
  | .liquidation => "LIQUIDATION"
  | .leverageVault => "LEVERAGE_VAULT"
  | .pauser => "PAUSER"

/-- The name used in stored data. -/
def tag : Role → String
  | .admin => "Admin"
  | .vaultAdmin => "VaultAdmin"
  | .governance => "Governance"
  | .liquidation => "Liquidation"
  | .leverageVault => "LeverageVault"
  | .pauser => "Pauser"

instance : ToString Role := ⟨name⟩

/-- A role is found at its own position. -/
theorem ofIndex?_index (r : Role) : ofIndex? r.index = some r := by
  cases r <;> rfl

/-- A position tells which role stands there. -/
theorem index_injective {r s : Role} (h : r.index = s.index) : r = s := by
  have := congrArg ofIndex? h
  rw [ofIndex?_index, ofIndex?_index] at this
  exact Option.some.inj this

instance : Ord Role := ⟨compareOn index⟩

instance : Std.TransOrd Role := inferInstanceAs (Std.TransCmp (compareOn index))

instance : Std.LawfulEqOrd Role where
  compare_self := fun {r} => by show compare r.index r.index = .eq; simp
  eq_of_compare := fun h => index_injective (Std.LawfulEqOrd.eq_of_compare h)

end Role

end Custody
