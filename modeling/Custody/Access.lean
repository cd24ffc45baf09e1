/-
Who holds which role in a component.

Only an admin grants and revokes.  The last admin cannot give the role up, and the
zero address is granted nothing.  A role whose members have all been revoked keeps
an empty entry.
-/
import Custody.Action
import Custody.Table

namespace Custody

/-- The members of each role. -/
structure Access where
  members : Table Role (KeySet Address)
deriving DecidableEq

namespace Access

/-- The members of a role as a set. -/
def holders (a : Access) (role : Role) : KeySet Address :=
  (a.members.get? role).getD .empty

/-- The members of a role in ascending order. -/
def list (a : Access) (role : Role) : List Address :=
  (a.holders role).keys

/-- Whether an account holds a role. -/
def holds (a : Access) (role : Role) (account : Address) : Bool :=
  (a.holders role).contains account

/-- Refuse an account that lacks a role. -/
def ensure (a : Access) (role : Role) (account : Address) : Except Error Unit :=
  if a.holds role account then .ok () else .error (.missingRole account role)

/-- A first admin and no other members. -/
def start (admin : Address) : Except Error Access := do
  admin.ensureNonZero "admin"
  return ⟨Table.empty.insert .admin (KeySet.add Table.empty admin)⟩

/-- Give a role to an account; answers whether it lacked the role. -/
def grant (caller : Address) (role : Role) (account : Address) : Action Access Bool := do
  let a ← get
  a.ensure .admin caller
  account.ensureNonZero "account"
  set (Access.mk (a.members.insert role (KeySet.add (a.holders role) account)))
  return !a.holds role account

/-- Take a role from an account; answers whether it held the role. -/
def revoke (caller : Address) (role : Role) (account : Address) : Action Access Bool := do
  let a ← get
  a.ensure .admin caller
  if role = .admin ∧ caller = account ∧ (a.holders .admin).size = 1 then
    throw (.invalidParameter "account" "cannot revoke the last admin")
  match a.members.get? role with
  | none => return false
  | some held =>
    set (Access.mk (a.members.insert role (held.erase account)))
    return a.holds role account

end Access

end Custody
