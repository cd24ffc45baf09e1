/-
What calls do to the books of the vault.

A deposit and a withdrawal change one deposit and the total of its token, by the same
amount.  Nothing else writes to the books: administration changes what may be
deposited and who may call, and leaves address, deposits and totals alone however it
ends.
-/
import Custody.Proofs.Sums
import Custody.Vault.Administration

namespace Custody.Vault

open Custody.Action

variable {user token : Address} {amount : Amount} {v w : Vault} {r : Unit}

/-! ### New vaults -/

/-- A vault in which nothing has happened. -/
def vacant (address : Address) (access : Access) (borrowModule : Address) : Vault where
  address := address
  access := access
  borrowModule := borrowModule
  configs := .empty
  listed := []
  deposits := .empty
  totals := .empty
  pendingAdds := .vacant "add collateral"
  pendingUpdates := .vacant "update collateral"
  pendingModule := .vacant "borrow module"
  paused := false
  events := .standard
  guard := .free

/-- A new vault has its first admin, and nothing has happened in it. -/
theorem start_ok {address admin borrowModule : Address}
    (h : start address admin borrowModule = .ok v) :
    ∃ access, Access.start admin = .ok access ∧ v = vacant address access borrowModule := by
  simp only [start, Check.bind_eq_ok, Check.pure_eq_ok] at h
  obtain ⟨_, -, _, -, access, haccess, rfl⟩ := h
  exact ⟨access, haccess, rfl⟩

/-! ### Booking -/

theorem total_putDeposit (v : Vault) (user token t : Address) (deposit total : Amount) :
    (v.putDeposit user token deposit total).total t = if t = token then total else v.total t :=
  Tally.amount_insert ..

theorem depositOf_putDeposit (v : Vault) (user token u t : Address) (deposit total : Amount) :
    (v.putDeposit user token deposit total).depositOf u t =
      if u = user ∧ t = token then deposit else v.depositOf u t :=
  Book.amount_put ..

theorem credit_ok (h : credit user token amount v = .ok r w) :
    ∃ deposit total : Amount,
      deposit.val = (v.depositOf user token).val + amount.val ∧
      total.val = (v.total token).val + amount.val ∧
      w = v.putDeposit user token deposit total := by
  simp only [credit, get_bind, bind_eq_ok, check_eq_ok, set_eq_ok, Amount.add_eq_ok] at h
  obtain ⟨deposit, _, ⟨hdeposit, rfl⟩, total, _, ⟨htotal, rfl⟩, rfl⟩ := h
  exact ⟨deposit, total, hdeposit, htotal, rfl⟩

theorem debit_ok {receipt : Receipt} (h : debit user token amount v = .ok receipt w) :
    amount ≤ v.depositOf user token ∧
      receipt = ⟨user, token, v.depositOf user token, v.total token⟩ ∧
      ∃ total : Amount, total.val + amount.val = (v.total token).val ∧
        w = v.putDeposit user token (v.depositOf user token - amount) total := by
  simp only [debit, get_bind, refuseIf_eq_ok, bind_eq_ok, check_eq_ok, set_eq_ok, pure_eq_ok,
    Amount.subtract_eq_ok] at h
  obtain ⟨hcovered, total, _, ⟨htotal, rfl⟩, _, _, rfl, rfl, rfl⟩ := h
  simp only [Amount.lt_def, Nat.not_lt] at hcovered
  exact ⟨hcovered, rfl, total, htotal, rfl⟩

/-! ### Administration -/

/-- Two states of a vault with the same books. -/
structure SameBooks (v w : Vault) : Prop where
  address : w.address = v.address
  deposits : w.deposits = v.deposits
  totals : w.totals = v.totals

namespace SameBooks

theorem rfl : SameBooks v v := ⟨.refl _, .refl _, .refl _⟩

end SameBooks

variable {ctx : Context} {params : CollateralParams} {next account : Address} {role : Role}

private theorem tell_books {now : Timestamp} {event : Event} (h : SameBooks v w) :
    (tell now event).Leaves w (SameBooks v) :=
  leaves_modify ⟨h.address, h.deposits, h.totals⟩

private theorem onAdds_books {α : Type} {x : Action (Timelock.Queue Address CollateralParams) α}
    (h : SameBooks v w) : (onAdds x).Leaves w (SameBooks v) :=
  leaves_on (leaves_of_forall fun _ => ⟨h.address, h.deposits, h.totals⟩)

private theorem onUpdates_books {α : Type}
    {x : Action (Timelock.Queue Address CollateralParams) α} (h : SameBooks v w) :
    (onUpdates x).Leaves w (SameBooks v) :=
  leaves_on (leaves_of_forall fun _ => ⟨h.address, h.deposits, h.totals⟩)

private theorem onModule_books {α : Type} {x : Action (Timelock.Slot Address) α}
    (h : SameBooks v w) : (onModule x).Leaves w (SameBooks v) :=
  leaves_on (leaves_of_forall fun _ => ⟨h.address, h.deposits, h.totals⟩)

theorem requestAdd_books : (requestAdd ctx token params).Leaves v (SameBooks v) := by
  refine leaves_get (leaves_check .rfl fun _ _ => leaves_check .rfl fun _ _ => ?_)
  exact leaves_bind (onAdds_books .rfl) fun _ _ _ h => tell_books h

theorem cancelAdd_books : (cancelAdd ctx token).Leaves v (SameBooks v) := by
  refine leaves_get (leaves_check .rfl fun _ _ => ?_)
  exact leaves_bind (leaves_discard (onAdds_books .rfl)) fun _ _ _ h => tell_books h

theorem executeAdd_books : (executeAdd ctx token).Leaves v (SameBooks v) := by
  refine leaves_get (leaves_check .rfl fun _ _ => leaves_check .rfl fun _ _ => ?_)
  refine leaves_check .rfl fun _ _ => leaves_bind (leaves_set ⟨.refl _, .refl _, .refl _⟩) ?_
  intro _ _ _ h
  exact leaves_bind (onAdds_books h) fun _ _ _ h => tell_books h

theorem addCollateral_books : (addCollateral ctx token params).Leaves v (SameBooks v) := by
  refine leaves_get (leaves_check .rfl fun _ _ => leaves_check .rfl fun _ _ => ?_)
  exact leaves_bind (leaves_set ⟨.refl _, .refl _, .refl _⟩) fun _ _ _ h => tell_books h

theorem requestUpdate_books : (requestUpdate ctx token params).Leaves v (SameBooks v) := by
  refine leaves_get (leaves_check .rfl fun _ _ => leaves_check .rfl fun _ _ => ?_)
  exact leaves_bind (onUpdates_books .rfl) fun _ _ _ h => tell_books h

theorem cancelUpdate_books : (cancelUpdate ctx token).Leaves v (SameBooks v) := by
  refine leaves_get (leaves_check .rfl fun _ _ => ?_)
  exact leaves_bind (leaves_discard (onUpdates_books .rfl)) fun _ _ _ h => tell_books h

theorem executeUpdate_books : (executeUpdate ctx token).Leaves v (SameBooks v) := by
  refine leaves_get (leaves_check .rfl fun _ _ => leaves_check .rfl fun _ _ => ?_)
  refine leaves_check .rfl fun _ _ => leaves_check .rfl fun _ _ => ?_
  refine leaves_bind (leaves_set ⟨.refl _, .refl _, .refl _⟩) fun _ _ _ h => ?_
  exact leaves_bind (onUpdates_books h) fun _ _ _ h => tell_books h

theorem setEnabled_books {enabled : Bool} :
    (setEnabled enabled ctx token).Leaves v (SameBooks v) := by
  refine leaves_get (leaves_check .rfl fun _ _ => leaves_check .rfl fun _ _ => ?_)
  exact leaves_bind (leaves_set ⟨.refl _, .refl _, .refl _⟩) fun _ _ _ h => tell_books h

theorem requestModule_books : (requestModule ctx next).Leaves v (SameBooks v) := by
  refine leaves_get (leaves_check .rfl fun _ _ => leaves_check .rfl fun _ _ => ?_)
  exact leaves_bind (onModule_books .rfl) fun _ _ _ h => tell_books h

theorem cancelModule_books : (cancelModule ctx).Leaves v (SameBooks v) := by
  refine leaves_get (leaves_check .rfl fun _ _ => ?_)
  exact leaves_bind (leaves_discard (onModule_books .rfl)) fun _ _ _ h => tell_books h

theorem executeModule_books : (executeModule ctx).Leaves v (SameBooks v) := by
  refine leaves_get (leaves_check .rfl fun _ _ => leaves_check .rfl fun _ _ => ?_)
  refine leaves_check .rfl fun _ _ => leaves_bind (leaves_set ⟨.refl _, .refl _, .refl _⟩) ?_
  intro _ _ _ h
  exact leaves_bind (onModule_books h) fun _ _ _ h => tell_books h

/-- Changing the members of a role and telling so leaves the books alone. -/
private theorem onAccess_books {x : Action Access Bool} {now : Timestamp} {event : Event} :
    (onAccess x >>= fun changed => if changed then tell now event else pure ()).Leaves v
      (SameBooks v) := by
  refine leaves_bind (leaves_on (leaves_of_forall fun _ => ⟨.refl _, .refl _, .refl _⟩)) ?_
  intro changed _ _ h
  cases changed with
  | true => exact tell_books h
  | false => exact leaves_pure h

theorem grantRole_books : (grantRole ctx role account).Leaves v (SameBooks v) := onAccess_books

theorem revokeRole_books : (revokeRole ctx role account).Leaves v (SameBooks v) := onAccess_books

private theorem setPaused_books {paused : Bool} :
    (setPaused paused ctx).Leaves v (SameBooks v) :=
  leaves_bind (leaves_modify ⟨.refl _, .refl _, .refl _⟩) fun _ _ _ h => tell_books h

theorem pause_books : (pause ctx).Leaves v (SameBooks v) :=
  leaves_get (leaves_check .rfl fun _ _ => setPaused_books)

theorem unpause_books : (unpause ctx).Leaves v (SameBooks v) :=
  leaves_get (leaves_check .rfl fun _ _ => setPaused_books)

end Custody.Vault
