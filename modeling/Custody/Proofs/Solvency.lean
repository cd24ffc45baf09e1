/-
The vault can pay out every deposit.

The bank keeps the balance of the vault's account and the vault keeps its own books,
and the two are written in separate steps.  A fee can make what arrives less than what
was sent, and a call can be refused between the two steps.  Still the balance never
falls below the deposits.

The balance alone does not survive a turn: somebody with an allowance from the vault
could move it.  So the invariant also says that the vault has given no allowance, and
that the engine, which burns what it receives, has another account.
-/
import Custody.Proofs.Run

namespace Custody

/-! ### What must not happen -/

/-- The owner of an account gives no allowance from it and takes nothing out of it. -/
def Happening.Spares (account : Address) : Happening → Prop
  | .approve _ owner _ _ => owner ≠ account
  | .transfer _ sender _ _ => sender ≠ account
  | .transferFrom _ _ owner _ _ => owner ≠ account
  | .burn _ owner _ => owner ≠ account
  | _ => True

instance (account : Address) : DecidablePred (Happening.Spares account) := fun change =>
  match change with
  | .approve _ owner _ _ | .transferFrom _ _ owner _ _ | .burn _ owner _ =>
    inferInstanceAs (Decidable (owner ≠ account))
  | .transfer _ sender _ _ => inferInstanceAs (Decidable (sender ≠ account))
  | .registerToken .. | .setFee .. | .setFrozen .. | .mint .. | .setDebt .. | .setReserves _
  | .setSupplied _ | .setRejecting _ | .reduceDebt .. | .absorbLoss _ | .setPrice ..
  | .setBreaker .. | .setDown .. | .setTime _ | .advance _ => .isTrue trivial

namespace Protocol

open Custody.Action

variable {p q : Protocol} {account : Address}

/-- What spares an account takes nothing out of it. -/
theorem spared_after_happening {happening : Happening} (hspares : happening.Spares account) :
    Bank.Spared account p.bank (p.after (.happening happening)).bank := by
  show (happen happening).Leaves p fun q => Bank.Spared account p.bank q.bank
  cases happening with
  | registerToken => exact leaves_onBank Bank.register_spared
  | setFee => exact leaves_onBank Bank.setFee_spared
  | setFrozen => exact leaves_onBank Bank.setFrozen_spared
  | mint => exact leaves_onBank Bank.mint_spared
  | approve => exact leaves_onBank (Bank.approve_spared hspares)
  | transfer => exact leaves_onBank (Bank.transfer_spared hspares)
  | transferFrom => exact leaves_onBank (Bank.transferFrom_spared hspares)
  | burn => exact leaves_onBank (Bank.burn_spared hspares)
  | setDebt | setReserves | setSupplied | setRejecting | reduceDebt | absorbLoss =>
      exact onLedger_only.imp fun _ h => h.bank ▸ .rfl
  | setPrice | setBreaker | setDown | setTime | advance => exact .rfl

/-- The vault's account covers the deposits. -/
structure Solvent (account : Address) (p : Protocol) : Prop where
  address : p.vault.address = account
  apart : p.engine.address ≠ account
  /-- Nobody may move the vault's tokens. -/
  allowance : ∀ t s, p.bank.allowance t account s = 0
  covered : ∀ t, p.vault.total t ≤ p.bank.balance t account

theorem Fresh.solvent (h : Fresh p) : Solvent p.vault.address p where
  address := rfl
  apart := h.apart
  allowance := fun t s => by rw [h.bank]; rfl
  covered := by
    obtain ⟨address, admin, borrowModule, hstart⟩ := h.vault
    obtain ⟨access, -, hvault⟩ := Vault.start_ok hstart
    intro t
    rw [hvault]
    exact Nat.zero_le _

namespace Solvent

/-! ### One turn -/

/-- What spares the vault's account keeps it solvent. -/
theorem of_spared (h : Solvent account p) (hspared : Bank.Spared account p.bank q.bank)
    (hvault : q.vault = p.vault) (hengine : q.engine.address = p.engine.address) :
    Solvent account q where
  address := by rw [hvault, h.address]
  apart := by rw [hengine]; exact h.apart
  allowance := fun t s => by rw [hspared.allowance, h.allowance]
  covered := fun t => by
    rw [hvault]
    exact Nat.le_trans (h.covered t) (hspared.balance t)

/-- Without an allowance from the vault nobody moves a positive amount out of it. -/
theorem owner_ne {token spender owner recipient : Address} {amount : Amount} {c : Bank}
    (h : Solvent account p) (hpositive : amount ≠ 0)
    (hmoved : Bank.transferFrom token spender owner recipient amount p.bank = .ok () c) :
    owner ≠ account := by
  rintro rfl
  obtain ⟨-, hallowance⟩ := Bank.transferFrom_ok hmoved
  have heq := hallowance token owner spender
  rw [if_pos ⟨rfl, rfl, rfl⟩, h.allowance, Amount.val_zero] at heq
  exact hpositive (Amount.eq_zero_iff.mpr (by omega))

/-- A deposit adds the same amount to the balance and to the books. -/
theorem deposited {ctx : Context} {user token : Address} {amount received : Amount}
    {told : Event} (h : Solvent account p)
    (hdeposited : Deposited ctx user token amount received told p q) : Solvent account q := by
  have hne := h.owner_ne hdeposited.positive hdeposited.moved
  have hspared := (Bank.transferFrom_spared hne).of_ok hdeposited.moved
  refine ⟨?_, ?_, fun t s => ?_, fun t => ?_⟩
  · rw [hdeposited.address, h.address]
  · rw [hdeposited.engine]
    exact h.apart
  · rw [hspared.allowance, h.allowance]
  · have hcovered := h.covered t
    have htotal := hdeposited.total t
    have harrived := hdeposited.arrived
    rw [h.address] at harrived
    rw [Amount.le_def] at hcovered ⊢
    by_cases ht : t = token
    · subst ht
      rw [if_pos rfl] at htotal
      omega
    · rw [if_neg ht] at htotal
      rw [htotal]
      exact Nat.le_trans hcovered (hspared.balance t)

/-- A release takes no more from the balance than from the books. -/
theorem released {user token recipient : Address} {amount : Amount} {now : Timestamp}
    {told : Event} (h : Solvent account p)
    (hreleased : Released user token amount recipient now told p q) : Solvent account q := by
  obtain ⟨⟨received, hmoved⟩, hsame⟩ := Bank.transfer_ok hreleased.moved
  refine ⟨?_, ?_, fun t s => ?_, fun t => ?_⟩
  · rw [hreleased.address, h.address]
  · rw [hreleased.engine]
    exact h.apart
  · rw [← h.allowance t s]
    simp only [Bank.allowance, Bank.allowanceBook, hsame]
  · have hcovered := h.covered t
    by_cases ht : t = token
    · have htotal := hreleased.total t
      have hbalance := hmoved.balance t account
      rw [if_pos ht] at htotal
      rw [h.address, if_pos ⟨ht, rfl⟩] at hbalance
      rw [Amount.le_def] at hcovered ⊢
      omega
    · rw [hreleased.total_of_ne ht,
        hmoved.balance_elsewhere (fun h => ht h.1) fun h => ht h.1]
      exact hcovered

/-- A repayment comes from another account and is burned in the engine's. -/
theorem paid {caller : Address} {amount : Amount} {pulled burned : Bank}
    (h : Solvent account p) (hpositive : amount ≠ 0)
    (hpull : Bank.transferFrom p.engine.debtToken p.engine.address caller p.engine.address amount
      p.bank = .ok () pulled)
    (hburn : Bank.burn p.engine.debtToken p.engine.address amount pulled = .ok () burned) :
    Solvent account { p with bank := burned } := by
  have hpulled := (Bank.transferFrom_spared (h.owner_ne hpositive hpull)).of_ok hpull
  have hburned := (Bank.burn_spared h.apart).of_ok hburn
  exact h.of_spared (hpulled.trans hburned) rfl rfl

/-- All that a liquidation takes from the vault is what it releases. -/
theorem liquidated {ctx : Context} {borrower token : Address} {offer : Amount}
    {health : UInt64} {quote : Quote} (h : Solvent account p)
    (hliquidated : Liquidated ctx borrower token offer health quote p q) :
    Solvent account q := by
  obtain ⟨pulled, burned, hpull, hburn, hreleased⟩ := hliquidated.settled.moved
  have hrepays := (prepare_ok hliquidated.prepared).repays
  have hreleased := (h.paid hrepays hpull hburn).released hreleased
  have hengine : q.engine.address = p.engine.address := by
    rw [hliquidated.committed.rest]
  exact ⟨hreleased.address, by rw [hengine]; exact h.apart, hreleased.allowance,
    hreleased.covered⟩

theorem administered (h : Solvent account p) (hadmin : Administered p q) :
    Solvent account q where
  address := by rw [hadmin.vault.address, h.address]
  apart := by rw [hadmin.engine.address]; exact h.apart
  allowance := fun t s => by rw [hadmin.bank, h.allowance]
  covered := fun t => by
    have htotal : q.vault.total t = p.vault.total t := by
      simp only [Vault.total, hadmin.vault.totals]
    rw [hadmin.bank, htotal]
    exact h.covered t

theorem restored (h : Solvent account p) (hrestored : Restored p q) : Solvent account q where
  address := by rw [hrestored.vault]; exact h.address
  apart := by rw [hrestored.engine]; exact h.apart
  allowance := fun t s => by rw [hrestored.bank, h.allowance]
  covered := fun t => by
    rw [hrestored.vault, hrestored.bank]
    exact h.covered t

/-- No answered call takes more out of the vault than out of its books. -/
theorem of_effect {ctx : Context} {call : Call} {reply : Reply} (h : Solvent account p)
    (heffect : Effect ctx call reply p q) : Solvent account q := by
  cases heffect with
  | deposited hdeposited => exact h.deposited hdeposited
  | depositedFor _ hdeposited => exact h.deposited hdeposited
  | withdrawn _ hreleased => exact h.released hreleased
  | seized _ hreleased => exact h.released hreleased
  | withdrawnFor _ hreleased => exact h.released hreleased
  | liquidated hliquidated => exact h.liquidated hliquidated
  | socialized hsocialized =>
      rw [hsocialized.rest]
      refine h.of_spared .rfl rfl ?_
      rw [hsocialized.engine]
  | administered _ hadmin => exact h.administered hadmin

theorem after_call (h : Solvent account p) (caller : Address) (call : Call) :
    Solvent account (p.after (.call caller call)) := by
  rcases Protocol.after_call p caller call with ⟨reply, -, heffect⟩ | ⟨e, -, hrestored⟩
  · exact h.of_effect heffect
  · exact h.restored hrestored

theorem after_happening (h : Solvent account p) {happening : Happening}
    (hspares : happening.Spares account) : Solvent account (p.after (.happening happening)) := by
  obtain ⟨hvault, hengine⟩ := Protocol.after_happening p happening
  exact h.of_spared (spared_after_happening hspares) hvault (by rw [hengine])

theorem after_turn (p : Protocol) (turn : Turn)
    (hspares : turn.Within (Happening.Spares account)) (h : Solvent account p) :
    Solvent account (p.after turn) := by
  cases turn with
  | call caller call => exact h.after_call caller call
  | happening happening => exact h.after_happening hspares

end Solvent

/-! ### Every run -/

/-- **The vault's account always covers the deposits.**  Whatever calls are made and
whatever else happens, as long as nobody acts for the vault's account. -/
theorem deposits_covered (h : Fresh p) (turns : List Turn)
    (hturns : ∀ turn ∈ turns, turn.Within (Happening.Spares p.vault.address))
    (token : Address) :
    (p.run turns).vault.total token ≤
      (p.run turns).bank.balance token (p.run turns).vault.address := by
  have hsolvent := run_induction Solvent.after_turn turns p hturns h.solvent
  rw [hsolvent.address]
  exact hsolvent.covered token

/-- In the small world a fee was kept from the deposit, and what arrived is covered. -/
theorem deposits_covered_opening :
    Fresh Sample.start ∧
      (∀ turn ∈ Sample.opening, turn.Within (Happening.Spares Sample.start.vault.address)) ∧
      (Sample.start.run Sample.opening).vault.total Sample.weth =
        ⟨1980000000000000000, by decide⟩ ∧
      (Sample.start.run Sample.opening).vault.total Sample.weth ≤
        (Sample.start.run Sample.opening).bank.balance Sample.weth
          (Sample.start.run Sample.opening).vault.address :=
  ⟨Sample.fresh, by decide, by decide +kernel,
    deposits_covered Sample.fresh Sample.opening (by decide) Sample.weth⟩

end Protocol

end Custody
