/-
Deposits are never stuck.

A withdrawal by the borrow module and a seizure look at nothing but the books: neither pauses
nor prices nor debts can refuse them.  That the books never refuse them either is not checked
by the call and follows from facts about all users together.  The total of a token is the sum
of the deposits, so it covers every one of them; the vault's account at the bank covers the
total; and the supply bounds every balance, so no recipient is too rich to be paid.

All of it holds at the start and survives every turn, as long as nobody acts for the vault's
account.  What is left are the conditions that a release does check: who calls, whether the
token is frozen, and that somebody is to be paid.
-/
import Custody.Proofs.Accounting
import Custody.Proofs.Circulation
import Custody.Proofs.Solvency
import Custody.Proofs.Transaction

namespace Custody

open Custody.Action

/-! ### Credits and debits -/

namespace Vault

variable {v : Vault} {user token : Address} {amount : Amount}

theorem Balanced.deposit_le_total (h : Balanced v) (user token : Address) :
    v.depositOf user token ≤ v.total token := by
  rw [Amount.le_def, h token]
  exact Finset.single_le_sum (f := fun u => (v.depositOf u token).val) (fun _ _ => Nat.zero_le _)
    (Finset.mem_univ user)

/-- Only the total can be too large for a credit. -/
theorem Balanced.credit_answers_iff (h : Balanced v) :
    (credit user token amount).Answers v ↔
      (v.total token).val + amount.val < Amount.size := by
  constructor
  · intro hanswers
    obtain ⟨_, w, hcredit⟩ := hanswers.exists_ok
    obtain ⟨-, total, -, htotal, -⟩ := credit_ok hcredit
    rw [← htotal]
    exact total.isLt
  · intro hfits
    have hdeposit := h.deposit_le_total user token
    rw [Amount.le_def] at hdeposit
    have hsum : ∀ a : Amount, a.val ≤ (v.total token).val →
        ∃ sum, a.add amount = .ok sum := by
      intro a ha
      exact ⟨⟨a.val + amount.val, by omega⟩, Amount.add_eq_ok.mpr rfl⟩
    obtain ⟨deposit, hdeposit⟩ := hsum _ hdeposit
    obtain ⟨total, htotal⟩ := hsum _ (Nat.le_refl _)
    exact answers_get (answers_check hdeposit (answers_check htotal answers_set))

/-- What a user has deposited can be debited. -/
theorem Balanced.debit_answers (h : Balanced v) (hcovered : amount ≤ v.depositOf user token) :
    (debit user token amount).Answers v := by
  have htotal := h.deposit_le_total user token
  have hsubtract : (v.total token).subtract amount = .ok (v.total token - amount) := by
    rw [Amount.le_def] at hcovered htotal
    rw [Amount.subtract_eq_ok, Amount.val_sub]
    omega
  refine answers_get (answers_refuseIf (Nat.not_lt.mpr hcovered) (answers_check hsubtract ?_))
  exact answers_bind answers_set fun _ _ _ => answers_pure

end Vault

namespace Protocol

variable {p q : Protocol} {ctx : Context} {call : Call} {reply : Reply}
  {account user token recipient liquidator : Address} {amount : Amount}

/-! ### Releases -/

/-- What has to hold of all accounts together for every deposit to be paid out. -/
structure Payable (account : Address) (p : Protocol) : Prop where
  solvent : Solvent account p
  balanced : p.vault.Balanced
  bank : p.bank.Sound

namespace Payable

/-- The guard has no part in it. -/
theorem guarded (h : Payable account p) (guard : Guard) :
    Payable account { p with vault := { p.vault with guard := guard } } where
  solvent := ⟨h.solvent.address, h.solvent.apart, h.solvent.allowance, h.solvent.covered⟩
  balanced := h.balanced.of_books ⟨rfl, rfl, rfl⟩
  bank := h.bank

/-- The vault's account has what any user has deposited. -/
theorem covered (h : Payable account p) (hcovered : amount ≤ p.vault.depositOf user token) :
    amount ≤ p.bank.balance token p.vault.address := by
  have htotal := h.balanced.deposit_le_total user token
  have hbalance := h.solvent.covered token
  rw [← h.solvent.address] at hbalance
  rw [Amount.le_def] at *
  omega

/-- A debit of a deposit is sent and told. -/
private theorem release_answers {now : Timestamp} {event : Event} (h : Payable account p)
    (hpositive : amount ≠ 0) (hcovered : amount ≤ p.vault.depositOf user token)
    (hfrozen : p.bank.frozen.contains token = false) (hrecipient : recipient ≠ .zero) :
    (do
      let receipt ← onVault (Vault.debit user token amount)
      send receipt recipient amount (pure ())
      onVault (Vault.tell now event) : Action Protocol Unit).Answers p := by
  have hbalance := h.covered hcovered
  refine answers_bind (answers_on (h.balanced.debit_answers hcovered)) ?_
  intro receipt s hs
  simp only [onVault, on_eq_ok] at hs
  obtain ⟨w, hdebit, rfl⟩ := hs
  obtain ⟨-, rfl, total, -, rfl⟩ := Vault.debit_ok hdebit
  refine answers_bind (answers_undoing ?_) fun _ _ _ => answers_on answers_modify
  refine answers_bind answers_pure ?_
  intro _ s hs
  obtain ⟨-, rfl⟩ := pure_eq_ok.mp hs
  refine answers_get (answers_on ?_)
  exact Bank.transfer_answers h.bank hfrozen hrecipient hpositive hbalance

/-- **The borrow module can withdraw any deposit**, at any time. -/
theorem withdraw_answers (h : Payable account p) (hidle : Idle p)
    (hcaller : ctx.caller = p.vault.borrowModule) (hpositive : amount ≠ 0)
    (hcovered : amount ≤ p.vault.depositOf user token)
    (hfrozen : p.bank.frozen.contains token = false) (huser : user ≠ .zero) :
    (withdraw ctx user token amount).Answers p := by
  have hfree : p.vault.guard.entered = false := by
    rw [hidle.vault]
    rfl
  refine Guard.answers_hold hfree (answers_get (answers_refuseIf (not_not.mpr hcaller) ?_))
  refine answers_refuseIf hpositive ?_
  exact (h.guarded ⟨true⟩).release_answers hpositive hcovered hfrozen huser

/-- A seizure asks only that the vault is free, so the engine can make it in a call of its own. -/
theorem seize_answers_of_free (h : Payable account p) (hfree : p.vault.guard = .free)
    (hrole : p.vault.access.ensure .liquidation ctx.caller = .ok ()) (hpositive : amount ≠ 0)
    (hcovered : amount ≤ p.vault.depositOf user token)
    (hfrozen : p.bank.frozen.contains token = false) (hliquidator : liquidator ≠ .zero) :
    (seize ctx user token amount liquidator).Answers p := by
  have hentered : p.vault.guard.entered = false := by
    rw [hfree]
    rfl
  refine Guard.answers_hold hentered (answers_get (answers_check hrole ?_))
  refine answers_check (Address.ensureNonZero_eq_ok.mpr hliquidator) ?_
  refine answers_refuseIf hpositive ?_
  exact (h.guarded ⟨true⟩).release_answers hpositive hcovered hfrozen hliquidator

/-- **Whoever may liquidate can seize any deposit**, at any time. -/
theorem seize_answers (h : Payable account p) (hidle : Idle p)
    (hrole : p.vault.access.ensure .liquidation ctx.caller = .ok ()) (hpositive : amount ≠ 0)
    (hcovered : amount ≤ p.vault.depositOf user token)
    (hfrozen : p.bank.frozen.contains token = false) (hliquidator : liquidator ≠ .zero) :
    (seize ctx user token amount liquidator).Answers p :=
  h.seize_answers_of_free hidle.vault hrole hpositive hcovered hfrozen hliquidator

end Payable

/-! ### One turn -/

section

variable {R : Bank → Prop}
  (hR : ∀ {b : Bank} (operation : Bank.Operation), R b → R (b.after operation))

include hR

/-- A call reaches the bank by its operations only: what survives each of them survives an
answered call. -/
theorem perform_bank (h : perform ctx call p = .ok reply q) (hbank : R p.bank) : R q.bank := by
  have hoperate : ∀ {b c : Bank} (operation : Bank.Operation),
      Bank.operate operation b = .ok () c → R b → R c := by
    intro b c operation hc hb
    exact (show (Bank.operate operation).Leaves b R from hR operation hb).of_ok hc
  cases perform_ok h with
  | deposited hdeposited | depositedFor _ hdeposited =>
      exact hoperate (.transferFrom _ _ _ _ _) hdeposited.moved hbank
  | withdrawn _ hreleased | seized _ hreleased | withdrawnFor _ hreleased =>
      exact hoperate (.transfer _ _ _ _) hreleased.moved hbank
  | liquidated hliquidated =>
      obtain ⟨pulled, burned, hpull, hburn, hreleased⟩ := hliquidated.settled.moved
      have hpulled : R pulled := hoperate (.transferFrom _ _ _ _ _) hpull hbank
      have hburned : R burned := hoperate (.burn _ _ _) hburn hpulled
      exact hoperate (.transfer _ _ _ _) hreleased.moved hburned
  | socialized hsocialized =>
      rw [hsocialized.rest]
      exact hbank
  | administered _ hadmin =>
      rw [hadmin.bank]
      exact hbank

/-- And it survives every turn, since what happens at the bank itself are its operations, too. -/
theorem after_bank (hbank : R p.bank) (turn : Turn) : R (p.after turn).bank := by
  cases turn with
  | call caller call =>
      rcases after_call p caller call with ⟨reply, hanswered, -⟩ | ⟨e, -, hrestored⟩
      · exact perform_bank hR (submit_eq_ok.mp hanswered) hbank
      · rw [hrestored.bank]
        exact hbank
  | happening happening =>
      show (happen happening).Leaves p fun q => R q.bank
      cases happening with
      | registerToken token decimals => exact leaves_onBank (hR (.register token decimals) hbank)
      | setFee token bps => exact leaves_onBank (hR (.setFee token bps) hbank)
      | setFrozen token frozen => exact leaves_onBank (hR (.setFrozen token frozen) hbank)
      | mint token account amount => exact leaves_onBank (hR (.mint token account amount) hbank)
      | approve token owner spender amount =>
          exact leaves_onBank (hR (.approve token owner spender amount) hbank)
      | transfer token sender account amount =>
          exact leaves_onBank (hR (.transfer token sender account amount) hbank)
      | transferFrom token spender owner account amount =>
          exact leaves_onBank (hR (.transferFrom token spender owner account amount) hbank)
      | burn token account amount => exact leaves_onBank (hR (.burn token account amount) hbank)
      | setDebt | setReserves | setSupplied | setRejecting | reduceDebt | absorbLoss =>
          refine onLedger_only.imp fun q h => ?_
          rw [h.bank]
          exact hbank
      | setPrice | setBreaker | setDown | setTime | advance => exact hbank

end

/-- What a turn makes of the vault. -/
theorem after_change (p : Protocol) (turn : Turn) : p.vault.Change (p.after turn).vault := by
  cases turn with
  | call caller call =>
      have hkept : Episode.submitted caller call ≠ .drained := nofun
      exact next_change p hkept
  | happening happening =>
      refine .kept ?_
      rw [(after_happening p happening).vault]

namespace Payable

theorem of_performed (h : Payable account p) (hperformed : perform ctx call p = .ok reply q) :
    Payable account q where
  solvent := h.solvent.of_effect (perform_ok hperformed)
  balanced := (perform_change hperformed).balanced h.balanced
  bank := perform_bank (fun operation h => h.after operation) hperformed h.bank

theorem after (p : Protocol) (turn : Turn) (hspares : turn.Within (Happening.Spares account))
    (h : Payable account p) : Payable account (p.after turn) where
  solvent := h.solvent.after_turn p turn hspares
  balanced := (after_change p turn).balanced h.balanced
  bank := after_bank (fun operation h => h.after operation) h.bank turn

end Payable

/-! ### Every run -/

theorem Fresh.payable (h : Fresh p) : Payable p.vault.address p where
  solvent := h.solvent
  balanced := by
    obtain ⟨address, admin, borrowModule, hstart⟩ := h.vault
    exact .of_start hstart
  bank := by
    rw [h.bank]
    exact Bank.sound_empty

theorem Fresh.idle (h : Fresh p) : Idle p := by
  obtain ⟨address, admin, borrowModule, hvault⟩ := h.vault
  obtain ⟨engine, debtToken, governor, params, hengine⟩ := h.engine
  exact ⟨Vault.idle_of_start hvault, Engine.idle_of_start hengine⟩

/-- The call is done, whether it is made directly, at any time, or as a transaction. -/
def Honours (p : Protocol) (caller : Address) (call : Call) : Prop :=
  (∀ now, ∃ q, perform ⟨caller, now⟩ call p = .ok .done q) ∧
    ∃ q, submit caller call p = .ok .done q

private theorem honours_of_answers {caller : Address} {x : Context → Action Protocol Unit}
    (hcall : ∀ ctx, perform ctx call = do x ctx; return .done)
    (hx : ∀ now, (x ⟨caller, now⟩).Answers p) : p.Honours caller call := by
  have hperform : ∀ now, ∃ q, perform ⟨caller, now⟩ call p = .ok .done q := by
    intro now
    obtain ⟨_, q, hq⟩ := (hx now).exists_ok
    refine ⟨q, ?_⟩
    rw [hcall, bind_of_ok hq]
    rfl
  obtain ⟨q, hq⟩ := hperform p.clock
  exact ⟨hperform, q, submit_eq_ok.mpr hq⟩

/-- **Deposits are never stuck.**  After every run in which nobody acts for the vault's account,
the borrow module can withdraw any part of any deposit, and whoever holds the role for
liquidations can seize it, unless the token is frozen. -/
theorem deposits_never_stuck (h : Fresh p) (turns : List Turn)
    (hturns : ∀ turn ∈ turns, turn.Within (Happening.Spares p.vault.address))
    (huser : user ≠ .zero) (hfrozen : (p.run turns).bank.frozen.contains token = false)
    (hpositive : amount ≠ 0) (hcovered : amount ≤ (p.run turns).vault.depositOf user token) :
    let q := p.run turns
    q.Honours q.vault.borrowModule (.withdraw user token amount) ∧
      ∀ caller liquidator, q.vault.access.holds .liquidation caller = true →
        liquidator ≠ .zero →
        q.Honours caller (.seize user token amount liquidator) := by
  intro q
  have hpayable : Payable p.vault.address q := run_induction Payable.after turns p hturns h.payable
  have hstep : ∀ (p : Protocol) (turn : Turn), True → Idle p → Idle (p.after turn) := by
    intro p turn _ hp
    exact hp.after turn
  have hidle : Idle q := run_induction hstep turns p (fun _ _ => trivial) h.idle
  refine ⟨?_, ?_⟩
  · refine honours_of_answers (fun _ => rfl) fun now => ?_
    exact hpayable.withdraw_answers hidle rfl hpositive hcovered hfrozen huser
  · intro caller liquidator hrole hliquidator
    refine honours_of_answers (fun _ => rfl) fun now => ?_
    exact hpayable.seize_answers hidle (Access.ensure_eq_ok.mpr hrole) hpositive hcovered hfrozen
      hliquidator

/-- Everything that could be in the way: the token costs its whole amount to move, is disabled
and has no price, both components are paused, and alice owes more than there is. -/
def stranded : List Turn :=
  Sample.opening ++
    [.call Sample.admin (.grantVaultRole .vaultAdmin Sample.admin),
      .call Sample.admin (.disable Sample.weth),
      .call Sample.admin (.grantVaultRole .pauser Sample.admin),
      .call Sample.admin (.grantEngineRole .pauser Sample.admin),
      .call Sample.admin .pause,
      .happening (.setFee Sample.weth 10000),
      .happening (.setDown Sample.weth true),
      .happening (.setDebt Sample.alice .largest)]

/-- Of all that was put in the way nothing keeps alice's deposit from being released. -/
theorem deposits_never_stuck_stranded :
    let q := Sample.start.run stranded
    Fresh Sample.start ∧
      (∀ turn ∈ stranded, turn.Within (Happening.Spares Sample.start.vault.address)) ∧
      (q.vault.paused = true ∧ q.engine.paused = true ∧
        q.vault.ensureEnabled Sample.weth = .error (.tokenDisabled Sample.weth)) ∧
      Sample.alice ≠ .zero ∧ q.bank.frozen.contains Sample.weth = false ∧
      q.vault.depositOf Sample.alice Sample.weth ≠ 0 ∧
      q.vault.access.holds .liquidation Sample.engineAccount = true ∧
      Sample.liquidator ≠ .zero ∧
      q.Honours Sample.borrowModule (.withdraw Sample.alice Sample.weth
        (q.vault.depositOf Sample.alice Sample.weth)) ∧
      q.Honours Sample.engineAccount (.seize Sample.alice Sample.weth
        (q.vault.depositOf Sample.alice Sample.weth) Sample.liquidator) := by
  intro q
  have hturns : ∀ turn ∈ stranded,
      turn.Within (Happening.Spares Sample.start.vault.address) := by
    decide
  have huser : Sample.alice ≠ .zero := by decide
  have hfrozen : q.bank.frozen.contains Sample.weth = false := by decide +kernel
  have hpositive : q.vault.depositOf Sample.alice Sample.weth ≠ 0 := by decide +kernel
  have hrole : q.vault.access.holds .liquidation Sample.engineAccount = true := by decide +kernel
  have hliquidator : Sample.liquidator ≠ .zero := by decide
  have hcovered : q.vault.depositOf Sample.alice Sample.weth ≤
      q.vault.depositOf Sample.alice Sample.weth := Amount.le_def.mpr (Nat.le_refl _)
  obtain ⟨hwithdraw, hseize⟩ :=
    deposits_never_stuck Sample.fresh stranded hturns huser hfrozen hpositive hcovered
  have hmodule : q.vault.borrowModule = Sample.borrowModule := by decide +kernel
  rw [hmodule] at hwithdraw
  exact ⟨Sample.fresh, hturns, by decide +kernel, huser, hfrozen, hpositive, hrole, hliquidator,
    hwithdraw, hseize Sample.engineAccount Sample.liquidator hrole hliquidator⟩

end Protocol

end Custody
