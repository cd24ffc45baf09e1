/-
What a deposit and a release of collateral change.

Whoever calls, there is one way for collateral to come in and one way for it to go
out.  The caller's tokens are moved to the vault and what arrived is booked; or a
deposit is debited and the vault's tokens are moved.  The calls differ in who may make
them and in what they tell, so both are parameters here.
-/
import Custody.Proofs.Bank
import Custody.Proofs.Vault
import Custody.Protocol.Collateral

namespace Custody.Protocol

open Custody.Action

variable {ctx : Context} {funder user token recipient liquidator : Address}
  {amount received : Amount} {told : Event} {p q : Protocol} {r : Unit}

/-- Nothing changed but the vault and the bank. -/
structure CustodyOnly (p q : Protocol) : Prop where
  engine : q.engine = p.engine
  ledger : q.ledger = p.ledger
  oracle : q.oracle = p.oracle
  clock : q.clock = p.clock

/-! ### Deposits -/

/-- A deposit that was taken from the caller and booked for a user. -/
structure Deposited (ctx : Context) (user token : Address) (amount received : Amount)
    (told : Event) (p q : Protocol) : Prop extends CustodyOnly p q where
  free : p.vault.guard.entered = false
  running : p.vault.ensureRunning = .ok ()
  enabled : p.vault.ensureEnabled token = .ok ()
  positive : amount ≠ 0
  moved : Bank.transferFrom token p.vault.address ctx.caller p.vault.address amount p.bank =
    .ok () q.bank
  /-- What is booked is what arrived. -/
  arrived : (q.bank.balance token p.vault.address).val =
    (p.bank.balance token p.vault.address).val + received.val
  something : received ≠ 0
  vault : ∃ deposit total : Amount,
    deposit.val = (p.vault.depositOf user token).val + received.val ∧
    total.val = (p.vault.total token).val + received.val ∧
    q.vault = { p.vault.putDeposit user token deposit total with
      events := p.vault.events.add ctx.now told
      guard := .free }

namespace Deposited

variable (h : Deposited ctx user token amount received told p q)

include h

theorem address : q.vault.address = p.vault.address := by
  obtain ⟨deposit, total, -, -, hvault⟩ := h.vault
  rw [hvault]
  rfl

/-- Every deposit, with what arrived. -/
theorem deposit (u t : Address) : (q.vault.depositOf u t).val =
    (p.vault.depositOf u t).val + if u = user ∧ t = token then received.val else 0 := by
  obtain ⟨deposit, total, hdeposit, -, hvault⟩ := h.vault
  have hread : q.vault.depositOf u t =
      if u = user ∧ t = token then deposit else p.vault.depositOf u t := by
    rw [hvault]
    exact Vault.depositOf_putDeposit p.vault user token u t deposit total
  rw [hread]
  split
  next hthis =>
    obtain ⟨rfl, rfl⟩ := hthis
    exact hdeposit
  next => rfl

theorem le_deposit (u t : Address) : p.vault.depositOf u t ≤ q.vault.depositOf u t := by
  rw [Amount.le_def, h.deposit u t]
  exact Nat.le_add_right _ _

/-- What arrived is booked for one user. -/
theorem deposit_of_ne {u : Address} (hother : u ≠ user) (t : Address) :
    q.vault.depositOf u t = p.vault.depositOf u t := by
  have hdeposit := h.deposit u t
  rw [if_neg fun hthis => hother hthis.1] at hdeposit
  exact Amount.ext hdeposit

/-- The total of each token, with what arrived. -/
theorem total (t : Address) : (q.vault.total t).val =
    (p.vault.total t).val + if t = token then received.val else 0 := by
  obtain ⟨deposit, total, -, htotal, hvault⟩ := h.vault
  have hread : q.vault.total t = if t = token then total else p.vault.total t := by
    rw [hvault]
    exact Vault.total_putDeposit p.vault user token t deposit total
  rw [hread]
  split
  next ht => rw [htotal, ht]
  next => rfl

end Deposited

private theorem pull_ok (h : pull funder user token amount p = .ok received q) :
    amount ≠ 0 ∧ p.vault.ensureEnabled token = .ok () ∧ received ≠ 0 ∧
      ∃ (c : Bank) (deposit total : Amount),
        Bank.transferFrom token p.vault.address funder p.vault.address amount p.bank =
          .ok () c ∧
        (c.balance token p.vault.address).val =
          (p.bank.balance token p.vault.address).val + received.val ∧
        deposit.val = (p.vault.depositOf user token).val + received.val ∧
        total.val = (p.vault.total token).val + received.val ∧
        q = { p with vault := p.vault.putDeposit user token deposit total, bank := c } := by
  simp only [pull, onBank, onVault, get_bind, refuseIf_eq_ok, bind_eq_ok, check_eq_ok,
    pure_eq_ok, on_eq_ok, Amount.subtract_eq_ok] at h
  obtain ⟨hpositive, _, _, ⟨henabled, rfl⟩, _, _, ⟨c, hmoved, rfl⟩, got, _,
    ⟨harrived, rfl⟩, hsomething, _, _, ⟨w, hcredit, rfl⟩, rfl, rfl⟩ := h
  obtain ⟨deposit, total, hdeposit, htotal, rfl⟩ := Vault.credit_ok hcredit
  refine ⟨hpositive, henabled, hsomething, c, deposit, total, hmoved, ?_, hdeposit, htotal, rfl⟩
  rw [Nat.add_comm]
  exact harrived.symm

/-- Running with the vault's guard entered, a pull that is told makes a deposit. -/
private theorem deposited_of_pull {mid : Protocol} (hfree : p.vault.guard.entered = false)
    (hrunning : p.vault.ensureRunning = .ok ())
    (h : pull ctx.caller user token amount
      { p with vault := { p.vault with guard := ⟨true⟩ } } = .ok received mid) :
    Deposited ctx user token amount received told p
      { mid with vault := { mid.vault with
        events := mid.vault.events.add ctx.now told
        guard := .free } } := by
  obtain ⟨hpositive, henabled, hsomething, c, deposit, total, hmoved, harrived, hdeposit,
    htotal, rfl⟩ := pull_ok h
  exact {
    engine := rfl
    ledger := rfl
    oracle := rfl
    clock := rfl
    free := hfree
    running := hrunning
    enabled := henabled
    positive := hpositive
    moved := hmoved
    arrived := harrived
    something := hsomething
    vault := ⟨deposit, total, hdeposit, htotal, rfl⟩ }

theorem deposit_ok (h : deposit ctx token amount p = .ok received q) :
    Deposited ctx ctx.caller token amount received (.deposited ctx.caller token received) p q := by
  simp only [deposit, vaultCall, onVault, Vault.tell, Guard.hold_eq_ok, get_bind, bind_eq_ok,
    check_eq_ok, on_eq_ok, modify_eq_ok, pure_eq_ok] at h
  obtain ⟨hfree, _,
    ⟨_, _, ⟨hrunning, rfl⟩, got, mid, hpull, _, _, ⟨_, rfl, rfl⟩, rfl, rfl⟩, rfl⟩ := h
  exact deposited_of_pull hfree hrunning hpull

theorem depositFor_ok (h : depositFor ctx user token amount p = .ok received q) :
    p.vault.access.ensure .leverageVault ctx.caller = .ok () ∧
      Deposited ctx user token amount received
        (.depositedFor ctx.caller user token received) p q := by
  simp only [depositFor, vaultCall, onVault, Vault.tell, Guard.hold_eq_ok, get_bind,
    bind_eq_ok, check_eq_ok, on_eq_ok, modify_eq_ok, pure_eq_ok] at h
  obtain ⟨hfree, _,
    ⟨_, _, ⟨hrunning, rfl⟩, _, _, ⟨hrole, rfl⟩, _, _, ⟨_, rfl⟩, got, mid, hpull,
    _, _, ⟨_, rfl, rfl⟩, rfl, rfl⟩, rfl⟩ := h
  exact ⟨hrole, deposited_of_pull hfree hrunning hpull⟩

/-! ### Releases -/

/-- Collateral of a user that was released to a recipient. -/
structure Released (user token : Address) (amount : Amount) (recipient : Address)
    (now : Timestamp) (told : Event) (p q : Protocol) : Prop extends CustodyOnly p q where
  free : p.vault.guard.entered = false
  positive : amount ≠ 0
  covered : amount ≤ p.vault.depositOf user token
  moved : Bank.transfer token p.vault.address recipient amount p.bank = .ok () q.bank
  vault : ∃ total : Amount,
    total.val + amount.val = (p.vault.total token).val ∧
    q.vault = { p.vault.putDeposit user token (p.vault.depositOf user token - amount) total with
      events := p.vault.events.add now told
      guard := .free }

namespace Released

variable {now : Timestamp} (h : Released user token amount recipient now told p q)

include h

theorem address : q.vault.address = p.vault.address := by
  obtain ⟨total, -, hvault⟩ := h.vault
  rw [hvault]
  rfl

/-- Nothing in the vault changed but its books, and the release was told. -/
theorem rest : q.vault = { p.vault with
    deposits := q.vault.deposits
    totals := q.vault.totals
    events := p.vault.events.add now told
    guard := .free } := by
  obtain ⟨total, -, hvault⟩ := h.vault
  rw [hvault]
  rfl

/-- Every deposit, with what was released. -/
theorem deposit (u t : Address) : (q.vault.depositOf u t).val +
    (if u = user ∧ t = token then amount.val else 0) = (p.vault.depositOf u t).val := by
  obtain ⟨total, -, hvault⟩ := h.vault
  have hread : q.vault.depositOf u t = if u = user ∧ t = token
      then p.vault.depositOf user token - amount else p.vault.depositOf u t := by
    rw [hvault]
    exact Vault.depositOf_putDeposit p.vault user token u t (p.vault.depositOf user token - amount)
      total
  have hcovered := h.covered
  rw [Amount.le_def] at hcovered
  rw [hread]
  split
  next hthis =>
    obtain ⟨rfl, rfl⟩ := hthis
    rw [Amount.val_sub]
    omega
  next => rfl

theorem deposit_le (u t : Address) : q.vault.depositOf u t ≤ p.vault.depositOf u t :=
  Nat.le.intro (h.deposit u t)

/-- One deposit is released. -/
theorem deposit_elsewhere {u t : Address} (hother : ¬ (u = user ∧ t = token)) :
    q.vault.depositOf u t = p.vault.depositOf u t := by
  have hdeposit := h.deposit u t
  rw [if_neg hother] at hdeposit
  exact Amount.ext hdeposit

theorem deposit_of_ne {u : Address} (hother : u ≠ user) (t : Address) :
    q.vault.depositOf u t = p.vault.depositOf u t :=
  h.deposit_elsewhere fun hthis => hother hthis.1

/-- The total of each token, with what was released. -/
theorem total (t : Address) : (q.vault.total t).val + (if t = token then amount.val else 0) =
    (p.vault.total t).val := by
  obtain ⟨total, htotal, hvault⟩ := h.vault
  have hread : q.vault.total t = if t = token then total else p.vault.total t := by
    rw [hvault]
    exact Vault.total_putDeposit p.vault user token t (p.vault.depositOf user token - amount) total
  rw [hread]
  split
  next ht => rw [htotal, ht]
  next => rfl

theorem total_of_ne {t : Address} (hother : t ≠ token) :
    q.vault.total t = p.vault.total t := by
  have htotal := h.total t
  rw [if_neg hother] at htotal
  exact Amount.ext htotal

end Released

/-- Sending moves the vault's tokens; the check before it only looks. -/
private theorem send_ok {receipt : Vault.Receipt} {check : Action Protocol Unit}
    (hlooks : ∀ t, check p = .ok () t → p = t)
    (h : send receipt recipient amount check p = .ok r q) :
    ∃ c, Bank.transfer receipt.token p.vault.address recipient amount p.bank = .ok () c ∧
      q = { p with bank := c } := by
  simp only [send, undoing_eq_ok, bind_eq_ok, get_bind, onBank, on_eq_ok] at h
  obtain ⟨_, t, hcheck, c, hmoved, rfl⟩ := h
  obtain rfl := hlooks t hcheck
  exact ⟨c, hmoved, rfl⟩

/-- Running with the vault's guard entered, a debit that is sent and told is a release. -/
private theorem released_of_send {receipt : Vault.Receipt} {w : Vault} {mid : Protocol}
    {check : Action Protocol Unit} {now : Timestamp}
    (hfree : p.vault.guard.entered = false) (hpositive : amount ≠ 0)
    (hdebit : Vault.debit user token amount { p.vault with guard := ⟨true⟩ } = .ok receipt w)
    (hlooks : ∀ t, check { p with vault := w } = .ok () t → { p with vault := w } = t)
    (hsend : send receipt recipient amount check { p with vault := w } = .ok r mid) :
    Released user token amount recipient now told p
      { mid with vault := { mid.vault with
        events := mid.vault.events.add now told
        guard := .free } } := by
  obtain ⟨hcovered, rfl, total, htotal, rfl⟩ := Vault.debit_ok hdebit
  obtain ⟨c, hmoved, rfl⟩ := send_ok hlooks hsend
  exact {
    engine := rfl
    ledger := rfl
    oracle := rfl
    clock := rfl
    free := hfree
    positive := hpositive
    covered := hcovered
    moved := hmoved
    vault := ⟨total, htotal, rfl⟩ }

private theorem looks_pure (p t : Protocol) (h : (pure () : Action Protocol Unit) p = .ok () t) :
    p = t :=
  (pure_eq_ok.mp h).2

theorem withdraw_ok (h : withdraw ctx user token amount p = .ok r q) :
    ctx.caller = p.vault.borrowModule ∧
      Released user token amount user ctx.now (.withdrawn user token amount) p q := by
  simp only [withdraw, vaultCall, onVault, Vault.tell, Guard.hold_eq_ok, get_bind,
    refuseIf_eq_ok, bind_eq_ok, on_eq_ok, modify_eq_ok] at h
  obtain ⟨hfree, _,
    ⟨hcaller, hpositive, receipt, _, ⟨w, hdebit, rfl⟩, _, mid, hsend, _, rfl,
    rfl⟩, rfl⟩ := h
  refine ⟨Decidable.not_not.mp hcaller, ?_⟩
  exact released_of_send hfree hpositive hdebit (looks_pure _) hsend

theorem seize_ok (h : seize ctx user token amount liquidator p = .ok r q) :
    p.vault.access.ensure .liquidation ctx.caller = .ok () ∧
      Released user token amount liquidator ctx.now (.seized user token amount liquidator)
        p q := by
  simp only [seize, vaultCall, onVault, Vault.tell, Guard.hold_eq_ok, get_bind, refuseIf_eq_ok,
    bind_eq_ok, check_eq_ok, on_eq_ok, modify_eq_ok] at h
  obtain ⟨hfree, _, ⟨_, _, ⟨hrole, rfl⟩, _, _, ⟨_, rfl⟩, hpositive, receipt, _,
    ⟨w, hdebit, rfl⟩, _, mid, hsend, _, rfl, rfl⟩, rfl⟩ := h
  exact ⟨hrole, released_of_send hfree hpositive hdebit (looks_pure _) hsend⟩

private theorem looks_margin (skip : Bool) (user : Address) (p t : Protocol)
    (h : (do unless skip do checkMargin (← get) user : Action Protocol Unit) p = .ok () t) :
    p = t := by
  cases skip with
  | true => exact (pure_eq_ok.mp h).2
  | false => exact (check_eq_ok.mp h).2

theorem withdrawFor_ok {skipCheck : Bool}
    (h : withdrawFor ctx user token amount recipient skipCheck p = .ok r q) :
    p.vault.access.ensure .leverageVault ctx.caller = .ok () ∧
      Released user token amount recipient ctx.now
        (.withdrawnFor ctx.caller user token amount recipient skipCheck) p q := by
  simp only [withdrawFor, vaultCall, onVault, Vault.tell, Guard.hold_eq_ok, get_bind,
    refuseIf_eq_ok, bind_eq_ok, check_eq_ok, on_eq_ok, modify_eq_ok] at h
  obtain ⟨hfree, _,
    ⟨_, _, ⟨hrunning, rfl⟩, _, _, ⟨hrole, rfl⟩, hpositive, _, _, ⟨_, rfl⟩, _,
    receipt, _, ⟨w, hdebit, rfl⟩, _, mid, hsend, _, rfl, rfl⟩, rfl⟩ := h
  exact ⟨hrole, released_of_send hfree hpositive hdebit (looks_margin _ _ _) hsend⟩

end Custody.Protocol
