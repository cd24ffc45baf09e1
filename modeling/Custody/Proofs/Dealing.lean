/-
Users do not get into each other's way.

What two users deposit and withdraw goes through one account of the bank, one total for each
token and one supply.  So each of them could find less there than it would have found before the
other, or more than fits.  Neither happens: the deposits of each user are covered whatever the
other one did, and what arrives for one user depends on the token and the amount alone.

Hence two dealings of different users can change places.  The answers stay the same, and so does
everything that is kept, down to the entries of zero, except that the log tells of the two
dealings in the order in which they were made.
-/
import Custody.Proofs.Listing
import Custody.Proofs.Refusal.Deposits

namespace Custody

open Custody.Action

/-! ### Dealings -/

/-- What a user deposits, or what the borrow module withdraws for a user. -/
inductive Dealing where
  | deposit (user token : Address) (amount : Amount)
  | withdraw (user token : Address) (amount : Amount)
deriving DecidableEq

namespace Dealing

def user : Dealing → Address
  | deposit user _ _ | withdraw user _ _ => user

def token : Dealing → Address
  | deposit _ token _ | withdraw _ token _ => token

def amount : Dealing → Amount
  | deposit _ _ amount | withdraw _ _ amount => amount

/-- The call that is made. -/
def call : Dealing → Call
  | deposit _ token amount => .deposit token amount
  | withdraw user token amount => .withdraw user token amount

/-- Who makes it, given the borrow module. -/
def caller (borrowModule : Address) : Dealing → Address
  | deposit user _ _ => user
  | withdraw _ _ _ => borrowModule

/-- Whose tokens move, given the vault's account. -/
def sender (vault : Address) : Dealing → Address
  | deposit user _ _ => user
  | withdraw _ _ _ => vault

/-- Where they go. -/
def recipient (vault : Address) : Dealing → Address
  | deposit _ _ _ => vault
  | withdraw user _ _ => user

/-- What is booked for the user when so much arrives. -/
def credited (received : Amount) : Dealing → Nat
  | deposit _ _ _ => received.val
  | withdraw _ _ _ => 0

/-- What is taken off the user's deposit. -/
def debited : Dealing → Nat
  | deposit _ _ _ => 0
  | withdraw _ _ amount => amount.val

def reply (received : Amount) : Dealing → Reply
  | deposit _ _ _ => .amount received
  | withdraw _ _ _ => .done

def event (received : Amount) : Dealing → Event
  | deposit user token _ => .deposited user token received
  | withdraw user token amount => .withdrawn user token amount

/-- The allowances after it: a deposit uses up the vault's. -/
def spend (vault : Address) (allowances : Table Address Book) : Dealing → Table Address Book
  | deposit user token amount =>
    let book := (allowances.get? token).getD .empty
    allowances.insert token (Book.put book user vault (book.amount user vault - amount))
  | withdraw _ _ _ => allowances

variable {d : Dealing} {user vault : Address}

theorem ne_sender (hne : user ≠ d.user) (hvault : user ≠ vault) : user ≠ d.sender vault := by
  cases d with
  | deposit => exact hne
  | withdraw => exact hvault

theorem ne_recipient (hne : user ≠ d.user) (hvault : user ≠ vault) :
    user ≠ d.recipient vault := by
  cases d with
  | deposit => exact hvault
  | withdraw => exact hne

/-- Different users use up different allowances. -/
theorem spend_comm {x y : Dealing} (hne : x.user ≠ y.user) (vault : Address)
    (allowances : Table Address Book) :
    y.spend vault (x.spend vault allowances) = x.spend vault (y.spend vault allowances) := by
  cases x with
  | withdraw => rfl
  | deposit user token amount =>
      cases y with
      | withdraw => rfl
      | deposit other token' amount' =>
          change user ≠ other at hne
          simp only [spend, Table.get?_insert]
          by_cases ht : token = token'
          · subst ht
            simp only [if_true, Option.getD_some, Book.amount_put, hne, hne.symm, false_and,
              if_false, Table.insert_insert]
            rw [Book.put_comm hne]
          · simp only [ht, Ne.symm ht, if_false]
            exact Table.insert_comm ht

end Dealing

namespace Protocol

variable {p q m p' q' m' : Protocol} {ctx : Context} {x y d : Dealing} {now now' : Timestamp}
  {received got : Amount} {reply : Reply} {account user token : Address} {amount : Amount}

/-! ### What a dealing does -/

/-- A dealing that was answered: what it changed, and where it has written. -/
structure Dealt (d : Dealing) (now : Timestamp) (received : Amount) (p q : Protocol) : Prop
    extends CustodyOnly p q where
  moved : Bank.Moved d.token (d.sender p.vault.address) (d.recipient p.vault.address) d.amount
    received p.bank q.bank
  deposit : ∀ u t, (q.vault.depositOf u t).val +
      (if u = d.user ∧ t = d.token then d.debited else 0) =
    (p.vault.depositOf u t).val +
      if u = d.user ∧ t = d.token then d.credited received else 0
  total : ∀ t, (q.vault.total t).val + (if t = d.token then d.debited else 0) =
    (p.vault.total t).val + if t = d.token then d.credited received else 0
  allowances : q.bank.allowances = d.spend p.vault.address p.bank.allowances
  balances : Book.Writes (fun t a => t = d.token ∧ (a = d.user ∨ a = p.vault.address))
    p.bank.balances q.bank.balances
  supply : Table.Writes (fun t => t = d.token ∧ received < d.amount) p.bank.supply q.bank.supply
  deposits : Book.Writes (fun u t => u = d.user ∧ t = d.token) p.vault.deposits q.vault.deposits
  totals : Table.Writes (· = d.token) p.vault.totals q.vault.totals
  vault : q.vault = { p.vault with
    deposits := q.vault.deposits
    totals := q.vault.totals
    events := p.vault.events.add now (d.event received)
    guard := .free }

/-- What arrives in the vault's account is what is booked. -/
theorem Deposited.dealt (hne : user ≠ p.vault.address)
    (h : Deposited ⟨user, now⟩ user token amount received
      (.deposited user token received) p q) :
    Dealt (.deposit user token amount) now received p q := by
  obtain ⟨-, -, -, mid, hmove, hbank⟩ := Bank.transferFrom_move h.moved
  obtain ⟨got, hmoved, hbalances, hsupply⟩ := Bank.move_writes hmove
  obtain ⟨deposit, total, -, -, hvault⟩ := h.vault
  have hreceived : received = got := by
    have harrived := h.arrived
    have hbalance := hmoved.balance token p.vault.address
    rw [if_neg fun heq => hne heq.2.symm, if_pos ⟨rfl, rfl⟩] at hbalance
    have hsame : q.bank.balance token p.vault.address = mid.balance token p.vault.address := by
      rw [hbank]
      rfl
    rw [hsame] at harrived
    exact Amount.ext (by omega)
  subst hreceived
  exact {
    toCustodyOnly := h.toCustodyOnly
    moved := by
      rw [hbank]
      exact ⟨hmoved.covered, hmoved.fee, hmoved.balance, hmoved.supply, hmoved.decimals,
        hmoved.fees, hmoved.frozen⟩
    deposit := fun u t => by
      show _ + (if u = user ∧ t = token then 0 else 0) = _
      rw [ite_self, Nat.add_zero]
      exact h.deposit u t
    total := fun t => by
      show _ + (if t = token then 0 else 0) = _
      rw [ite_self, Nat.add_zero]
      exact h.total t
    allowances := by
      rw [hbank]
      rfl
    balances := by
      rw [hbank]
      exact hbalances
    supply := by
      rw [hbank]
      exact hsupply
    deposits := by
      rw [hvault]
      exact Book.writes_put
    totals := by
      rw [hvault]
      exact Table.writes_insert
    vault := by
      rw [hvault]
      rfl }

theorem Released.dealt
    (h : Released user token amount user now (.withdrawn user token amount) p q) :
    ∃ received, Dealt (.withdraw user token amount) now received p q := by
  obtain ⟨-, -, hmove⟩ := Bank.transfer_move h.moved
  obtain ⟨received, hmoved, hbalances, hsupply⟩ := Bank.move_writes hmove
  obtain ⟨total, -, hvault⟩ := h.vault
  exact ⟨received, {
    toCustodyOnly := h.toCustodyOnly
    moved := hmoved
    deposit := fun u t => by
      show _ = _ + if u = user ∧ t = token then 0 else 0
      rw [ite_self, Nat.add_zero]
      exact h.deposit u t
    total := fun t => by
      show _ = _ + if t = token then 0 else 0
      rw [ite_self, Nat.add_zero]
      exact h.total t
    allowances := (Bank.move_ok hmove).2
    balances := hbalances.congr fun t a => by rw [or_comm]; rfl
    supply := hsupply
    deposits := by
      rw [hvault]
      exact Book.writes_put
    totals := by
      rw [hvault]
      exact Table.writes_insert
    vault := h.rest }⟩

theorem perform_dealt (hne : d.user ≠ p.vault.address)
    (h : perform ⟨d.caller p.vault.borrowModule, now⟩ d.call p = .ok reply q) :
    ∃ received, reply = d.reply received ∧ Dealt d now received p q := by
  cases d with
  | deposit user token amount =>
      cases perform_ok h with
      | deposited hdeposited => exact ⟨_, rfl, hdeposited.dealt hne⟩
      | administered hcall _ => exact absurd hcall id
  | withdraw user token amount =>
      cases perform_ok h with
      | withdrawn _ hreleased =>
          obtain ⟨received, hdealt⟩ := hreleased.dealt
          exact ⟨received, rfl, hdealt⟩
      | administered hcall _ => exact absurd hcall id

namespace Dealt

/-- What arrives depends on the token and the amount alone. -/
theorem received_eq (h : Dealt d now received p q) (h' : Dealt d now' got p' q')
    (hfees : p'.bank.fees = p.bank.fees) : got = received := by
  have hfee := h.moved.fee
  have hfee' := h'.moved.fee
  have hsame : p'.bank.fee d.token = p.bank.fee d.token := by
    simp only [Bank.fee, hfees]
  rw [hsame] at hfee'
  exact Amount.ext (by omega)

/-- Only the allowances of the user are touched. -/
theorem allowance_elsewhere (h : Dealt d now received p q) {owner : Address}
    (hne : owner ≠ d.user) (t spender : Address) :
    q.bank.allowance t owner spender = p.bank.allowance t owner spender := by
  have hallowances := h.allowances
  cases d with
  | deposit user token amount =>
      have hread := Bank.allowance_insert p.bank token user p.vault.address t owner spender
        (p.bank.allowance token user p.vault.address - amount)
      rw [if_neg fun heq => hne heq.2.1] at hread
      rw [← hread, Bank.allowance, Bank.allowanceBook, hallowances]
      rfl
  | withdraw user token amount =>
      simp only [Bank.allowance, Bank.allowanceBook, hallowances]
      rfl

end Dealt

/-! ### What a dealing looks at -/

/-- All that the dealings of a user look at is the same. -/
structure SameFor (user : Address) (p q : Protocol) : Prop where
  address : q.vault.address = p.vault.address
  borrowModule : q.vault.borrowModule = p.vault.borrowModule
  configs : q.vault.configs = p.vault.configs
  paused : q.vault.paused = p.vault.paused
  deposit : ∀ t, q.vault.depositOf user t = p.vault.depositOf user t
  fees : q.bank.fees = p.bank.fees
  frozen : q.bank.frozen = p.bank.frozen
  balance : ∀ t, q.bank.balance t user = p.bank.balance t user
  allowance : ∀ t,
    q.bank.allowance t user p.vault.address = p.bank.allowance t user p.vault.address

theorem SameFor.symm (h : SameFor user p q) : SameFor user q p where
  address := h.address.symm
  borrowModule := h.borrowModule.symm
  configs := h.configs.symm
  paused := h.paused.symm
  deposit := fun t => (h.deposit t).symm
  fees := h.fees.symm
  frozen := h.frozen.symm
  balance := fun t => (h.balance t).symm
  allowance := fun t => by
    rw [h.address]
    exact (h.allowance t).symm

/-- **A dealing touches nothing that the dealings of another user look at.** -/
theorem Dealt.sameFor (h : Dealt d now received p q) (hne : user ≠ d.user)
    (hvault : user ≠ p.vault.address) : SameFor user p q where
  address := by rw [h.vault]
  borrowModule := by rw [h.vault]
  configs := by rw [h.vault]
  paused := by rw [h.vault]
  deposit := fun t => by
    have hdeposit := h.deposit user t
    rw [if_neg fun heq => hne heq.1, if_neg fun heq => hne heq.1] at hdeposit
    exact Amount.ext hdeposit
  fees := h.moved.fees
  frozen := h.moved.frozen
  balance := fun t => by
    have hsender := Dealing.ne_sender hne hvault
    have hrecipient := Dealing.ne_recipient hne hvault
    exact h.moved.balance_elsewhere (fun heq => hsender heq.2) fun heq => hrecipient heq.2
  allowance := fun t => h.allowance_elsewhere hne t p.vault.address

/-! ### Who may deposit can deposit -/

namespace Payable

/-- What the vault's account can be sent can be booked, if the fee leaves any of it. -/
theorem pull_answers {funder : Address} (h : Payable account p)
    (henabled : p.vault.ensureEnabled token = .ok ())
    (hfrozen : p.bank.frozen.contains token = false) (hpositive : amount ≠ 0)
    (hvault : p.vault.address ≠ .zero)
    (hallowed : amount ≤ p.bank.allowance token funder p.vault.address)
    (hcovered : amount ≤ p.bank.balance token funder)
    (hworth : amount.val * (p.bank.fee token).toNat / 10000 < amount.val) :
    (pull funder user token amount).Answers p := by
  rw [pull_eq]
  refine answers_refuseIf hpositive ?_
  refine answers_get (answers_check henabled (answers_bind (answers_on ?_) ?_))
  · exact Bank.transferFrom_answers h.bank hfrozen hvault hpositive hallowed hcovered
  · intro _ s hs
    simp only [onBank, on_eq_ok] at hs
    obtain ⟨c, hmoved, rfl⟩ := hs
    obtain ⟨⟨received, hreceived⟩, -⟩ := Bank.transferFrom_ok hmoved
    refine (book_answers_iff h.balanced h.bank hpositive hreceived).mpr fun hunbookable => ?_
    have hwhole := h.fee_of_stranded ⟨hpositive, henabled, hmoved, hunbookable⟩
    rw [hwhole, show (10000 : UInt64).toNat = 10000 from rfl,
      Nat.mul_div_cancel _ (by decide)] at hworth
    exact Nat.lt_irrefl _ hworth

/-- **A deposit is refused for its own terms only**: no other deposit can be in its way. -/
theorem deposit_answers (h : Payable account p) (hidle : Idle p)
    (hrunning : p.vault.ensureRunning = .ok ()) (henabled : p.vault.ensureEnabled token = .ok ())
    (hfrozen : p.bank.frozen.contains token = false) (hpositive : amount ≠ 0)
    (hvault : p.vault.address ≠ .zero)
    (hallowed : amount ≤ p.bank.allowance token ctx.caller p.vault.address)
    (hcovered : amount ≤ p.bank.balance token ctx.caller)
    (hworth : amount.val * (p.bank.fee token).toNat / 10000 < amount.val) :
    (Protocol.deposit ctx token amount).Answers p := by
  have hfree : p.vault.guard.entered = false := by
    rw [hidle.vault]
    rfl
  refine Guard.answers_hold hfree (answers_get (answers_check hrunning (answers_bind ?_ ?_)))
  · exact (h.guarded ⟨true⟩).pull_answers henabled hfrozen hpositive hvault hallowed
      hcovered hworth
  · intro _ _ _
    exact answers_bind (answers_on answers_modify) fun _ _ _ => answers_pure

/-! ### Dealings elsewhere -/

/-- A deposit that was taken in one state is taken in another. -/
theorem deposit_again (h : Payable account q) (hidle : Idle q) (hsame : SameFor user p q)
    (hne : user ≠ p.vault.address)
    (hdeposited : Deposited ⟨user, now⟩ user token amount received
      (.deposited user token received) p p') :
    (Protocol.deposit ⟨user, now'⟩ token amount).Answers q := by
  obtain ⟨hmovable, hvault, hallowed, -⟩ := Bank.transferFrom_move hdeposited.moved
  obtain ⟨hcovered, hfee, -⟩ := (hdeposited.dealt hne).moved
  have hrunning : q.vault.ensureRunning = .ok () := by
    rw [Vault.ensureRunning, hsame.paused]
    exact hdeposited.running
  have henabled : q.vault.ensureEnabled token = .ok () := by
    rw [Vault.ensureEnabled, hsame.configs]
    exact hdeposited.enabled
  have hworth : amount.val * (q.bank.fee token).toNat / 10000 < amount.val := by
    have hsomething := Amount.pos_iff.mp (Amount.pos_of_ne_zero hdeposited.something)
    rw [Bank.fee, hsame.fees]
    change received.val + amount.val * (p.bank.fee token).toNat / 10000 = amount.val at hfee
    change amount.val * (p.bank.fee token).toNat / 10000 < amount.val
    omega
  refine h.deposit_answers hidle hrunning henabled ?_ hdeposited.positive ?_ ?_ ?_ hworth
  · rw [hsame.frozen]
    exact (Bank.ensureMovable_eq_ok.mp hmovable).unfrozen
  · rw [hsame.address]
    exact hvault
  · rw [hsame.address, hsame.allowance]
    exact hallowed
  · rw [hsame.balance]
    exact hcovered

theorem withdraw_again (h : Payable account q) (hidle : Idle q) (hsame : SameFor user p q)
    (hcaller : ctx.caller = q.vault.borrowModule)
    (hreleased : Released user token amount user now (.withdrawn user token amount) p p') :
    (Protocol.withdraw ctx user token amount).Answers q := by
  obtain ⟨hmovable, huser, -⟩ := Bank.transfer_move hreleased.moved
  refine h.withdraw_answers hidle hcaller hreleased.positive ?_ ?_ huser
  · rw [hsame.deposit]
    exact hreleased.covered
  · rw [hsame.frozen]
    exact (Bank.ensureMovable_eq_ok.mp hmovable).unfrozen

/-- **What a user was answered in one state it is answered in another** that is the same for the
user, whatever is different for others. -/
theorem repeats (h : Payable account q) (hidle : Idle q) (hsame : SameFor d.user p q)
    (hne : d.user ≠ p.vault.address) (now' : Timestamp)
    (hanswered : perform ⟨d.caller p.vault.borrowModule, now⟩ d.call p = .ok reply p') :
    ∃ q', perform ⟨d.caller q.vault.borrowModule, now'⟩ d.call q = .ok reply q' := by
  obtain ⟨received, hreply, hdealt⟩ := perform_dealt hne hanswered
  have hne' : d.user ≠ q.vault.address := by
    rw [hsame.address]
    exact hne
  have hanswers : (perform ⟨d.caller q.vault.borrowModule, now'⟩ d.call).Answers q := by
    cases d with
    | deposit user token amount =>
        cases perform_ok hanswered with
        | administered hcall _ => exact absurd hcall id
        | deposited hdeposited =>
            refine answers_bind ?_ fun _ _ _ => answers_pure
            exact h.deposit_again hidle hsame hne hdeposited
    | withdraw user token amount =>
        cases perform_ok hanswered with
        | administered hcall _ => exact absurd hcall id
        | withdrawn _ hreleased =>
            refine answers_bind ?_ fun _ _ _ => answers_pure
            exact h.withdraw_again hidle hsame rfl hreleased
  -- It is the same answer, because the fee is the same.
  obtain ⟨reply', q', hq'⟩ := hanswers.exists_ok
  obtain ⟨got, hreply', hdealt'⟩ := perform_dealt hne' hq'
  have hgot : got = received := hdealt.received_eq hdealt' hsame.fees
  refine ⟨q', ?_⟩
  rw [hq', hreply', hgot, hreply]

end Payable

/-! ### Two dealings -/

section Swapped

variable {p m q m' q' : Protocol} {x y : Dealing} {now₁ now₂ : Timestamp}
    {got₁ got₂ : Amount}

/-- The vault's books are the same after two dealings in either order. -/
theorem Dealt.books_swapped (h₁ : Dealt x now₁ got₁ p m) (h₂ : Dealt y now₂ got₂ m q)
    (h₂' : Dealt y now₂ got₂ p m') (h₁' : Dealt x now₁ got₁ m' q') :
    q'.vault.deposits = q.vault.deposits ∧ q'.vault.totals = q.vault.totals := by
  refine ⟨?_, ?_⟩
  · refine Book.eq_of_swapped h₂'.deposits h₁'.deposits h₁.deposits h₂.deposits
      fun u t => ?_
    have hm := h₁.deposit u t
    have hq := h₂.deposit u t
    have hm' := h₂'.deposit u t
    have hq' := h₁'.deposit u t
    exact Amount.ext (show (q'.vault.depositOf u t).val = (q.vault.depositOf u t).val by omega)
  · refine Tally.eq_of_swapped h₂'.totals h₁'.totals h₁.totals h₂.totals fun t => ?_
    have hm := h₁.total t
    have hq := h₂.total t
    have hm' := h₂'.total t
    have hq' := h₁'.total t
    exact Amount.ext (show (q'.vault.total t).val = (q.vault.total t).val by omega)

/-- Allowances of different users are used up in either order. -/
theorem Dealt.allowances_swapped (hne : x.user ≠ y.user) (h₁ : Dealt x now₁ got₁ p m)
    (h₂ : Dealt y now₂ got₂ m q) (h₂' : Dealt y now₂ got₂ p m')
    (h₁' : Dealt x now₁ got₁ m' q') :
    q'.bank.allowances = q.bank.allowances := by
  have haddress : m.vault.address = p.vault.address := by rw [h₁.vault]
  have haddress' : m'.vault.address = p.vault.address := by rw [h₂'.vault]
  rw [h₁'.allowances, h₂'.allowances, h₂.allowances, h₁.allowances, haddress, haddress']
  exact (Dealing.spend_comm hne p.vault.address p.bank.allowances).symm

/-- So is the bank. -/
theorem Dealt.bank_swapped (hne : x.user ≠ y.user) (h₁ : Dealt x now₁ got₁ p m)
    (h₂ : Dealt y now₂ got₂ m q) (h₂' : Dealt y now₂ got₂ p m')
    (h₁' : Dealt x now₁ got₁ m' q') :
    q'.bank = q.bank := by
  have hbalances : q'.bank.balances = q.bank.balances := by
    have haddress : m.vault.address = p.vault.address := by rw [h₁.vault]
    have haddress' : m'.vault.address = p.vault.address := by rw [h₂'.vault]
    have hwrites₂ := h₂.balances
    have hwrites₁' := h₁'.balances
    have hmoved₂ := h₂.moved
    have hmoved₁' := h₁'.moved
    rw [haddress] at hwrites₂ hmoved₂
    rw [haddress'] at hwrites₁' hmoved₁'
    refine Book.eq_of_swapped h₂'.balances hwrites₁' h₁.balances hwrites₂ fun t a => ?_
    have hm := h₁.moved.balance t a
    have hq := hmoved₂.balance t a
    have hm' := h₂'.moved.balance t a
    have hq' := hmoved₁'.balance t a
    exact Amount.ext (show (q'.bank.balance t a).val = (q.bank.balance t a).val by omega)
  have hsupply : q'.bank.supply = q.bank.supply := by
    refine Tally.eq_of_swapped h₂'.supply h₁'.supply h₁.supply h₂.supply fun t => ?_
    have hm := h₁.moved.supply t
    have hq := h₂.moved.supply t
    have hm' := h₂'.moved.supply t
    have hq' := h₁'.moved.supply t
    exact Amount.ext (show (q'.bank.totalSupply t).val = (q.bank.totalSupply t).val by omega)
  have hallowances := Dealt.allowances_swapped hne h₁ h₂ h₂' h₁'
  have hdecimals : q'.bank.decimals = q.bank.decimals := by
    rw [h₁'.moved.decimals, h₂'.moved.decimals, h₂.moved.decimals, h₁.moved.decimals]
  have hfees : q'.bank.fees = q.bank.fees := by
    rw [h₁'.moved.fees, h₂'.moved.fees, h₂.moved.fees, h₁.moved.fees]
  have hfrozen : q'.bank.frozen = q.bank.frozen := by
    rw [h₁'.moved.frozen, h₂'.moved.frozen, h₂.moved.frozen, h₁.moved.frozen]
  generalize q'.bank = b at *
  generalize q.bank = c at *
  obtain ⟨_, _, _, _, _, _⟩ := b
  obtain ⟨_, _, _, _, _, _⟩ := c
  simp_all only

/-- Two states in which two things happened in either order: only the logs tell them apart. -/
structure Reordered (log : EventLog) (p q : Protocol) : Prop where
  rest : q = { p with vault := { p.vault with events := q.vault.events } }
  told : ∃ now₁ event₁ now₂ event₂,
    p.vault.events = (log.add now₁ event₁).add now₂ event₂ ∧
      q.vault.events = (log.add now₂ event₂).add now₁ event₁

theorem Dealt.reordered (hne : x.user ≠ y.user) (h₁ : Dealt x now₁ got₁ p m)
    (h₂ : Dealt y now₂ got₂ m q) (h₂' : Dealt y now₂ got₂ p m')
    (h₁' : Dealt x now₁ got₁ m' q') :
    Reordered p.vault.events q q' := by
  obtain ⟨hdeposits, htotals⟩ := Dealt.books_swapped h₁ h₂ h₂' h₁'
  have hbank := Dealt.bank_swapped hne h₁ h₂ h₂' h₁'
  have hvault : q'.vault = { q.vault with events := q'.vault.events } := by
    rw [h₁'.vault, h₂'.vault, h₂.vault, h₁.vault, hdeposits, htotals]
  refine ⟨?_, now₁, x.event got₁, now₂, y.event got₂, ?_, ?_⟩
  · have hengine : q'.engine = q.engine := by
      rw [h₁'.engine, h₂'.engine, h₂.engine, h₁.engine]
    have hledger : q'.ledger = q.ledger := by
      rw [h₁'.ledger, h₂'.ledger, h₂.ledger, h₁.ledger]
    have horacle : q'.oracle = q.oracle := by
      rw [h₁'.oracle, h₂'.oracle, h₂.oracle, h₁.oracle]
    have hclock : q'.clock = q.clock := by
      rw [h₁'.clock, h₂'.clock, h₂.clock, h₁.clock]
    rw [← hvault, ← hengine, ← hledger, ← horacle, ← hbank, ← hclock]
  · rw [h₂.vault, h₁.vault]
  · rw [h₁'.vault, h₂'.vault]

end Swapped

/-- Whenever the one and then the other is answered, they are answered alike in the other order,
and only the log tells which came first. -/
def Commutes (p : Protocol) (x y : Action Protocol Reply) : Prop :=
  ∀ a b m q, x p = .ok a m → y m = .ok b q →
    ∃ m' q', y p = .ok b m' ∧ x m' = .ok a q' ∧ Reordered p.vault.events q q'

theorem Payable.commutes (h : Payable account p) (hidle : Idle p) (hne : x.user ≠ y.user)
    (hx : x.user ≠ p.vault.address) (hy : y.user ≠ p.vault.address) :
    Commutes p (perform ⟨x.caller p.vault.borrowModule, now⟩ x.call)
      (perform ⟨y.caller p.vault.borrowModule, now'⟩ y.call) := by
  intro a b m q hfirst hsecond
  obtain ⟨got₁, -, h₁⟩ := perform_dealt hx hfirst
  -- The second one is answered at once, for the first one does not concern its user.
  have hym := h₁.sameFor hne.symm hy
  have hy' : y.user ≠ m.vault.address := by
    rw [hym.address]
    exact hy
  rw [← hym.borrowModule] at hsecond
  obtain ⟨got₂, -, h₂⟩ := perform_dealt hy' hsecond
  obtain ⟨m', hbefore⟩ := h.repeats hidle hym.symm hy' now' hsecond
  obtain ⟨got₂', -, h₂'⟩ := perform_dealt hy hbefore
  obtain rfl := h₂.received_eq h₂' hym.symm.fees
  -- And the first one is answered after it, too.
  have hxm := h₂'.sameFor hne hx
  have hx' : x.user ≠ m'.vault.address := by
    rw [hxm.address]
    exact hx
  obtain ⟨q', hafter⟩ :=
    (h.of_performed hbefore).repeats (perform_idle hbefore hidle) hxm hx now hfirst
  obtain ⟨got₁', -, h₁'⟩ := perform_dealt hx' hafter
  obtain rfl := h₁.received_eq h₁' hxm.fees
  rw [hxm.borrowModule] at hafter
  exact ⟨m', q', hbefore, hafter, Dealt.reordered hne h₁ h₂ h₂' h₁'⟩

/-- Submitted calls are performed at the present time, which no dealing changes. -/
theorem Payable.commutes_submitted (h : Payable account p) (hidle : Idle p)
    (hne : x.user ≠ y.user) (hx : x.user ≠ p.vault.address) (hy : y.user ≠ p.vault.address) :
    Commutes p (submit (x.caller p.vault.borrowModule) x.call)
      (submit (y.caller p.vault.borrowModule) y.call) := by
  intro a b m q hfirst hsecond
  rw [submit_eq_ok] at hfirst hsecond
  obtain ⟨got₁, -, h₁⟩ := perform_dealt hx hfirst
  rw [h₁.clock] at hsecond
  obtain ⟨m', q', hbefore, hafter, hreordered⟩ :=
    h.commutes hidle hne hx hy a b m q hfirst hsecond
  obtain ⟨got₂, -, h₂'⟩ := perform_dealt hy hbefore
  refine ⟨m', q', submit_eq_ok.mpr hbefore, ?_, hreordered⟩
  rw [submit_eq_ok, h₂'.clock]
  exact hafter

/-! ### Every run -/

/-- **What different users deposit and withdraw commutes.**  After every run in which nobody acts
for the vault's account, two dealings of different users are answered in either order if they are
in one, with the same answers, and leave the same state but for the order in the log. -/
theorem dealings_commute (h : Fresh p) (turns : List Turn)
    (hturns : ∀ turn ∈ turns, turn.Within (Happening.Spares p.vault.address)) {x y : Dealing}
    (hne : x.user ≠ y.user) (hx : x.user ≠ p.vault.address) (hy : y.user ≠ p.vault.address) :
    let q := p.run turns
    let borrowModule := q.vault.borrowModule
    (∀ now now', Commutes q (perform ⟨x.caller borrowModule, now⟩ x.call)
        (perform ⟨y.caller borrowModule, now'⟩ y.call)) ∧
      Commutes q (submit (x.caller borrowModule) x.call)
        (submit (y.caller borrowModule) y.call) := by
  intro q borrowModule
  have hpayable : Payable p.vault.address q := run_induction Payable.after turns p hturns h.payable
  have hidle : Idle q := h.idle.run turns
  rw [← hpayable.solvent.address] at hx hy
  refine ⟨fun now now' => ?_, ?_⟩
  · exact hpayable.commutes hidle hne hx hy
  · exact hpayable.commutes_submitted hidle hne hx hy

/-- Alice deposits a token with a fee, of which the borrow module withdraws some for bob. -/
def meeting : List Turn :=
  Sample.opening ++
    [.happening (.mint Sample.weth Sample.alice Sample.unit),
      .happening (.approve Sample.weth Sample.alice Sample.vaultAccount Sample.unit)]

theorem dealings_commute_meeting :
    let q := Sample.start.run meeting
    let x := Dealing.deposit Sample.alice Sample.weth Sample.unit
    let y := Dealing.withdraw Sample.bob Sample.weth ⟨500000000000000000, by decide⟩
    let first := submit (x.caller Sample.borrowModule) x.call
    let second := submit (y.caller Sample.borrowModule) y.call
    (Fresh Sample.start ∧
      (∀ turn ∈ meeting, turn.Within (Happening.Spares Sample.start.vault.address)) ∧
      x.user ≠ y.user ∧ x.user ≠ Sample.start.vault.address ∧
      y.user ≠ Sample.start.vault.address) ∧
      first.reply? q = some (.amount ⟨990000000000000000, by decide⟩) ∧
      second.reply? (first.left q) = some .done ∧ Commutes q first second := by
  intro q x y first second
  have hturns : ∀ turn ∈ meeting,
      turn.Within (Happening.Spares Sample.start.vault.address) := by
    decide
  have hne : x.user ≠ y.user := by decide
  have hx : x.user ≠ Sample.start.vault.address := by decide
  have hy : y.user ≠ Sample.start.vault.address := by decide
  obtain ⟨-, hcommutes⟩ := dealings_commute Sample.fresh meeting hturns hne hx hy
  have hmodule : (Sample.start.run meeting).vault.borrowModule = Sample.borrowModule := by
    decide +kernel
  rw [hmodule] at hcommutes
  exact ⟨⟨Sample.fresh, hturns, hne, hx, hy⟩, by decide +kernel, by decide +kernel,
    hcommutes⟩

end Protocol

end Custody
