/-
What a refused deposit leaves behind.

A deposit moves tokens first and looks afterwards at what arrived.  If that cannot be booked, the
call is refused, but the tokens have moved: they are in the vault's account, or gone as a fee, and
in no user's deposit, and the allowance is spent.  There are three things that cannot be booked.
The vault may have paid itself, the fee may have taken everything, and the total of the token may
be too large.  Whatever else is wrong with a deposit is found before anything moves.

Without an allowance from the vault it cannot pay itself, and while its account covers the deposits
no total is too large for what arrives.  So in a run in which nobody acts for the vault's account
only a fee of the whole amount is left.
-/
import Custody.Proofs.Refusal.Releases

namespace Custody

open Custody.Action

/-- A fee that is a share takes everything exactly if it is the whole. -/
theorem Bank.Moved.received_eq_zero_iff {token sender recipient : Address}
    {amount received : Amount} {b c : Bank}
    (h : Moved token sender recipient amount received b c) (hshare : (b.fee token).toNat ≤ 10000)
    (hpositive : amount ≠ 0) : received = 0 ↔ b.fee token = 10000 := by
  have hfee := h.fee
  have hamount := Amount.pos_iff.mp (Amount.pos_of_ne_zero hpositive)
  rw [Amount.eq_zero_iff, ← UInt64.toNat_inj, show (10000 : UInt64).toNat = 10000 from rfl]
  constructor
  · intro hzero
    by_contra hne
    have hless : amount.val * (b.fee token).toNat ≤ amount.val * 9999 :=
      Nat.mul_le_mul_left _ (by omega)
    omega
  · intro hwhole
    rw [hwhole, Nat.mul_div_cancel _ (by decide)] at hfee
    omega

namespace Protocol

variable {ctx : Context} {funder user token account : Address} {amount received before : Amount}
  {p q : Protocol} {c : Bank} {α : Type}

/-! ### Moving and booking -/

/-- Book what an account has more than before. -/
def book (user token account : Address) (before : Amount) : Action Protocol Amount := do
  let received ← ((← get).bank.balance token account).subtract before
  if received = 0 then throw .zeroAmount
  onVault (Vault.credit user token received)
  return received

/-- A pull is a movement and the booking of what it brought. -/
theorem pull_eq (funder user token : Address) (amount : Amount) :
    pull funder user token amount = (do
      if amount = 0 then throw .zeroAmount
      let p ← get
      p.vault.ensureEnabled token
      onBank (Bank.transferFrom token p.vault.address funder p.vault.address amount)
      book user token p.vault.address (p.bank.balance token p.vault.address)) := rfl

theorem book_clean : (book user token account before).Clean p := by
  refine clean_get (clean_check fun _ _ => clean_refuseIf fun _ => ?_)
  exact clean_bind (clean_on Vault.credit_clean rfl) fun _ _ _ => answers_pure

/-- What is left of an amount by the fee for moving it. -/
def netOfFee (token : Address) (amount : Amount) (p : Protocol) : Nat :=
  amount.val - amount.val * (p.bank.fee token).toNat / 10000

/-- Why what a funder sent cannot be booked. -/
inductive Unbookable (funder token : Address) (amount : Amount) (p : Protocol) : Prop where
  /-- The vault paid itself. -/
  | circular : funder = p.vault.address → Unbookable funder token amount p
  /-- The fee took everything. -/
  | consumed : p.bank.fee token = 10000 → Unbookable funder token amount p
  /-- The total would be too large. -/
  | overflows : Amount.size ≤ (p.vault.total token).val + netOfFee token amount p →
      Unbookable funder token amount p

/-- After a movement to the vault's account, booking is refused for these three reasons. -/
theorem book_answers_iff (hbalanced : p.vault.Balanced) (hbank : p.bank.Sound)
    (hpositive : amount ≠ 0)
    (hmoved : Bank.Moved token funder p.vault.address amount received p.bank c) :
    (book user token p.vault.address (p.bank.balance token p.vault.address)).Answers
        { p with bank := c } ↔ ¬ Unbookable funder token amount p := by
  have hfee := hmoved.fee
  have hzero := hmoved.received_eq_zero_iff (hbank.fee token) hpositive
  have hbalance : (c.balance token p.vault.address).val +
      (if p.vault.address = funder then amount.val else 0) =
        (p.bank.balance token p.vault.address).val + received.val := by
    simpa using hmoved.balance token p.vault.address
  have hnet : netOfFee token amount p = received.val := by
    unfold netOfFee
    omega
  constructor
  · intro hanswers hunbookable
    obtain ⟨got, q, hbook⟩ := hanswers.exists_ok
    simp only [book, onVault, get_bind, refuseIf_eq_ok, bind_eq_ok, check_eq_ok, on_eq_ok,
      Amount.subtract_eq_ok] at hbook
    obtain ⟨arrived, _, ⟨harrived, rfl⟩, hsomething, _, _, ⟨w, hcredit, -⟩, -⟩ := hbook
    rw [Amount.eq_zero_iff] at hsomething hzero
    by_cases hself : funder = p.vault.address
    · rw [if_pos hself.symm] at hbalance
      omega
    · rw [if_neg (Ne.symm hself)] at hbalance
      obtain ⟨-, total, -, htotal, -⟩ := Vault.credit_ok hcredit
      change total.val = (p.vault.total token).val + arrived.val at htotal
      have hbound := total.isLt
      cases hunbookable with
      | circular h => exact hself h
      | consumed h =>
          have := hzero.mpr h
          omega
      | overflows h => omega
  · intro hbookable
    have hself : funder ≠ p.vault.address := fun h => hbookable (.circular h)
    have hsomething : received ≠ 0 := fun h => hbookable (.consumed (hzero.mp h))
    have hfits : (p.vault.total token).val + received.val < Amount.size := by
      rw [← hnet]
      exact Nat.lt_of_not_le fun h => hbookable (.overflows h)
    rw [if_neg (Ne.symm hself)] at hbalance
    have harrived : (c.balance token p.vault.address).subtract
        (p.bank.balance token p.vault.address) = .ok received := by
      rw [Amount.subtract_eq_ok]
      omega
    refine answers_get (answers_check harrived (answers_refuseIf hsomething ?_))
    refine answers_bind (answers_on ?_) fun _ _ _ => answers_pure
    exact hbalanced.credit_answers_iff.mpr hfits

/-! ### Stranded tokens -/

/-- The bank carried a deposit out and what arrived cannot be booked. -/
structure Stranded (funder token : Address) (amount : Amount) (p : Protocol) (c : Bank) : Prop where
  positive : amount ≠ 0
  enabled : p.vault.ensureEnabled token = .ok ()
  moved : Bank.transferFrom token p.vault.address funder p.vault.address amount p.bank = .ok () c
  unbookable : Unbookable funder token amount p

/-- A movement is never without a trace: it spends an allowance. -/
theorem Stranded.bank_ne (h : Stranded funder token amount p c) : c ≠ p.bank := by
  intro hsame
  obtain ⟨-, hallowance⟩ := Bank.transferFrom_ok h.moved
  have hspent := hallowance token funder p.vault.address
  rw [hsame, if_pos ⟨rfl, rfl, rfl⟩] at hspent
  exact h.positive (Amount.eq_zero_iff.mpr (by omega))

/-- **A refused pull leaves a trace exactly if it strands tokens.** -/
theorem pull_marks_iff (hbalanced : p.vault.Balanced) (hbank : p.bank.Sound) :
    (pull funder user token amount).Marks p q ↔
      ∃ c, Stranded funder token amount p c ∧ q = { p with bank := c } := by
  rw [pull_eq, marks_refuseIf, marks_get, marks_check]
  have hmove : (onBank (Bank.transferFrom token p.vault.address funder p.vault.address
      amount)).Clean p := clean_on (Bank.transferFrom_clean hbank) rfl
  simp only [marks_bind_of_clean hmove]
  constructor
  · rintro ⟨hpositive, _, henabled, _, u, hu, ⟨e, hbook⟩, hne⟩
    obtain ⟨c, hmoved, rfl⟩ := on_eq_ok.mp hu
    obtain rfl := book_clean e q hbook
    obtain ⟨⟨received, hreceived⟩, -⟩ := Bank.transferFrom_ok hmoved
    refine ⟨c, ⟨hpositive, henabled, hmoved, ?_⟩, rfl⟩
    by_contra hbookable
    exact (book_answers_iff hbalanced hbank hpositive hreceived).mpr hbookable e _ hbook
  · rintro ⟨c, h, rfl⟩
    obtain ⟨⟨received, hreceived⟩, -⟩ := Bank.transferFrom_ok h.moved
    refine ⟨h.positive, (), h.enabled, (), { p with bank := c },
      on_eq_ok.mpr ⟨c, h.moved, rfl⟩,
      book_clean.exists_error fun hanswers => ?_, fun hsame => h.bank_ne (congrArg bank hsame)⟩
    exact (book_answers_iff hbalanced hbank h.positive hreceived).mp hanswers h.unbookable

/-! ### Deposits

In a call of the vault the guard is all that differs from outside, and it has no part in what can be
booked.
-/

private theorem vaultCall_marks_iff {x : Action Protocol α} {K : Bank → Prop}
    (hx : ∀ u, x.Marks p.held u ↔ ∃ c, K c ∧ u = { p.held with bank := c }) :
    (vaultCall x).Marks p q ↔
      p.vault.guard = .free ∧ ∃ c, K c ∧ q = { p with bank := c } := by
  unfold vaultCall
  refine (Guard.marks_hold ?_ ?_ fun u hu => ?_).trans ⟨?_, ?_⟩
  · exact fun _ => rfl
  · exact fun _ _ _ => rfl
  · obtain ⟨c, -, rfl⟩ := (hx u).mp hu
    rfl
  · rintro ⟨hfree, u, hu, rfl⟩
    obtain ⟨c, hc, rfl⟩ := (hx u).mp hu
    refine ⟨Guard.eq_free hfree, c, hc, ?_⟩
    rw [← Guard.eq_free hfree]
    rfl
  · rintro ⟨hfree, c, hc, rfl⟩
    refine ⟨congrArg Guard.entered hfree, _, (hx _).mpr ⟨c, hc, rfl⟩, ?_⟩
    rw [← hfree]
    rfl

private theorem stranded_held :
    Stranded funder token amount p.held c ↔ Stranded funder token amount p c := by
  have hreasons : Unbookable funder token amount p.held ↔ Unbookable funder token amount p := by
    constructor <;> rintro (h | h | h)
    · exact .circular h
    · exact .consumed h
    · exact .overflows h
    · exact .circular h
    · exact .consumed h
    · exact .overflows h
  exact ⟨fun h => ⟨h.positive, h.enabled, h.moved, hreasons.mp h.unbookable⟩,
    fun h => ⟨h.positive, h.enabled, h.moved, hreasons.mpr h.unbookable⟩⟩

/-- Telling of a pull is not refused. -/
private theorem pull_told_marks_iff {now : Timestamp} {told : Amount → Event} {u : Protocol}
    (hbalanced : p.vault.Balanced) (hbank : p.bank.Sound) :
    (do
      let received ← pull funder user token amount
      onVault (Vault.tell now (told received))
      return received : Action Protocol Amount).Marks p.held u ↔
      ∃ c, Stranded funder token amount p c ∧ u = { p.held with bank := c } := by
  have hheld : p.held.vault.Balanced := hbalanced.of_books ⟨rfl, rfl, rfl⟩
  refine (marks_bind_of_answers fun _ _ _ => ?_).trans ((pull_marks_iff hheld hbank).trans ?_)
  · exact answers_bind (answers_on answers_modify) fun _ _ _ => answers_pure
  · simp only [stranded_held]

/-- **A refused deposit leaves a trace exactly if it strands tokens.** -/
theorem deposit_marks_iff (hbalanced : p.vault.Balanced) (hbank : p.bank.Sound) :
    (deposit ctx token amount).Marks p q ↔
      p.vault.guard = .free ∧ ∃ c, (p.vault.ensureRunning = .ok () ∧
        Stranded ctx.caller token amount p c) ∧ q = { p with bank := c } := by
  refine vaultCall_marks_iff fun u => ?_
  rw [marks_get, marks_check]
  simp only [pull_told_marks_iff hbalanced hbank]
  constructor
  · rintro ⟨_, hrunning, c, hstranded, rfl⟩
    exact ⟨c, ⟨hrunning, hstranded⟩, rfl⟩
  · rintro ⟨c, ⟨hrunning, hstranded⟩, rfl⟩
    exact ⟨(), hrunning, c, hstranded, rfl⟩

/-- For a deposit by somebody else the role and the user are checked as well. -/
theorem depositFor_marks_iff (hbalanced : p.vault.Balanced) (hbank : p.bank.Sound) :
    (depositFor ctx user token amount).Marks p q ↔
      p.vault.guard = .free ∧ ∃ c, ((p.vault.ensureRunning = .ok () ∧
        p.vault.access.ensure .leverageVault ctx.caller = .ok () ∧ user ≠ .zero) ∧
          Stranded ctx.caller token amount p c) ∧ q = { p with bank := c } := by
  refine vaultCall_marks_iff fun u => ?_
  rw [marks_get, marks_check]
  simp only [marks_check, pull_told_marks_iff hbalanced hbank]
  constructor
  · rintro ⟨_, hrunning, _, hrole, _, huser, c, hstranded, rfl⟩
    exact ⟨c, ⟨⟨hrunning, hrole, Address.ensureNonZero_eq_ok.mp huser⟩, hstranded⟩, rfl⟩
  · rintro ⟨c, ⟨⟨hrunning, hrole, huser⟩, hstranded⟩, rfl⟩
    exact ⟨(), hrunning, (), hrole, (), Address.ensureNonZero_eq_ok.mpr huser, c,
      hstranded, rfl⟩

/-! ### In a run -/

/-- While its account covers the deposits, the vault strands only what the fee consumes. -/
theorem Payable.fee_of_stranded (h : Payable account p)
    (hstranded : Stranded funder token amount p c) : p.bank.fee token = 10000 := by
  have hne := h.solvent.owner_ne hstranded.positive
    (h.solvent.address ▸ hstranded.moved)
  cases hstranded.unbookable with
  | circular hself => exact absurd (hself.trans h.solvent.address) hne
  | consumed hfee => exact hfee
  | overflows hlarge =>
      obtain ⟨⟨received, hmoved⟩, -⟩ := Bank.transferFrom_ok hstranded.moved
      have hfee := hmoved.fee
      have hbalance := hmoved.balance token p.vault.address
      rw [h.solvent.address, if_neg fun heq => hne heq.2.symm, if_pos ⟨rfl, rfl⟩] at hbalance
      have hcovered := h.solvent.covered token
      have hbound := (c.balance token account).isLt
      rw [Amount.le_def] at hcovered
      unfold netOfFee at hlarge
      omega

/-- **In a run in which nobody acts for the vault's account**, a deposit that is refused leaves no
trace, unless moving the token costs the whole amount. -/
theorem run_deposits_clean (h : Fresh p) (turns : List Turn)
    (hturns : ∀ turn ∈ turns, turn.Within (Happening.Spares p.vault.address))
    (hfee : (p.run turns).bank.fee token ≠ 10000) :
    (deposit ctx token amount).Clean (p.run turns) ∧
      (depositFor ctx user token amount).Clean (p.run turns) := by
  have hpayable : Payable p.vault.address (p.run turns) :=
    run_induction Payable.after turns p hturns h.payable
  refine ⟨clean_iff_marks.mpr fun q hmarks => ?_, clean_iff_marks.mpr fun q hmarks => ?_⟩
  · obtain ⟨-, c, ⟨-, hstranded⟩, -⟩ :=
      (deposit_marks_iff hpayable.balanced hpayable.bank).mp hmarks
    exact hfee (hpayable.fee_of_stranded hstranded)
  · obtain ⟨-, c, ⟨-, hstranded⟩, -⟩ :=
      (depositFor_marks_iff hpayable.balanced hpayable.bank).mp hmarks
    exact hfee (hpayable.fee_of_stranded hstranded)

/-! ### With any history -/

/-- **A refused deposit strands tokens or leaves no trace.**  For a vault and a bank with any
history, whatever is around them and whoever calls: if a deposit is refused and the state is not the
same as before, the bank has carried the movement out, what arrived cannot be booked, and nothing
else has changed; and whenever it is so, the deposit is refused and leaves this. -/
theorem refused_deposit_strands_iff (hvault : p.vault.Reached) (hbank : p.bank.Reached)
    (ctx : Context) (user token : Address) (amount : Amount) (q : Protocol) :
    ((deposit ctx token amount).Marks p q ↔
      p.vault.guard = .free ∧ ∃ c, (p.vault.ensureRunning = .ok () ∧
        Stranded ctx.caller token amount p c) ∧ q = { p with bank := c }) ∧
    ((depositFor ctx user token amount).Marks p q ↔
      p.vault.guard = .free ∧ ∃ c, ((p.vault.ensureRunning = .ok () ∧
        p.vault.access.ensure .leverageVault ctx.caller = .ok () ∧ user ≠ .zero) ∧
          Stranded ctx.caller token amount p c) ∧ q = { p with bank := c }) :=
  ⟨deposit_marks_iff hvault.balanced hbank.sound,
    depositFor_marks_iff hvault.balanced hbank.sound⟩

/-- Bob has one more unit to deposit, and moving it costs the whole of it. -/
def confiscatory : List Turn :=
  Sample.opening ++
    [.happening (.mint Sample.weth Sample.bob Sample.unit),
      .happening (.approve Sample.weth Sample.bob Sample.vaultAccount Sample.unit),
      .happening (.setFee Sample.weth 10000)]

/-- What is left of the protocol by a deposit of it. -/
def confiscated : Protocol :=
  (deposit ⟨Sample.bob, 0⟩ Sample.weth Sample.unit).left (Sample.start.run confiscatory)

private theorem confiscatory_moved : confiscated.bank.balance Sample.weth Sample.bob ≠
    (Sample.start.run confiscatory).bank.balance Sample.weth Sample.bob := by
  decide +kernel

private theorem confiscatory_refused : ∃ e, deposit ⟨Sample.bob, 0⟩ Sample.weth Sample.unit
    (Sample.start.run confiscatory) = .error e confiscated :=
  exists_error_of_reply? (by decide +kernel)

/-- Bob's deposit is refused, because nothing arrived, and his tokens and the allowance are gone. -/
theorem refused_deposit_strands_confiscatory :
    let p := Sample.start.run confiscatory
    let q := confiscated
    p.vault.Reached ∧ p.bank.Reached ∧
      (p.bank.balance Sample.weth Sample.bob = Sample.unit ∧
        q.bank.balance Sample.weth Sample.bob = 0 ∧
        q.bank.allowance Sample.weth Sample.bob Sample.vaultAccount = 0) ∧
      ∃ c, Stranded Sample.bob Sample.weth Sample.unit p c ∧ q = { p with bank := c } := by
  intro p q
  have hreached : p.Reached := Sample.fresh.reached.run confiscatory
  have hmarks : (deposit ⟨Sample.bob, 0⟩ Sample.weth Sample.unit).Marks p q :=
    ⟨confiscatory_refused,
      fun hsame => confiscatory_moved (congrArg (·.bank.balance Sample.weth Sample.bob) hsame)⟩
  obtain ⟨hstrands, -⟩ := refused_deposit_strands_iff hreached.vault hreached.bank
    ⟨Sample.bob, 0⟩ Sample.bob Sample.weth Sample.unit q
  obtain ⟨-, c, ⟨-, hstranded⟩, hq⟩ := hstrands.mp hmarks
  exact ⟨hreached.vault, hreached.bank, by decide +kernel, c, hstranded, hq⟩

/-- So it is not the case that every refused deposit leaves the vault and the bank as they were. -/
theorem refused_deposit_not_undone :
    ¬ ∀ (p q : Protocol) (ctx : Context) (token : Address) (amount : Amount) (e : Error),
      p.vault.Reached → p.bank.Reached → deposit ctx token amount p = .error e q →
        q.vault = p.vault ∧ q.bank = p.bank := by
  intro hundone
  have hreached : (Sample.start.run confiscatory).Reached :=
    Sample.fresh.reached.run confiscatory
  obtain ⟨e, hrefused⟩ := confiscatory_refused
  obtain ⟨-, hbank⟩ := hundone _ _ _ _ _ e hreached.vault hreached.bank hrefused
  exact confiscatory_moved (congrArg (·.balance Sample.weth Sample.bob) hbank)

end Protocol

end Custody
