/-
No number goes wrong.

A watchful calculator refuses where a plain one would answer with a number that nobody wants.  If a
call does the same with both, none of its operations went wrong, and there is nothing else that the
two could disagree about.

Each operation is safe for a reason of its own.  Some are compared just before, or take a minimum
away, and that holds in every state.  A fee is a share of what is moved, a penalty is within its
bounds.  Three need all accounts together: the supply of a token covers each balance, the total of
a token covers each deposit, and the total of bad debt covers each record.  And what a deposit adds
to the vault's balance is no difference below zero because nobody may move the vault's tokens.

All of that holds between calls, after every run.
-/
import Custody.Proofs.Calculator
import Custody.Proofs.Simulation
import Custody.Proofs.WriteOff

namespace Custody

/-! ### Two actions that do the same

The two start in one state and end in one state, so what comes next may use how they got there.
-/

namespace Action

variable {σ τ α β : Type} {s : σ}

/-- The actions do the same in a state. -/
def Coincide (x y : Action σ α) (s : σ) : Prop := x s = y s

theorem coincide_refl (x : Action σ α) : Coincide x x s := rfl

theorem coincide_get {f g : σ → Action σ α} (h : Coincide (f s) (g s) s) :
    Coincide (get >>= f) (get >>= g) s := h

theorem coincide_bind {x y : Action σ α} {f g : α → Action σ β} (hx : Coincide x y s)
    (hf : ∀ a t, y s = .ok a t → Coincide (f a) (g a) t) : Coincide (x >>= f) (y >>= g) s := by
  cases h : y s with
  | ok a t =>
      rw [Coincide, bind_of_ok h, bind_of_ok (hx.trans h)]
      exact hf a t h
  | error e t => rw [Coincide, bind_of_error h, bind_of_error (hx.trans h)]

theorem coincide_check {x y : Except Error α} {f g : α → Action σ β} (hx : x = y)
    (hf : ∀ a, y = .ok a → Coincide (f a) (g a) s) :
    Coincide (liftM x >>= f) (liftM y >>= g) s := by
  subst hx
  cases x with
  | ok a => exact hf a rfl
  | error e => rfl

theorem coincide_ite {c : Prop} [Decidable c] {x y x' y' : Action σ α}
    (hx : c → Coincide x x' s)
    (hy : ¬ c → Coincide y y' s) : Coincide (if c then x else y) (if c then x' else y') s := by
  by_cases hc : c
  · rw [if_pos hc, if_pos hc]
    exact hx hc
  · rw [if_neg hc, if_neg hc]
    exact hy hc

theorem coincide_refuseIf {c : Prop} [Decidable c] {e : Error} {f g : PUnit → Action σ α}
    (hf : ¬ c → Coincide (f ⟨⟩) (g ⟨⟩) s) :
    Coincide (if c then throw e >>= f else f ⟨⟩) (if c then throw e >>= g else g ⟨⟩) s :=
  coincide_ite (fun _ => rfl) hf

theorem coincide_discard {x y : Action σ α} (h : Coincide x y s) :
    Coincide (discard x) (discard y) s := by
  show EStateM.map _ x s = EStateM.map _ y s
  rw [EStateM.map, EStateM.map, show x s = y s from h]

variable {part : σ → τ} {update : τ → σ → σ}

theorem coincide_on {x y : Action τ α} (h : Coincide x y (part s)) :
    Coincide (on part update x) (on part update y) s := by
  rw [Coincide, on, on, show x (part s) = y (part s) from h]

theorem coincide_undoing {undo : σ → σ} {x y : Action σ α} (h : Coincide x y s) :
    Coincide (undoing undo x) (undoing undo y) s := by
  rw [Coincide, undoing, undoing, show x s = y s from h]

theorem coincide_orRestore {restore : σ → σ → σ} {x y : Action σ α} (h : Coincide x y s) :
    Coincide (orRestore restore x) (orRestore restore y) s := by
  rw [Coincide, orRestore, orRestore, show x s = y s from h]

theorem coincide_hold {guard : σ → Guard} {update : Guard → σ → σ} {x y : Action σ α}
    (h : Coincide x y (update ⟨true⟩ s)) :
    Coincide (Guard.hold guard update x) (Guard.hold guard update y) s := by
  unfold Coincide Guard.hold
  cases hguard : Guard.enter (guard s) with
  | ok r g =>
      obtain ⟨-, rfl⟩ := Guard.enter_eq_ok.mp hguard
      simp only [show x (update ⟨true⟩ s) = y (update ⟨true⟩ s) from h]
  | error e g => rfl

end Action

theorem Check.bind_congr {α β : Type} {x y : Except Error α} {f g : α → Except Error β}
    (hx : x = y) (hf : ∀ a, y = .ok a → f a = g a) : (x >>= f) = (y >>= g) := by
  subst hx
  cases x with
  | ok a => exact hf a rfl
  | error e => rfl

open Custody.Action

namespace Calculator

/-! ### Careful calculators -/

/-- The calculator does what the plain one does wherever that is right. -/
structure Careful (c : Calculator) : Prop where
  minus : ∀ {a b}, b ≤ a → c.minus a b = plain.minus a b
  subtract : ∀ {a b}, b ≤ a → c.subtract a b = plain.subtract a b
  penalize : ∀ {penalty}, bpsWhole.toNat + penalty.toNat < UInt64.size →
    c.penalize penalty = plain.penalize penalty

theorem watchful_careful : watchful.Careful where
  minus hle := if_pos hle
  subtract {a b} hle := by
    show (if b ≤ a then _ else _) = Amount.subtract a b
    rw [Amount.subtract, if_pos hle, if_pos hle]
  penalize hfits :=
    (if_pos hfits).trans (congrArg Except.ok (Amount.withPenalty_eq_ofWord hfits).symm)

section

variable {c : Calculator} (h : c.Careful)
  {token account sender owner spender recipient user borrower liquidator funder : Address}
  {amount offer value deposit repay price : Amount} {penalty : UInt64} {decimals : UInt8}
  {ctx : Context} {b : Bank} {l : Ledger} {d : BadDebt} {v : Vault} {o : Oracle} {p : Protocol}

include h

/-! ### One operation at a time -/

/-- A fee is no more than what it is charged on. -/
theorem move_coincide (hbank : b.Sound) :
    Coincide (c.move token sender recipient amount)
      (plain.move token sender recipient amount) b := by
  refine coincide_get (coincide_refuseIf fun hcovered => coincide_check rfl fun fee hfee => ?_)
  have hle : fee ≤ amount := Amount.share_le hfee (hbank.fee token)
  refine coincide_check (h.subtract hle) fun received _ => ?_
  exact coincide_check (h.minus (Nat.le_of_not_lt hcovered)) fun rest _ => coincide_refl _

theorem transfer_coincide (hbank : b.Sound) :
    Coincide (c.transfer token sender recipient amount)
      (plain.transfer token sender recipient amount) b :=
  coincide_get (coincide_check rfl fun _ _ => coincide_check rfl fun _ _ => move_coincide h hbank)

theorem transferFrom_coincide (hbank : b.Sound) :
    Coincide (c.transferFrom token spender owner recipient amount)
      (plain.transferFrom token spender owner recipient amount) b := by
  refine coincide_get (coincide_check rfl fun _ _ => coincide_check rfl fun _ _ => ?_)
  refine coincide_refuseIf fun hallowed => coincide_bind (move_coincide h hbank) fun _ _ _ => ?_
  exact coincide_check (h.minus (Nat.le_of_not_lt hallowed)) fun rest _ => coincide_refl _

/-- The supply covers the balance that covers what is burned. -/
theorem burn_coincide (hbank : b.Sound) :
    Coincide (c.burn token account amount) (plain.burn token account amount) b := by
  refine coincide_get (coincide_check rfl fun _ _ => coincide_refuseIf fun hcovered => ?_)
  have hbalance : amount ≤ b.balance token account := Nat.le_of_not_lt hcovered
  refine coincide_check (h.minus hbalance) fun rest _ => ?_
  refine coincide_bind (coincide_refl _) fun _ _ _ => ?_
  have hsupply : amount ≤ b.totalSupply token :=
    Nat.le_trans hbalance (hbank.balance_le token account)
  exact coincide_check (h.subtract hsupply) fun supply _ => coincide_refl _

theorem reduce_coincide : Coincide (c.reduce user amount) (plain.reduce user amount) l := by
  refine coincide_get (coincide_refuseIf fun _ => coincide_refuseIf fun hcovered => ?_)
  exact coincide_check (h.minus (Nat.le_of_not_lt hcovered)) fun rest _ => coincide_refl _

/-- What is taken from the reserves is a minimum, and what is taken from suppliers is compared. -/
theorem absorb_coincide : Coincide (c.absorb amount) (plain.absorb amount) l := by
  have hamount : min amount l.reserves ≤ amount := by
    rw [Amount.le_def, Amount.val_min]
    exact Nat.min_le_left _ _
  have hreserves : min amount l.reserves ≤ l.reserves := by
    rw [Amount.le_def, Amount.val_min]
    exact Nat.min_le_right _ _
  refine coincide_get (coincide_check (h.minus hamount) fun remainder _ => ?_)
  refine coincide_refuseIf fun hsupplied => coincide_check (h.minus hreserves) fun reserves _ => ?_
  exact coincide_check (h.minus (Nat.le_of_not_lt hsupplied)) fun supplied _ => coincide_refl _

theorem writeOff_coincide :
    Coincide (c.writeOff borrower amount) (plain.writeOff borrower amount) l :=
  coincide_bind (reduce_coincide h) fun _ _ _ => absorb_coincide h

/-- The total of bad debt covers each record. -/
theorem clear_coincide (hbalanced : d.Balanced) :
    Coincide (c.clear borrower) (plain.clear borrower) d :=
  coincide_get (coincide_refuseIf fun _ =>
    coincide_check (h.subtract (hbalanced.of_le_total borrower)) fun _ _ => coincide_refl _)

/-- The total of a token covers each deposit. -/
theorem debit_coincide (hbalanced : v.Balanced) :
    Coincide (c.debit user token amount) (plain.debit user token amount) v := by
  refine coincide_get (coincide_refuseIf fun hcovered => ?_)
  have hdeposit : amount ≤ v.depositOf user token := Nat.le_of_not_lt hcovered
  have htotal : amount ≤ v.total token :=
    Nat.le_trans hdeposit (hbalanced.deposit_le_total user token)
  refine coincide_check (h.subtract htotal) fun total _ => ?_
  exact coincide_check (h.minus hdeposit) fun rest _ => coincide_refl _

/-! ### Quotes -/

theorem cappedQuote_careful (hpenalty : bpsWhole.toNat + penalty.toNat < UInt64.size) :
    c.cappedQuote offer value deposit penalty = plain.cappedQuote offer value deposit penalty := by
  refine Check.bind_congr (Check.bind_congr (h.penalize hpenalty) fun _ _ => rfl) fun repay _ => ?_
  refine Check.bind_congr (h.minus ?_) fun _ _ => rfl
  rw [Amount.le_def, Amount.val_min]
  exact Nat.min_le_right _ _

/-- The penalty of a listed token is within its bounds. -/
theorem quote_careful (hregistered : v.Registered) :
    c.quote v o b borrower token offer = plain.quote v o b borrower token offer := by
  unfold quote
  cases hadded : v.added? token with
  | none => rfl
  | some config =>
      have hvalid := hregistered.valid token config (Vault.get?_of_added hadded)
      obtain ⟨-, -, hbound⟩ := CollateralParams.bounds_of_validate hvalid
      have hpenalty : bpsWhole.toNat + config.params.penalty.toNat < UInt64.size :=
        Nat.lt_of_le_of_lt (Nat.add_le_add_left (UInt64.le_iff_toNat_le.mp hbound) _) (by decide)
      refine Check.bind_congr rfl fun decimals _ => Check.bind_congr rfl fun price _ => ?_
      by_cases hprice : price = 0
      · simp only [if_pos hprice]
        rfl
      simp only [if_neg hprice]
      refine Check.bind_congr ?_ fun wanted _ => ?_
      · exact Check.bind_congr rfl fun _ _ => Check.bind_congr (h.penalize hpenalty) fun _ _ => rfl
      by_cases hcovered : wanted ≤ v.depositOf borrower token
      · simp only [if_pos hcovered]
      simp only [if_neg hcovered]
      exact Check.bind_congr rfl fun value _ => cappedQuote_careful h hpenalty

/-! ### Calls of the vault -/

open Protocol

/-- Nobody may move the vault's tokens, so what is pulled comes from somebody else. -/
theorem pull_coincide (hp : Payable account p) :
    Coincide (c.pull funder user token amount) (plain.pull funder user token amount) p := by
  unfold Calculator.pull
  refine coincide_refuseIf fun hpositive => coincide_get (coincide_check rfl fun _ _ => ?_)
  refine coincide_bind (coincide_on (transferFrom_coincide h hp.bank)) fun _ q hq => ?_
  obtain ⟨bank, hmoved, rfl⟩ := on_eq_ok.mp hq
  have hgrown : p.bank.balance token p.vault.address ≤ bank.balance token p.vault.address := by
    have hne := hp.solvent.owner_ne hpositive hmoved
    rw [hp.solvent.address]
    exact ((Bank.transferFrom_spared hne).of_ok hmoved).balance token
  exact coincide_get (coincide_check (h.subtract hgrown) fun received _ => coincide_refl _)

theorem deposit_coincide (hp : Payable account p) :
    Coincide (c.deposit ctx token amount) (plain.deposit ctx token amount) p := by
  refine coincide_hold (coincide_get (coincide_check rfl fun _ _ => ?_))
  exact coincide_bind (pull_coincide h (hp.guarded ⟨true⟩)) fun _ _ _ => coincide_refl _

theorem depositFor_coincide (hp : Payable account p) :
    Coincide (c.depositFor ctx user token amount) (plain.depositFor ctx user token amount) p := by
  refine coincide_hold (coincide_get (coincide_check rfl fun _ _ => ?_))
  refine coincide_check rfl fun _ _ => coincide_check rfl fun _ _ => ?_
  exact coincide_bind (pull_coincide h (hp.guarded ⟨true⟩)) fun _ _ _ => coincide_refl _

/-- A debit is sent from the bank as it was found. -/
private theorem release_coincide {check : Action Protocol Unit} {now : Timestamp} {told : Event}
    (hcheck : ∀ p : Protocol, check.Leaves p fun q => q = p) (hbalanced : p.vault.Balanced)
    (hbank : p.bank.Sound) :
    Coincide (do
        let receipt ← onVault (c.debit user token amount)
        c.send receipt recipient amount check
        onVault (Vault.tell now told))
      (do
        let receipt ← onVault (plain.debit user token amount)
        plain.send receipt recipient amount check
        onVault (Vault.tell now told)) p := by
  refine coincide_bind (coincide_on (debit_coincide h hbalanced)) fun receipt q hq => ?_
  obtain ⟨w, -, rfl⟩ := on_eq_ok.mp hq
  refine coincide_bind (coincide_undoing ?_) fun _ _ _ => coincide_refl _
  refine coincide_bind (coincide_refl _) fun _ q hq => coincide_get ?_
  obtain rfl := (hcheck _).of_ok hq
  exact coincide_on (transfer_coincide h hbank)

theorem withdraw_coincide (hbalanced : p.vault.Balanced) (hbank : p.bank.Sound) :
    Coincide (c.withdraw ctx user token amount) (plain.withdraw ctx user token amount) p := by
  refine coincide_hold (coincide_get (coincide_refuseIf fun _ => coincide_refuseIf fun _ => ?_))
  exact release_coincide h (fun _ => leaves_pure rfl) (hbalanced.of_books ⟨rfl, rfl, rfl⟩) hbank

theorem seize_coincide (hbalanced : p.vault.Balanced) (hbank : p.bank.Sound) :
    Coincide (c.seize ctx user token amount liquidator)
      (plain.seize ctx user token amount liquidator) p := by
  refine coincide_hold (coincide_get (coincide_check rfl fun _ _ => ?_))
  refine coincide_check rfl fun _ _ => coincide_refuseIf fun _ => ?_
  exact release_coincide h (fun _ => leaves_pure rfl) (hbalanced.of_books ⟨rfl, rfl, rfl⟩) hbank

theorem withdrawFor_coincide {skipCheck : Bool} (hbalanced : p.vault.Balanced)
    (hbank : p.bank.Sound) :
    Coincide (c.withdrawFor ctx user token amount recipient skipCheck)
      (plain.withdrawFor ctx user token amount recipient skipCheck) p := by
  refine coincide_hold (coincide_get (coincide_check rfl fun _ _ => ?_))
  refine coincide_check rfl fun _ _ => coincide_refuseIf fun _ => coincide_check rfl fun _ _ => ?_
  refine coincide_refuseIf fun _ => ?_
  exact release_coincide h (fun q => margin_aside q rfl)
    (hbalanced.of_books ⟨rfl, rfl, rfl⟩) hbank

/-! ### Calls of the engine -/

/-- The repayment is pulled and burned before the seizure, and the bank stays sound. -/
theorem settle_coincide {quote : Quote} (hbalanced : p.vault.Balanced) (hbank : p.bank.Sound) :
    Coincide (c.settle ctx borrower token quote) (plain.settle ctx borrower token quote) p := by
  refine coincide_get (coincide_bind (coincide_on (transferFrom_coincide h hbank)) fun _ q hq => ?_)
  obtain ⟨pulled, hpull, rfl⟩ := on_eq_ok.mp hq
  have hpulled : pulled.Sound := (Bank.transferFrom_sound hbank).of_ok hpull
  refine coincide_bind (coincide_on (burn_coincide h hpulled)) fun _ q hq => ?_
  obtain ⟨burned, hburn, rfl⟩ := on_eq_ok.mp hq
  have hburned : burned.Sound := (Bank.burn_sound hpulled).of_ok hburn
  refine coincide_bind (seize_coincide h hbalanced hburned) fun _ _ _ => ?_
  exact coincide_on (reduce_coincide h)

theorem liquidate_coincide (hregistered : p.vault.Registered) (hbalanced : p.vault.Balanced)
    (hbank : p.bank.Sound) :
    Coincide (c.liquidate ctx borrower token offer) (plain.liquidate ctx borrower token offer)
      p := by
  refine coincide_hold (coincide_get (coincide_check rfl fun _ _ => ?_))
  refine coincide_check rfl fun _ _ => coincide_check rfl fun health _ => ?_
  refine coincide_refuseIf fun _ => ?_
  refine coincide_check rfl fun limit _ => coincide_check (quote_careful h hregistered) ?_
  refine fun quote _ => coincide_refuseIf fun _ => ?_
  refine coincide_bind (coincide_orRestore (settle_coincide h hbalanced hbank)) ?_
  exact fun _ _ _ => coincide_refl _

theorem forgive_coincide {recorded absorbed : Amount} (hbalanced : p.engine.badDebt.Balanced) :
    Coincide (c.forgive ctx borrower recorded absorbed)
      (plain.forgive ctx borrower recorded absorbed) p :=
  coincide_bind (coincide_discard (coincide_on (coincide_on (clear_coincide h hbalanced))))
    fun _ _ _ => coincide_refl _

theorem socialize_coincide (hbalanced : p.engine.badDebt.Balanced) :
    Coincide (c.socialize ctx borrower) (plain.socialize ctx borrower) p := by
  refine coincide_hold (coincide_get (coincide_check rfl fun _ _ => coincide_refuseIf fun _ => ?_))
  refine coincide_ite (fun _ => ?_) fun _ => forgive_coincide h hbalanced
  refine coincide_bind (coincide_on (coincide_orRestore (writeOff_coincide h))) fun _ q hq => ?_
  obtain ⟨l, -, rfl⟩ := on_eq_ok.mp hq
  exact forgive_coincide h hbalanced

/-! ### Every call -/

/-- **Between calls every call is computed safely.** -/
theorem perform_coincide {call : Call} (hp : Orderly account p) (hregistered : p.vault.Registered) :
    Coincide (c.perform ctx call) (plain.perform ctx call) p := by
  by_cases hcall : call.Administers
  · rw [perform_of_administers hcall, perform_of_administers hcall]
    exact coincide_refl _
  have hbalanced := hp.payable.balanced
  have hbank := hp.payable.bank
  have hreply {α : Type} {x y : Action Protocol α} {f : α → Reply} (hxy : Coincide x y p) :
      Coincide (x >>= fun a => pure (f a)) (y >>= fun a => pure (f a)) p :=
    coincide_bind hxy fun _ _ _ => coincide_refl _
  cases call with
  | deposit => exact hreply (deposit_coincide h hp.payable)
  | depositFor => exact hreply (depositFor_coincide h hp.payable)
  | withdraw => exact hreply (withdraw_coincide h hbalanced hbank)
  | seize => exact hreply (seize_coincide h hbalanced hbank)
  | withdrawFor => exact hreply (withdrawFor_coincide h hbalanced hbank)
  | liquidate => exact hreply (liquidate_coincide h hregistered hbalanced hbank)
  | socialize => exact hreply (socialize_coincide h hp.accounted.balanced)
  | _ => exact absurd trivial hcall

theorem submit_coincide {caller : Address} {call : Call} (hp : Orderly account p)
    (hregistered : p.vault.Registered) :
    Coincide (c.submit caller call) (plain.submit caller call) p :=
  coincide_orRestore (coincide_get (perform_coincide h hp hregistered))

end

/-! ### What the two calculators refuse with -/

/-- A checked difference that is negative, where it is checked by the plain calculator. -/
def Short (e : Error) : Prop := e.Ordinary ∨ ∃ operation, e = .underflow operation

/-- A number that nobody wants, where the watchful calculator was asked for it. -/
def Faulty (e : Error) : Prop := e.Ordinary ∨ ∃ detail, e = .internal detail

theorem plain_refusesBy_short : plain.RefusesBy Short where
  ordinary _ := .inl
  minus _ _ := Check.refusedBy_ok
  subtract _ _ := Check.refusedBy_ite (fun _ => Check.refusedBy_ok) fun _ =>
    Check.refusedBy_error (.inr ⟨_, rfl⟩)
  penalize _ := Check.refusedBy_ok

theorem watchful_refusesBy : watchful.RefusesBy Faulty where
  ordinary _ := .inl
  minus _ _ := Check.refusedBy_ite (fun _ => Check.refusedBy_ok) fun _ =>
    Check.refusedBy_error (.inr ⟨_, rfl⟩)
  subtract _ _ := Check.refusedBy_ite (fun _ => Check.refusedBy_ok) fun _ =>
    Check.refusedBy_error (.inr ⟨_, rfl⟩)
  penalize _ := Check.refusedBy_ite (fun _ => Check.refusedBy_ok) fun _ =>
    Check.refusedBy_error (.inr ⟨_, rfl⟩)

/-- What both refuse with is ordinary. -/
theorem ordinary_of_short_of_faulty {e : Error} (hshort : Short e) (hfaulty : Faulty e) :
    e.Ordinary := by
  rcases hshort with hordinary | ⟨operation, rfl⟩
  · exact hordinary
  rcases hfaulty with hordinary | ⟨detail, hdetail⟩
  · exact hordinary
  · cases hdetail

end Calculator

/-! ### After every run -/

namespace Protocol

open Calculator

variable {p : Protocol} {account : Address}

/-- Nothing that is computed in a state goes wrong, and no alarm is raised. -/
structure Computes (p : Protocol) : Prop where
  /-- Calls are the same with the watchful calculator. -/
  call : ∀ caller call, watchful.submit caller call p = submit caller call p
  /-- So are quotes. -/
  quote : ∀ borrower token offer,
    watchful.quote p.vault p.oracle p.bank borrower token offer = p.quote borrower token offer
  call_ordinary : ∀ caller call, (submit caller call).RefusedBy Error.Ordinary p
  quote_ordinary : ∀ borrower token offer,
    Check.RefusedBy Error.Ordinary (p.quote borrower token offer)
  health_ordinary : ∀ borrower, Check.RefusedBy Error.Ordinary (p.health borrower)
  liquidatable_ordinary : ∀ borrower, Check.RefusedBy Error.Ordinary (p.isLiquidatable borrower)
  repayable_ordinary : ∀ borrower, Check.RefusedBy Error.Ordinary (p.maxRepayable borrower)
  /-- The books are verified. -/
  verified : p.verify = .ok ()

/-- With the plain calculator a transaction is the transaction. -/
theorem plain_submit (caller : Address) (call : Call) :
    plain.submit caller call = submit caller call := by
  unfold Calculator.submit
  simp only [plain_perform]
  rfl

theorem Orderly.computes (h : Orderly account p) (hregistered : p.vault.Registered) :
    Computes p := by
  have hcall (caller : Address) (call : Call) :
      watchful.submit caller call p = submit caller call p := by
    rw [← plain_submit]
    exact submit_coincide watchful_careful h hregistered
  have hquote (borrower token : Address) (offer : Amount) :
      watchful.quote p.vault p.oracle p.bank borrower token offer = p.quote borrower token offer :=
    quote_careful watchful_careful hregistered
  refine ⟨hcall, hquote, fun caller call e q hrefused => ?_,
    fun borrower token offer e hrefused => ?_, fun _ => health_ordinary,
    fun _ => isLiquidatable_ordinary, fun _ => maxRepayable_ordinary, h.verify_ok⟩
  · refine ordinary_of_short_of_faulty ?_ ?_
    · rw [← plain_submit] at hrefused
      exact submit_refusedBy plain_refusesBy_short h.idle e q hrefused
    · rw [← hcall] at hrefused
      exact submit_refusedBy watchful_refusesBy h.idle e q hrefused
  · refine ordinary_of_short_of_faulty ?_ ?_
    · exact quote_refusedBy plain_refusesBy_short e hrefused
    · rw [← hquote] at hrefused
      exact quote_refusedBy watchful_refusesBy e hrefused

/-- **No number goes wrong and no alarm is raised.**  Without a check the calls subtract and add as
with the plain calculator.  After every run in which nobody acts for the vault's account they do the
same with a calculator that refuses each operation that would go wrong, whatever is called with
whatever arguments.  No call and no reading is refused with an alarm, and the books are verified. -/
theorem arithmetic_never_faults (h : Fresh p) (turns : List Turn)
    (hturns : ∀ turn ∈ turns, turn.Within (Happening.Spares p.vault.address)) :
    (plain.submit = submit ∧ plain.quote = Engine.quote) ∧ Computes (p.run turns) := by
  have horderly : Orderly p.vault.address (p.run turns) :=
    run_induction Orderly.after turns p hturns h.orderly
  have hreached : (p.run turns).Reached := h.reached.run turns
  have hsubmit : plain.submit = submit := funext fun caller => funext fun call =>
    plain_submit caller call
  exact ⟨⟨hsubmit, rfl⟩, horderly.computes hreached.vault.registered⟩

/-- A liquidation takes a whole deposit and leaves a shortfall on record. -/
def deficit : List Turn :=
  Sample.opening ++
    [.happening (.setDebt Sample.alice Sample.loan),
      .happening (.setReserves Sample.unit), .happening (.setSupplied .largest),
      .call Sample.liquidator (.liquidate Sample.alice Sample.wbtc .largest)]

/-- What is on record can be written off with the watchful calculator, and it is as without. -/
theorem arithmetic_never_faults_deficit :
    let q := Sample.start.run deficit
    Fresh Sample.start ∧
      (∀ turn ∈ deficit, turn.Within (Happening.Spares Sample.start.vault.address)) ∧
      0 < q.engine.badDebt.of Sample.alice ∧
      (watchful.submit Sample.admin (.socialize Sample.alice)).reply? q =
        some (.amount (q.engine.badDebt.of Sample.alice)) ∧
      Computes q := by
  intro q
  have hturns : ∀ turn ∈ deficit,
      turn.Within (Happening.Spares Sample.start.vault.address) := by
    decide
  exact ⟨Sample.fresh, hturns, by decide +kernel, by decide +kernel,
    (arithmetic_never_faults Sample.fresh deficit hturns).2⟩

end Protocol

end Custody
