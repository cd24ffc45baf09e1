/-
What an estimate foretells of a simulation.

Both commands build the same world, in which the liquidator has as many debt tokens as it
offers.  The simulation liquidates there, and a liquidation repays at most a limit.  The
estimate reads the limit too, but it quotes the offer as it is, so that an offer above the
limit is quoted more than will happen.  The quote for what will happen is the one for the limit.

To ask for it is to build another world, with another offer.  That world differs in the debt
tokens only.  Nothing that lists or deposits the collateral looks at debt tokens, so whatever is
read of the two worlds is the same.
-/
import Custody.Scenario
import Custody.Proofs.Agreement
import Custody.Proofs.Circulation
import Custody.Proofs.Estimate

namespace Custody

open Custody.Action

/-- If one of two actions that end alike answers, the other one gives the same answer. -/
theorem Action.Agree.exists_ok {σ α : Type} {R : σ → σ → Prop}
    {x y : Action σ α} {s s' t : σ}
    {a : α} (h : Agree R x s y t) (hx : x s = .ok a s') : ∃ t', y t = .ok a t' ∧ R s' t' := by
  cases h with
  | answered hs ht h =>
      rw [hx] at hs
      cases hs
      exact ⟨_, ht, h⟩
  | refused hs _ _ =>
      rw [hx] at hs
      cases hs

/-- Lists of steps end alike if each step does. -/
theorem Action.agree_forM {σ α : Type} {R : σ → σ → Prop} {f : α → Action σ PUnit} :
    ∀ {l : List α}, (∀ a ∈ l, ∀ s t, R s t → Agree R (f a) s (f a) t) →
      ∀ {s t : σ}, R s t → Agree R (l.forM f) s (l.forM f) t := by
  intro l
  induction l with
  | nil => exact fun _ _ _ h => agree_pure h
  | cons a rest ih =>
      intro hf s t h
      refine agree_bind (hf a (by simp) s t h) fun _ _ _ h => ?_
      exact ih (fun b hb => hf b (by simp [hb])) h

/-! ### Banks that differ in one token -/

namespace Bank

/-- The same bank, but for what is held and allowed of one token. -/
structure SameBut (token : Address) (b c : Bank) : Prop where
  decimals : c.decimals = b.decimals
  fees : c.fees = b.fees
  frozen : c.frozen = b.frozen
  balance : ∀ t a, t ≠ token → c.balance t a = b.balance t a
  supply : ∀ t, t ≠ token → c.totalSupply t = b.totalSupply t
  allowance : ∀ t o s, t ≠ token → c.allowance t o s = b.allowance t o s

variable {b c : Bank} {token t sender recipient owner spender : Address} {amount : Amount}

namespace SameBut

theorem rfl : SameBut token b b :=
  ⟨.refl _, .refl _, .refl _, fun _ _ _ => .refl _, fun _ _ => .refl _, fun _ _ _ _ => .refl _⟩

theorem ensureMovable (h : SameBut token b c) (t : Address) :
    c.ensureMovable t = b.ensureMovable t := by
  simp only [Bank.ensureMovable, ensureKnown, decimalsOf, h.decimals, h.frozen]

theorem fee (h : SameBut token b c) (t : Address) : c.fee t = b.fee t := by
  simp only [Bank.fee, h.fees]

/-! What is written of the token itself may differ. -/

theorem putBalance (h : SameBut token b c) (t account : Address) {v w : Amount}
    (hvalue : t ≠ token → w = v) :
    SameBut token { b with balances := Book.put b.balances t account v }
      { c with balances := Book.put c.balances t account w } where
  decimals := h.decimals
  fees := h.fees
  frozen := h.frozen
  balance := fun u a hu => by
    rw [balance_put, balance_put, h.balance u a hu]
    split
    next heq => rw [hvalue (heq.1 ▸ hu)]
    next => rfl
  supply := h.supply
  allowance := h.allowance

theorem putSupply (h : SameBut token b c) (t : Address) {v w : Amount}
    (hvalue : t ≠ token → w = v) :
    SameBut token { b with supply := b.supply.insert t v }
      { c with supply := c.supply.insert t w } where
  decimals := h.decimals
  fees := h.fees
  frozen := h.frozen
  balance := h.balance
  supply := fun u hu => by
    rw [totalSupply_insert, totalSupply_insert, h.supply u hu]
    split
    next heq => rw [hvalue (heq ▸ hu)]
    next => rfl
  allowance := h.allowance

theorem approve (h : SameBut token b c) (t owner spender : Address) {v w : Amount}
    (hvalue : t ≠ token → w = v) :
    SameBut token
      { b with allowances := b.allowances.insert t (Book.put (b.allowanceBook t) owner spender v) }
      { c with
        allowances := c.allowances.insert t (Book.put (c.allowanceBook t) owner spender w) } where
  decimals := h.decimals
  fees := h.fees
  frozen := h.frozen
  balance := h.balance
  supply := h.supply
  allowance := fun u o s hu => by
    rw [allowance_insert, allowance_insert, h.allowance u o s hu]
    split
    next heq => rw [hvalue (heq.1 ▸ hu)]
    next => rfl

end SameBut

/-- A movement of another token does not see the difference. -/
theorem move_sameBut (h : SameBut token b c) (ht : t ≠ token) :
    Agree (SameBut token) (move t sender recipient amount) b
      (move t sender recipient amount) c := by
  refine agree_get ?_
  simp only [h.balance t sender ht, h.fee t, h.supply t ht]
  refine agree_refuseIf h fun _ => agree_check rfl h fun fee _ => agree_check rfl h fun _ _ => ?_
  refine agree_bind (agree_modify (h.putBalance t sender fun _ => rfl)) fun _ b' c' h' => ?_
  refine agree_get ?_
  simp only [h'.balance t recipient ht]
  refine agree_check rfl h' fun balance _ => ?_
  refine agree_bind (agree_modify (h'.putBalance t recipient fun _ => rfl)) fun _ _ _ h' => ?_
  exact agree_ite (fun _ => agree_modify (h'.putSupply t fun _ => rfl)) fun _ => agree_pure h'

theorem transferFrom_sameBut (h : SameBut token b c) (ht : t ≠ token) :
    Agree (SameBut token) (transferFrom t spender owner recipient amount) b
      (transferFrom t spender owner recipient amount) c := by
  refine agree_get ?_
  simp only [h.ensureMovable t, h.allowance t owner spender ht]
  refine agree_check rfl h fun _ _ => agree_check rfl h fun _ _ => agree_refuseIf h fun _ => ?_
  refine agree_bind (move_sameBut h ht) fun _ _ _ h' => ?_
  exact agree_modify (h'.approve t owner spender fun _ => rfl)

/-- If there was room for an amount there is room for less. -/
theorem mint_less {less : Amount} {r : Unit} (hle : less ≤ amount)
    (h : mint token recipient amount b = .ok r c) :
    ∃ c', mint token recipient less b = .ok r c' ∧ SameBut token c c' := by
  simp only [mint, putBalance, putSupply, get_bind, modify_bind, bind_eq_ok, check_eq_ok,
    modify_eq_ok, Amount.add_eq_ok] at h ⊢
  obtain ⟨_, _, ⟨hknown, rfl⟩, supply, _, ⟨hsupply, rfl⟩, balance, _,
    ⟨hbalance, rfl⟩, rfl⟩ := h
  rw [Amount.le_def] at hle
  have hsum : ∀ a sum : Amount, sum.val = a.val + amount.val →
      ∃ sum' : Amount, sum'.val = a.val + less.val := by
    intro a sum hsum
    have := sum.isLt
    exact ⟨⟨a.val + less.val, by omega⟩, rfl⟩
  obtain ⟨supply', hsupply'⟩ := hsum _ supply hsupply
  obtain ⟨balance', hbalance'⟩ := hsum _ balance hbalance
  refine ⟨_, ⟨_, _, ⟨hknown, rfl⟩, supply', _, ⟨hsupply', rfl⟩, balance', _,
    ⟨hbalance', rfl⟩,
    rfl⟩, ?_⟩
  have hwritten : SameBut token { b with balances := Book.put b.balances token recipient balance }
      { b with balances := Book.put b.balances token recipient balance' } :=
    SameBut.rfl.putBalance token recipient fun hne => absurd rfl hne
  exact hwritten.putSupply token fun hne => absurd rfl hne

end Bank

/-! ### Calls in two such banks -/

namespace Protocol

/-- The same state, with two banks that differ in one token. -/
inductive Restocked (token : Address) : Protocol → Protocol → Prop
  | of (s : Protocol) {b c : Bank} :
      b.SameBut token c → Restocked token { s with bank := b } { s with bank := c }

variable {p q : Protocol} {α : Type} {token t funder user : Address} {amount : Amount}
  {ctx : Context}

theorem onVault_restocked (x : Action Vault α) (h : Restocked token p q) :
    Agree (Restocked token) (onVault x) p (onVault x) q := by
  obtain ⟨s, hbank⟩ := h
  exact agree_on_same rfl fun v => .of { s with vault := v } hbank

theorem vaultCall_restocked {x : Action Protocol α}
    (hx : ∀ p q, Restocked token p q → Agree (Restocked token) x p x q)
    (h : Restocked token p q) : Agree (Restocked token) (vaultCall x) p (vaultCall x) q := by
  refine agree_hold ?_ h ?_ hx
  · obtain ⟨s, -⟩ := h
    rfl
  · rintro g _ _ ⟨s, hbank⟩
    exact .of { s with vault := { s.vault with guard := g } } hbank

theorem administer_restocked (change : Action Vault Unit) (h : Restocked token p q) :
    Agree (Restocked token) (administer change) p (administer change) q := by
  refine agree_bind (vaultCall_restocked (fun _ _ h => onVault_restocked change h) h) ?_
  exact fun _ _ _ h => agree_pure h

theorem pull_restocked (ht : t ≠ token) (h : Restocked token p q) :
    Agree (Restocked token) (pull funder user t amount) p (pull funder user t amount) q := by
  unfold pull
  refine agree_refuseIf h fun _ => agree_get ?_
  obtain ⟨s, hbank⟩ := h
  refine agree_check rfl (.of s hbank) fun _ _ => ?_
  refine agree_bind (agree_on (Bank.transferFrom_sameBut hbank ht) fun _ _ h => .of s h) ?_
  rintro _ _ _ ⟨u, hafter⟩
  refine agree_get ?_
  simp only [hafter.balance t _ ht, hbank.balance t _ ht]
  refine agree_check rfl (.of u hafter) fun received _ => agree_refuseIf (.of u hafter) fun _ => ?_
  refine agree_bind (onVault_restocked _ (.of u hafter)) fun _ _ _ h => ?_
  exact agree_pure h

/-- **A deposit does not look at other tokens.** -/
theorem deposit_restocked (ht : t ≠ token) (h : Restocked token p q) :
    Agree (Restocked token) (deposit ctx t amount) p (deposit ctx t amount) q := by
  refine vaultCall_restocked ?_ h
  rintro _ _ ⟨s, hbank⟩
  refine agree_get (agree_check rfl (.of s hbank) fun _ _ => ?_)
  refine agree_bind (pull_restocked ht (.of s hbank)) fun _ _ _ h => ?_
  exact agree_bind (onVault_restocked _ h) fun _ _ _ h => agree_pure h

theorem submit_restocked {caller : Address} {call : Call}
    (hcall : ∀ ctx p q, Restocked token p q →
      Agree (Restocked token) (perform ctx call) p (perform ctx call) q)
    (h : Restocked token p q) :
    Agree (Restocked token) (submit caller call) p (submit caller call) q := by
  obtain ⟨s, hbank⟩ := h
  refine agree_orRestore (agree_get (hcall _ _ _ (.of s hbank))) ?_
  rintro _ _ ⟨u, -⟩
  exact .of { u with vault := s.vault.copy, engine := s.engine.copy, ledger := s.ledger } hbank

/-! ### What happens around the calls -/

/-- An account may get less of the token, -/
theorem mint_restocked {recipient : Address} {less : Amount} {r : Unit} (hle : less ≤ amount)
    (h : happen (.mint token recipient amount) p = .ok r q) :
    ∃ q', happen (.mint token recipient less) p = .ok r q' ∧ Restocked token q q' := by
  simp only [happen, onBank, on_eq_ok] at h ⊢
  obtain ⟨c, hmint, rfl⟩ := h
  obtain ⟨c', hless, hbank⟩ := Bank.mint_less hle hmint
  exact ⟨_, ⟨c', hless, rfl⟩, .of p hbank⟩

/-- or allow another amount of it. -/
theorem approve_restocked (owner spender : Address) (v w : Amount) (h : Restocked token p q) :
    Agree (Restocked token) (happen (.approve token owner spender v)) p
      (happen (.approve token owner spender w)) q := by
  obtain ⟨s, hbank⟩ := h
  show Agree _ (onBank (Bank.approve token owner spender v)) _
    (onBank (Bank.approve token owner spender w)) _
  refine agree_on (agree_modify ?_) fun _ _ h => .of s h
  exact hbank.approve token owner spender fun hne => absurd rfl hne

theorem setPrice_restocked (price : Amount) (decimals : UInt8) (h : Restocked token p q) :
    Agree (Restocked token) (happen (.setPrice t price decimals)) p
      (happen (.setPrice t price decimals)) q := by
  obtain ⟨s, hbank⟩ := h
  exact agree_modify (.of { s with oracle := s.oracle.setPrice t price decimals } hbank)

theorem setDebt_restocked (h : Restocked token p q) :
    Agree (Restocked token) (happen (.setDebt user amount)) p
      (happen (.setDebt user amount)) q := by
  obtain ⟨s, hbank⟩ := h
  show Agree _ (onLedger (Ledger.setDebt user amount)) _ (onLedger (Ledger.setDebt user amount)) _
  exact agree_on_same rfl fun l => .of { s with ledger := l } hbank

/-! ### What is read of them -/

/-- Readings look at no more of the bank than the decimals of tokens. -/
theorem quote_restocked (h : Restocked token p q) (borrower t : Address) (offer : Amount) :
    q.quote borrower t offer = p.quote borrower t offer := by
  obtain ⟨s, hbank⟩ := h
  simp only [quote, Engine.quote, Bank.decimalsOf, hbank.decimals]

theorem Foreseen.restocked {borrower : Address} {offer limit : Amount} {quote : Quote} {o : Outcome}
    (h : Foreseen borrower t offer limit quote o p) (hrestocked : Restocked token p q) :
    Foreseen borrower t offer limit quote o q := by
  have hquote := quote_restocked hrestocked borrower t (min offer limit)
  obtain ⟨s, -⟩ := hrestocked
  exact ⟨h.liquidatable, h.read, h.limited, hquote.trans h.quoted, h.repaid,
    h.seized, h.recorded⟩

end Protocol

namespace Scenario

open Protocol

variable {s : Scenario} {sizing : LiquidationParams} {p q : Protocol} {α : Type}

/-! ### Accounts -/

/-- The labels give different addresses, and none of them is nobody's. -/
theorem accounts_nodup : [.zero, vaultAccount, liquidator, borrower, engineAccount, admin,
    governance, borrowModule, collateral, debtToken].Nodup := by decide +kernel

theorem zero_not_mem : Address.zero ∉ [vaultAccount, liquidator, borrower, engineAccount, admin,
    governance, borrowModule, collateral, debtToken] :=
  (List.nodup_cons.mp accounts_nodup).1

theorem vaultAccount_not_mem : vaultAccount ∉ [liquidator, borrower, engineAccount, admin,
    governance, borrowModule, collateral, debtToken] :=
  (List.nodup_cons.mp (List.nodup_cons.mp accounts_nodup).2).1

theorem liquidator_ne_borrower : liquidator ≠ borrower := by
  have hrest := accounts_nodup.sublist (List.drop_sublist 2 _)
  exact List.rel_of_pairwise_cons hrest List.mem_cons_self

theorem collateral_ne_debtToken : collateral ≠ debtToken := by
  have hrest := accounts_nodup.sublist (List.drop_sublist 8 _)
  exact List.rel_of_pairwise_cons hrest List.mem_cons_self

/-! ### Worlds -/

/-- The world of a scenario. -/
def World (s : Scenario) (sizing : LiquidationParams) (p : Protocol) : Prop :=
  ∃ origin, start sizing = .ok origin ∧ s.prepare origin = .ok () p

theorem inWorld_eq_ok {x : Action Protocol α} {a : α} :
    s.inWorld sizing x = .ok a ↔ ∃ p q, World s sizing p ∧ x p = .ok a q := by
  simp only [inWorld, World, Check.bind_eq_ok]
  constructor
  · rintro ⟨origin, hstart, h⟩
    cases hrun : (do s.prepare; x : Action Protocol α) origin with
    | error e q => simp [hrun] at h
    | ok b q =>
        obtain ⟨_, p, hprepare, hx⟩ := bind_eq_ok.mp hrun
        rw [hrun, Except.ok.injEq] at h
        exact ⟨p, q, ⟨origin, hstart, hprepare⟩, h ▸ hx⟩
  · rintro ⟨p, q, ⟨origin, hstart, hprepare⟩, hx⟩
    refine ⟨origin, hstart, ?_⟩
    have hrun : (do s.prepare; x : Action Protocol α) origin = .ok a q :=
      bind_eq_ok.mpr ⟨_, p, hprepare, hx⟩
    rw [hrun]

/-- What is refused in the world, or on the way to it, is refused with the same error. -/
theorem inWorld_of_error {origin : Protocol} {x : Action Protocol α} {e : Error}
    (hstart : start sizing = .ok origin)
    (hrun : (do s.prepare; x : Action Protocol α) origin = .error e q) :
    s.inWorld sizing x = .error e := by
  rw [inWorld, hstart]
  refine (pure_bind origin _).trans ?_
  rw [hrun]

theorem World.unique (h : World s sizing p) (h' : World s sizing q) : q = p := by
  obtain ⟨origin, hstart, hprepare⟩ := h
  obtain ⟨origin', hstart', hprepare'⟩ := h'
  rw [hstart, Except.ok.injEq] at hstart'
  subst hstart'
  rw [hprepare] at hprepare'
  cases hprepare'
  rfl

theorem forM_happenings (s : Scenario) : s.happenings.forM happen = (do
    happen (.registerToken collateral s.decimals)
    happen (.registerToken debtToken debtDecimals)
    happen (.mint collateral borrower s.deposit)
    happen (.approve collateral borrower vaultAccount s.deposit)
    happen (.mint debtToken liquidator s.repay)
    happen (.approve debtToken liquidator engineAccount s.repay)
    happen (.setPrice collateral s.price s.decimals)
    happen (.setDebt borrower s.debt)
    return ⟨⟩) := rfl

/-- From where the liquidator gets its debt tokens the worlds of two offers differ. -/
theorem happenings_restocked {repay : Amount} (hle : repay ≤ s.repay) {r : PUnit}
    (h : s.happenings.forM happen p = .ok r q) :
    ∃ q', { s with repay := repay }.happenings.forM happen p = .ok r q' ∧
      Restocked debtToken q q' := by
  simp only [forM_happenings, bind_eq_ok, pure_eq_ok] at h ⊢
  obtain ⟨_, p₁, h₁, _, p₂, h₂, _, p₃, h₃, _, p₄, h₄, _, p₅, hmint, _, p₆,
    happrove, _, p₇, hprice,
    _, p₈, hdebt, hend, rfl⟩ := h
  obtain ⟨q₅, hmint', h₅⟩ := mint_restocked hle hmint
  obtain ⟨q₆, happrove', h₆⟩ := (approve_restocked _ _ _ repay h₅).exists_ok happrove
  obtain ⟨q₇, hprice', h₇⟩ := (setPrice_restocked _ _ h₆).exists_ok hprice
  obtain ⟨q₈, hdebt', h₈⟩ := (setDebt_restocked h₇).exists_ok hdebt
  exact ⟨q₈, ⟨_, p₁, h₁, _, p₂, h₂, _, p₃, h₃, _, p₄, h₄, _, q₅, hmint', _,
    q₆, happrove', _, q₇,
    hprice', _, q₈, hdebt', hend, rfl⟩, h₈⟩

/-- The calls are the same in both worlds, and none of them is about the debt token. -/
theorem calls_restocked (h : Restocked debtToken p q) :
    Agree (Restocked debtToken) (s.calls.forM fun c => discard (submit c.1 c.2)) p
      (s.calls.forM fun c => discard (submit c.1 c.2)) q := by
  refine Action.agree_forM (fun c hc p q h => agree_discard (submit_restocked ?_ h)) h
  intro ctx p q h
  simp only [calls, List.cons_append, List.nil_append, List.mem_cons] at hc
  rcases hc with rfl | rfl | rfl | hdeposit
  · exact administer_restocked _ h
  · exact administer_restocked _ h
  · exact administer_restocked _ h
  · split at hdeposit
    · obtain rfl := List.mem_singleton.mp hdeposit
      refine agree_bind (deposit_restocked collateral_ne_debtToken h) ?_
      exact fun _ _ _ h => agree_pure h
    · cases hdeposit

/-- **The world of a smaller offer differs in the debt tokens only.** -/
theorem World.restocked {repay : Amount} (h : World s sizing p) (hle : repay ≤ s.repay) :
    ∃ q, World { s with repay := repay } sizing q ∧ Restocked debtToken p q := by
  obtain ⟨origin, hstart, hprepare⟩ := h
  obtain ⟨_, mid, hhappened, hcalled⟩ := bind_eq_ok.mp hprepare
  obtain ⟨mid', hhappened', hmid⟩ := happenings_restocked hle hhappened
  obtain ⟨q, hcalled', hq⟩ := (calls_restocked hmid).exists_ok hcalled
  exact ⟨q, ⟨origin, hstart, bind_eq_ok.mpr ⟨_, mid', hhappened', hcalled'⟩⟩, hq⟩

/-! ### The two commands -/

theorem estimate_eq_ok {e : Estimate} : s.estimate sizing = .ok e ↔
    ∃ p, World s sizing p ∧ p.quote borrower collateral s.repay = .ok e.quote ∧
      p.health borrower = .ok e.health ∧ p.isLiquidatable borrower = .ok e.liquidatable ∧
      p.maxRepayable borrower = .ok e.maxRepayable ∧ p.clock = e.timestamp := by
  simp only [estimate, inWorld_eq_ok, get_bind, bind_eq_ok, check_eq_ok, pure_eq_ok]
  constructor
  · rintro ⟨p, _, hworld, quote, _, ⟨hquote, rfl⟩, health, _, ⟨hhealth, rfl⟩,
      liquidatable, _,
      ⟨hliquidatable, rfl⟩, limit, _, ⟨hlimit, rfl⟩, rfl, -⟩
    exact ⟨p, hworld, hquote, hhealth, hliquidatable, hlimit, rfl⟩
  · rintro ⟨p, hworld, hquote, hhealth, hliquidatable, hlimit, hclock⟩
    refine ⟨p, p, hworld, _, p, ⟨hquote, rfl⟩, _, p, ⟨hhealth, rfl⟩, _, p,
      ⟨hliquidatable, rfl⟩, _, p,
      ⟨hlimit, rfl⟩, ?_, rfl⟩
    rw [hclock]

theorem simulate_ok {report : Simulation} (h : s.simulate sizing = .ok report) :
    ∃ p q, World s sizing p ∧
      liquidate ⟨liquidator, startTime⟩ borrower collateral s.repay p =
        .ok report.outcome q := by
  simp only [simulate, inWorld_eq_ok, atomic, get_bind, bind_eq_ok, check_eq_ok, pure_eq_ok,
    orRestore_eq_ok] at h
  obtain ⟨p, _, hworld, outcome, q, hliquidate, _, _, ⟨-, rfl⟩, _, _,
    ⟨-, rfl⟩, rfl, -⟩ := h
  exact ⟨p, q, hworld, hliquidate⟩

/-! ### Foretelling -/

/-- The estimate of a liquidation that was then simulated. -/
structure Foretells (e : Estimate) (report : Simulation) : Prop where
  liquidatable : e.liquidatable = true
  health : e.health = report.outcome.healthBefore
  repay : e.quote.repay = report.outcome.debtRepaid
  seize : e.quote.seize = report.outcome.collateralSeized
  shortfall : e.quote.shortfall = report.outcome.badDebtRecorded

variable {offer limit : Amount} {quote : Quote} {o : Outcome} {report : Simulation} {e : Estimate}

/-- A quote splits the whole offer into what is repaid and a shortfall. -/
theorem estimate_split (h : s.estimate sizing = .ok e) :
    e.quote.repay.val + e.quote.shortfall.val = s.repay.val := by
  obtain ⟨p, -, hquote, -⟩ := estimate_eq_ok.mp h
  exact Engine.quote_ok hquote

/-- In a world where the outcome is foreseen for what is offered, the estimate foretells it. -/
theorem World.foretells (h : World s sizing p)
    (hforeseen : Foreseen borrower collateral offer limit quote report.outcome p)
    (hoffer : s.repay = min offer limit) :
    ∃ e, s.estimate sizing = .ok e ∧ Foretells e report ∧ e.maxRepayable = limit := by
  have hquote := hforeseen.quoted
  rw [← hoffer] at hquote
  refine ⟨⟨p.clock, report.outcome.healthBefore, true, limit, quote⟩, ?_, ?_, rfl⟩
  · exact estimate_eq_ok.mpr ⟨p, h, hquote, hforeseen.read, hforeseen.liquidatable,
      hforeseen.limited, rfl⟩
  · exact ⟨rfl, rfl, hforeseen.repaid.symm, hforeseen.seized.symm, hforeseen.recorded.symm⟩

/-- **An estimate foretells the simulation if the offer is within the limit**, and only then.  An
offer above the limit ends like one of the limit, and the estimate of that foretells how.  Of
any offer the estimate tells the health factor and the limit, and that the position can be
liquidated. -/
theorem estimate_foretells (h : s.simulate sizing = .ok report) :
    ∃ limit,
      (∃ e, { s with repay := min s.repay limit }.estimate sizing = .ok e ∧
        Foretells e report ∧ e.maxRepayable = limit) ∧
      ((∃ e, s.estimate sizing = .ok e ∧ Foretells e report) ↔ s.repay ≤ limit) ∧
      ∀ e, s.estimate sizing = .ok e →
        e.liquidatable = true ∧ e.health = report.outcome.healthBefore ∧
          e.maxRepayable = limit := by
  obtain ⟨p, fin, hworld, hliquidate⟩ := simulate_ok h
  obtain ⟨limit, quote, hforeseen⟩ := liquidate_foreseen hliquidate
  refine ⟨limit, ?_, ⟨?_, ?_⟩, ?_⟩
  · -- The world of the smaller offer reads the same.
    have hle : min s.repay limit ≤ s.repay := by
      rw [Amount.le_def, Amount.val_min]
      exact Nat.min_le_left _ _
    obtain ⟨q, hworld', hrestocked⟩ := hworld.restocked hle
    exact hworld'.foretells (hforeseen.restocked hrestocked) rfl
  · rintro ⟨e, hestimate, hforetells⟩
    have htotal := estimate_split hestimate
    have hsplit := hforeseen.split
    rw [hforetells.repay, hforetells.shortfall] at htotal
    rw [Amount.val_min] at hsplit
    rw [Amount.le_def]
    omega
  · intro hle
    have hoffer : s.repay = min s.repay limit := by
      rw [Amount.le_def] at hle
      refine Amount.ext ?_
      rw [Amount.val_min]
      omega
    obtain ⟨e, hestimate, hforetells, -⟩ := hworld.foretells hforeseen hoffer
    exact ⟨e, hestimate, hforetells⟩
  · intro e hestimate
    obtain ⟨q, hworld', -, hhealth, hliquidatable, hlimit, -⟩ := estimate_eq_ok.mp hestimate
    obtain rfl := hworld.unique hworld'
    rw [hforeseen.read, Except.ok.injEq] at hhealth
    rw [hforeseen.liquidatable, Except.ok.injEq] at hliquidatable
    rw [hforeseen.limited, Except.ok.injEq] at hlimit
    exact ⟨hliquidatable.symm, hhealth.symm, hlimit.symm⟩

/-! ### An offer above the limit -/

/-- One token worth two thousand dollars, and a debt of 1800 that is offered as a whole. -/
def oversized : Scenario where
  deposit := debtUnit
  decimals := 18
  price := Sample.price
  threshold := 8000
  penalty := 500
  debt := ⟨1800 * debtUnit.val, by decide⟩
  repay := ⟨1800 * debtUnit.val, by decide⟩

/-- Half of the debt is repaid. -/
def oversizedReport : Simulation where
  timestamp := 1700000000
  outcome := {
    borrower := borrower
    liquidator := liquidator
    token := collateral
    healthBefore := 8888
    debtRepaid := ⟨900 * debtUnit.val, by decide⟩
    collateralSeized := ⟨472500000000000000, by decide⟩
    badDebtRecorded := 0 }
  healthAfter := 9377
  remainingDebt := ⟨900 * debtUnit.val, by decide⟩
  remainingCollateral := ⟨527500000000000000, by decide⟩
  totalBadDebt := 0

theorem simulate_oversized : oversized.simulate .standard = .ok oversizedReport := by
  refine Check.eq_ok_of_toOption ?_
  decide +kernel

/-- No estimate of the offer says so: what is estimated is the whole offer. -/
theorem oversized_not_foretold : oversized.simulate .standard = .ok oversizedReport ∧
    ¬ ∃ e, oversized.estimate .standard = .ok e ∧ Foretells e oversizedReport := by
  refine ⟨simulate_oversized, ?_⟩
  rintro ⟨e, hestimate, hforetells⟩
  have htotal := estimate_split hestimate
  rw [hforetells.repay, hforetells.shortfall] at htotal
  exact absurd htotal (by decide)

/-- The estimate of the limit says so. -/
theorem estimate_foretells_oversized :
    oversized.simulate .standard = .ok oversizedReport ∧
    ∃ limit,
      (∃ e, { oversized with repay := min oversized.repay limit }.estimate .standard = .ok e ∧
        Foretells e oversizedReport ∧ e.maxRepayable = limit) ∧
      ((∃ e, oversized.estimate .standard = .ok e ∧ Foretells e oversizedReport) ↔
        oversized.repay ≤ limit) ∧
      ∀ e, oversized.estimate .standard = .ok e →
        e.liquidatable = true ∧ e.health = oversizedReport.outcome.healthBefore ∧
          e.maxRepayable = limit :=
  ⟨simulate_oversized, estimate_foretells simulate_oversized⟩

end Scenario

end Custody
