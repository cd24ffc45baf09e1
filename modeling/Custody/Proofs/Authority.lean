/-
What accounts without authority can do.

An account that holds no role and is not the borrow module has two calls that may be
answered: it deposits for itself, and it liquidates.  Neither changes the rules, so it
stays without authority however often it calls.

Nor do these calls endanger anybody who is healthy.  A deposit only adds, and a
liquidation needs a health factor below parity.  Prices do not move between calls, debts
are not raised, and nobody loses collateral who is not liquidated; so the factor of a
healthy user cannot fall below parity on the way.  It may cease to exist, when a deposit
makes a value too large, and then a liquidation is refused for want of a factor.
-/
import Custody.Proofs.Isolation

namespace Custody

open Custody.Action

/-- A turn in which an account of a kind makes a call. -/
def Turn.By (kind : Address → Prop) : Turn → Prop
  | .call caller _ => kind caller
  | .happening _ => False

namespace Protocol

variable {ctx : Context} {call : Call} {reply : Reply} {p q s : Protocol}
  {account user : Address}

/-! ### Without authority -/

/-- An account without a role in either component, which is not the borrow module. -/
structure Outsider (p : Protocol) (account : Address) : Prop where
  vault : ∀ role, p.vault.access.holds role account = false
  engine : ∀ role, p.engine.access.holds role account = false
  borrowModule : account ≠ p.vault.borrowModule

/-- What an answered call of an outsider did. -/
inductive Outside (ctx : Context) (p q : Protocol) : Prop where
  | deposited {token : Address} {amount received : Amount} :
      Deposited ctx ctx.caller token amount received (.deposited ctx.caller token received) p q →
        Outside ctx p q
  | liquidated {borrower token : Address} {offer : Amount} {health : UInt64} {quote : Quote} :
      Liquidated ctx borrower token offer health quote p q → Outside ctx p q

private theorem Outsider.refused {role : Role} (h : Outsider p account) :
    p.vault.access.ensure role account ≠ .ok () := by
  intro hrole
  rw [Access.ensure_eq_ok, h.vault] at hrole
  cases hrole

/-- Whoever holds no role can only deposit and liquidate. -/
theorem Outsider.perform_ok (h : Outsider p ctx.caller)
    (hcall : perform ctx call p = .ok reply q) : ¬ call.Administers ∧ Outside ctx p q := by
  cases Protocol.perform_ok hcall with
  | deposited hdeposited => exact ⟨id, .deposited hdeposited⟩
  | depositedFor hrole _ => exact absurd hrole h.refused
  | withdrawn hmodule _ => exact absurd hmodule h.borrowModule
  | seized hrole _ => exact absurd hrole h.refused
  | withdrawnFor hrole _ => exact absurd hrole h.refused
  | liquidated hliquidated => exact ⟨id, .liquidated hliquidated⟩
  | socialized hsocialized =>
      have hrole := hsocialized.role
      rw [Access.ensure_eq_ok, h.engine] at hrole
      cases hrole
  | administered hadministers _ =>
      obtain ⟨role, hrole⟩ := (perform_managed hadministers hcall).held
      rw [h.vault, h.engine] at hrole
      simp at hrole

/-! ### What stays -/

/-- An outsider remains one under the same rules. -/
theorem Outsider.of_rules (h : Outsider p account) (hrules : SameRules p q) :
    Outsider q account where
  vault := fun role => by rw [hrules.vault.access, h.vault]
  engine := fun role => by rw [hrules.access, h.engine]
  borrowModule := by rw [hrules.vault.borrowModule]; exact h.borrowModule

/-- A user who has lost nothing. -/
structure Unharmed (user : Address) (p q : Protocol) : Prop where
  deposits : ∀ token, p.vault.depositOf user token ≤ q.vault.depositOf user token
  debt : q.ledger.debt user = p.ledger.debt user
  badDebt : q.engine.badDebt.of user = p.engine.badDebt.of user

theorem SameBooking.unharmed (h : SameBooking user p q) : Unharmed user p q where
  deposits := fun token => Nat.le_of_eq (congrArg Amount.val (h.deposit token).symm)
  debt := h.debt
  badDebt := h.badDebt

theorem Unharmed.trans (h : Unharmed user p q) (h' : Unharmed user q s) :
    Unharmed user p s where
  deposits := fun token => Nat.le_trans (h.deposits token) (h'.deposits token)
  debt := h'.debt.trans h.debt
  badDebt := h'.badDebt.trans h.badDebt

/-- A user who cannot be liquidated: without debt, or with a health factor from parity on. -/
def Healthy (user : Address) (p : Protocol) : Prop :=
  p.ledger.debt user = 0 ∨ ∃ factor, p.health user = .ok factor ∧ parityBps ≤ factor

theorem Healthy.factor (h : Healthy user p) :
    ∃ factor, p.health user = .ok factor ∧ parityBps ≤ factor := by
  rcases h with hnone | hfactor
  · exact ⟨Health.top, Health.factor_of_debtless hnone, Health.le_top _⟩
  · exact hfactor

/-- The factor of a healthy user who has lost nothing is not below parity, if there is one. -/
theorem Healthy.parity_le {factor : UInt64} (h : Healthy user p) (hrules : SameRules p q)
    (horacle : q.oracle = p.oracle) (hunharmed : Unharmed user p q)
    (hread : q.health user = .ok factor) : parityBps ≤ factor := by
  obtain ⟨before, hbefore, hparity⟩ := h.factor
  have hgrown : Health.Grown user p.vault.view q.vault.view := by
    refine ⟨hrules.vault.listed, ?_, hunharmed.deposits⟩
    show q.vault.configs.get? = p.vault.configs.get?
    rw [hrules.vault.configs]
  have hdebt : q.ledger.debt user ≤ p.ledger.debt user := by
    rw [hunharmed.debt]
    exact Nat.le_refl _
  unfold health Engine.health at hbefore hread
  rw [horacle] at hread
  exact UInt64.le_trans hparity (Health.factor_mono hgrown hdebt hbefore hread)

/-! ### One call -/

/-- What a call of an outsider leaves alone. -/
structure Harmless (p q : Protocol) : Prop where
  rules : SameRules p q
  oracle : q.oracle = p.oracle
  /-- Whoever has no health factor below parity loses nothing. -/
  unharmed : ∀ user, (∀ factor, p.health user = .ok factor → parityBps ≤ factor) →
    Unharmed user p q

private theorem Outside.unharmed (h : Outside ctx p q)
    (hparity : ∀ factor, p.health user = .ok factor → parityBps ≤ factor) :
    Unharmed user p q := by
  cases h with
  | deposited hdeposited =>
      refine ⟨hdeposited.le_deposit user, ?_, ?_⟩
      · rw [hdeposited.ledger]
      · rw [hdeposited.engine]
  | liquidated hliquidated =>
      have hprepared := prepare_ok hliquidated.prepared
      -- The borrower has a factor below parity and so is somebody else.
      refine (hliquidated.sameBooking ?_).unharmed
      rintro rfl
      have hle := hparity _ hprepared.read
      exact absurd hprepared.unhealthy (UInt64.not_lt.mpr hle)

/-- A call of an outsider is harmless, answered or refused. -/
theorem Outsider.harmless (h : Outsider p account) (call : Call) :
    Harmless p (p.after (.call account call)) := by
  have houtside : SameOutside p (p.after (.call account call)) := submit_outside
  rcases after_call p account call with ⟨reply, hsubmit, -⟩ | ⟨e, -, hrestored⟩
  · generalize p.after (.call account call) = q at hsubmit houtside
    have hperform := submit_eq_ok.mp hsubmit
    have hcaller : Outsider p (Context.mk account p.clock).caller := h
    obtain ⟨hcall, hdid⟩ := hcaller.perform_ok hperform
    exact ⟨sameRules_of_perform hcall hperform, houtside.oracle, fun _ hparity =>
      hdid.unharmed hparity⟩
  · exact ⟨hrestored.sameRules, houtside.oracle, fun _ _ => hrestored.sameBooking.unharmed⟩

/-! ### Every run -/

/-- What outsiders leave alone in the course of a run: healthy users lose nothing in it. -/
structure Peaceful (p q : Protocol) : Prop where
  rules : SameRules p q
  oracle : q.oracle = p.oracle
  unharmed : ∀ user, Healthy user p → Unharmed user p q

private theorem Peaceful.after (h : Peaceful p q) (turn : Turn) (hturn : turn.By p.Outsider) :
    Peaceful p (q.after turn) := by
  cases turn with
  | happening => exact hturn.elim
  | call caller call =>
      have houtsider : Outsider q caller := Outsider.of_rules hturn h.rules
      have hstep := houtsider.harmless call
      refine ⟨h.rules.trans hstep.rules, hstep.oracle.trans h.oracle, fun user hhealthy => ?_⟩
      have hbefore := h.unharmed user hhealthy
      -- If there is still a factor, it has not fallen below parity.
      have hparity : ∀ factor, q.health user = .ok factor → parityBps ≤ factor :=
        fun _ hread => hhealthy.parity_le h.rules h.oracle hbefore hread
      exact hbefore.trans (hstep.unharmed user hparity)

/-- **Accounts without authority change no rule and harm nobody who is healthy.**  However
many of them call and whatever they call, the rules are as before, and every user who was
without debt or not below parity has at least the same deposits, the same debt and the same
record of bad debt. -/
theorem outsiders_harmless (p : Protocol) (turns : List Turn)
    (hturns : ∀ turn ∈ turns, turn.By p.Outsider) :
    SameRules p (p.run turns) ∧ ∀ user, Healthy user p → Unharmed user p (p.run turns) := by
  have hstart : Peaceful p p := by
    refine ⟨⟨.rfl, rfl, rfl, rfl⟩, rfl, fun _ _ => ⟨fun _ => Nat.le_refl _, rfl, rfl⟩⟩
  have hstep : ∀ q turn, turn.By p.Outsider → Peaceful p q → Peaceful p (q.after turn) :=
    fun q turn hturn h => h.after turn hturn
  have hend := run_induction hstep turns p hturns hstart
  exact ⟨hend.rules, hend.unharmed⟩

/-- A debt that alice's two deposits cover and bob's one does not: what one unit costs. -/
def Sample.mortgage : Amount := Sample.price

/-- Somebody without a role tries to liquidate both. -/
def assault : List Turn :=
  [.call Sample.liquidator (.liquidate Sample.alice Sample.weth .largest),
    .call Sample.liquidator (.liquidate Sample.bob Sample.weth .largest)]

/-- Bob loses collateral and alice does not. -/
theorem outsiders_harmless_assault :
    let p := Sample.indebted Sample.mortgage
    let q := p.run assault
    (∀ turn ∈ assault, turn.By p.Outsider) ∧ Healthy Sample.alice p ∧
      SameRules p q ∧ Unharmed Sample.alice p q ∧
      q.vault.depositOf Sample.bob Sample.weth < p.vault.depositOf Sample.bob Sample.weth := by
  have houtsider : Outsider (Sample.indebted Sample.mortgage) Sample.liquidator := by
    refine ⟨?_, ?_, by decide +kernel⟩
    · intro role
      cases role <;> decide +kernel
    · intro role
      cases role <;> decide +kernel
  have hturns : ∀ turn ∈ assault, turn.By (Sample.indebted Sample.mortgage).Outsider := by
    simp [assault, Turn.By, houtsider]
  have hhealthy : Healthy Sample.alice (Sample.indebted Sample.mortgage) :=
    .inr ⟨15920, Check.eq_ok_of_toOption (by decide +kernel), by decide⟩
  obtain ⟨hrules, hunharmed⟩ := outsiders_harmless _ assault hturns
  exact ⟨hturns, hhealthy, hrules, hunharmed _ hhealthy, by decide +kernel⟩

end Protocol

end Custody
