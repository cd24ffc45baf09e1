/-
Circuit breakers change no outcome.

A breaker stops checked reads of a price and no others.  Liquidations bypass it from the
start.  A checked withdrawal asks the checked prices first and falls back to the bypassing
ones, and the factor it ends with is the bypassing one whichever read gave it.  So whether a
breaker is open can be told from the way a factor was read, and from nothing that a call
answers with or leaves behind.

The statement is about two runs, one in which breakers are switched and one in which they are
left as they are.
-/
import Custody.Proofs.Agreement

namespace Custody

/-- The oracle with these breakers open and no others. -/
def Oracle.withBreakers (o : Oracle) (breakers : KeySet Address) : Oracle :=
  { o with breakers := breakers }

/-- A read that bypasses breakers does not look at them. -/
theorem Oracle.entry_withBreakers {o : Oracle} {breakers : KeySet Address} {token : Address} :
    (o.withBreakers breakers).entry .bypassing token = o.entry .bypassing token := by
  simp only [entry, reduceCtorEq, false_and, if_false]
  rfl

/-- Whether a turn opens or closes a breaker. -/
def Turn.switches : Turn → Bool
  | .happening (.setBreaker ..) => true
  | _ => false

namespace Protocol

open Custody.Action

variable {p q : Protocol} {breakers : KeySet Address} {ctx : Context} {caller : Address}
  {call : Call} {turn : Turn} {α : Type}

/-- The protocol with these breakers open and no others. -/
def withBreakers (p : Protocol) (breakers : KeySet Address) : Protocol :=
  { p with oracle := p.oracle.withBreakers breakers }

/-- The second state is the first one with these breakers. -/
def Switched (breakers : KeySet Address) (p q : Protocol) : Prop := q = p.withBreakers breakers

/-- Breakers are no part of what calls read of the terms. -/
theorem equivalent_withBreakers (configs : Table Address CollateralConfig) (o : Oracle) :
    Terms.Equivalent ⟨configs, o⟩ ⟨configs, o.withBreakers breakers⟩ :=
  ⟨fun _ => rfl, fun _ => Oracle.entry_withBreakers⟩

/-! ### One call -/

private theorem vaultCall_switched (x : Action Vault α) (h : Switched breakers p q) :
    Agree (Switched breakers) (vaultCall (onVault x)) p (vaultCall (onVault x)) q := by
  obtain rfl := h
  refine agree_hold rfl rfl ?_ ?_
  · rintro g u _ rfl
    rfl
  · rintro u _ rfl
    exact agree_on_same rfl fun _ => rfl

/-- Breakers are no part of the engine, the ledger and the bank. -/
theorem switched_beside : Beside (Switched breakers) where
  engine := by
    rintro p _ rfl
    rfl
  ledger := by
    rintro p _ rfl
    rfl
  bank := by
    rintro p _ rfl
    rfl
  withEngine := by
    rintro p _ e rfl
    rfl
  withLedger := by
    rintro p _ l rfl
    rfl
  withBank := by
    rintro p _ b rfl
    rfl

/-- **A call ends alike whichever breakers are open.** -/
theorem perform_switched (h : Switched breakers p q) :
    Agree (Switched breakers) (perform ctx call) p (perform ctx call) q := by
  cases call with
  | deposit | depositFor | withdraw | seize | withdrawFor | liquidate | socialize =>
      obtain rfl := h
      let a : Terms := ⟨p.vault.configs, p.oracle⟩
      let b : Terms := ⟨p.vault.configs, p.oracle.withBreakers breakers⟩
      have hrecast : Recast a b p (p.withBreakers breakers) := .of p
      refine Agree.imp (perform_recast id (equivalent_withBreakers _ _) ?_ hrecast) ?_
      · rintro token - _ _ ⟨v⟩
        rfl
      · rintro _ _ ⟨s⟩
        rfl
  | pause | unpause =>
      refine agree_bind (vaultCall_switched _ h) fun _ _ _ h => ?_
      exact agree_bind (agree_engineChange switched_beside _ h) fun _ _ _ h => agree_pure h
  | setCloseFactor | setFullThreshold | grantEngineRole | revokeEngineRole =>
      exact agree_bind (agree_engineChange switched_beside _ h) fun _ _ _ h => agree_pure h
  | _ => exact agree_bind (vaultCall_switched _ h) fun _ _ _ h => agree_pure h

theorem submit_switched (h : Switched breakers p q) :
    Agree (Switched breakers) (submit caller call) p (submit caller call) q := by
  obtain rfl := h
  refine agree_orRestore (agree_get (perform_switched rfl)) ?_
  rintro u _ rfl
  rfl

/-! ### Runs -/

/-- Whatever else happens does so whichever breakers are open. -/
theorem happen_switched {happening : Happening}
    (hkind : (Turn.happening happening).switches = false) (h : Switched breakers p q) :
    Agree (Switched breakers) (happen happening) p (happen happening) q := by
  cases happening with
  | registerToken | setFee | setFrozen | mint | approve | transfer | transferFrom | burn =>
      exact agree_onBank switched_beside _ h
  | setDebt | setReserves | setSupplied | setRejecting | reduceDebt | absorbLoss =>
      exact agree_onLedger switched_beside _ h
  | setPrice | setDown | setTime | advance =>
      obtain rfl := h
      exact agree_modify rfl
  | setBreaker => simp [Turn.switches] at hkind

/-- A turn has the same answer and the same outcome whichever breakers are open. -/
theorem turn_switched (hkind : turn.switches = false) (p : Protocol) (breakers : KeySet Address) :
    (p.withBreakers breakers).answer turn = p.answer turn ∧
      (p.withBreakers breakers).after turn = (p.after turn).withBreakers breakers := by
  have hagree : Switched breakers p (p.withBreakers breakers) := rfl
  cases turn with
  | call caller call => exact turn_of_submit (submit_switched hagree)
  | happening happening => exact turn_of_happen (happen_switched hkind hagree)

/-- Switching a breaker is all that such a turn does. -/
theorem after_of_switches (hkind : turn.switches = true) :
    (p.after turn).withBreakers breakers = p.withBreakers breakers := by
  cases turn with
  | call => simp [Turn.switches] at hkind
  | happening happening =>
      cases happening with
      | setBreaker => rfl
      | _ => simp [Turn.switches] at hkind

/-- **A run in which breakers are switched and the same run without the switching** have the same
answers to all other turns, and end in states that differ in breakers only. -/
theorem run_switched (p : Protocol) (breakers : KeySet Address) (turns : List Turn) :
    (p.withBreakers breakers).trace (turns.filter (!·.switches)) =
        (p.trace turns).filter (!·.1.switches) ∧
      (p.withBreakers breakers).run (turns.filter (!·.switches)) =
        (p.run turns).withBreakers breakers := by
  induction turns generalizing p with
  | nil => exact ⟨rfl, rfl⟩
  | cons turn rest ih =>
      obtain ⟨htrace, hrun⟩ := ih (p.after turn)
      cases hkind : turn.switches with
      | true =>
          rw [after_of_switches hkind] at htrace hrun
          simp only [trace, List.filter_cons, hkind, Bool.not_true, Bool.false_eq_true, if_false]
          exact ⟨htrace, hrun⟩
      | false =>
          obtain ⟨hanswer, hafter⟩ := turn_switched hkind p breakers
          rw [← hafter] at htrace hrun
          simp only [trace, List.filter_cons, hkind, Bool.not_false, if_true, hanswer]
          exact ⟨congrArg _ htrace, hrun⟩

/-- **Breakers change no outcome.**  Whichever breakers are open, a call has the same answer or the
same reason to be refused, submitted or made of the components, and it leaves the same state.  What
is read before a liquidation is the same, and a run may switch breakers wherever it likes. -/
theorem breakers_change_no_outcome (p : Protocol) (breakers : KeySet Address) :
    let q := p.withBreakers breakers
    (∀ caller call, q.answer (.call caller call) = p.answer (.call caller call) ∧
      q.after (.call caller call) = (p.after (.call caller call)).withBreakers breakers) ∧
    (∀ ctx call, Agree (Switched breakers) (perform ctx call) p (perform ctx call) q) ∧
    (∀ borrower, q.isLiquidatable borrower = p.isLiquidatable borrower ∧
      q.maxRepayable borrower = p.maxRepayable borrower ∧
      q.health borrower = p.health borrower ∧
      ∀ token offer, q.quote borrower token offer = p.quote borrower token offer) ∧
    ∀ turns, q.trace (turns.filter (!·.switches)) = (p.trace turns).filter (!·.1.switches) ∧
      q.run (turns.filter (!·.switches)) = (p.run turns).withBreakers breakers := by
  intro q
  have hterms : Terms.Equivalent ⟨p.vault.configs, p.oracle⟩
      ⟨p.vault.configs, p.oracle.withBreakers breakers⟩ := equivalent_withBreakers _ _
  refine ⟨?_, ?_, ?_, ?_⟩
  · intro caller call
    exact turn_switched rfl p breakers
  · intro ctx call
    exact perform_switched rfl
  · intro borrower
    exact ⟨hterms.isLiquidatable p borrower, hterms.maxRepayable p borrower,
      hterms.health p borrower, hterms.quote p borrower⟩
  · intro turns
    exact run_switched p breakers turns

end Protocol

end Custody
