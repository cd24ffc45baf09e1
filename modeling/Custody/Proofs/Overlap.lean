/-
When a record of bad debt is larger than the debt.

A liquidation that falls short records the shortfall and leaves the debt behind it in
the ledger.  So the record is a part of the debt.  A later liquidation of the same
borrower is sized by the whole debt, the recorded part included.  If it repays or
records anything of that part, the part counts twice, and the record is larger than
what is still owed.  Writing off bad debt takes no more than is owed for that reason.

Nothing else that happens to the protocol can do this.  A run keeps the record of a
borrower within the debt exactly as long as no liquidation overlaps with the record.
-/
import Custody.Proofs.Run

namespace Custody

/-! ### What must not happen -/

/-- Debts are left to the engine. -/
def Happening.KeepsDebts : Happening → Prop
  | .setDebt .. | .reduceDebt .. => False
  | _ => True

instance : DecidablePred Happening.KeepsDebts := fun change =>
  match change with
  | .setDebt .. | .reduceDebt .. => .isFalse id
  | .registerToken .. | .setFee .. | .setFrozen .. | .mint .. | .approve .. | .transfer ..
  | .transferFrom .. | .burn .. | .setReserves _ | .setSupplied _ | .setRejecting _
  | .absorbLoss _ | .setPrice .. | .setBreaker .. | .setDown .. | .setTime _ | .advance _ =>
    .isTrue trivial

namespace Protocol

open Custody.Action

variable {p q : Protocol} {borrower : Address}

/-- What is recorded against a borrower is still owed. -/
def Backed (borrower : Address) (p : Protocol) : Prop :=
  p.engine.badDebt.of borrower ≤ p.ledger.debt borrower

/-- A turn that liquidates a borrower and repays and records more than the part of the debt
that is not on record. -/
def Overlaps (borrower : Address) (p : Protocol) : Turn → Prop
  | .call caller (.liquidate b token offer) =>
    b = borrower ∧ ∃ (o : Outcome) (q : Protocol),
      submit caller (.liquidate b token offer) p = .ok (.outcome o) q ∧
      (p.ledger.debt b).val <
        (p.engine.badDebt.of b).val + o.debtRepaid.val + o.badDebtRecorded.val
  | _ => False

/-! ### One turn -/

private theorem Backed.congr (h : Backed borrower p) (hdebts : q.ledger.debts = p.ledger.debts)
    (hrecords : q.engine.badDebt = p.engine.badDebt) : Backed borrower q := by
  unfold Backed Ledger.debt at h ⊢
  rw [hdebts, hrecords]
  exact h

/-- A liquidation leaves the record within the debt exactly when it did not overlap. -/
private theorem backed_of_liquidated {ctx : Context} {b token : Address} {offer : Amount}
    {health : UInt64} {quote : Quote} (h : Backed borrower p)
    (hliquidated : Liquidated ctx b token offer health quote p q) :
    Backed borrower q ↔ ¬ (b = borrower ∧ (p.ledger.debt b).val <
      (p.engine.badDebt.of b).val + quote.repay.val + quote.shortfall.val) := by
  have hdebt := (Ledger.reduce_ok hliquidated.settled.reduced).debt borrower
  have hrecorded := hliquidated.committed.badDebt.record borrower
  unfold Backed at h ⊢
  rw [Amount.le_def] at h ⊢
  by_cases hb : b = borrower
  · subst hb
    rw [if_pos rfl] at hdebt hrecorded
    simp only [true_and]
    omega
  · rw [if_neg fun heq => hb heq.symm] at hdebt hrecorded
    simp only [hb, false_and, not_false_iff, iff_true]
    omega

/-- A write-off takes the whole record and no more of the debt than is on record. -/
private theorem backed_of_socialized {ctx : Context} {b : Address} {absorbed : Amount}
    (h : Backed borrower p) (hsocialized : Socialized ctx b absorbed p q) :
    Backed borrower q := by
  have hdebt := hsocialized.ledger.debt borrower
  have hrecorded := hsocialized.cleared.record borrower
  unfold Backed at h ⊢
  rw [Amount.le_def] at h ⊢
  by_cases hb : borrower = b
  · rw [if_pos hb] at hrecorded
    omega
  · rw [if_neg hb] at hdebt hrecorded
    omega

private theorem Overlaps.answered {caller : Address} {call : Call}
    (h : Overlaps borrower p (.call caller call)) :
    ∃ reply q, submit caller call p = .ok reply q := by
  cases call with
  | liquidate =>
      obtain ⟨-, o, q, hsubmit, -⟩ := h
      exact ⟨_, q, hsubmit⟩
  | _ => exact h.elim

private theorem not_overlaps {caller : Address} {call : Call}
    (h : ∀ b token offer, call ≠ .liquidate b token offer) :
    ¬ Overlaps borrower p (.call caller call) := by
  intro hoverlaps
  cases call with
  | liquidate b token offer => exact h b token offer rfl
  | _ => exact hoverlaps.elim

private theorem backed_after_call (h : Backed borrower p) (caller : Address) (call : Call) :
    Backed borrower (p.after (.call caller call)) ↔
      ¬ Overlaps borrower p (.call caller call) := by
  rcases after_call p caller call with ⟨reply, hsubmit, heffect⟩ | ⟨e, hsubmit, hrestored⟩
  · generalize p.after (.call caller call) = q at hsubmit heffect
    cases heffect.debt with
    | liquidated hliquidated =>
        rw [backed_of_liquidated h hliquidated]
        simp only [Overlaps, hsubmit, EStateM.Result.ok.injEq, Reply.outcome.injEq]
        refine not_congr (and_congr_right fun _ => ⟨fun hlt => ?_, ?_⟩)
        · exact ⟨_, q, ⟨rfl, rfl⟩, hlt⟩
        · rintro ⟨_, _, ⟨rfl, rfl⟩, hlt⟩
          exact hlt
    | socialized hsocialized => exact iff_of_true (backed_of_socialized h hsocialized) id
    | kept hcall hledger hrecords =>
        have hdebts : q.ledger.debts = p.ledger.debts := by rw [hledger]
        exact iff_of_true (h.congr hdebts hrecords.badDebt) (not_overlaps hcall)
  · have hdebts := congrArg Ledger.debts hrestored.ledger
    have hrecords := congrArg Engine.badDebt hrestored.engine
    refine iff_of_true (h.congr hdebts hrecords) fun hoverlaps => ?_
    obtain ⟨reply, q, hanswered⟩ := hoverlaps.answered
    rw [hsubmit] at hanswered
    cases hanswered

private theorem backed_after_happening (h : Backed borrower p) {happening : Happening}
    (hkeeps : happening.KeepsDebts) : Backed borrower (p.after (.happening happening)) := by
  obtain ⟨-, hengine⟩ := after_happening p happening
  have hdebts : (happen happening).Leaves p fun q => q.ledger.debts = p.ledger.debts := by
    cases happening with
    | registerToken | setFee | setFrozen | mint | approve | transfer | transferFrom | burn =>
        exact onBank_only.imp fun _ h => by rw [h.ledger]
    | setDebt | reduceDebt => exact hkeeps.elim
    | setReserves | setSupplied | setRejecting => exact rfl
    | absorbLoss => exact leaves_onLedger Ledger.absorb_debts
    | setPrice | setBreaker | setDown | setTime | advance => exact rfl
  exact h.congr hdebts (congrArg Engine.badDebt hengine)

/-- **One turn keeps the record within the debt exactly when it does not overlap.** -/
theorem backed_after_iff (h : Backed borrower p) {turn : Turn}
    (hkeeps : turn.Within Happening.KeepsDebts) :
    Backed borrower (p.after turn) ↔ ¬ Overlaps borrower p turn := by
  cases turn with
  | call caller call => exact backed_after_call h caller call
  | happening happening => exact iff_of_true (backed_after_happening h hkeeps) id

/-! ### What always holds

A liquidation is sized by the debt, so by itself it repays and records no more than that.
Only together with an earlier record can it go beyond.
-/

/-- The sizing is in its bounds, and the total of bad debt is the sum of the records. -/
structure Accounted (e : Engine) : Prop where
  sized : e.Sized
  balanced : e.badDebt.Balanced

theorem accounted_after (p : Protocol) (turn : Turn) (h : Accounted p.engine) :
    Accounted (p.after turn).engine := by
  cases turn with
  | happening happening =>
      rw [(after_happening p happening).engine]
      exact h
  | call caller call =>
      rcases after_call p caller call with ⟨reply, -, heffect⟩ | ⟨e, -, hrestored⟩
      · generalize p.after (.call caller call) = q at heffect
        cases heffect.debt with
        | liquidated hliquidated =>
            refine ⟨?_, hliquidated.committed.badDebt.balanced h.balanced⟩
            rw [hliquidated.committed.rest]
            exact h.sized
        | socialized hsocialized =>
            refine ⟨?_, hsocialized.cleared.balanced h.balanced⟩
            rw [hsocialized.engine]
            exact h.sized
        | kept _ _ hrecords =>
            refine ⟨hrecords.sized h.sized, ?_⟩
            rw [hrecords.badDebt]
            exact h.balanced
      · rw [hrestored.engine]
        exact ⟨h.sized, h.balanced⟩

theorem accounted_run (h : Accounted p.engine) (turns : List Turn) :
    Accounted (p.run turns).engine :=
  run_induction (fun p turn _ => accounted_after p turn) turns p (fun _ _ => trivial) h

/-- Only a borrower with a record can be liquidated beyond the debt. -/
theorem recorded_of_overlaps (hsized : p.engine.Sized) {turn : Turn}
    (h : Overlaps borrower p turn) : 0 < p.engine.badDebt.of borrower := by
  cases turn with
  | happening => exact h.elim
  | call caller call =>
      cases call with
      | liquidate b token offer =>
          obtain ⟨rfl, o, q, hsubmit, hlt⟩ := h
          cases submit_ok hsubmit with
          | liquidated hliquidated =>
              obtain ⟨limit, hlimit, hquote⟩ := (prepare_ok hliquidated.prepared).quoted
              have hle := Engine.repayLimit_le hsized hlimit
              have hoffer := Engine.quote_ok hquote
              simp only [Amount.val_min] at hlt hoffer
              rw [Amount.pos_iff]
              omega
      | _ => exact h.elim

/-- Bad debt that is owed by every borrower is covered by the debts in total. -/
theorem total_le_outstanding (h : Accounted p.engine) (hbacked : ∀ b, Backed b p) :
    p.engine.badDebt.total.val ≤ p.ledger.outstanding := by
  rw [h.balanced]
  exact Tally.sum_le_sum hbacked

/-! ### Every run -/

/-- The record of a borrower is within the debt in every state of a run exactly when no
turn of the run overlaps. -/
theorem backed_iff_no_overlap : ∀ (turns : List Turn) (p : Protocol), Backed borrower p →
    (∀ turn ∈ turns, turn.Within Happening.KeepsDebts) →
    ((∀ pre, pre <+: turns → Backed borrower (p.run pre)) ↔
      ∀ pre turn, pre ++ [turn] <+: turns → ¬ Overlaps borrower (p.run pre) turn) := by
  intro turns
  induction turns with
  | nil =>
      intro p h _
      refine iff_of_true (fun pre hpre => ?_) fun pre turn hpre => ?_
      · rw [List.prefix_nil.mp hpre]
        exact h
      · exact absurd (List.prefix_nil.mp hpre) (by simp)
  | cons first rest ih =>
      intro p h hall
      have hstep := backed_after_iff h (hall first (by simp))
      have hrest : ∀ turn ∈ rest, turn.Within Happening.KeepsDebts :=
        fun t ht => hall t (by simp [ht])
      constructor
      · intro hbacked
        have hfirst : Backed borrower (p.after first) := hbacked [first] (by simp)
        have hlater := (ih (p.after first) hfirst hrest).mp fun pre hpre =>
          hbacked (first :: pre) (by simpa using hpre)
        rintro (_ | ⟨t, pre⟩) turn hpre
        · obtain ⟨rfl, -⟩ := List.cons_prefix_cons.mp hpre
          exact hstep.mp hfirst
        · obtain ⟨rfl, htail⟩ := List.cons_prefix_cons.mp hpre
          exact hlater pre turn htail
      · intro hnone
        have hfirst : Backed borrower (p.after first) := hstep.mpr (hnone [] first (by simp))
        have hlater := (ih (p.after first) hfirst hrest).mpr fun pre turn hpre =>
          hnone (first :: pre) turn (by simpa using hpre)
        rintro (_ | ⟨t, pre⟩) hpre
        · exact h
        · obtain ⟨rfl, htail⟩ := List.cons_prefix_cons.mp hpre
          exact hlater pre htail

/-- **Bad debt is counted twice by overlapping liquidations and by nothing else.**  From an
empty record on, a borrower's bad debt is within the borrower's debt in every state of a run
exactly when no liquidation of the run overlaps with the record; only a borrower with a
record can be liquidated so; and bad debt that is within the debt of every borrower is within
the debts in total. -/
theorem bad_debt_within_debt (hempty : p.engine.badDebt = .empty) (hsized : p.engine.Sized)
    (turns : List Turn) (hturns : ∀ turn ∈ turns, turn.Within Happening.KeepsDebts) :
    (∀ borrower, (∀ pre, pre <+: turns → Backed borrower (p.run pre)) ↔
      ∀ pre turn, pre ++ [turn] <+: turns → ¬ Overlaps borrower (p.run pre) turn) ∧
    (∀ borrower pre turn, Overlaps borrower (p.run pre) turn →
      0 < (p.run pre).engine.badDebt.of borrower) ∧
    (∀ pre, (∀ borrower, Backed borrower (p.run pre)) →
      (p.run pre).engine.badDebt.total.val ≤ (p.run pre).ledger.outstanding) := by
  have hstart : Accounted p.engine := ⟨hsized, by rw [hempty]; exact BadDebt.balanced_empty⟩
  have haccounted := accounted_run hstart
  refine ⟨fun borrower => ?_, fun borrower pre turn => ?_, fun pre => ?_⟩
  · have hbacked : Backed borrower p := by
      unfold Backed
      rw [hempty]
      exact Nat.zero_le _
    exact backed_iff_no_overlap turns p hbacked hturns
  · exact recorded_of_overlaps (haccounted pre).sized
  · exact total_le_outstanding (haccounted pre)

/-- Two liquidations of one borrower, each larger than the collateral in its token. -/
def liquidatedTwice : List Turn :=
  [.call Sample.liquidator (.liquidate Sample.alice Sample.weth .largest),
    .call Sample.liquidator (.liquidate Sample.alice Sample.wbtc .largest)]

/-- The second of them overlaps with the record of the first. -/
theorem overlap_of_liquidatedTwice :
    let p := Sample.indebted Sample.loan
    p.engine.badDebt = .empty ∧ p.engine.Sized ∧
    (∀ turn ∈ liquidatedTwice, turn.Within Happening.KeepsDebts) ∧
    ∃ pre turn, pre ++ [turn] <+: liquidatedTwice ∧ Overlaps Sample.alice (p.run pre) turn := by
  have hempty : (Sample.indebted Sample.loan).engine.badDebt = .empty := by decide +kernel
  have hsized : (Sample.indebted Sample.loan).engine.Sized :=
    (accounted_run (p := Sample.start) ⟨rfl, rfl⟩ _).sized
  have hkeeps : ∀ turn ∈ liquidatedTwice, turn.Within Happening.KeepsDebts := by decide
  refine ⟨hempty, hsized, hkeeps, Classical.byContradiction fun hnone => ?_⟩
  have hiff := (bad_debt_within_debt hempty hsized liquidatedTwice hkeeps).1 Sample.alice
  have hbacked := hiff.mpr fun pre turn hpre hoverlaps => hnone ⟨pre, turn, hpre, hoverlaps⟩
  have hlast := hbacked liquidatedTwice (List.prefix_refl _)
  exact absurd hlast (by unfold Backed; decide +kernel)

/-- After the first liquidation the whole debt is on record.  The second one repays a part
of it and records the rest again, so that more is on record than is owed. -/
theorem recorded_twice :
    let p := Sample.indebted Sample.loan
    let q := p.run liquidatedTwice
    p.engine.badDebt = .empty ∧
    (∀ turn ∈ liquidatedTwice, turn.Within Happening.KeepsDebts) ∧
    q.ledger.debt Sample.alice < q.engine.badDebt.of Sample.alice := by
  decide +kernel

end Protocol

end Custody
