/-
Refused calls might as well not have been made.

A refused transaction puts back copies of the vault and the engine, and the ledger and the bank
as they were.  A copy has a guard of its own that nobody has entered, so it is the same
component only if no call holds the component.  Between calls none does: a call that holds a
guard leaves it, whichever way the call ends.

That one refused call leaves no trace is a statement about one call.  The one about runs
compares two of them, one with all refused calls and one without: the other turns have the
same results in both, and both end in the same state, the logs and their numbering included.
-/
import Custody.Proofs.Rules
import Custody.Proofs.Run

namespace Custody

open Custody.Action

/-! ### No call under way -/

namespace Vault

/-- Administration leaves the guard, as any call does. -/
theorem Amended.idle {ctx : Context} {v w : Vault} {call : Call} (h : Amended ctx v w call) :
    w.guard = .free := by
  cases h with
  | requested _ _ _ hw | cancelled _ _ _ hw | executed _ _ _ _ _ hw | added _ _ hw
  | switched _ _ _ hw | granted _ hw | revoked _ hw | paused _ hw | unpaused _ hw =>
      rw [hw]
      rfl

theorem idle_of_start {address admin borrowModule : Address} {v : Vault}
    (h : start address admin borrowModule = .ok v) : v.guard = .free := by
  obtain ⟨access, -, rfl⟩ := start_ok h
  rfl

end Vault

namespace Engine

theorem idle_of_start {address debtToken admin : Address} {params : LiquidationParams} {e : Engine}
    (h : start address debtToken admin params = .ok e) : e.guard = .free := by
  obtain ⟨-, -, access, -, rfl⟩ := start_ok h
  rfl

theorem Governed.idle {ctx : Context} {e f : Engine} {call : Call} (h : Governed ctx e f call) :
    f.guard = .free := by
  cases h with
  | resized _ _ hf | granted _ hf | revoked _ hf | paused _ hf | unpaused _ hf =>
      rw [hf]
      rfl

end Engine

namespace Protocol

variable {p q : Protocol} {ctx : Context} {caller : Address} {call : Call} {reply : Reply}
  {e : Error} {turn : Turn}

/-- No call holds a component.  Only a call can enter a guard, so every state is like this unless a
call is under way in it. -/
structure Idle (p : Protocol) : Prop where
  vault : p.vault.guard = .free
  engine : p.engine.guard = .free

theorem Deposited.idle {user token : Address} {amount received : Amount} {told : Event}
    (h : Deposited ctx user token amount received told p q) (hp : Idle p) : Idle q := by
  obtain ⟨deposit, total, -, -, hvault⟩ := h.vault
  refine ⟨?_, ?_⟩
  · rw [hvault]
  · rw [h.engine]
    exact hp.engine

theorem Released.idle {user token recipient : Address} {amount : Amount} {now : Timestamp}
    {told : Event} (h : Released user token amount recipient now told p q) (hp : Idle p) :
    Idle q := by
  obtain ⟨total, -, hvault⟩ := h.vault
  refine ⟨?_, ?_⟩
  · rw [hvault]
  · rw [h.engine]
    exact hp.engine

/-- **An answered call has left every guard.** -/
theorem perform_idle (h : perform ctx call p = .ok reply q) (hp : Idle p) : Idle q := by
  cases perform_ok h with
  | deposited hdeposited | depositedFor _ hdeposited => exact hdeposited.idle hp
  | withdrawn _ hreleased | seized _ hreleased | withdrawnFor _ hreleased =>
      exact hreleased.idle hp
  | liquidated hliquidated =>
      obtain ⟨pulled, burned, -, -, hreleased⟩ := hliquidated.settled.moved
      obtain ⟨total, -, hvault⟩ := hreleased.vault
      refine ⟨?_, hliquidated.left⟩
      rw [hvault]
  | socialized hsocialized =>
      refine ⟨?_, ?_⟩
      · rw [hsocialized.rest]
        exact hp.vault
      · rw [hsocialized.engine]
  | administered hcall _ =>
      cases perform_managed hcall h with
      | vault hamended hq =>
          refine ⟨hamended.idle, ?_⟩
          rw [hq]
          exact hp.engine
      | engine hgoverned hq =>
          refine ⟨?_, hgoverned.idle⟩
          rw [hq]
          exact hp.vault
      | both hamended hgoverned => exact ⟨hamended.idle, hgoverned.idle⟩

/-! ### One refused call -/

/-- **A refused call leaves exactly the state that it found.** -/
theorem refused_unchanged (hp : Idle p) (h : submit caller call p = .error e q) : q = p := by
  obtain ⟨hvault, hengine, hledger, hbank⟩ := submit_refused h
  obtain ⟨horacle, hclock⟩ := submit_outside.of_error h
  have hvaultCopy : p.vault.copy = p.vault := by
    rw [Vault.copy, ← hp.vault]
  have hengineCopy : p.engine.copy = p.engine := by
    rw [Engine.copy, ← hp.engine]
  rw [hvaultCopy] at hvault
  rw [hengineCopy] at hengine
  obtain ⟨v, f, l, o, b, t⟩ := q
  obtain rfl := hvault
  obtain rfl := hengine
  obtain rfl := hledger
  obtain rfl := hbank
  obtain rfl := horacle
  obtain rfl := hclock
  rfl

/-- Nobody holds a component after a turn. -/
theorem Idle.after (hp : Idle p) (turn : Turn) : Idle (p.after turn) := by
  cases turn with
  | call caller call =>
      rcases after_call p caller call with ⟨reply, hanswered, -⟩ | ⟨e, hrefused, -⟩
      · exact perform_idle (submit_eq_ok.mp hanswered) hp
      · rw [refused_unchanged hp hrefused]
        exact hp
  | happening happening =>
      obtain ⟨hvault, hengine⟩ := after_happening p happening
      refine ⟨?_, ?_⟩
      · rw [hvault]
        exact hp.vault
      · rw [hengine]
        exact hp.engine

theorem Idle.run (hp : Idle p) (turns : List Turn) : Idle (p.run turns) := by
  have hstep : ∀ (p : Protocol) (turn : Turn), True → Idle p → Idle (p.after turn) := by
    intro p turn _ hp
    exact hp.after turn
  exact run_induction hstep turns p (fun _ _ => trivial) hp

/-! ### Runs without the refused calls -/

/-- What a turn answers with, or why it is refused.  What happens around the components answers
with nothing but that it was done. -/
def answer (p : Protocol) : Turn → Except Error Reply
  | .call caller call =>
    match submit caller call p with
    | .ok reply _ => .ok reply
    | .error e _ => .error e
  | .happening happening =>
    match happen happening p with
    | .ok _ _ => .ok .done
    | .error e _ => .error e

/-- The turns of a run, each with its answer. -/
def trace (p : Protocol) : List Turn → List (Turn × Except Error Reply)
  | [] => []
  | turn :: rest => (turn, p.answer turn) :: (p.after turn).trace rest

/-- Whether a call was refused.  What happens around the components can be refused as well, and
is no call. -/
def isRefusedCall : Turn × Except Error Reply → Bool
  | (.call .., .error _) => true
  | (.call .., .ok _) | (.happening _, _) => false

/-- The turns of a run without the calls that are refused in it. -/
def withoutRefused (p : Protocol) (turns : List Turn) : List Turn :=
  ((p.trace turns).filter fun step => !isRefusedCall step).map Prod.fst

theorem after_of_refused (hp : Idle p) (h : isRefusedCall (turn, p.answer turn) = true) :
    p.after turn = p := by
  cases turn with
  | call caller call =>
      cases hcall : submit caller call p with
      | ok reply q => simp [answer, hcall, isRefusedCall] at h
      | error e q =>
          have hafter : p.after (.call caller call) = q := left_of_error hcall
          rw [hafter]
          exact refused_unchanged hp hcall
  | happening happening => simp [isRefusedCall] at h

/-- A refused call is left out, and the rest of the run starts where it would have started. -/
theorem withoutRefused_of_refused (hp : Idle p) (rest : List Turn)
    (h : isRefusedCall (turn, p.answer turn) = true) :
    p.withoutRefused (turn :: rest) = p.withoutRefused rest := by
  simp [withoutRefused, trace, h, after_of_refused hp h]

theorem withoutRefused_of_kept (rest : List Turn)
    (h : isRefusedCall (turn, p.answer turn) = false) :
    p.withoutRefused (turn :: rest) = turn :: (p.after turn).withoutRefused rest := by
  simp [withoutRefused, trace, h]

/-- **Refused calls are invisible.**  Without the calls that are refused in it, a run takes the
same turns with the same answers and ends in the same state. -/
theorem refused_calls_invisible (hidle : Idle p) (turns : List Turn) :
    p.trace (p.withoutRefused turns) = (p.trace turns).filter (fun step => !isRefusedCall step) ∧
      p.run (p.withoutRefused turns) = p.run turns := by
  induction turns generalizing p with
  | nil => exact ⟨rfl, rfl⟩
  | cons turn rest ih =>
      by_cases hrefused : isRefusedCall (turn, p.answer turn) = true
      · -- The run goes on from the state before the call.
        obtain ⟨htrace, hrun⟩ := ih hidle
        have hafter := after_of_refused hidle hrefused
        rw [withoutRefused_of_refused hidle rest hrefused]
        refine ⟨?_, ?_⟩
        · rw [htrace, trace, List.filter_cons, hrefused, hafter]
          rfl
        · rw [hrun]
          show _ = (p.after turn).run rest
          rw [hafter]
      · rw [Bool.not_eq_true] at hrefused
        obtain ⟨htrace, hrun⟩ := ih (hidle.after turn)
        rw [withoutRefused_of_kept rest hrefused]
        refine ⟨?_, hrun⟩
        rw [trace, htrace, trace, List.filter_cons, hrefused]
        rfl

/-- Calls that are refused half-way: a pause that stops at the engine, where admin is no pauser,
and a liquidation whose settlement the ledger rejects.  What bob moves without having it is
refused, too, but is no call. -/
def mishaps : List Turn :=
  Sample.opening ++
    [.call Sample.admin (.grantVaultRole .pauser Sample.admin),
      .call Sample.admin .pause,
      .happening (.transfer Sample.wbtc Sample.bob Sample.alice Sample.unit),
      .happening (.setDebt Sample.alice Sample.loan),
      .happening (.setRejecting true),
      .call Sample.liquidator (.liquidate Sample.alice Sample.weth .largest),
      .happening (.setRejecting false),
      .call Sample.liquidator (.liquidate Sample.alice Sample.weth .largest)]

/-- Of thirty turns two are left out, and the liquidation that is made in the end is the same. -/
theorem refused_calls_invisible_mishaps :
    let p := Sample.start
    p.Idle ∧ mishaps.length = 30 ∧ (p.withoutRefused mishaps).length = 28 ∧
      (p.run mishaps).engine.statistics.liquidations = 1 ∧
      p.trace (p.withoutRefused mishaps) =
        (p.trace mishaps).filter (fun step => !isRefusedCall step) ∧
      p.run (p.withoutRefused mishaps) = p.run mishaps := by
  have hidle : Sample.start.Idle := ⟨rfl, rfl⟩
  exact ⟨hidle, by decide +kernel, by decide +kernel, by decide +kernel,
    refused_calls_invisible hidle mishaps⟩

end Protocol

end Custody
