/-
Why a liquidation is refused.

A liquidation has many ways to fail.  It reads prices, computes with them, looks at its own state,
and then moves tokens, collateral and debt, each of which may be refused for reasons that its
component has.  Which of these can really come up depends on the state.

In a state that a run leads to, in which the token is listed and the liquidator has the offer, it
comes down to the position and the offer.  A reading that bypasses the breakers wants a price and
results that are amounts; no divisor in it is ever zero.  The checks add that the offer is large
enough, that the position is below parity, and that there is something to seize.  What is quoted
after that is settled, and what the engine records of it can only be too large.
-/
import Custody.Proofs.Preview

namespace Custody

/-! ### Kinds of errors -/

/-- A price is missing or zero, or a result is too large. -/
inductive Error.Reading : Error → Prop
  | invalidPrice (token : Address) : Reading (.invalidPrice token)
  | overflow (operation : String) : Reading (.overflow operation)

/-- The position cannot be liquidated, or not with this offer. -/
inductive Error.Declining : Error → Prop
  | zeroAmount : Declining .zeroAmount
  | dustLiquidation (amount minimum : Amount) : Declining (.dustLiquidation amount minimum)
  | positionHealthy (factor : UInt64) : Declining (.positionHealthy factor)
  | nothingToSeize : Declining .nothingToSeize
  | reading {e : Error} : Reading e → Declining e

/-- A parameter is out of its bounds. -/
inductive Error.OutOfBounds : Error → Prop
  | invalidParameter (name reason : String) : OutOfBounds (.invalidParameter name reason)

namespace Check

variable {α β : Type} {kind kind' : Error → Prop}

/-- If the check is refused, it is with an error of this kind. -/
def RefusedBy (kind : Error → Prop) (x : Except Error α) : Prop := ∀ e, x = .error e → kind e

theorem refusedBy_ok {a : α} : RefusedBy kind (.ok a) := nofun

theorem refusedBy_error {e : Error} (h : kind e) : RefusedBy kind (.error e : Except Error α) := by
  rintro _ ⟨⟩
  exact h

theorem RefusedBy.imp {x : Except Error α} (hx : RefusedBy kind x)
    (h : ∀ e, kind e → kind' e) : RefusedBy kind' x :=
  fun e hrefused => h e (hx e hrefused)

theorem refusedBy_bind {x : Except Error α} {f : α → Except Error β} (hx : RefusedBy kind x)
    (hf : ∀ a, x = .ok a → RefusedBy kind (f a)) : RefusedBy kind (x >>= f) := by
  cases hread : x with
  | ok a => exact hf a hread
  | error e => exact refusedBy_error (hx e hread)

theorem refusedBy_ite {c : Prop} [Decidable c] {x y : Except Error α} (hx : c → RefusedBy kind x)
    (hy : ¬ c → RefusedBy kind y) : RefusedBy kind (if c then x else y) := by
  by_cases hc : c
  · rw [if_pos hc]
    exact hx hc
  · rw [if_neg hc]
    exact hy hc

theorem refusedBy_refuseIf {c : Prop} [Decidable c] {e : Error} {f : Unit → Except Error α}
    (he : kind e) (hf : ¬ c → RefusedBy kind (f ())) :
    RefusedBy kind (if c then throw e >>= f else f ()) :=
  refusedBy_ite (fun _ => refusedBy_error he) hf

theorem refusedBy_foldlM {f : β → α → Except Error β}
    (hf : ∀ b a, RefusedBy kind (f b a)) :
    ∀ (l : List α) (b : β), RefusedBy kind (l.foldlM f b) := by
  intro l
  induction l with
  | nil => exact fun b => refusedBy_ok
  | cons a rest ih =>
      intro b
      rw [List.foldlM_cons]
      exact refusedBy_bind (hf b a) fun next _ => ih next

end Check

open Check

/-! ### Parameters -/

theorem CollateralParams.validate_refusedBy {params : CollateralParams} :
    RefusedBy Error.OutOfBounds params.validate := by
  unfold validate
  refine refusedBy_ite (fun _ => refusedBy_error (.invalidParameter _ _)) fun _ => ?_
  refine refusedBy_ite (fun _ => refusedBy_error (.invalidParameter _ _)) fun _ => ?_
  refine refusedBy_ite (fun _ => refusedBy_error (.invalidParameter _ _)) fun _ => ?_
  exact refusedBy_ite (fun _ => refusedBy_error (.invalidParameter _ _)) fun _ => refusedBy_ok

theorem LiquidationParams.validate_refusedBy {sizing : LiquidationParams} :
    RefusedBy Error.OutOfBounds sizing.validate := by
  refine refusedBy_bind ?_ fun _ _ => ?_
  · exact refusedBy_ite (fun _ => refusedBy_error (.invalidParameter _ _)) fun _ => refusedBy_ok
  · exact refusedBy_ite (fun _ => refusedBy_error (.invalidParameter _ _)) fun _ => refusedBy_ok

/-! ### Readings -/

namespace Amount

variable {a b c d price : Amount}

theorem narrow_refusedBy {n : Nat} {operation : String} :
    RefusedBy Error.Reading (narrow n operation) := by
  unfold narrow
  split
  next => exact refusedBy_ok
  next => exact refusedBy_error (.overflow _)

theorem add_refusedBy : RefusedBy Error.Reading (a.add b) := by
  intro e hrefused
  obtain ⟨-, rfl⟩ := add_eq_error.mp hrefused
  exact .overflow _

theorem mulDiv_refusedBy (hdivisor : c ≠ 0) : RefusedBy Error.Reading (a.mulDiv b c) := by
  unfold mulDiv
  rw [if_neg hdivisor]
  exact narrow_refusedBy

theorem mulMulDiv_refusedBy (hdivisor : d ≠ 0) : RefusedBy Error.Reading (a.mulMulDiv b c d) := by
  unfold mulMulDiv
  rw [if_neg hdivisor]
  exact refusedBy_ite (fun _ => narrow_refusedBy) fun _ => refusedBy_error (.overflow _)

theorem share_refusedBy {bps : UInt64} : RefusedBy Error.Reading (a.share bps) :=
  mulDiv_refusedBy (by decide)

/-- The divisor is ten thousand times the price. -/
theorem collateralFor_refusedBy {penalty : UInt64} {decimals : UInt8} (hprice : price ≠ 0) :
    RefusedBy Error.Reading (a.collateralFor penalty price decimals) := by
  refine refusedBy_bind narrow_refusedBy fun denominator hdenominator => ?_
  refine refusedBy_bind narrow_refusedBy fun unit _ => mulMulDiv_refusedBy ?_
  have hval := narrow_eq_ok.mp hdenominator
  rw [Ne, eq_zero_iff] at hprice ⊢
  rw [hval]
  exact Nat.mul_ne_zero (by decide) hprice

/-- The divisor is the whole and the penalty. -/
theorem repaymentFor_refusedBy {penalty : UInt64} :
    RefusedBy Error.Reading (a.repaymentFor penalty) := by
  refine mulDiv_refusedBy ?_
  rw [Ne, eq_zero_iff]
  show bpsWhole.toNat + penalty.toNat ≠ 0
  exact Nat.ne_of_gt (Nat.add_pos_left (by decide) _)

end Amount

namespace Oracle

variable {o : Oracle} {token : Address} {amount : Amount}

theorem entry_refusedBy : RefusedBy Error.Reading (o.entry .bypassing token) := by
  unfold Oracle.entry bypassingEntry
  rw [if_neg fun h => nomatch h.1]
  refine refusedBy_ite (fun _ => refusedBy_error (.invalidPrice token)) fun _ => ?_
  cases o.prices.get? token with
  | none => exact refusedBy_error (.invalidPrice token)
  | some entry => exact refusedBy_ok

theorem price_refusedBy : RefusedBy Error.Reading (o.price .bypassing token) :=
  refusedBy_bind entry_refusedBy fun _ _ => refusedBy_ok

theorem value_refusedBy : RefusedBy Error.Reading (o.value .bypassing token amount) := by
  refine refusedBy_bind entry_refusedBy fun entry _ => ?_
  refine refusedBy_bind Amount.narrow_refusedBy fun unit hunit => Amount.mulDiv_refusedBy ?_
  have hval := Amount.powTen_eq_ok.mp hunit
  rw [Ne, Amount.eq_zero_iff, hval]
  exact Nat.ne_of_gt (Nat.pow_pos (by decide))

end Oracle

/-- **A health factor that cannot be read lacks a price or is too large somewhere.** -/
theorem Health.factor_refusedBy {l : Ledger} {o : Oracle} {view : CollateralView}
    {user : Address} : RefusedBy Error.Reading (factor l o .bypassing view user) := by
  have hweighted (token : Address) :
      RefusedBy Error.Reading (weighted o .bypassing view user token) := by
    refine refusedBy_ite (fun _ => refusedBy_ok) fun _ => ?_
    cases view.config token with
    | none => exact refusedBy_ok
    | some config =>
        exact refusedBy_bind Oracle.value_refusedBy fun _ _ => Amount.share_refusedBy
  refine refusedBy_ite (fun _ => refusedBy_ok) fun hdebt => ?_
  refine refusedBy_bind (refusedBy_foldlM (fun sum token => ?_) _ _) fun sum _ => ?_
  · exact refusedBy_bind (hweighted token) fun _ _ => Amount.add_refusedBy
  · exact refusedBy_bind (Amount.mulDiv_refusedBy hdebt) fun _ _ => refusedBy_ok

namespace Engine

variable {e : Engine} {v : Vault} {o : Oracle} {b : Bank} {borrower token : Address}
  {offer debt : Amount} {health : UInt64}

theorem repayLimit_refusedBy : RefusedBy Error.Reading (e.repayLimit debt health) :=
  refusedBy_ite (fun _ => refusedBy_ok) fun _ => Amount.share_refusedBy

/-- **So does a quote for a token that is listed and registered.** -/
theorem quote_refusedBy (hadded : ∃ config, v.added? token = some config)
    (hknown : b.decimals.contains token = true) :
    RefusedBy Error.Reading (quote v o b borrower token offer) := by
  obtain ⟨config, hconfig⟩ := hadded
  obtain ⟨decimals, hdecimals⟩ : ∃ decimals, b.decimalsOf token = .ok decimals :=
    Check.discard_eq_ok.mp (Bank.ensureKnown_eq_ok.mpr hknown)
  unfold quote
  simp only [hconfig, hdecimals]
  refine refusedBy_bind refusedBy_ok fun decimals _ => ?_
  refine refusedBy_bind Oracle.price_refusedBy fun price _ => ?_
  refine refusedBy_refuseIf (.invalidPrice token) fun hprice => ?_
  refine refusedBy_bind (Amount.collateralFor_refusedBy hprice) fun wanted _ => ?_
  refine refusedBy_ite (fun _ => refusedBy_ok) fun _ => ?_
  refine refusedBy_bind Oracle.value_refusedBy fun value _ => ?_
  exact refusedBy_bind Amount.repaymentFor_refusedBy fun _ _ => refusedBy_ok

end Engine

/-! ### Liquidations -/

namespace Protocol

open Custody.Action

variable {p q : Protocol} {ctx : Context} {account borrower token : Address} {offer : Amount}
  {e : Error}

theorem checkOffer_refusedBy {liquidator : Address} (hself : liquidator ≠ borrower) :
    RefusedBy Error.Declining (checkOffer liquidator borrower offer) := by
  unfold checkOffer
  rw [if_neg hself]
  refine refusedBy_ite (fun _ => refusedBy_error .zeroAmount) fun _ => ?_
  exact refusedBy_ite (fun _ => refusedBy_error (.dustLiquidation _ _)) fun _ => refusedBy_ok

/-- The checks of a liquidation that somebody else may make in a listed token. -/
theorem prepare_refusedBy (hrunning : p.engine.paused = false) (hself : ctx.caller ≠ borrower)
    (hadded : ∃ config, p.vault.added? token = some config)
    (hknown : p.bank.decimals.contains token = true) :
    RefusedBy Error.Declining (prepare ctx borrower token offer p) := by
  have hreading {α : Type} {x : Except Error α} (hx : RefusedBy Error.Reading x) :
      RefusedBy Error.Declining x := hx.imp fun _ => .reading
  unfold prepare
  rw [Engine.ensureRunning, hrunning]
  refine refusedBy_bind refusedBy_ok fun _ _ => ?_
  refine refusedBy_bind (checkOffer_refusedBy hself) fun _ _ => ?_
  refine refusedBy_bind (hreading Health.factor_refusedBy) fun health _ => ?_
  refine refusedBy_refuseIf (.positionHealthy health) fun _ => ?_
  refine refusedBy_bind (hreading Engine.repayLimit_refusedBy) fun limit _ => ?_
  refine refusedBy_bind (hreading (Engine.quote_refusedBy hadded hknown)) fun quote _ => ?_
  exact refusedBy_refuseIf .nothingToSeize fun _ => refusedBy_ok

/-- **In an orderly state a liquidation is refused for the position or the offer.**  If the token
is listed and nothing is in its way, and somebody who is not the borrower has the offer, none of the
components refuses its part. -/
theorem liquidate_refusedBy (h : Orderly account p) (hopen : Open token p)
    (hadded : ∃ config, p.vault.added? token = some config)
    (hknown : p.bank.decimals.contains token = true) (hcaller : ctx.caller ≠ .zero)
    (hself : ctx.caller ≠ borrower) (hfunded : Funded ctx.caller offer p)
    (hrefused : liquidate ctx borrower token offer p = .error e q) : e.Declining := by
  simp only [liquidate_eq, engineCall, Guard.hold_eq_error] at hrefused
  rcases hrefused with ⟨hheld, -⟩ | ⟨-, u, hu, -⟩
  · rw [h.engine_free] at hheld
    cases hheld
  simp only [get_bind, bind_eq_error, check_eq_error, check_eq_ok, orRestore_eq_error,
    pure_ne_error, and_false, exists_false, or_false] at hu
  rcases hu with ⟨hprepare, -⟩ | ⟨⟨health, quote⟩, _, ⟨hprepare, rfl⟩,
    ⟨_, hsettle, -⟩ | ⟨_, mid, -, hcommit⟩⟩
  · exact prepare_refusedBy hopen.running hself hadded hknown e hprepare
  · have hprepared : Prepared ctx borrower token offer p health quote := prepare_ok hprepare
    have hpaid := hfunded.of_le hprepared.repay_le
    exact absurd hsettle (h.settles hcaller hopen hpaid hprepared e _)
  · obtain ⟨-, sum, rfl⟩ := commit_error hcommit
    exact .reading (.overflow sum)

end Protocol

end Custody
