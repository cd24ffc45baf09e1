/-
What can be liquidated can be repaid, but for a crumb.

Two readings tell a liquidator whether there is anything to do: one that compares the health factor
with parity, and one that computes the limit on a repayment.  Each reads the debt and the factor
for itself.  Where the limit is positive they agree.

The limit is all of the debt if the factor is below the full threshold, and else a share of the
debt, rounded down.  So there is an exception.  A position between the full threshold and parity
whose share does not come to a base unit can be liquidated, and nothing of it can be repaid.  Its
debt is less than ten thousand base units, which is next to nothing, but it has a factor like any
other.

With so small a debt the factor moves in large steps.  One base unit that is not covered is a large
part of the debt, and the factor may be below the full threshold with it, where nothing is rounded.
It always is while the close factor and the full threshold make up the whole, as they do unless
governance sets others.
-/
import Custody.Proofs.EngineAccounting
import Custody.Proofs.Estimate
import Custody.Proofs.Supply

namespace Custody

/-! ### The share of a debt -/

/-- A share is something if it comes to a base unit. -/
theorem Amount.share_pos_iff {a d : Amount} {bps : UInt64} (h : a.share bps = .ok d) :
    0 < d ↔ 10000 ≤ a.val * bps.toNat := by
  rw [pos_iff, share_eq_ok.mp h]
  omega

namespace Engine

variable {e : Engine} {debt limit : Amount} {health : UInt64}

/-- With a sizing in its bounds there is a limit for every debt. -/
theorem exists_repayLimit (debt : Amount) (health : UInt64) (hsized : e.Sized) :
    ∃ limit, e.repayLimit debt health = .ok limit := by
  obtain ⟨⟨-, hfactor⟩, -⟩ := hsized.bounds
  unfold repayLimit
  split
  next => exact ⟨debt, rfl⟩
  next => exact debt.exists_share (UInt64.le_iff_toNat_le.mp hfactor)

/-- The limit of a debt is positive, unless it is a share that does not come to a base unit. -/
theorem repayLimit_pos_iff (hdebt : debt ≠ 0) (h : e.repayLimit debt health = .ok limit) :
    0 < limit ↔
      health < e.params.fullThreshold ∨ 10000 ≤ debt.val * e.params.closeFactor.toNat := by
  unfold repayLimit at h
  split at h
  next hbelow =>
    obtain rfl := Except.ok.inj h
    exact iff_of_true (Amount.pos_of_ne_zero hdebt) (.inl hbelow)
  next habove => rw [Amount.share_pos_iff h, or_iff_right habove]

end Engine

/-! ### Small debts -/

/-- Below parity at least one base unit is not covered.  The factor shows it, even rounded down. -/
theorem Health.uncovered_of_unhealthy {l : Ledger} {o : Oracle} {mode : ReadMode}
    {view : CollateralView} {user : Address} {f : UInt64} (hdebt : l.debt user ≠ 0)
    (h : factor l o mode view user = .ok f) (hbelow : f < parityBps) :
    f.toNat * (l.debt user).val + 10000 ≤ 10000 * (l.debt user).val := by
  obtain ⟨-, -, -, hfactor⟩ := (factor_eq_ok hdebt).mp h
  rw [UInt64.lt_iff_toNat_lt] at hbelow
  -- The cap is far above parity.
  have hexact : f.toNat = ratio l o view user := by
    simp only [parityBps, top, UInt64.reduceToNat] at hbelow hfactor
    omega
  have hless : totalWeight o view user * 10000 < 10000 * (l.debt user).val := by
    rw [hexact, ratio, Nat.div_lt_iff_lt_mul (Amount.pos_of_ne_zero hdebt)] at hbelow
    exact hbelow
  have hcovered : f.toNat * (l.debt user).val ≤ totalWeight o view user * 10000 := by
    rw [hexact]
    exact Nat.div_mul_le_self _ _
  omega

namespace Protocol

variable {p : Protocol} {borrower : Address} {limit : Amount}

/-- A position that is not so far below parity that all of its debt may be repaid, while the share
that may be does not come to a base unit. -/
structure Crumb (borrower : Address) (p : Protocol) : Prop where
  read : ∃ health, p.health borrower = .ok health ∧ p.engine.params.fullThreshold ≤ health ∧
    health < parityBps
  small : (p.ledger.debt borrower).val * p.engine.params.closeFactor.toNat < 10000

namespace Crumb

/-- Nothing may be repaid of a crumb. -/
theorem maxRepayable (h : Crumb borrower p) (hsized : p.engine.Sized) :
    p.maxRepayable borrower = .ok 0 := by
  obtain ⟨health, hread, habove, hbelow⟩ := h.read
  obtain ⟨limit, hlimit⟩ :=
    Engine.exists_repayLimit (p.ledger.debt borrower) health hsized
  have hnothing : ¬ 0 < limit := by
    rw [Engine.repayLimit_pos_iff (debt_of_unhealthy hread hbelow) hlimit, not_or]
    exact ⟨UInt64.not_lt.mpr habove, Nat.not_le.mpr h.small⟩
  rw [maxRepayable_of_unhealthy hread hbelow, hlimit, Amount.not_pos_iff.mp hnothing]

/-- The close factor and the full threshold of a crumb leave something of the whole. -/
theorem bounds (h : Crumb borrower p) :
    p.engine.params.closeFactor.toNat + p.engine.params.fullThreshold.toNat < 10000 := by
  obtain ⟨health, hread, habove, hbelow⟩ := h.read
  have huncovered := Health.uncovered_of_unhealthy (debt_of_unhealthy hread hbelow) hread hbelow
  rw [UInt64.le_iff_toNat_le] at habove
  have hthreshold : p.engine.params.fullThreshold.toNat * (p.ledger.debt borrower).val ≤
      health.toNat * (p.ledger.debt borrower).val := Nat.mul_le_mul_right _ habove
  refine Nat.lt_of_mul_lt_mul_right (a := (p.ledger.debt borrower).val) ?_
  calc (p.engine.params.closeFactor.toNat + p.engine.params.fullThreshold.toNat) *
        (p.ledger.debt borrower).val
      = (p.ledger.debt borrower).val * p.engine.params.closeFactor.toNat +
          p.engine.params.fullThreshold.toNat * (p.ledger.debt borrower).val := by
        rw [Nat.add_mul, Nat.mul_comm (p.ledger.debt borrower).val]
    _ < 10000 + health.toNat * (p.ledger.debt borrower).val :=
        Nat.add_lt_add_of_lt_of_le h.small hthreshold
    _ ≤ 10000 * (p.ledger.debt borrower).val := by omega

end Crumb

/-! ### The two readings -/

/-- Whoever can be liquidated is below parity. -/
theorem isLiquidatable_eq_true_iff : p.isLiquidatable borrower = .ok true ↔
    ∃ health, p.health borrower = .ok health ∧ health < parityBps := by
  refine ⟨fun h => ?_,
    fun ⟨health, hread, hbelow⟩ => isLiquidatable_of_unhealthy hread hbelow⟩
  unfold isLiquidatable Engine.isLiquidatable at h
  split at h
  next => cases h
  next =>
    simp only [Check.bind_eq_ok, Check.pure_eq_ok, decide_eq_true_eq] at h
    exact h

/-- So is whoever may be repaid for. -/
theorem unhealthy_of_maxRepayable (h : p.maxRepayable borrower = .ok limit)
    (hpositive : 0 < limit) :
    ∃ health, p.health borrower = .ok health ∧ health < parityBps := by
  have hnone : (Except.ok 0 : Except Error Amount) ≠ .ok limit := by
    intro heq
    rw [← Except.ok.inj heq] at hpositive
    exact absurd hpositive (by decide)
  unfold maxRepayable Engine.maxRepayable at h
  simp only at h
  split at h
  next => exact absurd h hnone
  next =>
    obtain ⟨health, hread, hlimit⟩ := Check.bind_eq_ok.mp h
    split at hlimit
    next => exact absurd hlimit hnone
    next hbelow => exact ⟨health, hread, UInt64.not_le.mp hbelow⟩

/-- **The readings agree, but for crumbs.** -/
theorem isLiquidatable_iff (hsized : p.engine.Sized) : p.isLiquidatable borrower = .ok true ↔
    (∃ limit, p.maxRepayable borrower = .ok limit ∧ 0 < limit) ∨ Crumb borrower p := by
  rw [isLiquidatable_eq_true_iff]
  constructor
  · rintro ⟨health, hread, hbelow⟩
    obtain ⟨limit, hlimit⟩ :=
      Engine.exists_repayLimit (p.ledger.debt borrower) health hsized
    have hreading := (maxRepayable_of_unhealthy hread hbelow).trans hlimit
    have hpositive := Engine.repayLimit_pos_iff (debt_of_unhealthy hread hbelow) hlimit
    by_cases hlimited : 0 < limit
    · exact .inl ⟨limit, hreading, hlimited⟩
    · rw [hpositive, not_or] at hlimited
      exact .inr ⟨⟨health, hread, UInt64.not_lt.mp hlimited.1, hbelow⟩,
        Nat.not_le.mp hlimited.2⟩
  · rintro (⟨limit, hlimit, hpositive⟩ | hcrumb)
    · exact unhealthy_of_maxRepayable hlimit hpositive
    · obtain ⟨health, hread, -, hbelow⟩ := hcrumb.read
      exact ⟨health, hread, hbelow⟩

/-! ### Every state -/

/-- **What can be liquidated can be repaid, but for a crumb.**  After every history of an engine, a
borrower can be liquidated exactly if something may be repaid or the position is a crumb, and of a
crumb nothing may be repaid.  While the close factor and the full threshold make up the whole, there
are no crumbs, and whoever can be liquidated can be repaid for. -/
theorem liquidatable_iff_repayable {address debtToken admin : Address} {params : LiquidationParams}
    (hstart : Engine.start address debtToken admin params = .ok p.engine)
    (episodes : List EngineEpisode) (borrower : Address) :
    let q := p.engineThrough episodes
    (q.isLiquidatable borrower = .ok true ↔
        (∃ limit, q.maxRepayable borrower = .ok limit ∧ 0 < limit) ∨ Crumb borrower q) ∧
      (Crumb borrower q → q.maxRepayable borrower = .ok 0) ∧
      (10000 ≤ q.engine.params.closeFactor.toNat + q.engine.params.fullThreshold.toNat →
        (q.isLiquidatable borrower = .ok true ↔
          ∃ limit, q.maxRepayable borrower = .ok limit ∧ 0 < limit)) := by
  intro q
  obtain ⟨-, hvalid, access, -, hengine⟩ := Engine.start_ok hstart
  have hstarted : p.engine.Sized := by
    rw [hengine]
    exact hvalid
  have hsized : q.engine.Sized := engineThrough_induction (fun h => h.sized) episodes p hstarted
  refine ⟨isLiquidatable_iff hsized, fun hcrumb => hcrumb.maxRepayable hsized, fun hwhole => ?_⟩
  rw [isLiquidatable_iff hsized, or_iff_left fun hcrumb => Nat.not_le.mpr hcrumb.bounds hwhole]

end Protocol

/-! ### A debt of two base units -/

namespace Sample

/-- Governance lowers the close factor a little, the price of bob's token falls to nearly nothing,
and he owes two base units. -/
def crumbling : List Turn := opening ++
  [.call admin (.setCloseFactor 4999), .happening (.setPrice weth ⟨3, by decide⟩ 18),
    .happening (.setDebt bob ⟨2, by decide⟩)]

/-- Governance does the same while the rest of that world is put around the engine. -/
def crumbled : List EngineEpisode :=
  let world := start.run crumbling
  [.submitted admin (.grantEngineRole .governance admin),
    .submitted admin (.setCloseFactor 4999),
    .around world.vault world.ledger world.oracle world.bank world.clock]

end Sample

namespace Protocol

open Custody.Sample

/-- Bob's position is a crumb: it can be liquidated, and nothing of it can be repaid. -/
theorem liquidatable_iff_repayable_crumbled :
    let q := start.engineThrough crumbled
    Engine.start engineAccount debtToken admin .standard = .ok start.engine ∧
      Crumb bob q ∧ q.isLiquidatable bob = .ok true ∧ q.maxRepayable bob = .ok 0 := by
  intro q
  have hstart : Engine.start engineAccount debtToken admin .standard = .ok start.engine := rfl
  have hcrumb : Crumb bob q :=
    ⟨⟨5000, Check.eq_ok_of_toOption (by decide +kernel), by decide +kernel, by decide⟩,
      by decide +kernel⟩
  obtain ⟨hreadings, hnothing, -⟩ := liquidatable_iff_repayable hstart crumbled bob
  exact ⟨hstart, hcrumb, hreadings.mpr (.inr hcrumb), hnothing hcrumb⟩

/-- So a run leads to a state, with a sizing in its bounds, in which the readings do not agree. -/
theorem liquidatable_not_repayable :
    let q := start.run crumbling
    start.Fresh ∧ q.engine.params.validate = .ok () ∧
      q.isLiquidatable bob = .ok true ∧ q.maxRepayable bob = .ok 0 ∧
      ¬ (q.isLiquidatable bob = .ok true ↔
        ∃ limit, q.maxRepayable bob = .ok limit ∧ 0 < limit) := by
  intro q
  have hliquidatable : q.isLiquidatable bob = .ok true :=
    Check.eq_ok_of_toOption (by decide +kernel)
  have hnothing : q.maxRepayable bob = .ok 0 := Check.eq_ok_of_toOption (by decide +kernel)
  refine ⟨fresh, Check.eq_ok_of_toOption (by decide +kernel), hliquidatable, hnothing,
    fun hagree => ?_⟩
  obtain ⟨limit, hlimit, hpositive⟩ := hagree.mp hliquidatable
  rw [hnothing, Except.ok.injEq] at hlimit
  rw [← hlimit] at hpositive
  exact absurd hpositive (by decide)

end Protocol

end Custody
