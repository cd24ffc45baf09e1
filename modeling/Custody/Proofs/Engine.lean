/-
What governing the engine changes.

Governance sets how liquidations are sized, and who may do what.  It reaches neither
the record of bad debt nor the statistics, and it cannot set a sizing that the engine
would not have started with.
-/
import Custody.Proofs.Arithmetic
import Custody.Engine

namespace Custody.Engine

open Custody.Action

variable {ctx : Context} {bps : UInt64} {role : Role} {account : Address} {e f : Engine}

/-- Whether the sizing of liquidations is in its bounds. -/
def Sized (e : Engine) : Prop := e.params.validate = .ok ()

/-- An engine that has recorded nothing. -/
def vacant (address debtToken : Address) (access : Access) (params : LiquidationParams) :
    Engine where
  address := address
  debtToken := debtToken
  access := access
  params := params
  badDebt := .empty
  statistics := ⟨0, 0, 0, 0⟩
  paused := false
  events := .standard
  guard := .free

/-- A new engine has an account, its first admin and a sizing in its bounds, and has recorded
nothing. -/
theorem start_ok {address debtToken admin : Address} {params : LiquidationParams}
    (h : start address debtToken admin params = .ok e) :
    address ≠ .zero ∧ params.validate = .ok () ∧
      ∃ access, Access.start admin = .ok access ∧
        e = vacant address debtToken access params := by
  simp only [start, Check.bind_eq_ok, Check.pure_eq_ok] at h
  obtain ⟨_, haddress, _, -, _, hvalid, access, haccess, rfl⟩ := h
  exact ⟨Address.ensureNonZero_eq_ok.mp haddress, hvalid, access, haccess, rfl⟩

/-- Two states of an engine with the same records, and a sizing that stays in bounds. -/
structure SameRecords (e f : Engine) : Prop where
  address : f.address = e.address
  debtToken : f.debtToken = e.debtToken
  badDebt : f.badDebt = e.badDebt
  statistics : f.statistics = e.statistics
  sized : e.Sized → f.Sized

theorem SameRecords.rfl : SameRecords e e := ⟨.refl _, .refl _, .refl _, .refl _, id⟩

private theorem tell_records {now : Timestamp} {event : Event} (h : SameRecords e f) :
    (tell now event).Leaves f (SameRecords e) :=
  leaves_modify ⟨h.address, h.debtToken, h.badDebt, h.statistics, h.sized⟩

private theorem setParams_records {params : LiquidationParams}
    (h : e.Sized → params.validate = .ok ()) :
    (setParams ctx params).Leaves e (SameRecords e) :=
  leaves_bind (leaves_modify ⟨.refl _, .refl _, .refl _, .refl _, h⟩)
    fun _ _ _ h => tell_records h

theorem setCloseFactor_records : (setCloseFactor ctx bps).Leaves e (SameRecords e) := by
  refine leaves_get (leaves_check .rfl fun _ _ => leaves_check .rfl fun _ hchecked => ?_)
  refine setParams_records fun hsized => ?_
  simp only [Sized, LiquidationParams.validate, Check.bind_eq_ok] at hsized ⊢
  obtain ⟨_, -, hthreshold⟩ := hsized
  exact ⟨_, hchecked, hthreshold⟩

theorem setFullThreshold_records : (setFullThreshold ctx bps).Leaves e (SameRecords e) := by
  refine leaves_get (leaves_check .rfl fun _ _ => leaves_check .rfl fun _ hchecked => ?_)
  refine setParams_records fun hsized => ?_
  simp only [Sized, LiquidationParams.validate, Check.bind_eq_ok] at hsized ⊢
  obtain ⟨_, hfactor, -⟩ := hsized
  exact ⟨_, hfactor, hchecked⟩

/-- Changing the members of a role and telling so leaves the records alone. -/
private theorem onAccess_records {x : Action Access Bool} {now : Timestamp} {event : Event} :
    (onAccess x >>= fun changed => if changed then tell now event else pure ()).Leaves e
      (SameRecords e) := by
  refine leaves_bind (leaves_on (leaves_of_forall fun _ => ?_)) fun changed _ _ h => ?_
  · exact ⟨.refl _, .refl _, .refl _, .refl _, id⟩
  · cases changed with
    | true => exact tell_records h
    | false => exact leaves_pure h

theorem grantRole_records : (grantRole ctx role account).Leaves e (SameRecords e) :=
  onAccess_records

theorem revokeRole_records : (revokeRole ctx role account).Leaves e (SameRecords e) :=
  onAccess_records

private theorem setPaused_records {paused : Bool} :
    (setPaused paused ctx).Leaves e (SameRecords e) :=
  leaves_bind (leaves_modify ⟨.refl _, .refl _, .refl _, .refl _, id⟩)
    fun _ _ _ h => tell_records h

theorem pause_records : (pause ctx).Leaves e (SameRecords e) :=
  leaves_get (leaves_check .rfl fun _ _ => setPaused_records)

theorem unpause_records : (unpause ctx).Leaves e (SameRecords e) :=
  leaves_get (leaves_check .rfl fun _ _ => setPaused_records)

/-- An engine that a call has entered. -/
def entered (e : Engine) : Engine := { e with guard := ⟨true⟩ }

/-- The changes by which the engine is governed. -/
inductive Governs (ctx : Context) : Action Engine Unit → Prop where
  | closeFactor {bps : UInt64} : Governs ctx (setCloseFactor ctx bps)
  | fullThreshold {bps : UInt64} : Governs ctx (setFullThreshold ctx bps)
  | grant {role : Role} {account : Address} : Governs ctx (grantRole ctx role account)
  | revoke {role : Role} {account : Address} : Governs ctx (revokeRole ctx role account)
  | pause : Governs ctx (pause ctx)
  | unpause : Governs ctx (unpause ctx)

/-- Whoever governs the engine leaves its records alone. -/
theorem Governs.records {change : Action Engine Unit} (h : Governs ctx change) :
    change.Leaves e (SameRecords e) := by
  cases h with
  | closeFactor => exact setCloseFactor_records
  | fullThreshold => exact setFullThreshold_records
  | grant => exact grantRole_records
  | revoke => exact revokeRole_records
  | pause => exact pause_records
  | unpause => exact unpause_records

/-! ### Limits on one liquidation -/

/-- With a sizing in its bounds no liquidation may repay more than the debt. -/
theorem repayLimit_le {debt limit : Amount} {health : UInt64} (hsized : e.Sized)
    (h : e.repayLimit debt health = .ok limit) : limit.val ≤ debt.val := by
  simp only [Sized, LiquidationParams.validate, Check.bind_eq_ok] at hsized
  obtain ⟨_, hfactor, -⟩ := hsized
  unfold LiquidationParams.checkCloseFactor at hfactor
  have hbound : e.params.closeFactor.toNat ≤ 10000 := by
    split at hfactor
    next => cases hfactor
    next hwithin =>
      have hle : e.params.closeFactor ≤ bpsWhole := UInt64.not_lt.mp fun hlt => hwithin (.inr hlt)
      exact UInt64.le_iff_toNat_le.mp hle
  unfold repayLimit at h
  split at h
  next =>
    obtain rfl := Except.ok.inj h
    exact Nat.le_refl _
  next => exact Amount.share_le h hbound

/-! ### Quotes -/

variable {v : Vault} {o : Oracle} {b : Bank} {borrower token : Address} {offer : Amount}
  {q : Quote}

/-- A quote that was answered: with what was read for it, and how the deposit decided it. -/
theorem quote_cases (h : quote v o b borrower token offer = .ok q) :
    ∃ config decimals price wanted, v.added? token = some config ∧
      b.decimalsOf token = .ok decimals ∧ o.price .bypassing token = .ok price ∧
      offer.collateralFor config.params.penalty price decimals = .ok wanted ∧
      (wanted ≤ v.depositOf borrower token ∧ q = ⟨offer, wanted, 0, false⟩ ∨
        v.depositOf borrower token < wanted ∧
          ∃ value justified, o.value .bypassing token (v.depositOf borrower token) = .ok value ∧
            value.repaymentFor config.params.penalty = .ok justified ∧
            q = ⟨min justified offer, v.depositOf borrower token, offer - min justified offer,
              true⟩) := by
  unfold quote at h
  split at h
  next => cases h
  next config hconfig =>
    simp only [Check.bind_eq_ok, Check.refuseIf_eq_ok] at h
    obtain ⟨decimals, hdecimals, price, hprice, -, wanted, hwanted, h⟩ := h
    refine ⟨config, decimals, price, wanted, hconfig, hdecimals, hprice, hwanted, ?_⟩
    split at h
    next hle =>
      obtain rfl := Except.ok.inj h
      exact .inl ⟨hle, rfl⟩
    next hlt =>
      simp only [cappedQuote, Check.bind_eq_ok, Check.pure_eq_ok] at h
      obtain ⟨value, hvalue, justified, hjustified, rfl⟩ := h
      exact .inr ⟨Nat.not_le.mp hlt, value, justified, hvalue, hjustified, rfl⟩

/-- A deposit that is too small is quoted whole. -/
theorem quote_of_lacking {price wanted value justified : Amount} {config : CollateralConfig}
    {decimals : UInt8} (hadded : v.added? token = some config)
    (hdecimals : b.decimalsOf token = .ok decimals)
    (hprice : o.price .bypassing token = .ok price) (hpositive : price ≠ 0)
    (hwanted : offer.collateralFor config.params.penalty price decimals = .ok wanted)
    (hlack : v.depositOf borrower token < wanted)
    (hvalue : o.value .bypassing token (v.depositOf borrower token) = .ok value)
    (hjustified : value.repaymentFor config.params.penalty = .ok justified) :
    quote v o b borrower token offer =
      .ok ⟨min justified offer, v.depositOf borrower token,
        offer - min justified offer, true⟩ := by
  have hlacks : ¬ wanted ≤ v.depositOf borrower token := Nat.not_le.mpr hlack
  simp only [quote, hadded, Check.bind_eq_ok, Check.refuseIf_eq_ok]
  refine ⟨decimals, hdecimals, price, hprice, hpositive, wanted, hwanted, ?_⟩
  rw [if_neg hlacks]
  simp only [cappedQuote, Check.bind_eq_ok, Check.pure_eq_ok]
  exact ⟨value, hvalue, justified, hjustified, rfl⟩

/-- Of an offer, what is not repaid is a shortfall. -/
theorem quote_ok (h : quote v o b borrower token offer = .ok q) :
    q.repay.val + q.shortfall.val = offer.val := by
  obtain ⟨config, decimals, price, wanted, -, -, -, -, hcases⟩ := quote_cases h
  rcases hcases with ⟨-, rfl⟩ | ⟨-, value, justified, -, -, rfl⟩
  · rfl
  · simp only [Amount.val_min, Amount.val_sub]
    omega

/-- A shortfall means that the whole deposit is seized, and that all that it justifies is
repaid. -/
theorem quote_short (h : quote v o b borrower token offer = .ok q)
    (hshort : 0 < q.shortfall) :
    q.seize = v.depositOf borrower token ∧
      ∃ config value, v.added? token = some config ∧
        o.value .bypassing token (v.depositOf borrower token) = .ok value ∧
        value.repaymentFor config.params.penalty = .ok q.repay := by
  obtain ⟨config, decimals, price, wanted, hconfig, -, -, -, hcases⟩ := quote_cases h
  rcases hcases with ⟨-, rfl⟩ | ⟨-, value, justified, hvalue, hjustified, rfl⟩
  · -- A deposit that is large enough leaves no shortfall.
    exact absurd hshort (Nat.lt_irrefl 0)
  · have hrepay : min justified offer = justified := by
      rw [Amount.pos_iff, Amount.val_sub, Amount.val_min] at hshort
      refine Amount.ext ?_
      rw [Amount.val_min]
      omega
    refine ⟨rfl, config, value, hconfig, hvalue, ?_⟩
    rw [hrepay]
    exact hjustified

/-- No more is seized than was deposited. -/
theorem quote_seize_le (h : quote v o b borrower token offer = .ok q) :
    q.seize ≤ v.depositOf borrower token := by
  obtain ⟨config, decimals, price, wanted, -, -, -, -, hcases⟩ := quote_cases h
  rcases hcases with ⟨hle, rfl⟩ | ⟨-, value, justified, -, -, rfl⟩
  · exact hle
  · exact Nat.le_refl _

end Custody.Engine
