/-
What a liquidation and a write-off change.

A liquidation has three parts.  It is prepared by checks that end with a quote; it is
settled, which moves four books; and it is committed, when the engine records what was
settled.  Only the second part can be undone, so the parts are kept apart here and the
call is shown to be one after another.
-/
import Custody.Proofs.Collateral
import Custody.Proofs.Debt
import Custody.Protocol.Liquidation

namespace Custody.Protocol

open Custody.Action

variable {ctx : Context} {borrower token : Address} {offer : Amount} {quote : Quote}
  {p q : Protocol} {r : Unit} {e : Error}

/-! ### Settlement -/

/-- A settlement that was carried out: the repayment was pulled and burned, the collateral
was released to the liquidator, and the debt was reduced. -/
structure Settled (ctx : Context) (borrower token : Address) (quote : Quote)
    (p q : Protocol) : Prop where
  role : p.vault.access.ensure .liquidation p.engine.address = .ok ()
  moved : ∃ pulled burned,
    Bank.transferFrom p.engine.debtToken p.engine.address ctx.caller p.engine.address
      quote.repay p.bank = .ok () pulled ∧
    Bank.burn p.engine.debtToken p.engine.address quote.repay pulled = .ok () burned ∧
    Released borrower token quote.seize ctx.caller ctx.now
      (.seized borrower token quote.seize ctx.caller) { p with bank := burned }
      { p with vault := q.vault, bank := q.bank }
  reduced : Ledger.reduce borrower quote.repay p.ledger = .ok () q.ledger

theorem settle_ok (h : settle ctx borrower token quote p = .ok r q) :
    Settled ctx borrower token quote p q ∧
      q = { p with vault := q.vault, ledger := q.ledger, bank := q.bank } := by
  simp only [settle, onBank, onLedger, get_bind, bind_eq_ok, on_eq_ok] at h
  obtain ⟨_, _, ⟨pulled, hpull, rfl⟩, _, _, ⟨burned, hburn, rfl⟩, _, mid,
    hseize, l, hreduce, rfl⟩ := h
  obtain ⟨hrole, hreleased⟩ := seize_ok hseize
  have hledger : mid.ledger = p.ledger := hreleased.ledger
  have hmid : mid = { p with vault := mid.vault, bank := mid.bank } := by
    obtain ⟨v, e, l, o, b, t⟩ := mid
    obtain ⟨⟨rfl, rfl, rfl, rfl⟩, -⟩ := hreleased
    rfl
  rw [hledger] at hreduce
  refine ⟨⟨hrole, ⟨pulled, burned, hpull, hburn, ?_⟩, hreduce⟩, ?_⟩
  · rw [hmid] at hreleased
    exact hreleased
  · rw [hmid]

/-- Nothing changed but what a refused settlement restores. -/
structure SettlementOnly (p q : Protocol) : Prop where
  engine : q.engine = p.engine
  oracle : q.oracle = p.oracle
  clock : q.clock = p.clock

private theorem onBank_settlement {α : Type} {x : Action Bank α} (h : SettlementOnly p q) :
    (onBank x).Leaves q (SettlementOnly p) :=
  leaves_on (leaves_of_forall fun _ => ⟨h.engine, h.oracle, h.clock⟩)

private theorem onVault_settlement {α : Type} {x : Action Vault α} (h : SettlementOnly p q) :
    (onVault x).Leaves q (SettlementOnly p) :=
  leaves_on (leaves_of_forall fun _ => ⟨h.engine, h.oracle, h.clock⟩)

private theorem seize_settlement {user liquidator : Address} {amount : Amount}
    (h : SettlementOnly p q) :
    (seize ctx user token amount liquidator).Leaves q (SettlementOnly p) := by
  -- Entering and leaving the vault's guard touches neither engine nor oracle nor clock.
  have hentered : SettlementOnly p { q with vault := { q.vault with guard := ⟨true⟩ } } :=
    ⟨h.engine, h.oracle, h.clock⟩
  refine Guard.leaves_hold h (Leaves.imp (R := SettlementOnly p) ?_ ?_)
  · refine leaves_get (leaves_check hentered fun _ _ => leaves_check hentered fun _ _ => ?_)
    refine leaves_refuseIf hentered fun _ => ?_
    refine leaves_bind (onVault_settlement hentered) fun receipt t _ ht => ?_
    refine leaves_bind (leaves_undoing ?_ ?_) fun _ u _ hu => onVault_settlement hu
    · exact leaves_bind (leaves_pure ht) fun _ u _ hu => leaves_get (onBank_settlement hu)
    · exact fun _ h => ⟨h.engine, h.oracle, h.clock⟩
  · exact fun _ h => ⟨h.engine, h.oracle, h.clock⟩

/-- However a settlement ends, the engine and everything outside are as before. -/
theorem settle_settlement : (settle ctx borrower token quote).Leaves p (SettlementOnly p) := by
  refine leaves_get (leaves_bind (onBank_settlement ⟨rfl, rfl, rfl⟩) fun _ _ _ h => ?_)
  refine leaves_bind (onBank_settlement h) fun _ _ _ h => ?_
  refine leaves_bind (seize_settlement h) fun _ _ _ h => ?_
  exact leaves_on (leaves_of_forall fun _ => ⟨h.engine, h.oracle, h.clock⟩)

/-- A refused settlement that is undone leaves nothing but a free guard of the vault. -/
theorem unsettled (h : orRestore unsettle (settle ctx borrower token quote) p = .error e q) :
    q = { p with vault := p.vault.copy } := by
  obtain ⟨mid, hmid, rfl⟩ := orRestore_eq_error.mp h
  have honly := settle_settlement.of_error hmid
  unfold unsettle
  rw [honly.engine, honly.oracle, honly.clock]

/-! ### The parts of a liquidation -/

theorem checkOffer_eq_ok {liquidator : Address} {u : Unit} :
    checkOffer liquidator borrower offer = .ok u ↔
      liquidator ≠ borrower ∧ offer ≠ 0 ∧ dustFloor ≤ offer := by
  unfold checkOffer
  by_cases hself : liquidator = borrower
  · simp [hself]
  by_cases hzero : offer = 0
  · simp [hself, hzero]
  by_cases hdust : offer < dustFloor
  · have hbelow : ¬ dustFloor ≤ offer := Nat.not_le.mpr hdust
    simp [hself, hzero, hdust, hbelow]
  · have hfloor : dustFloor ≤ offer := Nat.not_lt.mp hdust
    simp [hself, hzero, hdust, hfloor]

/-- The checks before a settlement, and the health factor and the quote they end with. -/
def prepare (ctx : Context) (borrower token : Address) (offer : Amount) (p : Protocol) :
    Except Error (UInt64 × Quote) := do
  p.engine.ensureRunning
  checkOffer ctx.caller borrower offer
  let health ← p.health borrower
  if parityBps ≤ health then throw (.positionHealthy health)
  let limit ← p.engine.repayLimit (p.ledger.debt borrower) health
  let quote ← p.quote borrower token (min offer limit)
  if quote.seize = 0 ∨ quote.repay = 0 then throw .nothingToSeize
  return (health, quote)

/-- A liquidation that passed its checks. -/
structure Prepared (ctx : Context) (borrower token : Address) (offer : Amount) (p : Protocol)
    (health : UInt64) (quote : Quote) : Prop where
  running : p.engine.ensureRunning = .ok ()
  offered : checkOffer ctx.caller borrower offer = .ok ()
  read : p.health borrower = .ok health
  unhealthy : health < parityBps
  quoted : ∃ limit, p.engine.repayLimit (p.ledger.debt borrower) health = .ok limit ∧
    p.quote borrower token (min offer limit) = .ok quote
  seizes : quote.seize ≠ 0
  repays : quote.repay ≠ 0

theorem prepare_ok {health : UInt64}
    (h : prepare ctx borrower token offer p = .ok (health, quote)) :
    Prepared ctx borrower token offer p health quote := by
  simp only [prepare, Check.bind_eq_ok, Check.refuseIf_eq_ok, Check.pure_eq_ok,
    Prod.mk.injEq, not_or] at h
  obtain ⟨_, hrunning, _, hoffered, found, hhealth, hunhealthy, limit, hlimit, quoted, hquote,
    ⟨hseizes, hrepays⟩, rfl, rfl⟩ := h
  exact ⟨hrunning, hoffered, hhealth, UInt64.not_le.mp hunhealthy, ⟨limit, hlimit, hquote⟩,
    hseizes, hrepays⟩

theorem Prepared.prepare_eq {health : UInt64}
    (h : Prepared ctx borrower token offer p health quote) :
    prepare ctx borrower token offer p = .ok (health, quote) := by
  obtain ⟨limit, hlimit, hquote⟩ := h.quoted
  simp only [prepare, Check.bind_eq_ok, Check.refuseIf_eq_ok, Check.pure_eq_ok, not_or]
  exact ⟨_, h.running, _, h.offered, health, h.read, UInt64.not_le.mpr h.unhealthy, limit, hlimit,
    quote, hquote, ⟨h.seizes, h.repays⟩, rfl⟩

/-- What the engine records of a settled liquidation. -/
def commit (ctx : Context) (borrower token : Address) (quote : Quote) :
    Action Protocol Unit := do
  recordShortfall ctx borrower quote.shortfall
  onEngine (Engine.count quote.repay quote.capped)
  onEngine (Engine.tell ctx.now
    (.liquidated borrower ctx.caller token quote.repay quote.seize))

/-- A liquidation prepares, settles and commits, in this order. -/
theorem liquidate_eq : liquidate ctx borrower token offer = engineCall (do
    let (health, quote) ← prepare ctx borrower token offer (← get)
    orRestore unsettle (settle ctx borrower token quote)
    commit ctx borrower token quote
    return ⟨borrower, ctx.caller, token, health, quote.repay, quote.seize,
      quote.shortfall⟩) := by
  simp only [liquidate, prepare, commit, check_bind, check_refuseIf, check_pure, bind_assoc]

/-! ### Committing -/

/-- What a quote adds to the engine's sums would pass the largest amount. -/
def Overflows (e : Engine) (borrower : Address) (quote : Quote) : Prop :=
  Amount.size ≤ e.badDebt.total.val + quote.shortfall.val ∨
  Amount.size ≤ (e.badDebt.of borrower).val + quote.shortfall.val ∨
  Amount.size ≤ e.statistics.debtRepaid.val + quote.repay.val

/-- The statistics after a liquidation with this sum of repayments. -/
def counted (s : Statistics) (sum : Amount) (capped : Bool) : Statistics where
  liquidations := s.liquidations + 1
  debtRepaid := sum
  capped := if capped then s.capped + 1 else s.capped
  socialized := s.socialized

/-- The log after a shortfall, which is told if there is one. -/
def shortfallTold (log : EventLog) (now : Timestamp) (borrower : Address)
    (shortfall total : Amount) : EventLog :=
  if 0 < shortfall then log.add now (.badDebtRecorded borrower shortfall total) else log

/-- A settled liquidation that the engine recorded. -/
structure Committed (ctx : Context) (borrower token : Address) (quote : Quote)
    (e f : Engine) : Prop where
  badDebt : BadDebt.Recorded borrower quote.shortfall e.badDebt f.badDebt
  statistics : ∃ sum : Amount,
    sum.val = e.statistics.debtRepaid.val + quote.repay.val ∧
    f.statistics = counted e.statistics sum quote.capped
  events : f.events =
    (shortfallTold e.events ctx.now borrower quote.shortfall f.badDebt.total).add ctx.now
      (.liquidated borrower ctx.caller token quote.repay quote.seize)
  rest : f = { e with
    badDebt := f.badDebt
    statistics := f.statistics
    events := f.events
    guard := f.guard }

private theorem recordShortfall_ok {shortfall : Amount}
    (h : recordShortfall ctx borrower shortfall p = .ok r q) :
    BadDebt.Recorded borrower shortfall p.engine.badDebt q.engine.badDebt ∧
      q.engine.events =
        shortfallTold p.engine.events ctx.now borrower shortfall q.engine.badDebt.total ∧
      q = { p with engine := { p.engine with
        badDebt := q.engine.badDebt
        events := q.engine.events } } := by
  unfold recordShortfall at h
  split at h
  next hpositive =>
    simp only [onEngine, Engine.onBadDebt, Engine.tell, bind_eq_ok, on_eq_ok,
      modify_eq_ok] at h
    obtain ⟨total, _, ⟨_, ⟨c, hrecord, rfl⟩, rfl⟩, _, rfl, rfl⟩ := h
    obtain ⟨htotal, hrecorded⟩ := BadDebt.record_ok hrecord
    refine ⟨hrecorded, ?_, rfl⟩
    rw [shortfallTold, if_pos hpositive, htotal]
  next hzero =>
    obtain ⟨-, rfl⟩ := pure_eq_ok.mp h
    refine ⟨.none (Amount.not_pos_iff.mp hzero), ?_, rfl⟩
    rw [shortfallTold, if_neg hzero]

theorem commit_ok (h : commit ctx borrower token quote p = .ok r q) :
    Committed ctx borrower token quote p.engine q.engine ∧ q = { p with engine := q.engine } := by
  simp only [commit, Engine.count, Engine.tell, onEngine, get_bind, modify_bind, bind_eq_ok,
    check_eq_ok, on_eq_ok, modify_eq_ok, Amount.add_eq_ok] at h
  obtain ⟨_, mid, hrecord, _, _, ⟨_, ⟨sum, _, ⟨hsum, rfl⟩, rfl⟩, rfl⟩, _,
    rfl, rfl⟩ := h
  obtain ⟨hrecorded, hevents, hmid⟩ := recordShortfall_ok hrecord
  have hsum' : sum.val = p.engine.statistics.debtRepaid.val + quote.repay.val := by
    rw [hmid] at hsum
    exact hsum
  have hlog : mid.engine.events.add ctx.now
      (.liquidated borrower ctx.caller token quote.repay quote.seize) =
        (shortfallTold p.engine.events ctx.now borrower quote.shortfall
          mid.engine.badDebt.total).add ctx.now
            (.liquidated borrower ctx.caller token quote.repay quote.seize) := by
    rw [hevents]
  rw [hmid] at hlog ⊢
  refine ⟨⟨hrecorded, ⟨sum, hsum', ?_⟩, ?_, ?_⟩, rfl⟩
  · cases quote.capped <;> rfl
  · cases quote.capped <;> exact hlog
  · cases quote.capped <;> rfl

private theorem recordShortfall_refused {shortfall : Amount}
    (h : recordShortfall ctx borrower shortfall p = .error e q) :
    (Amount.size ≤ p.engine.badDebt.total.val + shortfall.val ∨
      Amount.size ≤ (p.engine.badDebt.of borrower).val + shortfall.val) ∧
      ∃ sum, e = .overflow sum := by
  unfold recordShortfall at h
  split at h
  next =>
    simp only [onEngine, Engine.onBadDebt, Engine.tell, bind_eq_error, on_eq_error, on_eq_ok,
      modify_ne_error, false_and, and_false, exists_false, or_false] at h
    obtain ⟨_, ⟨c, hrecord, rfl⟩, rfl⟩ := h
    exact ⟨(BadDebt.record_refused_iff.mp ⟨e, hrecord⟩).2, BadDebt.record_error hrecord⟩
  next => exact absurd h pure_ne_error

/-- A sum that would pass the largest amount is all that keeps the engine from recording. -/
theorem commit_error (h : commit ctx borrower token quote p = .error e q) :
    Overflows p.engine borrower quote ∧ ∃ sum, e = .overflow sum := by
  simp only [commit, Engine.count, Engine.tell, onEngine, get_bind, modify_bind,
    bind_eq_error, check_eq_error, on_eq_error, modify_ne_error, false_and, and_false,
    exists_false, or_false, Amount.add_eq_error] at h
  rcases h with hrecord | ⟨_, mid, hrecord, _, ⟨⟨hsum, rfl⟩, -⟩, -⟩
  · obtain ⟨hsum, hoverflow⟩ := recordShortfall_refused hrecord
    exact ⟨hsum.imp_right .inl, hoverflow⟩
  · obtain ⟨-, -, hmid⟩ := recordShortfall_ok hrecord
    rw [hmid] at hsum
    exact ⟨.inr (.inr hsum), _, rfl⟩

/-- The engine refuses to record a settled liquidation exactly when a sum would pass the
largest amount. -/
theorem commit_refused_iff : (∃ e q, commit ctx borrower token quote p = .error e q) ↔
    Overflows p.engine borrower quote := by
  constructor
  · rintro ⟨e, q, h⟩
    exact (commit_error h).1
  · -- Had it answered, the three sums would be amounts.
    intro hoverflows
    cases h : commit ctx borrower token quote p with
    | error e q => exact ⟨e, q, rfl⟩
    | ok r q =>
        obtain ⟨⟨hrecorded, ⟨sum, hsum, -⟩, -, -⟩, -⟩ := commit_ok h
        have hrecord := hrecorded.record borrower
        have htotal := hrecorded.total
        have := (q.engine.badDebt.of borrower).isLt
        have := q.engine.badDebt.total.isLt
        have := sum.isLt
        rw [if_pos rfl] at hrecord
        unfold Overflows at hoverflows
        omega

/-! ### Writing off -/

/-- Drop a record, count what was written off, and tell it. -/
def forgive (ctx : Context) (borrower : Address) (recorded absorbed : Amount) :
    Action Protocol Amount := do
  discard (onEngine (Engine.onBadDebt (BadDebt.clear borrower)))
  let sum ← (← get).engine.statistics.socialized.add absorbed
  onEngine do
    modify fun e => { e with statistics := { e.statistics with socialized := sum } }
    Engine.tell ctx.now (.badDebtSocialized borrower recorded absorbed)
  return absorbed

theorem socialize_eq : socialize ctx borrower = engineCall (do
    let p ← get
    p.engine.access.ensure .governance ctx.caller
    let recorded := p.engine.badDebt.of borrower
    if recorded = 0 then throw (.noBadDebt borrower)
    let absorbed := min recorded (p.ledger.debt borrower)
    if 0 < absorbed then
      onLedger (orRestore (fun before _ => before) (writeOff borrower absorbed))
    forgive ctx borrower recorded absorbed) := rfl

/-! ### What recording leaves alone

A property that does not look at the engine survives what the engine records, and a write-off
too if it does not look at the ledger either.
-/

section

variable {Q : Protocol → Prop}
  (hengine : ∀ {p : Protocol} {e : Engine}, Q p → Q { p with engine := e })

include hengine

theorem onEngine_leaves {α : Type} {x : Action Engine α} (h : Q p) : (onEngine x).Leaves p Q :=
  leaves_on (leaves_of_forall fun _ => hengine h)

theorem commit_leaves (h : Q p) : (commit ctx borrower token quote).Leaves p Q := by
  have hrecord : (recordShortfall ctx borrower quote.shortfall).Leaves p Q := by
    refine leaves_ite (fun _ => ?_) fun _ => leaves_pure h
    exact leaves_bind (onEngine_leaves hengine h) fun _ _ _ h => onEngine_leaves hengine h
  refine leaves_bind hrecord fun _ _ _ h => ?_
  exact leaves_bind (onEngine_leaves hengine h) fun _ _ _ h => onEngine_leaves hengine h

theorem forgive_leaves {recorded absorbed : Amount} (h : Q p) :
    (forgive ctx borrower recorded absorbed).Leaves p Q := by
  refine leaves_bind (leaves_discard (onEngine_leaves hengine h)) fun _ _ _ h => ?_
  refine leaves_get (leaves_check h fun _ _ => ?_)
  exact leaves_bind (onEngine_leaves hengine h) fun _ _ _ h => leaves_pure h

theorem socialize_leaves
    (hledger : ∀ {p : Protocol} {l : Ledger}, Q p → Q { p with ledger := l })
    (h : Q p) : (socialize ctx borrower).Leaves p Q := by
  rw [socialize_eq]
  refine Guard.leaves_hold h (Leaves.imp (R := Q) ?_ fun _ h => hengine h)
  have hentered : Q { p with engine := { p.engine with guard := ⟨true⟩ } } := hengine h
  refine leaves_get (leaves_check hentered fun _ _ => leaves_refuseIf hentered fun _ => ?_)
  -- Nothing is charged to the ledger if nothing is owed any more.
  refine leaves_ite (fun _ => ?_) fun _ => forgive_leaves hengine hentered
  refine leaves_bind (leaves_on (leaves_of_forall fun _ => hledger hentered)) fun _ _ _ h => ?_
  exact forgive_leaves hengine h

end

/-! ### Whole calls -/

/-- A liquidation that was carried out. -/
structure Liquidated (ctx : Context) (borrower token : Address) (offer : Amount)
    (health : UInt64) (quote : Quote) (p q : Protocol) : Prop where
  free : p.engine.guard.entered = false
  prepared : prepare ctx borrower token offer p = .ok (health, quote)
  settled : Settled ctx borrower token quote p q
  committed : Committed ctx borrower token quote p.engine q.engine
  left : q.engine.guard = .free
  oracle : q.oracle = p.oracle
  clock : q.clock = p.clock

theorem liquidate_ok {o : Outcome} (h : liquidate ctx borrower token offer p = .ok o q) :
    ∃ health quote, Liquidated ctx borrower token offer health quote p q ∧
      o = ⟨borrower, ctx.caller, token, health, quote.repay, quote.seize, quote.shortfall⟩ := by
  simp only [liquidate_eq, engineCall, Guard.hold_eq_ok, get_bind, bind_eq_ok, check_eq_ok,
    orRestore_eq_ok, pure_eq_ok] at h
  obtain ⟨hfree, _,
    ⟨⟨health, quote⟩, _, ⟨hprepared, rfl⟩, _, mid, hsettle, _, fin, hcommit,
    rfl, rfl⟩, rfl⟩ := h
  obtain ⟨hsettled, hmid⟩ := settle_ok hsettle
  obtain ⟨hcommitted, hfin⟩ := commit_ok hcommit
  refine ⟨health, quote, ⟨hfree, hprepared, ?_, ?_, rfl, ?_, ?_⟩, rfl⟩
  · obtain ⟨pulled, burned, hpull, hburn, hreleased⟩ := hsettled.moved
    rw [hfin]
    exact ⟨hsettled.role,
      ⟨pulled, burned, hpull, hburn, ⟨⟨rfl, rfl, rfl, rfl⟩, hreleased.free,
      hreleased.positive, hreleased.covered, hreleased.moved, hreleased.vault⟩⟩,
      hsettled.reduced⟩
  · rw [hmid] at hcommitted
    exact ⟨hcommitted.badDebt, hcommitted.statistics, hcommitted.events,
      by rw [hcommitted.rest]⟩
  · rw [hfin, hmid]
  · rw [hfin, hmid]

/-- Bad debt that was written off. -/
structure Socialized (ctx : Context) (borrower : Address) (absorbed : Amount)
    (p q : Protocol) : Prop where
  free : p.engine.guard.entered = false
  role : p.engine.access.ensure .governance ctx.caller = .ok ()
  recorded : p.engine.badDebt.of borrower ≠ 0
  /-- No more is written off than is still owed. -/
  amount : absorbed = min (p.engine.badDebt.of borrower) (p.ledger.debt borrower)
  ledger : Ledger.WrittenOff borrower absorbed p.ledger q.ledger
  cleared : BadDebt.Cleared borrower p.engine.badDebt q.engine.badDebt
  statistics : ∃ sum : Amount,
    sum.val = p.engine.statistics.socialized.val + absorbed.val ∧
    q.engine.statistics = { p.engine.statistics with socialized := sum }
  engine : q.engine = { p.engine with
    badDebt := q.engine.badDebt
    statistics := q.engine.statistics
    events := p.engine.events.add ctx.now
      (.badDebtSocialized borrower (p.engine.badDebt.of borrower) absorbed)
    guard := .free }
  rest : q = { p with engine := q.engine, ledger := q.ledger }

private theorem writeOff_ok {amount : Amount} {l m : Ledger}
    (h : writeOff borrower amount l = .ok r m) : Ledger.WrittenOff borrower amount l m := by
  simp only [writeOff, bind_eq_ok] at h
  obtain ⟨_, k, hreduce, habsorb⟩ := h
  exact (Ledger.reduce_ok hreduce).writtenOff (Ledger.absorb_ok habsorb)

/-- Writing off what is owed, which may be nothing, and dropping the record. -/
theorem charge_ok {α : Type} {a : α} {absorbed : Amount} {f : Action Protocol α}
    (h : (if 0 < absorbed then do
        onLedger (orRestore (fun before _ => before) (writeOff borrower absorbed))
        f
      else f) p = .ok a q) :
    ∃ l, Ledger.WrittenOff borrower absorbed p.ledger l ∧
      f { p with ledger := l } = .ok a q := by
  split at h
  next hpositive =>
    simp only [onLedger, bind_eq_ok, on_eq_ok, orRestore_eq_ok] at h
    obtain ⟨_, _, ⟨l, hwrite, rfl⟩, h⟩ := h
    exact ⟨l, writeOff_ok hwrite, h⟩
  next hzero => exact ⟨p.ledger, .none (Amount.not_pos_iff.mp hzero), h⟩

theorem forgive_ok {recorded absorbed answer : Amount}
    (h : forgive ctx borrower recorded absorbed p = .ok answer q) :
    ∃ (own : Amount) (c : BadDebt) (sum : Amount),
      BadDebt.clear borrower p.engine.badDebt = .ok own c ∧
      sum.val = p.engine.statistics.socialized.val + absorbed.val ∧ answer = absorbed ∧
      q = { p with engine := { p.engine with
        badDebt := c
        statistics := { p.engine.statistics with socialized := sum }
        events := p.engine.events.add ctx.now
          (.badDebtSocialized borrower recorded absorbed) } } := by
  simp only [forgive, onEngine, Engine.tell, Engine.onBadDebt, get_bind, modify_bind, bind_eq_ok,
    check_eq_ok, on_eq_ok, modify_eq_ok, pure_eq_ok, discard_eq_ok, Amount.add_eq_ok] at h
  obtain ⟨_, _, ⟨own, _, ⟨c, hclear, rfl⟩, rfl⟩, sum, _, ⟨hsum, rfl⟩, _, _,
    ⟨_, rfl, rfl⟩, rfl, rfl⟩ := h
  exact ⟨own, c, sum, hclear, hsum, rfl, rfl⟩

theorem socialize_ok {absorbed : Amount} (h : socialize ctx borrower p = .ok absorbed q) :
    Socialized ctx borrower absorbed p q := by
  simp only [socialize_eq, engineCall, Guard.hold_eq_ok, get_bind, refuseIf_eq_ok, bind_eq_ok,
    check_eq_ok] at h
  obtain ⟨hfree, _, ⟨_, _, ⟨hrole, rfl⟩, hrecorded, h⟩, rfl⟩ := h
  obtain ⟨l, hwritten, h⟩ := charge_ok h
  obtain ⟨_, c, sum, hclear, hsum, rfl, rfl⟩ := forgive_ok h
  obtain ⟨-, hcleared⟩ := BadDebt.clear_ok hclear
  exact ⟨hfree, hrole, hrecorded, rfl, hwritten, hcleared, ⟨sum, hsum, rfl⟩, rfl, rfl⟩

end Custody.Protocol
