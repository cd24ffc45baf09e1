/-
The engine can be rebuilt from its events.

A liquidation is recorded in four places: the book of bad debt, the log, the count and the
sums.  They are written one after another and with refusals in between, so that they agree is
not seen at any one place.  Here each part of a call is shown to tell what it wrote, and parts
that tell what they wrote can be put together, to calls and to runs.

A reader of the events keeps the book of bad debt, and can do more than follow: a shortfall
tells the total after it, and a write-off tells the record that it drops.  A reader who finds
another total or another record stops, so that the whole log can be read means that all of
these agree.
-/
import Custody.Proofs.Replay

namespace Custody

open Custody.Action

/-! ### What events add to the statistics -/

namespace Event

/-- Whether a liquidation is told. -/
def isLiquidation : Event → Bool
  | liquidated .. => true
  | _ => false

/-- The debt that was repaid by a liquidation. -/
def debtRepaid : Event → Nat
  | liquidated _ _ _ debtRepaid _ => debtRepaid.val
  | _ => 0

/-- The bad debt that was written off. -/
def absorbed : Event → Nat
  | badDebtSocialized _ _ absorbed => absorbed.val
  | _ => 0

end Event

/-! ### The book of bad debt, entry by entry -/

namespace BadDebt

variable {borrower : Address} {amount total recorded : Amount} {b c : BadDebt}

theorem record_book (h : record borrower amount b = .ok total c) :
    ∃ own : Amount, total.val = b.total.val + amount.val ∧
      own.val = (b.of borrower).val + amount.val ∧
        c = ⟨total, b.records.insert borrower own⟩ := by
  simp only [record, get_bind, bind_eq_ok, check_eq_ok, set_eq_ok, pure_eq_ok,
    Amount.add_eq_ok] at h
  obtain ⟨_, _, ⟨htotal, rfl⟩, own, _, ⟨hown, rfl⟩, _, _, rfl, rfl, rfl⟩ := h
  exact ⟨own, htotal, hown, rfl⟩

/-- Only a borrower with an entry has bad debt on record. -/
private theorem get?_records (h : b.of borrower ≠ 0) :
    b.records.get? borrower = some (b.of borrower) := by
  unfold of Tally.amount at h ⊢
  cases hget : b.records.get? borrower with
  | none => simp [hget] at h
  | some own => rfl

theorem clear_book (h : clear borrower b = .ok recorded c) :
    recorded = b.of borrower ∧ b.records.get? borrower = some recorded ∧
      ∃ total : Amount, total.val + recorded.val = b.total.val ∧
        c = ⟨total, b.records.erase borrower⟩ := by
  simp only [clear, get_bind, refuseIf_eq_ok, bind_eq_ok, check_eq_ok, set_eq_ok, pure_eq_ok,
    Amount.subtract_eq_ok] at h
  obtain ⟨hrecorded, total, _, ⟨htotal, rfl⟩, _, _, rfl, rfl, rfl⟩ := h
  exact ⟨rfl, get?_records hrecorded, total, htotal, rfl⟩

end BadDebt

/-! ### Reading the events of an engine -/

namespace Engine

/-- What the events of an engine tell of it. -/
structure Portrait where
  badDebt : BadDebt
  params : LiquidationParams
  access : Access
  paused : Bool
deriving DecidableEq

/-- What is to be read in the events of this engine. -/
def portrait (e : Engine) : Portrait where
  badDebt := e.badDebt
  params := e.params
  access := e.access
  paused := e.paused

namespace Portrait

/-- Add a shortfall to the borrower's record and to the total, which has to be the total that
is told. -/
def record (s : Portrait) (borrower : Address) (amount total : Amount) :
    Except Error Portrait := do
  let sum ← s.badDebt.total.add amount
  let own ← (s.badDebt.of borrower).add amount
  if sum ≠ total then
    throw (.invariantViolation s!"bad debt total {sum} != total told {total}")
  return { s with badDebt := ⟨sum, s.badDebt.records.insert borrower own⟩ }

/-- Drop the record of a borrower, which has to be the one that is told. -/
def clear (s : Portrait) (borrower : Address) (recorded : Amount) : Except Error Portrait := do
  if s.badDebt.records.get? borrower ≠ some recorded then throw (.noBadDebt borrower)
  let total ← s.badDebt.total.subtract recorded
  return { s with badDebt := ⟨total, s.badDebt.records.erase borrower⟩ }

/-- What a reader makes of an event. -/
def replay (s : Portrait) : Event → Except Error Portrait
  | .badDebtRecorded borrower amount total => s.record borrower amount total
  | .badDebtSocialized borrower recorded _ => s.clear borrower recorded
  | .liquidationParamsUpdated closeFactor fullThreshold =>
    .ok { s with params := ⟨closeFactor, fullThreshold⟩ }
  | .roleGranted role account => .ok { s with access := s.access.joined role account }
  | .roleRevoked role account => .ok { s with access := s.access.parted role account }
  | .pauseChanged paused _ => .ok { s with paused := paused }
  | .liquidated .. | .deposited .. | .depositedFor .. | .withdrawn .. | .withdrawnFor ..
  | .seized .. | .adminChangeRequested .. | .adminChangeCancelled .. | .collateralConfigured ..
  | .collateralStatusChanged .. | .borrowModuleChanged .. => .ok s

end Portrait

variable {e f g : Engine} {events later : List Event} {event : Event} {now : Timestamp}

/-- What some events tell of the way from one state of an engine to another. -/
structure Told (events : List Event) (e f : Engine) : Prop where
  portrait : events.foldlM Portrait.replay e.portrait = .ok f.portrait
  liquidations : f.statistics.liquidations =
    e.statistics.liquidations + UInt64.ofNat (events.countP Event.isLiquidation)
  debtRepaid : f.statistics.debtRepaid.val =
    e.statistics.debtRepaid.val + (events.map Event.debtRepaid).sum
  socialized : f.statistics.socialized.val =
    e.statistics.socialized.val + (events.map Event.absorbed).sum

namespace Told

theorem silent (hportrait : f.portrait = e.portrait) (hstatistics : f.statistics = e.statistics) :
    Told [] e f where
  portrait := by rw [hportrait]; rfl
  liquidations := by rw [hstatistics]; exact (UInt64.add_zero _).symm
  debtRepaid := by rw [hstatistics]; rfl
  socialized := by rw [hstatistics]; rfl

theorem trans (h : Told events e f) (h' : Told later f g) : Told (events ++ later) e g where
  portrait := by rw [List.foldlM_append, h.portrait]; exact h'.portrait
  liquidations := by
    rw [h'.liquidations, h.liquidations, List.countP_append, UInt64.ofNat_add, UInt64.add_assoc]
  debtRepaid := by
    rw [h'.debtRepaid, h.debtRepaid, List.map_append, List.sum_append, Nat.add_assoc]
  socialized := by
    rw [h'.socialized, h.socialized, List.map_append, List.sum_append, Nat.add_assoc]

end Told

/-- The events told between two states of an engine, read in the first, give the second, and
account for what the statistics gained. -/
def Replays (e f : Engine) : Prop :=
  ∃ news, f.events = e.events.addAll news ∧ Told (news.map Prod.snd) e f

namespace Replays

/-- Nothing told, nothing changed. -/
theorem silent (hevents : f.events = e.events) (hportrait : f.portrait = e.portrait)
    (hstatistics : f.statistics = e.statistics) : Replays e f :=
  ⟨[], hevents, .silent hportrait hstatistics⟩

theorem rfl : Replays e e := silent (.refl _) (.refl _) (.refl _)

theorem trans (h : Replays e f) (h' : Replays f g) : Replays e g := by
  obtain ⟨news, hevents, htold⟩ := h
  obtain ⟨later, hlater, htold'⟩ := h'
  refine ⟨news ++ later, ?_, ?_⟩
  · rw [hlater, hevents, EventLog.addAll_append]
  · rw [List.map_append]
    exact htold.trans htold'

/-- One event, which tells of no liquidation and of no write-off. -/
theorem single (hevents : f.events = e.events.add now event)
    (hreplay : e.portrait.replay event = .ok f.portrait) (hstatistics : f.statistics = e.statistics)
    (hplain : event.isLiquidation = false ∧ event.debtRepaid = 0 ∧ event.absorbed = 0) :
    Replays e f := by
  refine ⟨[(now, event)], hevents, ?_, ?_, ?_, ?_⟩
  · rw [List.map_singleton, List.foldlM_cons, hreplay]
    exact .refl _
  · simp [hstatistics, hplain.1]
  · simp [hstatistics, hplain.2.1]
  · simp [hstatistics, hplain.2.2]

/-- The members of a role are written as they were, or told. -/
theorem regrouped {a b : Access} {changed : Bool}
    (hmembers : a = if changed then b else e.access)
    (hreplay : e.portrait.replay event = .ok { e.portrait with access := b })
    (hplain : event.isLiquidation = false ∧ event.debtRepaid = 0 ∧ event.absorbed = 0) :
    Replays e (e.regrouped a changed now event) := by
  subst hmembers
  cases changed with
  | true => exact .single (.refl _) hreplay (.refl _) hplain
  | false => exact .silent (.refl _) (.refl _) (.refl _)

end Replays

/-- **An event of governance tells what was changed.** -/
theorem Governed.replays {ctx : Context} {call : Call} (h : Governed ctx e f call) :
    Replays e f := by
  cases h with
  | resized _ _ hf | paused _ hf | unpaused _ hf =>
      subst hf
      exact .single rfl rfl rfl ⟨rfl, rfl, rfl⟩
  | granted hgrant hf =>
      subst hf
      exact .regrouped (Access.grant_members hgrant) rfl ⟨rfl, rfl, rfl⟩
  | revoked hrevoke hf =>
      subst hf
      exact .regrouped (Access.revoke_members hrevoke) rfl ⟨rfl, rfl, rfl⟩

end Engine

/-! ### Calls -/

namespace Protocol

variable {ctx : Context} {borrower token caller : Address} {offer shortfall absorbed : Amount}
  {quote : Quote} {p q : Protocol} {call : Call} {reply : Reply} {r : Unit}

/-- A shortfall is told with the total that it makes. -/
private theorem recordShortfall_replays
    (h : recordShortfall ctx borrower shortfall p = .ok r q) : p.engine.Replays q.engine := by
  unfold recordShortfall at h
  split at h
  next =>
    simp only [onEngine, Engine.onBadDebt, Engine.tell, bind_eq_ok, on_eq_ok, modify_eq_ok] at h
    obtain ⟨total, _, ⟨_, ⟨c, hrecord, rfl⟩, rfl⟩, _, rfl, rfl⟩ := h
    obtain ⟨own, htotal, hown, rfl⟩ := BadDebt.record_book hrecord
    refine .single rfl ?_ rfl ⟨rfl, rfl, rfl⟩
    refine Check.bind_eq_ok.mpr ⟨total, Amount.add_eq_ok.mpr htotal, ?_⟩
    refine Check.bind_eq_ok.mpr ⟨own, Amount.add_eq_ok.mpr hown, ?_⟩
    exact Check.refuseIf_eq_ok.mpr ⟨fun hne => hne rfl, rfl⟩
  next =>
    obtain ⟨-, rfl⟩ := pure_eq_ok.mp h
    exact .rfl

/-- A liquidation is counted and told with what was repaid. -/
private theorem counted_replays {e f : Engine} {sum repaid seized : Amount} {now : Timestamp}
    (capped : Bool) (hsum : sum.val = e.statistics.debtRepaid.val + repaid.val)
    (hevents : f.events = e.events.add now (.liquidated borrower caller token repaid seized))
    (hportrait : f.portrait = e.portrait)
    (hstatistics : f.statistics = counted e.statistics sum capped) : e.Replays f := by
  refine ⟨[(now, .liquidated borrower caller token repaid seized)], hevents, ?_, ?_, ?_, ?_⟩
  · rw [hportrait]
    rfl
  · rw [hstatistics]
    rfl
  · rw [hstatistics]
    exact hsum
  · rw [hstatistics]
    rfl

private theorem commit_replays (h : commit ctx borrower token quote p = .ok r q) :
    p.engine.Replays q.engine := by
  simp only [commit, Engine.count, Engine.tell, onEngine, get_bind, modify_bind, bind_eq_ok,
    check_eq_ok, on_eq_ok, modify_eq_ok, Amount.add_eq_ok] at h
  obtain ⟨_, mid, hrecord, _, _, ⟨_, ⟨sum, _, ⟨hsum, rfl⟩, rfl⟩, rfl⟩, _,
    rfl, rfl⟩ := h
  refine (recordShortfall_replays hrecord).trans ?_
  cases hcapped : quote.capped with
  | true => exact counted_replays true hsum rfl rfl rfl
  | false => exact counted_replays false hsum rfl rfl rfl

/-- Entering and leaving the engine's guard is not told. -/
private theorem replays_of_guards {e f : Engine} {g g' : Guard}
    (h : Engine.Replays { e with guard := g } f) : e.Replays { f with guard := g' } := by
  obtain ⟨news, hevents, htold⟩ := h
  exact ⟨news, hevents, htold.portrait, htold.liquidations, htold.debtRepaid, htold.socialized⟩

/-- **A liquidation is told as it was recorded.** -/
theorem liquidate_replays {o : Outcome} (h : liquidate ctx borrower token offer p = .ok o q) :
    p.engine.Replays q.engine := by
  simp only [liquidate_eq, engineCall, Guard.hold_eq_ok, get_bind, bind_eq_ok, check_eq_ok,
    orRestore_eq_ok, pure_eq_ok] at h
  obtain ⟨-, _, ⟨⟨health, quote⟩, _, ⟨-, rfl⟩, _, mid, hsettle, _, fin, hcommit, -,
    rfl⟩, rfl⟩ := h
  obtain ⟨-, hmid⟩ := settle_ok hsettle
  have hcommitted := commit_replays hcommit
  rw [hmid] at hcommitted
  exact replays_of_guards hcommitted

/-- **A write-off is told with the record that it drops.** -/
theorem socialize_replays (h : socialize ctx borrower p = .ok absorbed q) :
    p.engine.Replays q.engine := by
  simp only [socialize_eq, engineCall, Guard.hold_eq_ok, get_bind, refuseIf_eq_ok, bind_eq_ok,
    check_eq_ok] at h
  obtain ⟨-, _, ⟨_, _, ⟨-, rfl⟩, -, h⟩, rfl⟩ := h
  obtain ⟨l, -, h⟩ := charge_ok h
  obtain ⟨_, c, sum, hclear, hsum, rfl, rfl⟩ := forgive_ok h
  obtain ⟨rfl, hget, total, htotal, rfl⟩ := BadDebt.clear_book hclear
  refine ⟨[(ctx.now, _)], rfl, ?_, (UInt64.add_zero _).symm, rfl, hsum⟩
  have hread : p.engine.portrait.clear borrower (p.engine.badDebt.of borrower) =
      .ok { p.engine.portrait with
        badDebt := ⟨total, p.engine.badDebt.records.erase borrower⟩ } := by
    unfold Engine.Portrait.clear
    refine Check.refuseIf_eq_ok.mpr ⟨fun hne => hne hget, ?_⟩
    exact Check.bind_eq_ok.mpr ⟨total, Amount.subtract_eq_ok.mpr htotal, rfl⟩
  rw [List.map_singleton, List.foldlM_cons]
  exact Check.bind_eq_ok.mpr ⟨_, hread, rfl⟩

private theorem replays_of_eq (h : q.engine = p.engine) : p.engine.Replays q.engine := by
  rw [h]
  exact .rfl

/-- **Every answered call is told by the engine's events.** -/
theorem perform_replays (h : perform ctx call p = .ok reply q) : p.engine.Replays q.engine := by
  cases perform_ok h with
  | deposited hdeposited | depositedFor _ hdeposited => exact replays_of_eq hdeposited.engine
  | withdrawn _ hreleased | seized _ hreleased | withdrawnFor _ hreleased =>
      exact replays_of_eq hreleased.engine
  | liquidated =>
      simp only [perform, bind_eq_ok, pure_eq_ok] at h
      obtain ⟨o, _, hcall, -, rfl⟩ := h
      exact liquidate_replays hcall
  | socialized =>
      simp only [perform, bind_eq_ok, pure_eq_ok] at h
      obtain ⟨_, _, hcall, -, rfl⟩ := h
      exact socialize_replays hcall
  | administered hcall =>
      cases perform_managed hcall h with
      | vault _ hq => exact replays_of_eq (by rw [hq])
      | engine hgoverned | both _ hgoverned => exact hgoverned.replays

/-! ### Runs -/

/-- A refused transaction leaves no event behind, and no change. -/
theorem after_replays (p : Protocol) (turn : Turn) : p.engine.Replays (p.after turn).engine := by
  cases turn with
  | call caller call =>
      rcases after_call p caller call with ⟨reply, hanswered, -⟩ | ⟨e, -, hrestored⟩
      · exact perform_replays (submit_eq_ok.mp hanswered)
      · rw [hrestored.engine]
        exact .silent rfl rfl rfl
  | happening happening => exact replays_of_eq (after_happening p happening).engine

/-- Every run is told by the engine's events, from whatever state it starts. -/
theorem run_replays (p : Protocol) (turns : List Turn) :
    p.engine.Replays (p.run turns).engine := by
  have hstep : ∀ (q : Protocol) (turn : Turn), True → p.engine.Replays q.engine →
      p.engine.Replays (q.after turn).engine := by
    intro q turn _ h
    exact h.trans (after_replays q turn)
  exact run_induction hstep turns p (fun _ _ => trivial) .rfl

/-- **The engine can be rebuilt from its events.**  Read in order from the new engine on, they
give the present bad debt, the sizing of liquidations, the members of roles and whether the
engine is paused; they count the liquidations and add up what was repaid and written off.  A log
that dropped an event is full, so one that is not has lost none. -/
theorem engine_rebuilt_from_events {address debtToken admin : Address} {params : LiquidationParams}
    (hstart : Engine.start address debtToken admin params = .ok p.engine) (turns : List Turn)
    (hfew : (p.run turns).engine.events.told.length < retainedEvents.toNat) :
    let e := (p.run turns).engine
    e.events.told.foldlM Engine.Portrait.replay p.engine.portrait = .ok e.portrait ∧
      e.statistics.liquidations.toNat = e.events.told.countP Event.isLiquidation ∧
      e.statistics.debtRepaid.val = (e.events.told.map Event.debtRepaid).sum ∧
      e.statistics.socialized.val = (e.events.told.map Event.absorbed).sum := by
  intro e
  obtain ⟨hevents, hstatistics⟩ : p.engine.events = .standard ∧
      p.engine.statistics = ⟨0, 0, 0, 0⟩ := by
    simp only [Engine.start, Check.bind_eq_ok, Check.pure_eq_ok] at hstart
    obtain ⟨_, -, _, -, _, -, access, -, hengine⟩ := hstart
    rw [← hengine]
    exact ⟨rfl, rfl⟩
  obtain ⟨news, hnews, hportrait, hliquidations, hrepaid, hsocialized⟩ := run_replays p turns
  have htold : (p.run turns).engine.events.told = news.map Prod.snd := by
    rw [hnews, hevents] at hfew ⊢
    exact EventLog.told_addAll news _ hfew
  rw [← htold] at hportrait hliquidations hrepaid hsocialized
  rw [hstatistics] at hliquidations hrepaid hsocialized
  refine ⟨hportrait, ?_, ?_, ?_⟩
  · -- The count does not come round, because there are not that many events.
    have hcount := List.countP_le_length (p := Event.isLiquidation)
      (l := (p.run turns).engine.events.told)
    have hretained : retainedEvents.toNat < UInt64.size := by decide
    rw [hliquidations, UInt64.zero_add, UInt64.toNat_ofNat_of_lt']
    omega
  · rw [hrepaid]
    exact Nat.zero_add _
  · rw [hsocialized]
    exact Nat.zero_add _

/-- A shortfall is recorded, the share that may be repaid is changed, and the record is written
off. -/
def insolvency : List Turn :=
  Sample.opening ++
    [.happening (.setDebt Sample.alice Sample.loan),
      .happening (.setReserves Sample.unit), .happening (.setSupplied .largest),
      .call Sample.liquidator (.liquidate Sample.alice Sample.weth .largest),
      .call Sample.bob (.setCloseFactor 1),
      .call Sample.admin (.setCloseFactor 4000),
      .call Sample.admin (.socialize Sample.alice)]

/-- An insolvency can be read in five events; the sizing that bob asked for is not among them. -/
theorem engine_rebuilt_from_events_insolvency :
    let e := (Sample.start.run insolvency).engine
    Engine.start Sample.engineAccount Sample.debtToken Sample.admin .standard =
        .ok Sample.start.engine ∧
      e.events.told.length < retainedEvents.toNat ∧
      e.events.told.map Event.kind = ["RoleGranted", "BadDebtRecorded", "Liquidated",
        "LiquidationParamsUpdated", "BadDebtSocialized"] ∧
      e.events.told.foldlM Engine.Portrait.replay Sample.start.engine.portrait = .ok e.portrait ∧
      e.statistics.liquidations.toNat = e.events.told.countP Event.isLiquidation ∧
      e.statistics.debtRepaid.val = (e.events.told.map Event.debtRepaid).sum ∧
      e.statistics.socialized.val = (e.events.told.map Event.absorbed).sum := by
  have hstart : Engine.start Sample.engineAccount Sample.debtToken Sample.admin .standard =
      .ok Sample.start.engine := rfl
  exact ⟨hstart, by decide +kernel, by decide +kernel,
    engine_rebuilt_from_events hstart insolvency (by decide +kernel)⟩

end Protocol

end Custody
