/-
The records of the engine agree.

The engine keeps a book of bad debt with a total beside the records, and it counts
liquidations and, beside these, the capped ones.  Neither second number is ever read from
the first.  A call that is made directly restores nothing when it is refused, and a
liquidation can be refused between any two of its writings, so what has to agree is looked
at after each of them.

Counts are words and come round.  That the capped liquidations are no more than all of them
is therefore said of histories with fewer liquidations than a word counts, and what is
counted are the liquidations that the engine counts, the ones refused after that included.
-/
import Custody.Proofs.EngineReplay
import Custody.Proofs.Valuation

namespace Custody

open Custody.Action

/-! ### Adding up a tally -/

namespace Tally

theorem sum_eq_map (t : Tally) : t.sum = (t.entries.map fun e => e.2.val).sum := by
  unfold sum Table.sumOf
  induction t.entries with
  | nil => rfl
  | cons head rest ih => rw [Table.entrySum, List.map_cons, List.sum_cons, ih]

/-- The sum of a tally is the sum over all addresses. -/
theorem sum_eq_sum_amount (t : Tally) : t.sum = ∑ k, (t.amount k).val := by
  have hread : ∀ k, (t.amount k).val = ((t.get? k).map Amount.val).getD 0 := by
    intro k
    unfold amount
    cases t.get? k <;> rfl
  simp only [hread, Table.sum_get?, sum_eq_map]

end Tally

/-! ### The book of bad debt -/

namespace BadDebt

variable {b c : BadDebt}

/-- What can become of a book of bad debt. -/
inductive Change (b c : BadDebt) : Prop where
  | kept : c = b → Change b c
  /-- A shortfall is recorded only if there is one. -/
  | recorded {borrower : Address} {amount total : Amount} :
      0 < amount → record borrower amount b = .ok total c → Change b c
  | cleared {borrower : Address} {recorded : Amount} :
      clear borrower b = .ok recorded c → Change b c

/-- The total is the sum of the records, and nobody is on record for nothing. -/
structure Sound (b : BadDebt) : Prop where
  balanced : Balanced b
  positive : ∀ borrower amount, b.records.get? borrower = some amount → 0 < amount

theorem sound_empty : Sound empty where
  balanced := balanced_empty
  positive := nofun

/-- Both sums are formed before the book is written. -/
theorem record_clean {borrower : Address} {amount : Amount} : (record borrower amount).Clean b :=
  fun e _ hrefused => (record_refused_iff.mp ⟨e, hrefused⟩).1.symm

/-- A record is looked up and taken out of the total before the book is written. -/
theorem clear_clean {borrower : Address} : (clear borrower).Clean b := by
  refine clean_get (clean_refuseIf fun _ => clean_check fun _ _ => ?_)
  exact (answers_bind answers_set fun _ _ _ => answers_pure).clean

/-- **No change of a book takes its total away from its records.** -/
theorem Change.sound (h : b.Change c) (hb : Sound b) : Sound c := by
  cases h with
  | kept hc =>
      rw [hc]
      exact hb
  | @recorded borrower amount _ hpositive hrecord =>
      have hbalanced := (record_ok hrecord).2.balanced hb.balanced
      refine ⟨hbalanced, fun other recorded hget => ?_⟩
      obtain ⟨own, -, hown, rfl⟩ := record_book hrecord
      simp only [Table.get?_insert] at hget
      by_cases hother : other = borrower
      · -- The record of the borrower grew by a positive shortfall.
        rw [if_pos hother, Option.some.injEq] at hget
        rw [Amount.pos_iff] at hpositive ⊢
        rw [← hget]
        omega
      · rw [if_neg hother] at hget
        exact hb.positive other recorded hget
  | @cleared borrower _ hclear =>
      have hbalanced := (clear_ok hclear).2.balanced hb.balanced
      refine ⟨hbalanced, fun other recorded hget => ?_⟩
      obtain ⟨-, -, total, -, rfl⟩ := clear_book hclear
      simp only [Table.get?_erase] at hget
      by_cases hother : other = borrower
      · simp [hother] at hget
      · rw [if_neg hother] at hget
        exact hb.positive other recorded hget

/-- Adding up the records answers if their exact sum is an amount, and with that. -/
theorem sum_values_eq_ok {total : Amount} :
    sum b.records.values = .ok total ↔ total.val = b.records.sum := by
  have hvalues : (b.records.values.map Amount.val).sum = b.records.sum := by
    rw [Tally.sum_eq_map, Table.values, List.map_map]
    rfl
  have hread : ∀ a w : Amount, (Except.ok a : Except Error Amount) = .ok w → w.val = a.val :=
    fun a w hw => by rw [Except.ok.inj hw]
  refine (Amount.foldlM_add_eq_ok hread _ _ _).trans ?_
  rw [hvalues, Amount.val_zero, Nat.zero_add]
  exact and_iff_right fun a _ => ⟨a, rfl⟩

/-- A book passes its own check exactly if its total is the sum of the records. -/
theorem verify_eq_ok : b.verify = .ok () ↔ Balanced b := by
  unfold verify Balanced
  rw [Check.bind_eq_ok]
  constructor
  · rintro ⟨total, hsum, hequal⟩
    obtain ⟨hequal, -⟩ := Check.refuseIf_eq_ok.mp hequal
    rw [← sum_values_eq_ok.mp hsum, not_not.mp hequal]
  · intro hbalanced
    exact ⟨b.total, sum_values_eq_ok.mpr hbalanced,
      Check.refuseIf_eq_ok.mpr ⟨not_not.mpr rfl, rfl⟩⟩

theorem Balanced.verify_ok (h : Balanced b) : b.verify = .ok () := verify_eq_ok.mpr h

end BadDebt

/-! ### The counts -/

/-- What one call can do to the counts. -/
inductive Statistics.Change (s t : Statistics) : Prop where
  | kept : t.liquidations = s.liquidations → t.capped = s.capped → Change s t
  /-- The capped liquidations are counted last, so a refusal can come before. -/
  | counted : t.liquidations = s.liquidations + 1 →
      t.capped = s.capped ∨ t.capped = s.capped + 1 → Change s t

namespace Statistics

variable {s t : Statistics}

theorem Change.rfl : s.Change s := .kept (.refl _) (.refl _)

/-- How many liquidations were counted on the way from one state of the counts to another,
none or one. -/
def liquidationsTo (s t : Statistics) : Nat := if t.liquidations = s.liquidations then 0 else 1

/-- As long as the count does not come round, it is exact and bounds the other one. -/
theorem Change.counts (h : s.Change t) (hcapped : s.capped ≤ s.liquidations)
    (hfits : s.liquidations.toNat + s.liquidationsTo t < 2 ^ 64) :
    t.liquidations.toNat = s.liquidations.toNat + s.liquidationsTo t ∧
      t.capped ≤ t.liquidations := by
  unfold liquidationsTo at hfits ⊢
  cases h with
  | kept hliquidations hcount =>
      rw [hliquidations, hcount, if_pos (Eq.refl _)]
      exact ⟨Eq.refl _, hcapped⟩
  | counted hliquidations hcount =>
      have hne : t.liquidations ≠ s.liquidations := by
        intro heq
        have hone : s.liquidations.toNat = (s.liquidations.toNat + 1) % 2 ^ 64 := by
          conv_lhs => rw [← heq, hliquidations, UInt64.toNat_add]
          rfl
        have := s.liquidations.toNat_lt
        omega
      rw [if_neg hne] at hfits ⊢
      have hnext : t.liquidations.toNat = s.liquidations.toNat + 1 := by
        rw [hliquidations, UInt64.toNat_add]
        exact Nat.mod_eq_of_lt hfits
      refine ⟨hnext, ?_⟩
      rw [UInt64.le_iff_toNat_le] at hcapped ⊢
      rcases hcount with hcount | hcount
      · rw [hcount]
        omega
      · rw [hcount, UInt64.toNat_add]
        have : (s.capped.toNat + (1 : UInt64).toNat) % 2 ^ 64 ≤ s.capped.toNat + 1 :=
          Nat.mod_le ..
        omega

end Statistics

/-! ### The engine -/

namespace Engine

variable {e f : Engine}

/-- What can become of an engine. -/
structure Change (e f : Engine) : Prop where
  badDebt : e.badDebt.Change f.badDebt
  statistics : e.statistics.Change f.statistics
  sized : e.Sized → f.Sized

theorem SameRecords.change (h : SameRecords e f) : e.Change f where
  badDebt := .kept h.badDebt
  statistics := by
    rw [h.statistics]
    exact .rfl
  sized := h.sized

theorem Change.rfl : e.Change e := SameRecords.rfl.change

/-- A sizing that is in its bounds. -/
theorem Sized.bounds (h : e.Sized) :
    (0 < e.params.closeFactor ∧ e.params.closeFactor ≤ 10000) ∧
      0 < e.params.fullThreshold ∧ e.params.fullThreshold < 10000 := by
  simp only [Sized, LiquidationParams.validate, Check.bind_eq_ok] at h
  obtain ⟨_, hfactor, hthreshold⟩ := h
  unfold LiquidationParams.checkCloseFactor at hfactor
  unfold LiquidationParams.checkFullThreshold at hthreshold
  split at hfactor
  next => cases hfactor
  next hf =>
    split at hthreshold
    next => cases hthreshold
    next ht =>
      simp only [not_or, UInt64.not_lt, UInt64.not_le] at hf ht
      exact ⟨⟨UInt64.pos_iff_ne_zero.mpr hf.1, hf.2⟩, UInt64.pos_iff_ne_zero.mpr ht.1, ht.2⟩

end Engine

/-! ### Every call -/

namespace Protocol

variable {ctx : Context} {borrower token : Address} {offer shortfall absorbed : Amount}
  {quote : Quote} {p q : Protocol} {call : Call} {r : Unit} {α : Type}

/-- The book took up the shortfall, and the engine has not counted yet. -/
structure Charged (p q : Protocol) : Prop where
  badDebt : p.engine.badDebt.Change q.engine.badDebt
  statistics : q.engine.statistics = p.engine.statistics
  params : q.engine.params = p.engine.params

theorem Charged.change (h : Charged p q) : p.engine.Change q.engine where
  badDebt := h.badDebt
  statistics := by
    rw [h.statistics]
    exact .rfl
  sized := by
    intro hsized
    unfold Engine.Sized
    rw [h.params]
    exact hsized

private theorem tell_charged {now : Timestamp} {event : Event} (h : Charged p q) :
    (onEngine (Engine.tell now event)).Leaves q (Charged p) :=
  leaves_on (leaves_modify ⟨h.badDebt, h.statistics, h.params⟩)

private theorem recordShortfall_charged :
    (recordShortfall ctx borrower shortfall).Leaves p (Charged p) := by
  have hsame : Charged p p := ⟨.kept rfl, rfl, rfl⟩
  unfold recordShortfall
  refine leaves_ite (fun hpositive => ?_) fun _ => leaves_pure hsame
  have hrecord : (BadDebt.record borrower shortfall).Leaves p.engine.badDebt
      fun c => p.engine.badDebt.Change c := by
    refine leaves_of_cases (fun total c h => .recorded hpositive h) fun e c h => ?_
    exact .kept (BadDebt.record_clean e c h)
  refine leaves_bind (leaves_on (leaves_on (hrecord.imp fun c hc => ?_))) fun _ _ _ h => ?_
  · exact ⟨hc, rfl, rfl⟩
  · exact tell_charged h

private theorem count_change {e : Engine} {repaid : Amount} {capped : Bool} :
    (Engine.count repaid capped).Leaves e fun f =>
      f.badDebt = e.badDebt ∧ f.params = e.params ∧ e.statistics.Change f.statistics := by
  unfold Engine.count
  have hcounted : e.statistics.Change
      { e.statistics with liquidations := e.statistics.liquidations + 1 } :=
    .counted rfl (.inl rfl)
  refine leaves_bind (leaves_modify ⟨rfl, rfl, hcounted⟩) fun _ f hf h => ?_
  rw [modify_eq_ok] at hf
  subst hf
  refine leaves_get (leaves_check h fun sum _ => leaves_modify ⟨rfl, rfl, ?_⟩)
  cases capped with
  | true => exact .counted rfl (.inr rfl)
  | false => exact .counted rfl (.inl rfl)

/-- However far the engine comes with recording a liquidation. -/
private theorem commit_change : (commit ctx borrower token quote).Leaves p fun q =>
    p.engine.Change q.engine := by
  refine leaves_bind (recordShortfall_charged.imp fun _ h => h.change) fun _ mid hmid _ => ?_
  have hcharged : Charged p mid := recordShortfall_charged.of_ok hmid
  have hcount : (onEngine (Engine.count quote.repay quote.capped)).Leaves mid fun q =>
      p.engine.Change q.engine := by
    refine leaves_on
      (count_change.imp fun f ⟨hbadDebt, hparams, hstatistics⟩ => ⟨?_, ?_, ?_⟩)
    · show p.engine.badDebt.Change f.badDebt
      rw [hbadDebt]
      exact hcharged.badDebt
    · rw [← hcharged.statistics]
      exact hstatistics
    · intro hsized
      show f.params.validate = .ok ()
      rw [hparams]
      exact hcharged.change.sized hsized
  refine leaves_bind hcount fun _ _ _ h => leaves_on (leaves_modify ?_)
  exact ⟨h.badDebt, h.statistics, h.sized⟩

private theorem clear_change {e : Engine} :
    (Engine.onBadDebt (BadDebt.clear borrower)).Leaves e fun f =>
      e.Change f ∧ f.statistics = e.statistics := by
  refine leaves_on (leaves_of_cases (fun recorded c h => ?_) fun error c h => ?_)
  · exact ⟨⟨.cleared h, .rfl, id⟩, rfl⟩
  · obtain rfl := BadDebt.clear_clean error c h
    exact ⟨.rfl, rfl⟩

private theorem forgive_change {recorded : Amount} :
    (forgive ctx borrower recorded absorbed).Leaves p fun q => p.engine.Change q.engine := by
  have hclear : (onEngine (Engine.onBadDebt (BadDebt.clear borrower))).Leaves p fun q =>
      p.engine.Change q.engine ∧ q.engine.statistics = p.engine.statistics :=
    leaves_on clear_change
  refine leaves_bind (leaves_discard (hclear.imp fun _ h => h.1)) fun _ q hq h => ?_
  obtain ⟨_, hq⟩ := discard_eq_ok.mp hq
  obtain ⟨-, hstatistics⟩ := hclear.of_ok hq
  refine leaves_get (leaves_check h fun sum _ => ?_)
  have hcounts : p.engine.statistics.Change { q.engine.statistics with socialized := sum } := by
    rw [hstatistics]
    exact .kept rfl rfl
  refine leaves_bind (leaves_on (leaves_bind (leaves_modify ?_) ?_)) fun _ _ _ h => leaves_pure h
  · exact ⟨h.badDebt, hcounts, h.sized⟩
  · exact fun _ _ _ h => leaves_modify ⟨h.badDebt, h.statistics, h.sized⟩

/-- The vault is administered without the engine. -/
theorem vaultCall_engine {change : Action Vault α} :
    (vaultCall (onVault change)).Leaves p fun q => q.engine = p.engine :=
  Guard.leaves_hold rfl (leaves_on (leaves_of_forall fun _ => rfl))

/-! ### What reaches the engine -/

/-- Whatever is done with an engine, once it is entered, ends in a property that does not look at
the guard.  It is governed, it records a liquidation, or it forgives a record. -/
structure Ends (e : Engine) (Q : Engine → Prop) : Prop where
  guard : ∀ {f : Engine} {g : Guard}, Q f → Q { f with guard := g }
  kept : Q e
  governed : ∀ {ctx : Context} {change : Action Engine Unit}, Engine.Governs ctx change →
    change.Leaves e.entered Q
  committed : ∀ {ctx : Context} {borrower token : Address} {quote : Quote} {q : Protocol},
    q.engine = e.entered → (commit ctx borrower token quote).Leaves q fun s => Q s.engine
  forgiven : ∀ {ctx : Context} {borrower : Address} {recorded absorbed : Amount} {q : Protocol},
    q.engine = e.entered → (forgive ctx borrower recorded absorbed).Leaves q fun s => Q s.engine

section

variable {Q : Engine → Prop} (h : Ends p.engine Q)

include h

private theorem engineCall_ends {x : Action Protocol α}
    (hx : x.Leaves { p with engine := p.engine.entered } fun q => Q q.engine) :
    (engineCall x).Leaves p fun q => Q q.engine :=
  Guard.leaves_hold h.kept (hx.imp fun _ hq => h.guard hq)

private theorem liquidate_ends :
    (liquidate ctx borrower token offer).Leaves p fun q => Q q.engine := by
  have hentered : ∀ q : Protocol, q.engine = p.engine.entered → Q q.engine := by
    intro q hq
    rw [hq]
    exact h.guard h.kept
  rw [liquidate_eq]
  refine engineCall_ends h (leaves_get (leaves_check (hentered _ rfl) fun prepared _ => ?_))
  have hsettle : (settle ctx borrower token prepared.2).Leaves
      { p with engine := p.engine.entered } fun q => q.engine = p.engine.entered :=
    settle_settlement.imp fun _ hq => hq.engine
  refine leaves_bind (leaves_orRestore (hsettle.imp hentered) fun _ hq => hq) fun _ mid hmid _ => ?_
  have hengine : mid.engine = p.engine.entered := hsettle.of_ok (orRestore_eq_ok.mp hmid)
  exact leaves_bind (h.committed hengine) fun _ _ _ hq => leaves_pure hq

private theorem socialize_ends : (socialize ctx borrower).Leaves p fun q => Q q.engine := by
  have hentered : Q p.engine.entered := h.guard h.kept
  rw [socialize_eq]
  refine engineCall_ends h (leaves_get (leaves_check hentered fun _ _ => ?_))
  refine leaves_refuseIf hentered fun _ => leaves_ite (fun _ => ?_) fun _ => h.forgiven rfl
  refine leaves_bind (leaves_on (leaves_of_forall fun _ => hentered)) fun _ q hq _ => ?_
  simp only [onLedger, on_eq_ok] at hq
  obtain ⟨l, -, rfl⟩ := hq
  exact h.forgiven rfl

theorem governed_ends {change : Action Engine Unit} (hchange : Engine.Governs ctx change) :
    (engineCall (onEngine change)).Leaves p fun q => Q q.engine :=
  engineCall_ends h (leaves_on (h.governed hchange))

private theorem govern_ends {change : Action Engine Unit} (hchange : Engine.Governs ctx change) :
    (govern change).Leaves p fun q => Q q.engine :=
  leaves_bind (governed_ends h hchange) fun _ _ _ hq => leaves_pure hq

private theorem kept_ends (hq : q.engine = p.engine) : Q q.engine := by
  rw [hq]
  exact h.kept

/-- What leaves the engine alone leaves it alone with an answer, too. -/
private theorem answered_ends {x : Action Protocol α} {f : α → Reply}
    (hx : x.Leaves p fun q => q.engine = p.engine) :
    (x >>= fun a => pure (f a)).Leaves p fun q => Q q.engine :=
  leaves_bind (hx.imp fun _ hq => kept_ends h hq) fun _ _ _ hq => leaves_pure hq

/-- Of the two halves of a pause only the second is about the engine. -/
private theorem halves_ends {first : Action Vault Unit} {second : Action Engine Unit}
    (hsecond : Engine.Governs ctx second) :
    (do
      vaultCall (onVault first)
      engineCall (onEngine second)
      return .done : Action Protocol Reply).Leaves p fun q => Q q.engine := by
  refine leaves_bind (vaultCall_engine.imp fun _ hq => kept_ends h hq) fun _ mid hmid _ => ?_
  rw [← vaultCall_engine.of_ok hmid] at h
  exact leaves_bind (governed_ends h hsecond) fun _ _ _ hq => leaves_pure hq

/-- **Where a call can end**, answered or refused. -/
theorem perform_ends : (perform ctx call).Leaves p fun q => Q q.engine := by
  have hcustody : Custodial fun q => q.engine = p.engine := ⟨id, id⟩
  cases call with
  | deposit => exact answered_ends h (deposit_custodial hcustody rfl)
  | depositFor => exact answered_ends h (depositFor_custodial hcustody rfl)
  | withdraw => exact answered_ends h (withdraw_custodial hcustody rfl)
  | seize => exact answered_ends h (seize_custodial hcustody rfl)
  | withdrawFor => exact answered_ends h (withdrawFor_custodial hcustody rfl)
  | liquidate => exact leaves_bind (liquidate_ends h) fun _ _ _ hq => leaves_pure hq
  | socialize => exact leaves_bind (socialize_ends h) fun _ _ _ hq => leaves_pure hq
  | setCloseFactor => exact govern_ends h .closeFactor
  | setFullThreshold => exact govern_ends h .fullThreshold
  | grantEngineRole => exact govern_ends h .grant
  | revokeEngineRole => exact govern_ends h .revoke
  | pause => exact halves_ends h .pause
  | unpause => exact halves_ends h .unpause
  | _ => exact answered_ends h vaultCall_engine

end

private theorem change_entered {e f : Engine} (h : e.entered.Change f) : e.Change f :=
  ⟨h.badDebt, h.statistics, h.sized⟩

/-- Whatever is done with an engine is a change. -/
theorem change_ends (e : Engine) : Ends e e.Change where
  guard h := ⟨h.badDebt, h.statistics, h.sized⟩
  kept := .rfl
  governed hchange := hchange.records.imp fun _ h => change_entered h.change
  committed hq := by
    refine commit_change.imp fun _ h => ?_
    rw [hq] at h
    exact change_entered h
  forgiven hq := by
    refine forgive_change.imp fun _ h => ?_
    rw [hq] at h
    exact change_entered h

end Protocol

/-! ### Histories of the engine -/

/-- What can come next, seen from the engine. -/
inductive EngineEpisode where
  /-- An account calls the components, at a time that it tells. -/
  | direct (ctx : Context) (call : Call)
  /-- An account submits a call as a transaction. -/
  | submitted (caller : Address) (call : Call)
  /-- An account pauses the engine alone, or ends the pause. -/
  | pausing (ctx : Context) (paused : Bool)
  /-- The events of the engine are taken out. -/
  | drained
  /-- Anything at all happens around the engine. -/
  | around (vault : Vault) (ledger : Ledger) (oracle : Oracle) (bank : Bank) (clock : Timestamp)

namespace Protocol

/-- The state after an episode; what was called may have been refused. -/
def engineNext (p : Protocol) : EngineEpisode → Protocol
  | .direct ctx call => (perform ctx call).left p
  | .submitted caller call => (submit caller call).left p
  | .pausing ctx paused => (if paused then pauseEngine ctx else unpauseEngine ctx).left p
  | .drained => { p with engine := { p.engine with events := p.engine.events.drained } }
  | .around vault ledger oracle bank clock => ⟨vault, p.engine, ledger, oracle, bank, clock⟩

/-- The state after a history. -/
def engineThrough (p : Protocol) (episodes : List EngineEpisode) : Protocol :=
  episodes.foldl engineNext p

/-- How many liquidations the engine counts in a history. -/
def liquidationsIn (p : Protocol) : List EngineEpisode → Nat
  | [] => 0
  | episode :: rest =>
    p.engine.statistics.liquidationsTo (p.engineNext episode).engine.statistics +
      (p.engineNext episode).liquidationsIn rest

/-- **Where an episode can end**, unless it takes out the log. -/
theorem engineNext_ends {p : Protocol} {Q : Engine → Prop} (h : Ends p.engine Q)
    {episode : EngineEpisode} (hlog : episode ≠ .drained) : Q (p.engineNext episode).engine := by
  cases episode with
  | direct => exact perform_ends h
  | submitted caller call =>
      show (submit caller call).Leaves p fun q => Q q.engine
      refine leaves_of_cases (fun _ _ hsubmit => ?_) fun _ _ hsubmit => ?_
      · exact (perform_ends h).of_ok (submit_eq_ok.mp hsubmit)
      · rw [(submit_refused hsubmit).engine]
        exact h.guard h.kept
  | pausing ctx paused =>
      cases paused with
      | true => exact governed_ends h .pause
      | false => exact governed_ends h .unpause
  | drained => exact absurd rfl hlog
  | around => exact h.kept

/-- **What an episode makes of the engine.** -/
theorem engineNext_change (p : Protocol) (episode : EngineEpisode) :
    p.engine.Change (p.engineNext episode).engine := by
  by_cases hlog : episode = .drained
  · subst hlog
    exact ⟨.kept rfl, .rfl, id⟩
  · exact engineNext_ends (change_ends p.engine) hlog

/-- What survives every change holds after every history. -/
theorem engineThrough_induction {Inv : Engine → Prop}
    (hchange : ∀ {e f : Engine}, e.Change f → Inv e → Inv f) (episodes : List EngineEpisode) :
    ∀ p : Protocol, Inv p.engine → Inv (p.engineThrough episodes).engine := by
  induction episodes with
  | nil => intro p h; exact h
  | cons episode rest ih =>
      intro p h
      exact ih (p.engineNext episode) (hchange (p.engineNext_change episode) h)

/-- After a history with few enough liquidations the count is exact and bounds the other one. -/
theorem counts_through (episodes : List EngineEpisode) : ∀ p : Protocol,
    p.engine.statistics.capped ≤ p.engine.statistics.liquidations →
    p.engine.statistics.liquidations.toNat + p.liquidationsIn episodes < 2 ^ 64 →
    let s := (p.engineThrough episodes).engine.statistics
    s.liquidations.toNat = p.engine.statistics.liquidations.toNat + p.liquidationsIn episodes ∧
      s.capped ≤ s.liquidations := by
  induction episodes with
  | nil => intro p hcapped _; exact ⟨rfl, hcapped⟩
  | cons episode rest ih =>
      intro p hcapped hfew
      rw [liquidationsIn] at hfew ⊢
      have hstep := (p.engineNext_change episode).statistics
      obtain ⟨hcount, hcapped⟩ := hstep.counts hcapped (by omega)
      obtain ⟨htotal, hbound⟩ := ih (p.engineNext episode) hcapped (by omega)
      refine ⟨?_, hbound⟩
      rw [← Nat.add_assoc, ← hcount]
      exact htotal

/-- **The records of the engine agree after every history.**  The total of bad debt is the sum
of the records, which the engine finds itself, and every record is positive; the sizing of
liquidations is in its bounds; and as long as fewer liquidations were counted than a word
counts, the count is exact and the capped ones are among them.  Calls may be made directly or
as transactions, and be refused. -/
theorem engine_records_agree {p : Protocol} {address debtToken admin : Address}
    {params : LiquidationParams}
    (hstart : Engine.start address debtToken admin params = .ok p.engine)
    (episodes : List EngineEpisode) :
    let e := (p.engineThrough episodes).engine
    (e.badDebt.total.val = ∑ borrower, (e.badDebt.of borrower).val ∧ e.verify = .ok ()) ∧
      (∀ borrower amount, e.badDebt.records.get? borrower = some amount → 0 < amount) ∧
      ((0 < e.params.closeFactor ∧ e.params.closeFactor ≤ 10000) ∧
        0 < e.params.fullThreshold ∧ e.params.fullThreshold < 10000) ∧
      (p.liquidationsIn episodes < 2 ^ 64 →
        e.statistics.liquidations.toNat = p.liquidationsIn episodes ∧
          e.statistics.capped ≤ e.statistics.liquidations) := by
  intro e
  obtain ⟨hbadDebt, hstatistics, hsized⟩ : p.engine.badDebt = .empty ∧
      p.engine.statistics = ⟨0, 0, 0, 0⟩ ∧ p.engine.Sized := by
    simp only [Engine.start, Check.bind_eq_ok, Check.pure_eq_ok] at hstart
    obtain ⟨_, -, _, -, _, hvalid, access, -, hengine⟩ := hstart
    rw [← hengine]
    exact ⟨rfl, rfl, hvalid⟩
  have hbook : e.badDebt.Sound := by
    refine engineThrough_induction (fun h => h.badDebt.sound) episodes p ?_
    rw [hbadDebt]
    exact BadDebt.sound_empty
  have hbounds : e.Sized := engineThrough_induction (fun h => h.sized) episodes p hsized
  have htotal : e.badDebt.total.val = ∑ borrower, (e.badDebt.of borrower).val :=
    hbook.balanced.trans (Tally.sum_eq_sum_amount _)
  refine ⟨⟨htotal, hbook.balanced.verify_ok⟩, hbook.positive, hbounds.bounds,
    fun hfew => ?_⟩
  have hcounts := counts_through episodes p
  rw [hstatistics] at hcounts
  obtain ⟨hcount, hcapped⟩ := hcounts (by decide) (by simpa using hfew)
  exact ⟨by simpa using hcount, hcapped⟩

/-- The small world is put around a new engine.  Two liquidations are capped, one made directly
and one as a transaction, bob asks for a sizing, and one of the records is written off. -/
def reckoning : List EngineEpisode :=
  let world := Sample.indebted Sample.loan
  [.submitted Sample.admin (.grantEngineRole .governance Sample.admin),
    .around world.vault world.ledger world.oracle world.bank world.clock,
    .direct ⟨Sample.liquidator, 0⟩ (.liquidate Sample.alice Sample.weth .largest),
    .direct ⟨Sample.bob, 0⟩ (.setCloseFactor 1),
    .submitted Sample.liquidator (.liquidate Sample.bob Sample.weth .largest),
    .direct ⟨Sample.admin, 0⟩ (.socialize Sample.alice)]

/-- After the write-off the total is what bob has on record, and two liquidations are counted. -/
theorem engine_records_agree_reckoning :
    let e := (Sample.start.engineThrough reckoning).engine
    Engine.start Sample.engineAccount Sample.debtToken Sample.admin .standard =
        .ok Sample.start.engine ∧
      (0 < e.badDebt.total ∧ e.badDebt.total = e.badDebt.of Sample.bob) ∧
      Sample.start.liquidationsIn reckoning = 2 ∧ e.statistics.capped = 2 ∧
      e.verify = .ok () ∧ e.statistics.capped ≤ e.statistics.liquidations := by
  have hstart : Engine.start Sample.engineAccount Sample.debtToken Sample.admin .standard =
      .ok Sample.start.engine := rfl
  have hcount : Sample.start.liquidationsIn reckoning = 2 := by decide +kernel
  obtain ⟨⟨-, hverify⟩, -, -, hcounts⟩ := engine_records_agree hstart reckoning
  have hfew : Sample.start.liquidationsIn reckoning < 2 ^ 64 := by
    rw [hcount]
    decide
  exact ⟨hstart, by decide +kernel, hcount, by decide +kernel, hverify, (hcounts hfew).2⟩

end Protocol

end Custody
