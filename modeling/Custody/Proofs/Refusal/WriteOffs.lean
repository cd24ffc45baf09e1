/-
What a refused write-off leaves behind.

A write-off charges the ledger, drops the record of the borrower and then counts what was charged.
The ledger restores itself if it cannot bear the loss, and dropping a record that is there is not
refused, because the total covers every record.  The count can be refused: it adds up all that was
ever written off, and the sum may pass the largest amount.  Nothing takes the charge back then.  The
debt is gone and so is the record, but no loss is counted and no event is told.

The records that are still there are no more than their total, so one comparison tells that no
write-off can come to this.
-/
import Custody.Proofs.Reached
import Custody.Proofs.Refusal
import Custody.Proofs.WriteOff

namespace Custody

open Custody.Action

namespace Protocol

variable {ctx : Context} {borrower : Address} {recorded absorbed : Amount} {p q : Protocol}
  {l : Ledger} {c : BadDebt}

/-- What is charged to the ledger is charged whole or not at all. -/
private theorem charge_clean :
    (onLedger (orRestore (fun before _ => before) (writeOff borrower absorbed))).Clean p := by
  refine clean_on (fun e l hrefused => ?_) rfl
  obtain ⟨_, -, hrestored⟩ := orRestore_eq_error.mp hrefused
  exact hrestored.symm

/-- After the record was dropped, only the count is refused. -/
theorem forgive_refused_iff (hbalanced : p.engine.badDebt.Balanced)
    (hrecorded : p.engine.badDebt.of borrower ≠ 0) :
    (∃ e, forgive ctx borrower recorded absorbed p = .error e q) ↔
      Amount.size ≤ p.engine.statistics.socialized.val + absorbed.val ∧
      ∃ c, BadDebt.clear borrower p.engine.badDebt = .ok (p.engine.badDebt.of borrower) c ∧
        q = { p with engine := { p.engine with badDebt := c } } := by
  obtain ⟨amount, c, hclear⟩ := (BadDebt.clear_answers hbalanced hrecorded).exists_ok
  obtain ⟨rfl, -⟩ := BadDebt.clear_ok hclear
  have hdropped : discard (onEngine (Engine.onBadDebt (BadDebt.clear borrower))) p =
      .ok ⟨⟩ { p with engine := { p.engine with badDebt := c } } := by
    refine discard_eq_ok.mpr ⟨_, on_eq_ok.mpr ⟨_, on_eq_ok.mpr ⟨c, hclear, rfl⟩, rfl⟩⟩
  unfold forgive
  rw [bind_of_ok hdropped]
  simp only [get_bind, bind_eq_error, check_eq_error, on_eq_error, onEngine, Engine.tell,
    modify_bind, modify_ne_error, pure_ne_error, false_and, and_false, exists_false, or_false,
    Amount.add_eq_error, hclear]
  constructor
  · rintro ⟨e, ⟨hlarge, -⟩, rfl⟩
    exact ⟨hlarge, c, rfl, rfl⟩
  · rintro ⟨hlarge, _, hsame, rfl⟩
    cases hsame
    exact ⟨_, ⟨hlarge, rfl⟩, rfl⟩

/-- A write-off that governance asked for, that the ledger bore and that could not be counted. -/
structure Uncounted (ctx : Context) (borrower : Address) (p : Protocol) (l : Ledger)
    (c : BadDebt) : Prop where
  role : p.engine.access.ensure .governance ctx.caller = .ok ()
  charged : writeOff borrower (p.writtenOff borrower) p.ledger = .ok () l
  dropped : BadDebt.clear borrower p.engine.badDebt = .ok (p.engine.badDebt.of borrower) c
  overflows : Amount.size ≤ p.engine.statistics.socialized.val + (p.writtenOff borrower).val

/-- What passes the largest amount together with the count is something. -/
theorem Uncounted.positive (h : Uncounted ctx borrower p l c) : 0 < p.writtenOff borrower := by
  have hoverflows := h.overflows
  have hbound := p.engine.statistics.socialized.isLt
  rw [Amount.pos_iff]
  omega

theorem Uncounted.on_record (h : Uncounted ctx borrower p l c) :
    p.engine.badDebt.of borrower ≠ 0 := by
  have hpositive := h.positive
  rw [writtenOff, Amount.pos_iff, Amount.val_min] at hpositive
  intro hzero
  rw [hzero, Amount.val_zero] at hpositive
  omega

/-- Inside a call of the engine. -/
private theorem socialize_steps_marks_iff {u : Protocol}
    (hbalanced : p.engine.badDebt.Balanced) :
    (do
      let p ← get
      p.engine.access.ensure .governance ctx.caller
      let recorded := p.engine.badDebt.of borrower
      if recorded = 0 then throw (.noBadDebt borrower)
      let absorbed := min recorded (p.ledger.debt borrower)
      if 0 < absorbed then
        onLedger (orRestore (fun before _ => before) (writeOff borrower absorbed))
      forgive ctx borrower recorded absorbed : Action Protocol Amount).Marks p u ↔
      ∃ l c, Uncounted ctx borrower p l c ∧
        u = { p with ledger := l, engine := { p.engine with badDebt := c } } := by
  rw [marks_get, marks_check]
  simp only [marks_refuseIf]
  constructor
  · rintro ⟨_, hrole, hrecorded, hmarks⟩
    by_cases hpositive : 0 < min (p.engine.badDebt.of borrower) (p.ledger.debt borrower)
    · rw [if_pos hpositive, marks_bind_of_clean charge_clean] at hmarks
      obtain ⟨_, q, hq, hforgive, -⟩ := hmarks
      simp only [onLedger, on_eq_ok, orRestore_eq_ok] at hq
      obtain ⟨l, hcharged, rfl⟩ := hq
      obtain ⟨hlarge, c, hdropped, rfl⟩ :=
        (forgive_refused_iff (by exact hbalanced) (by exact hrecorded)).mp hforgive
      exact ⟨l, c, ⟨hrole, hcharged, hdropped, hlarge⟩, rfl⟩
    · -- The count does not pass the largest amount by nothing.
      rw [if_neg hpositive] at hmarks
      obtain ⟨hlarge, -⟩ := (forgive_refused_iff hbalanced hrecorded).mp hmarks.1
      have hzero := Amount.eq_zero_iff.mp (Amount.not_pos_iff.mp hpositive)
      have hbound := p.engine.statistics.socialized.isLt
      omega
  · rintro ⟨l, c, h, rfl⟩
    refine ⟨(), h.role, h.on_record, ?_⟩
    have hcharged : onLedger (orRestore (fun before _ => before)
        (writeOff borrower (p.writtenOff borrower))) p = .ok () { p with ledger := l } :=
      on_eq_ok.mpr ⟨l, orRestore_eq_ok.mpr h.charged, rfl⟩
    have hpositive := h.positive
    unfold writtenOff at hpositive
    rw [if_pos hpositive, marks_bind_of_clean charge_clean]
    refine ⟨(), _, hcharged, ?_, ?_⟩
    · exact (forgive_refused_iff (by exact hbalanced) (by exact h.on_record)).mpr
        ⟨h.overflows, c, h.dropped, rfl⟩
    · intro hsame
      have hrecord := ((BadDebt.clear_ok h.dropped).2.dropped).record
      have hbook : c = p.engine.badDebt := congrArg (fun q => q.engine.badDebt) hsame
      rw [hbook] at hrecord
      exact h.on_record hrecord

private theorem uncounted_entered :
    Uncounted ctx borrower p.entered l c ↔ Uncounted ctx borrower p l c :=
  ⟨fun h => ⟨h.role, h.charged, h.dropped, h.overflows⟩,
    fun h => ⟨h.role, h.charged, h.dropped, h.overflows⟩⟩

/-- **A refused write-off leaves a trace exactly if it could not be counted.** -/
theorem socialize_marks_iff (hbalanced : p.engine.badDebt.Balanced) :
    (socialize ctx borrower).Marks p q ↔
      p.engine.guard = .free ∧ ∃ l c, Uncounted ctx borrower p l c ∧
        q = { p with ledger := l, engine := { p.engine with badDebt := c } } := by
  have hentered : p.entered.engine.badDebt.Balanced := hbalanced
  rw [socialize_eq]
  unfold engineCall
  refine (Guard.marks_hold ?_ ?_ fun u hu => ?_).trans ⟨?_, ?_⟩
  · exact fun _ => rfl
  · exact fun _ _ _ => rfl
  · obtain ⟨l, c, -, rfl⟩ := (socialize_steps_marks_iff hentered).mp hu
    rfl
  · rintro ⟨hfree, u, hu, rfl⟩
    obtain ⟨l, c, h, rfl⟩ := (socialize_steps_marks_iff hentered).mp hu
    refine ⟨Guard.eq_free hfree, l, c, uncounted_entered.mp h, ?_⟩
    rw [← Guard.eq_free hfree]
    rfl
  · rintro ⟨hfree, l, c, h, rfl⟩
    refine ⟨congrArg Guard.entered hfree, _,
      (socialize_steps_marks_iff hentered).mpr ⟨l, c, uncounted_entered.mpr h, rfl⟩, ?_⟩
    rw [← hfree]
    rfl

/-- **If the count has room for all bad debt on record**, no refused write-off leaves a trace. -/
theorem socialize_clean (hbalanced : p.engine.badDebt.Balanced)
    (hroom : p.engine.statistics.socialized.val + p.engine.badDebt.total.val < Amount.size) :
    (socialize ctx borrower).Clean p := by
  refine clean_iff_marks.mpr fun q hmarks => ?_
  obtain ⟨-, l, c, h, -⟩ := (socialize_marks_iff hbalanced).mp hmarks
  have hrecord := hbalanced.of_le_total borrower
  have hoverflows := h.overflows
  rw [writtenOff, Amount.val_min] at hoverflows
  omega

/-! ### With any history -/

/-- **A refused write-off is uncounted or leaves no trace.**  For an engine with any history, and
whatever is around it: if a write-off is refused and the state is not the same as before, the
ledger was charged and the record dropped, the count would have passed the largest amount, and
nothing else has changed; and whenever it is so, the write-off is refused and leaves this. -/
theorem refused_write_off_uncounted_iff (hengine : p.engine.Reached) (ctx : Context)
    (borrower : Address) (q : Protocol) :
    (socialize ctx borrower).Marks p q ↔
      p.engine.guard = .free ∧ ∃ l c, Uncounted ctx borrower p l c ∧
        q = { p with ledger := l, engine := { p.engine with badDebt := c } } :=
  socialize_marks_iff hengine.badDebt_sound.balanced

/-- Two debts of the largest amount are liquidated, and of the first one the bad debt is written
off.  The reserves can bear either. -/
def twofold : List Turn :=
  [.happening (.setReserves .largest),
    .call Sample.liquidator (.liquidate Sample.alice Sample.weth .largest),
    .call Sample.admin (.socialize Sample.alice),
    .happening (.setReserves .largest),
    .call Sample.liquidator (.liquidate Sample.bob Sample.weth .largest)]

/-- What is left of the protocol by the second write-off. -/
def uncounted : Protocol :=
  (socialize ⟨Sample.admin, 0⟩ Sample.bob).left ((Sample.indebted .largest).run twofold)

private theorem twofold_charged : uncounted.ledger.debt Sample.bob ≠
    ((Sample.indebted .largest).run twofold).ledger.debt Sample.bob := by
  decide +kernel

private theorem twofold_refused : ∃ e, socialize ⟨Sample.admin, 0⟩ Sample.bob
    ((Sample.indebted .largest).run twofold) = .error e uncounted :=
  exists_error_of_reply? (by decide +kernel)

private theorem twofold_reached : ((Sample.indebted .largest).run twofold).Reached := by
  have hindebted : (Sample.indebted .largest).Reached := Sample.fresh.reached.run _
  exact hindebted.run twofold

/-- Bob's debt is gone with the record of it, and what was written off is counted without it. -/
theorem refused_write_off_uncounted_twofold :
    let p := (Sample.indebted .largest).run twofold
    let q := uncounted
    p.engine.Reached ∧
      (0 < p.ledger.debt Sample.bob ∧ q.ledger.debt Sample.bob = 0) ∧
      (0 < p.engine.badDebt.of Sample.bob ∧ q.engine.badDebt.of Sample.bob = 0) ∧
      q.engine.statistics = p.engine.statistics ∧
      ∃ l c, Uncounted ⟨Sample.admin, 0⟩ Sample.bob p l c ∧
        q = { p with ledger := l, engine := { p.engine with badDebt := c } } := by
  intro p q
  have hengine : p.engine.Reached := twofold_reached.engine
  have hmarks : (socialize ⟨Sample.admin, 0⟩ Sample.bob).Marks p q :=
    ⟨twofold_refused, fun hsame => twofold_charged (congrArg (·.ledger.debt Sample.bob) hsame)⟩
  obtain ⟨-, hleft⟩ :=
    (refused_write_off_uncounted_iff hengine ⟨Sample.admin, 0⟩ Sample.bob q).mp hmarks
  exact ⟨hengine, by decide +kernel, by decide +kernel, by decide +kernel, hleft⟩

/-- So it is not the case that every refused write-off leaves the ledger and the records of the
engine as they were. -/
theorem refused_write_off_not_undone :
    ¬ ∀ (p q : Protocol) (ctx : Context) (borrower : Address) (e : Error),
      p.engine.Reached → socialize ctx borrower p = .error e q →
        q.ledger = p.ledger ∧ q.engine.badDebt = p.engine.badDebt ∧
          q.engine.statistics = p.engine.statistics ∧ q.engine.events = p.engine.events := by
  intro hundone
  obtain ⟨e, hrefused⟩ := twofold_refused
  obtain ⟨hledger, -⟩ := hundone _ _ _ _ e twofold_reached.engine hrefused
  exact twofold_charged (congrArg (·.debt Sample.bob) hledger)

end Protocol

end Custody
