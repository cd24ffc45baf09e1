/-
What a write-off changes, exactly.

Two amounts meet in a write-off.  The record of the borrower's bad debt is dropped whole, out of the
book and out of the book's total.  But somebody may have repaid since it was made, so no more is
written off than is still owed; that is what the debt falls by and what the losses are counted by.

A loss is borne on two levels, first by the reserves and then by the suppliers, and what suppliers
have borne is on record as their haircut.  How record, debt, reserves and supply compare decides
which of these moves, but the equations are the same for all cases.

Each book is stated by itself, with what stays the same in it.  The vault with its deposits and the
bank are not touched at all.

A write-off that is always refused would do all this, too.  So it is also said when one is answered:
if governance asks for it, and the two levels can bear the loss.
-/
import Custody.Proofs.Run

namespace Custody

open Custody.Action

/-! ### The ledger -/

namespace Ledger

variable {borrower : Address} {loss : Amount} {l m : Ledger}

/-- What the reserves bear of a loss. -/
def byReserves (l : Ledger) (loss : Amount) : Nat := min loss.val l.reserves.val

/-- What is left of it for the suppliers. -/
def bySuppliers (l : Ledger) (loss : Amount) : Nat := loss.val - l.byReserves loss

theorem bySuppliers_eq (l : Ledger) (loss : Amount) :
    l.bySuppliers loss = loss.val - l.reserves.val := by
  unfold bySuppliers byReserves
  omega

/-- One debt fell, the loss is borne, and nothing else of the ledger changed. -/
structure LossBorne (borrower : Address) (loss : Amount) (l m : Ledger) : Prop where
  debt : (m.debt borrower).val + loss.val = (l.debt borrower).val
  debts : ∀ u, u ≠ borrower → m.debt u = l.debt u
  outstanding : m.outstanding + loss.val = l.outstanding
  reserves : m.reserves.val + l.byReserves loss = l.reserves.val
  supplied : m.supplied.val + l.bySuppliers loss = l.supplied.val
  haircut : m.haircut.val = l.haircut.val + l.bySuppliers loss
  rejecting : m.rejecting = l.rejecting

theorem WrittenOff.lossBorne (h : WrittenOff borrower loss l m) : LossBorne borrower loss l m := by
  have hsuppliers := l.bySuppliers_eq loss
  refine ⟨?_, fun u hother => h.debt_of_ne hother, h.outstanding, ?_, ?_, ?_, h.rejecting⟩
  · have hdebt := h.debt borrower
    rw [if_pos rfl] at hdebt
    exact hdebt
  · rw [h.reserves, byReserves]
    omega
  · rw [hsuppliers]
    exact h.supplied
  · rw [hsuppliers]
    exact h.haircut

/-- Reductions are taken, and suppliers have what the reserves lack and can have it on record. -/
structure Bears (loss : Amount) (l : Ledger) : Prop where
  accepting : l.rejecting = false
  covered : l.bySuppliers loss ≤ l.supplied.val
  fits : l.haircut.val + l.bySuppliers loss < Amount.size

theorem absorb_answers (hcovered : l.bySuppliers loss ≤ l.supplied.val)
    (hfits : l.haircut.val + l.bySuppliers loss < Amount.size) : (absorb loss).Answers l := by
  have hremainder : (loss - min loss l.reserves).val = l.bySuppliers loss := by
    rw [Amount.val_sub, Amount.val_min]
    rfl
  refine answers_get (answers_refuseIf ?_ (answers_bind answers_set fun _ _ _ => ?_))
  · rw [Amount.lt_def, hremainder]
    exact Nat.not_lt.mpr hcovered
  · refine answers_check (a := ⟨_, hfits⟩) (Amount.add_eq_ok.mpr ?_) answers_modify
    rw [hremainder]

end Ledger

theorem Protocol.writeOff_answers {borrower : Address} {loss : Amount} {l : Ledger}
    (hbears : l.Bears loss) (howed : loss ≤ l.debt borrower) :
    (writeOff borrower loss).Answers l := by
  refine answers_bind (Ledger.reduce_answers hbears.accepting howed) fun _ m hreduce => ?_
  -- A reduction does not look at who bears losses.
  rw [(Ledger.reduce_ok hreduce).rest]
  exact Ledger.absorb_answers hbears.covered hbears.fits

/-! ### The book of bad debt -/

namespace BadDebt

variable {borrower : Address} {b c : BadDebt}

/-- One record was dropped, from the book and from its total. -/
structure Dropped (borrower : Address) (b c : BadDebt) : Prop where
  record : c.of borrower = 0
  records : ∀ u, u ≠ borrower → c.of u = b.of u
  total : c.total.val + (b.of borrower).val = b.total.val

theorem Cleared.dropped (h : Cleared borrower b c) : Dropped borrower b c := by
  refine ⟨?_, fun u hother => h.of_of_ne hother, h.total⟩
  have hrecord := h.record borrower
  rw [if_pos rfl] at hrecord
  exact Amount.ext hrecord

/-- A record is part of the total. -/
theorem Balanced.of_le_total (h : Balanced b) (borrower : Address) :
    (b.of borrower).val ≤ b.total.val := by
  rw [h, ← b.records.sum_erase borrower]
  exact Nat.le_add_left _ _

/-- What is on record can be dropped. -/
theorem clear_answers (hbalanced : Balanced b) (hrecorded : b.of borrower ≠ 0) :
    (clear borrower).Answers b := by
  have hpart := hbalanced.of_le_total borrower
  obtain ⟨rest, hrest⟩ : ∃ rest : Amount, rest.val + (b.of borrower).val = b.total.val :=
    ⟨⟨b.total.val - (b.of borrower).val, by have := b.total.isLt; omega⟩,
      Nat.sub_add_cancel hpart⟩
  have hsubtract := Amount.subtract_eq_ok.mpr hrest
  refine answers_get (answers_refuseIf hrecorded (answers_check hsubtract ?_))
  exact answers_bind answers_set fun _ _ _ => answers_pure

end BadDebt

/-! ### The call -/

namespace Protocol

variable {ctx : Context} {borrower : Address} {recorded absorbed : Amount} {p q : Protocol}

/-- A record was dropped, the loss is counted, both are told, and nothing else of the engine
changed: not its roles, not its sizing. -/
structure Forgiven (borrower : Address) (absorbed : Amount) (now : Timestamp) (e f : Engine) :
    Prop where
  book : BadDebt.Dropped borrower e.badDebt f.badDebt
  counted : f.statistics.socialized.val = e.statistics.socialized.val + absorbed.val
  statistics : f.statistics = { e.statistics with socialized := f.statistics.socialized }
  rest : f = { e with
    badDebt := f.badDebt
    statistics := f.statistics
    events := e.events.add now (.badDebtSocialized borrower (e.badDebt.of borrower) absorbed)
    guard := .free }

theorem Socialized.forgiven (h : Socialized ctx borrower absorbed p q) :
    Forgiven borrower absorbed ctx.now p.engine q.engine := by
  obtain ⟨sum, hsum, hstatistics⟩ := h.statistics
  refine ⟨h.cleared.dropped, ?_, ?_, h.engine⟩
  · rw [hstatistics]
    exact hsum
  · rw [hstatistics]

/-- What is written off of a borrower's debt: the record, as far as it is still owed. -/
def writtenOff (borrower : Address) (p : Protocol) : Amount :=
  min (p.engine.badDebt.of borrower) (p.ledger.debt borrower)

/-- Governance calls, there is a record, and what is still owed of it can be borne and counted. -/
structure Chargeable (ctx : Context) (borrower : Address) (p : Protocol) : Prop where
  free : p.engine.guard.entered = false
  role : p.engine.access.ensure .governance ctx.caller = .ok ()
  recorded : p.engine.badDebt.of borrower ≠ 0
  /-- Nothing is charged to the ledger if nothing is owed any more. -/
  bears : 0 < p.writtenOff borrower → p.ledger.Bears (p.writtenOff borrower)
  fits : p.engine.statistics.socialized.val + (p.writtenOff borrower).val < Amount.size

theorem forgive_answers (hbalanced : p.engine.badDebt.Balanced)
    (hrecorded : p.engine.badDebt.of borrower ≠ 0)
    (hfits : p.engine.statistics.socialized.val + absorbed.val < Amount.size) :
    (forgive ctx borrower recorded absorbed).Answers p := by
  have hclear := BadDebt.clear_answers hbalanced hrecorded
  refine answers_bind (answers_discard (answers_on (answers_on hclear))) fun _ q hq => ?_
  simp only [onEngine, Engine.onBadDebt, discard_eq_ok, on_eq_ok] at hq
  obtain ⟨_, _, ⟨_, -, rfl⟩, rfl⟩ := hq
  refine answers_get (answers_check (a := ⟨_, hfits⟩) (Amount.add_eq_ok.mpr rfl) ?_)
  refine answers_bind (answers_on (answers_bind answers_modify ?_)) fun _ _ _ => answers_pure
  exact fun _ _ _ => answers_modify

/-- What can be charged is written off. -/
theorem Chargeable.answers (h : Chargeable ctx borrower p)
    (hbalanced : p.engine.badDebt.Balanced) : (socialize ctx borrower).Answers p := by
  have howed : p.writtenOff borrower ≤ p.ledger.debt borrower := by
    rw [Amount.le_def, writtenOff, Amount.val_min]
    exact Nat.min_le_right _ _
  rw [socialize_eq]
  refine Guard.answers_hold h.free (answers_get (answers_check h.role ?_))
  refine answers_refuseIf h.recorded (answers_ite (fun hpositive => ?_) fun _ => ?_)
  · have hborne := writeOff_answers (h.bears hpositive) howed
    refine answers_bind (answers_on (answers_orRestore hborne)) fun _ q hq => ?_
    obtain ⟨l, -, rfl⟩ := on_eq_ok.mp hq
    exact forgive_answers hbalanced h.recorded h.fits
  · exact forgive_answers hbalanced h.recorded h.fits

private theorem accepting_of_socialize (h : socialize ctx borrower p = .ok absorbed q)
    (hpositive : 0 < p.writtenOff borrower) : p.ledger.rejecting = false := by
  simp only [socialize_eq, engineCall, Guard.hold_eq_ok, get_bind, refuseIf_eq_ok, bind_eq_ok,
    check_eq_ok] at h
  obtain ⟨-, _, ⟨_, _, ⟨-, rfl⟩, -, h⟩, -⟩ := h
  unfold writtenOff at hpositive
  rw [if_pos hpositive] at h
  simp only [onLedger, writeOff, bind_eq_ok, on_eq_ok, orRestore_eq_ok] at h
  obtain ⟨_, _, ⟨l, ⟨_, _, hreduce, -⟩, -⟩, -⟩ := h
  exact (Ledger.reduce_ok hreduce).accepting

/-- And nothing else is. -/
theorem chargeable_of_socialize (h : socialize ctx borrower p = .ok absorbed q) :
    Chargeable ctx borrower p := by
  have hsocialized := socialize_ok h
  have hborne := hsocialized.ledger.lossBorne
  obtain ⟨sum, hsum, -⟩ := hsocialized.statistics
  have hamount : absorbed = p.writtenOff borrower := hsocialized.amount
  rw [hamount] at hborne hsum
  refine ⟨hsocialized.free, hsocialized.role, hsocialized.recorded, fun hpositive => ?_, ?_⟩
  · refine ⟨accepting_of_socialize h hpositive, ?_, ?_⟩
    · rw [← hborne.supplied]
      exact Nat.le_add_left _ _
    · rw [← hborne.haircut]
      exact q.ledger.haircut.isLt
  · rw [← hsum]
    exact sum.isLt

/-- **A write-off is exact.**  While the book of bad debt is balanced, a write-off is answered
exactly if it can be charged.  In every state, if it is answered, it is answered with the record or
with what is still owed of it.  The debt fell by that and the loss is borne, while the record was
dropped whole, and nothing but the ledger and the engine changed.  A transaction is such a call,
made at the present time. -/
theorem write_off_exact (ctx : Context) (borrower : Address) (p : Protocol) :
    (p.engine.badDebt.Balanced →
      ((perform ctx (.socialize borrower)).Answers p ↔ Chargeable ctx borrower p)) ∧
    ∀ reply q, perform ctx (.socialize borrower) p = .ok reply q →
      ∃ absorbed : Amount, reply = .amount absorbed ∧
        absorbed = min (p.engine.badDebt.of borrower) (p.ledger.debt borrower) ∧
        Ledger.LossBorne borrower absorbed p.ledger q.ledger ∧
        Forgiven borrower absorbed ctx.now p.engine q.engine ∧
        q = { p with engine := q.engine, ledger := q.ledger } := by
  have hanswered : ∀ reply q, perform ctx (.socialize borrower) p = .ok reply q →
      ∃ absorbed, reply = .amount absorbed ∧ socialize ctx borrower p = .ok absorbed q := by
    intro reply q h
    simp only [perform, bind_eq_ok, pure_eq_ok] at h
    obtain ⟨absorbed, _, hsocialize, rfl, rfl⟩ := h
    exact ⟨absorbed, rfl, hsocialize⟩
  refine ⟨fun hbalanced => ⟨fun hanswers => ?_, fun hchargeable => ?_⟩, fun reply q h => ?_⟩
  · obtain ⟨reply, q, h⟩ := hanswers.exists_ok
    obtain ⟨absorbed, -, hsocialize⟩ := hanswered reply q h
    exact chargeable_of_socialize hsocialize
  · exact answers_bind (hchargeable.answers hbalanced) fun _ _ _ => answers_pure
  · obtain ⟨absorbed, hreply, hsocialize⟩ := hanswered reply q h
    have hsocialized := socialize_ok hsocialize
    exact ⟨absorbed, hreply, hsocialized.amount, hsocialized.ledger.lossBorne,
      hsocialized.forgiven, hsocialized.rest⟩

end Protocol

/-! ### Part of a record -/

namespace Sample

/-- Alice's second deposit is sold for a fifth of her debt, and what was not covered is on record.
After that she repays all but three thousand dollars. -/
def settling : List Turn :=
  [.call liquidator (.liquidate alice wbtc .largest),
    .happening (.reduceDebt alice ⟨5095238095238095238096, by decide⟩)]

end Sample

namespace Protocol

open Custody.Sample

/-- Of eight thousand dollars on record three thousand are still owed.  The reserves bear one of
them and the suppliers the others. -/
theorem write_off_exact_settling :
    let p := (indebted loan).run settling
    let absorbed : Amount := ⟨3000 * debtUnit.val, by decide⟩
    let q := (submit admin (.socialize alice)).left p
    perform ⟨admin, p.clock⟩ (.socialize alice) p = .ok (.amount absorbed) q ∧
      absorbed < p.engine.badDebt.of alice ∧
      p.ledger.byReserves absorbed = debtUnit.val ∧
      p.ledger.bySuppliers absorbed = 2999 * debtUnit.val ∧
      p.engine.badDebt.Balanced ∧ Chargeable ⟨admin, p.clock⟩ alice p ∧
      Ledger.LossBorne alice absorbed p.ledger q.ledger ∧
      Forgiven alice absorbed p.clock p.engine q.engine := by
  intro p absorbed q
  have hanswered : (submit admin (.socialize alice)).reply? p = some (.amount absorbed) := by
    decide +kernel
  have hperform : perform ⟨admin, p.clock⟩ (.socialize alice) p = .ok (.amount absorbed) q :=
    submit_eq_ok.mp (eq_ok_of_reply? hanswered)
  have hbalanced : p.engine.badDebt.Balanced := by
    unfold BadDebt.Balanced
    decide +kernel
  obtain ⟨hanswers, hexact⟩ := write_off_exact ⟨admin, p.clock⟩ alice p
  obtain ⟨amount, hamount, -, hborne, hforgiven, -⟩ := hexact _ q hperform
  obtain rfl := Reply.amount.inj hamount
  dsimp only at hforgiven
  have hnever : (perform ⟨admin, p.clock⟩ (.socialize alice)).Answers p := by
    intro e r hrefused
    rw [hperform] at hrefused
    cases hrefused
  exact ⟨hperform, by decide +kernel, by decide +kernel, by decide +kernel, hbalanced,
    (hanswers hbalanced).mp hnever, hborne, hforgiven⟩

end Protocol

end Custody
