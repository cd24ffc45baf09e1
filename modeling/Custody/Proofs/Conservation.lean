/-
Debt leaves the ledger in two ways only.

Four books are written by separate steps of a liquidation or a write-off: the debts,
the supply of the debt token, what stands behind the debts, and the statistics.  Over
any run they stay tied together.  What the debts lost was burned or written off, and
what was written off is missing from the reserves and the suppliers' deposits.

The two equations relate the state now to the state at the start, so a turn is read as
a step between two differences, and steps add up.
-/
import Custody.Proofs.Run

namespace Custody

/-! ### What must not happen -/

/-- Neither the ledger nor the supply of a token is touched, and the token stays without a
fee on transfers. -/
def Happening.KeepsValue (debtToken : Address) : Happening → Prop
  | .setDebt .. | .setReserves _ | .setSupplied _ | .setRejecting _ => False
  | .reduceDebt .. | .absorbLoss _ => False
  | .mint token .. | .burn token .. => token ≠ debtToken
  | .setFee token bps => token = debtToken → bps = 0
  | _ => True

instance (debtToken : Address) : DecidablePred (Happening.KeepsValue debtToken) := fun change =>
  match change with
  | .setDebt .. | .setReserves _ | .setSupplied _ | .setRejecting _ | .reduceDebt ..
  | .absorbLoss _ => .isFalse id
  | .mint token .. | .burn token .. => inferInstanceAs (Decidable (token ≠ debtToken))
  | .setFee token bps => inferInstanceAs (Decidable (token = debtToken → bps = 0))
  | .registerToken .. | .setFrozen .. | .approve .. | .transfer .. | .transferFrom ..
  | .setPrice .. | .setBreaker .. | .setDown .. | .setTime _ | .advance _ => .isTrue trivial

namespace Protocol

open Custody.Action

variable {p q s : Protocol}

/-! ### The two equations -/

/-- The supply of the debt token. -/
def debtSupply (p : Protocol) : Nat := (p.bank.totalSupply p.engine.debtToken).val

/-- What bears losses: the reserves and the deposits of suppliers. -/
def backing (p : Protocol) : Nat := p.ledger.reserves.val + p.ledger.supplied.val

/-- The bad debt written off so far. -/
def socialized (p : Protocol) : Nat := p.engine.statistics.socialized.val

/-- What is tied together between an earlier and a later state. -/
structure Conserved (p q : Protocol) : Prop where
  debtToken : q.engine.debtToken = p.engine.debtToken
  free : q.bank.fee q.engine.debtToken = 0
  /-- Debts were burned or written off. -/
  debts : p.ledger.outstanding + q.debtSupply + p.socialized =
    q.ledger.outstanding + p.debtSupply + q.socialized
  /-- What was written off was borne by somebody. -/
  losses : p.backing + p.socialized = q.backing + q.socialized

namespace Conserved

theorem refl (hfree : p.bank.fee p.engine.debtToken = 0) : Conserved p p :=
  ⟨rfl, hfree, rfl, rfl⟩

theorem trans (h : Conserved p q) (h' : Conserved q s) : Conserved p s where
  debtToken := h'.debtToken.trans h.debtToken
  free := h'.free
  debts := by
    have hdebts := h.debts
    have hdebts' := h'.debts
    omega
  losses := h.losses.trans h'.losses

/-! ### One turn -/

/-- Where the ledger and the engine's records stay, a steady debt token is enough. -/
theorem of_steady (hsteady : Bank.Steady p.engine.debtToken p.bank q.bank)
    (hdebtToken : q.engine.debtToken = p.engine.debtToken)
    (hstatistics : q.engine.statistics = p.engine.statistics) (hledger : q.ledger = p.ledger) :
    Conserved p q where
  debtToken := hdebtToken
  free := by rw [hdebtToken, hsteady.free]
  debts := by
    unfold debtSupply socialized
    rw [hdebtToken, hstatistics, hledger, hsteady.supply]
  losses := by
    unfold backing socialized
    rw [hstatistics, hledger]

/-- A liquidation burns what it takes out of the debt. -/
theorem liquidated {ctx : Context} {borrower token : Address} {offer : Amount}
    {health : UInt64} {quote : Quote} (hfree : p.bank.fee p.engine.debtToken = 0)
    (h : Liquidated ctx borrower token offer health quote p q) : Conserved p q := by
  obtain ⟨pulled, burned, hpull, hburn, hreleased⟩ := h.settled.moved
  have hpulled := (Bank.transferFrom_steady hfree).of_ok hpull
  have hburned := Bank.burn_ok hburn
  have hfree' : burned.fee p.engine.debtToken = 0 := by
    rw [← hpulled.free]
    simp only [Bank.fee, hburned.fees]
  have hsent := (Bank.transfer_steady hfree').of_ok hreleased.moved
  have hreduced := Ledger.reduce_ok h.settled.reduced
  have hdebtToken : q.engine.debtToken = p.engine.debtToken := by rw [h.committed.rest]
  have hsocialized : q.socialized = p.socialized := by
    obtain ⟨sum, -, hstatistics⟩ := h.committed.statistics
    unfold socialized
    rw [hstatistics]
    rfl
  have hsupply : q.debtSupply + quote.repay.val = p.debtSupply := by
    have heq := hburned.supply p.engine.debtToken
    rw [if_pos rfl, hpulled.supply] at heq
    unfold debtSupply
    rw [hdebtToken, hsent.supply, heq]
  refine ⟨hdebtToken, ?_, ?_, ?_⟩
  · rw [hdebtToken, hsent.free]
  · have houtstanding := hreduced.outstanding
    omega
  · unfold backing
    rw [hreduced.rest, hsocialized]

/-- A write-off takes the same amount out of the debt and out of the backing. -/
theorem socialized {ctx : Context} {borrower : Address} {absorbed : Amount}
    (hfree : p.bank.fee p.engine.debtToken = 0) (h : Socialized ctx borrower absorbed p q) :
    Conserved p q := by
  obtain ⟨sum, hsum, hstatistics⟩ := h.statistics
  have hdebtToken : q.engine.debtToken = p.engine.debtToken := by rw [h.engine]
  have hbank : q.bank = p.bank := by rw [h.rest]
  have hsupply : q.debtSupply = p.debtSupply := by
    unfold debtSupply
    rw [hdebtToken, hbank]
  have hwritten : q.socialized = p.socialized + absorbed.val := by
    unfold Protocol.socialized
    rw [hstatistics, hsum]
  refine ⟨hdebtToken, ?_, ?_, ?_⟩
  · rw [hdebtToken, hbank, hfree]
  · have houtstanding := h.ledger.outstanding
    omega
  · have hreserves := h.ledger.reserves
    have hsupplied := h.ledger.supplied
    unfold backing
    omega

/-- A deposit moves tokens and books them, and touches neither ledger nor engine. -/
theorem deposited {ctx : Context} {user token : Address} {amount received : Amount}
    {told : Event} (hfree : p.bank.fee p.engine.debtToken = 0)
    (h : Deposited ctx user token amount received told p q) : Conserved p q :=
  .of_steady ((Bank.transferFrom_steady hfree).of_ok h.moved) (by rw [h.engine])
    (by rw [h.engine]) h.ledger

theorem released {user token recipient : Address} {amount : Amount} {now : Timestamp}
    {told : Event} (hfree : p.bank.fee p.engine.debtToken = 0)
    (h : Released user token amount recipient now told p q) : Conserved p q :=
  .of_steady ((Bank.transfer_steady hfree).of_ok h.moved) (by rw [h.engine])
    (by rw [h.engine]) h.ledger

theorem after_call (hfree : p.bank.fee p.engine.debtToken = 0) (caller : Address)
    (call : Call) : Conserved p (p.after (.call caller call)) := by
  rcases Protocol.after_call p caller call with ⟨reply, -, heffect⟩ | ⟨e, -, hrestored⟩
  · generalize p.after (.call caller call) = q at heffect
    cases heffect with
    | deposited h => exact .deposited hfree h
    | depositedFor _ h => exact .deposited hfree h
    | withdrawn _ h => exact .released hfree h
    | seized _ h => exact .released hfree h
    | withdrawnFor _ h => exact .released hfree h
    | liquidated h => exact .liquidated hfree h
    | socialized h => exact .socialized hfree h
    | administered _ h =>
        have hsteady : Bank.Steady p.engine.debtToken p.bank q.bank := by
          rw [h.bank]
          exact .rfl hfree
        exact .of_steady hsteady h.engine.debtToken h.engine.statistics h.ledger
  · refine .of_steady ?_ ?_ ?_ hrestored.ledger
    · rw [hrestored.bank]
      exact .rfl hfree
    · rw [hrestored.engine]
      rfl
    · rw [hrestored.engine]
      rfl

theorem after_happening (hfree : p.bank.fee p.engine.debtToken = 0) {happening : Happening}
    (hkeeps : happening.KeepsValue p.engine.debtToken) :
    Conserved p (p.after (.happening happening)) := by
  obtain ⟨-, hengine⟩ := Protocol.after_happening p happening
  have hrest : (happen happening).Leaves p fun q =>
      Bank.Steady p.engine.debtToken p.bank q.bank ∧ q.ledger = p.ledger := by
    cases happening with
    | registerToken =>
        exact ⟨leaves_onBank (Bank.register_steady hfree), onBank_only.ledger⟩
    | setFee => exact ⟨leaves_onBank (Bank.setFee_steady hfree hkeeps), onBank_only.ledger⟩
    | setFrozen => exact ⟨leaves_onBank (Bank.setFrozen_steady hfree), onBank_only.ledger⟩
    | mint => exact ⟨leaves_onBank (Bank.mint_steady hfree hkeeps), onBank_only.ledger⟩
    | approve => exact ⟨leaves_onBank (Bank.approve_steady hfree), onBank_only.ledger⟩
    | transfer => exact ⟨leaves_onBank (Bank.transfer_steady hfree), onBank_only.ledger⟩
    | transferFrom =>
        exact ⟨leaves_onBank (Bank.transferFrom_steady hfree), onBank_only.ledger⟩
    | burn => exact ⟨leaves_onBank (Bank.burn_steady hfree hkeeps), onBank_only.ledger⟩
    | setDebt | setReserves | setSupplied | setRejecting | reduceDebt | absorbLoss =>
        exact hkeeps.elim
    | setPrice | setBreaker | setDown | setTime | advance => exact ⟨.rfl hfree, rfl⟩
  exact .of_steady hrest.1 (by rw [hengine]) (by rw [hengine]) hrest.2

end Conserved

theorem conserved_after (p s : Protocol) (turn : Turn)
    (hkeeps : turn.Within (Happening.KeepsValue p.engine.debtToken)) (h : Conserved p s) :
    Conserved p (s.after turn) := by
  refine h.trans ?_
  cases turn with
  | call caller call => exact .after_call h.free caller call
  | happening happening =>
      rw [← h.debtToken] at hkeeps
      exact .after_happening h.free hkeeps

/-! ### Every run -/

/-- **Debt is burned or written off, and what is written off is borne.**  Without a fee on
the debt token, and with nobody else touching the ledger or the debt token's supply, both
equations hold between the start and the end of every run. -/
theorem value_conserved (hfree : p.bank.fee p.engine.debtToken = 0) (turns : List Turn)
    (hturns : ∀ turn ∈ turns, turn.Within (Happening.KeepsValue p.engine.debtToken)) :
    (p.ledger.outstanding : Int) - (p.run turns).ledger.outstanding =
        (p.bank.totalSupply p.engine.debtToken).val
          - ((p.run turns).bank.totalSupply p.engine.debtToken).val
          + ((p.run turns).engine.statistics.socialized.val
            - p.engine.statistics.socialized.val) ∧
      ((p.ledger.reserves.val + p.ledger.supplied.val : Nat) : Int)
          - ((p.run turns).ledger.reserves.val + (p.run turns).ledger.supplied.val : Nat) =
        (p.run turns).engine.statistics.socialized.val
          - p.engine.statistics.socialized.val := by
  have h := run_induction (conserved_after p) turns p hturns (.refl hfree)
  have hdebts := h.debts
  have hlosses := h.losses
  unfold debtSupply at hdebts
  rw [h.debtToken] at hdebts
  unfold socialized at hdebts hlosses
  unfold backing at hlosses
  constructor
  · omega
  · omega

/-- A liquidation that falls short, a refused one, and a write-off. -/
def defaulting : List Turn :=
  [.call Sample.liquidator (.liquidate Sample.alice Sample.weth .largest),
    .call Sample.alice (.liquidate Sample.alice Sample.wbtc .largest),
    .happening (.setPrice Sample.weth Sample.unit 18),
    .call Sample.admin (.socialize Sample.alice)]

/-- In the small world a debt of ten thousand is gone after a default: a part of it was
burned, and the rest was borne by the reserves and by the suppliers. -/
theorem value_conserved_defaulting :
    let p := Sample.indebted Sample.loan
    let q := p.run defaulting
    p.bank.fee p.engine.debtToken = 0 ∧
    (∀ turn ∈ defaulting, turn.Within (Happening.KeepsValue p.engine.debtToken)) ∧
    (p.ledger.outstanding = q.ledger.outstanding + 10000000000000000000000 ∧
      q.ledger.reserves = 0) ∧
    (p.ledger.outstanding : Int) - q.ledger.outstanding =
      (p.bank.totalSupply p.engine.debtToken).val - (q.bank.totalSupply p.engine.debtToken).val
        + (q.engine.statistics.socialized.val - p.engine.statistics.socialized.val) ∧
    ((p.ledger.reserves.val + p.ledger.supplied.val : Nat) : Int)
        - (q.ledger.reserves.val + q.ledger.supplied.val : Nat) =
      q.engine.statistics.socialized.val - p.engine.statistics.socialized.val :=
  ⟨by decide +kernel, by decide +kernel, by decide +kernel,
    value_conserved (by decide +kernel) defaulting (by decide +kernel)⟩

end Protocol

end Custody
