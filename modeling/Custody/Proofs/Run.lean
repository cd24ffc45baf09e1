/-
Runs of the protocol.

A run is a list of turns.  In a turn an account submits a call, or something happens
around the components.  Either can be refused, and the run goes on from the state that
is left.  Nothing is assumed about who comes next, so a fact about all runs is a fact
about all orders.
-/
import Custody.Proofs.Call
import Custody.Protocol.Environment

namespace Custody

/-- A turn of a run. -/
inductive Turn where
  | call (caller : Address) (call : Call)
  | happening (happening : Happening)
deriving DecidableEq

/-- Any call, or a happening of a kind. -/
def Turn.Within (kind : Happening → Prop) : Turn → Prop
  | .call .. => True
  | .happening change => kind change

instance (kind : Happening → Prop) [DecidablePred kind] (turn : Turn) :
    Decidable (turn.Within kind) :=
  match turn with
  | .call .. => .isTrue trivial
  | .happening change => inferInstanceAs (Decidable (kind change))

namespace Protocol

open Custody.Action

variable {p q : Protocol} {caller : Address} {call : Call} {happening : Happening}

/-- The state after a turn, answered or refused. -/
def after (p : Protocol) : Turn → Protocol
  | .call caller call => (submit caller call).left p
  | .happening happening => (happen happening).left p

/-- The state after a run. -/
def run (p : Protocol) (turns : List Turn) : Protocol := turns.foldl after p

/-- What holds at the start and survives every turn of a kind holds after every run of
such turns. -/
theorem run_induction {Inv : Protocol → Prop} {Allowed : Turn → Prop}
    (hstep : ∀ p turn, Allowed turn → Inv p → Inv (p.after turn)) :
    ∀ (turns : List Turn) (p : Protocol), (∀ turn ∈ turns, Allowed turn) → Inv p →
      Inv (p.run turns) := by
  intro turns
  induction turns with
  | nil => intro p _ h; exact h
  | cons turn rest ih =>
      intro p hall h
      refine ih (p.after turn) (fun t ht => hall t (by simp [ht])) ?_
      exact hstep p turn (hall turn (by simp)) h

/-! ### One turn -/

/-- A submitted call was answered and had its effect, or it was refused and everything was
restored. -/
theorem after_call (p : Protocol) (caller : Address) (call : Call) :
    (∃ reply, submit caller call p = .ok reply (p.after (.call caller call)) ∧
      Effect ⟨caller, p.clock⟩ call reply p (p.after (.call caller call))) ∨
    (∃ e, submit caller call p = .error e (p.after (.call caller call)) ∧
      Restored p (p.after (.call caller call))) := by
  cases h : submit caller call p with
  | ok reply q =>
      have hafter : p.after (.call caller call) = q := left_of_ok h
      rw [hafter]
      exact .inl ⟨reply, rfl, submit_ok h⟩
  | error e q =>
      have hafter : p.after (.call caller call) = q := left_of_error h
      rw [hafter]
      exact .inr ⟨e, rfl, submit_refused h⟩

/-- The two components are as before. -/
structure Around (p q : Protocol) : Prop where
  vault : q.vault = p.vault
  engine : q.engine = p.engine

/-- What the bank does is all that happens to the bank. -/
theorem leaves_onBank {α : Type} {x : Action Bank α} {R : Bank → Prop}
    (h : x.Leaves p.bank R) : (onBank x).Leaves p fun q => R q.bank :=
  leaves_on h

/-- What the ledger does is all that happens to the ledger. -/
theorem leaves_onLedger {α : Type} {x : Action Ledger α} {R : Ledger → Prop}
    (h : x.Leaves p.ledger R) : (onLedger x).Leaves p fun q => R q.ledger :=
  leaves_on h

/-- Nothing but the ledger changed. -/
structure LedgerOnly (p q : Protocol) : Prop extends Around p q where
  bank : q.bank = p.bank

/-- Nothing but the bank changed. -/
structure BankOnly (p q : Protocol) : Prop extends Around p q where
  ledger : q.ledger = p.ledger

theorem onBank_only {α : Type} {x : Action Bank α} : (onBank x).Leaves p (BankOnly p) :=
  leaves_on (leaves_of_forall fun _ => ⟨⟨rfl, rfl⟩, rfl⟩)

theorem onLedger_only {α : Type} {x : Action Ledger α} :
    (onLedger x).Leaves p (LedgerOnly p) :=
  leaves_on (leaves_of_forall fun _ => ⟨⟨rfl, rfl⟩, rfl⟩)

/-- Whatever happens around the components leaves them alone. -/
theorem after_happening (p : Protocol) (happening : Happening) :
    Around p (p.after (.happening happening)) := by
  show (happen happening).Leaves p (Around p)
  cases happening with
  | setPrice | setBreaker | setDown | setTime | advance => exact ⟨rfl, rfl⟩
  | registerToken | setFee | setFrozen | mint | approve | transfer | transferFrom | burn =>
      exact onBank_only.toAround
  | setDebt | setReserves | setSupplied | setRejecting | reduceDebt | absorbLoss =>
      exact onLedger_only.toAround

/-- The engine keeps its account. -/
theorem after_engine_address (p : Protocol) (turn : Turn) :
    (p.after turn).engine.address = p.engine.address := by
  cases turn with
  | happening happening => rw [(after_happening p happening).engine]
  | call caller call =>
      rcases after_call p caller call with ⟨reply, -, heffect⟩ | ⟨e, -, hrestored⟩
      · generalize p.after (.call caller call) = q at heffect
        cases heffect.debt with
        | liquidated hliquidated => rw [hliquidated.committed.rest]
        | socialized hsocialized => rw [hsocialized.engine]
        | kept _ _ hrecords => exact hrecords.address
      · rw [hrestored.engine]
        rfl

/-! ### Where runs start -/

/-- A vault and an engine without history at different addresses, and an empty bank. -/
structure Fresh (p : Protocol) : Prop where
  vault : ∃ address admin borrowModule, Vault.start address admin borrowModule = .ok p.vault
  engine : ∃ address debtToken admin params,
    Engine.start address debtToken admin params = .ok p.engine
  apart : p.engine.address ≠ p.vault.address
  bank : p.bank = .empty

end Protocol

/-! ### A small world

Two users have deposited two tokens, one of which costs a fee of one percent on every
transfer, and a liquidator has the means to repay.  Debts are up to the run.
-/

namespace Sample

def vaultAccount : Address := .filled 1
def engineAccount : Address := .filled 2
def admin : Address := .filled 3
def borrowModule : Address := .filled 4
def debtToken : Address := .filled 5
def weth : Address := .filled 6
def wbtc : Address := .filled 7
def alice : Address := .filled 8
def bob : Address := .filled 9
def liquidator : Address := .filled 10

/-- One whole unit of every token here. -/
def unit : Amount := debtUnit

/-- Two thousand dollars. -/
def price : Amount := ⟨2000 * debtUnit.val, by decide⟩

def access : Access := ⟨Table.empty.insert .admin (KeySet.add Table.empty admin)⟩

/-- The protocol before anything happened. -/
def start : Protocol where
  vault := {
    address := vaultAccount
    access := access
    borrowModule := borrowModule
    configs := .empty
    listed := []
    deposits := .empty
    totals := .empty
    pendingAdds := .vacant "add collateral"
    pendingUpdates := .vacant "update collateral"
    pendingModule := .vacant "borrow module"
    paused := false
    events := .standard
    guard := .free }
  engine := {
    address := engineAccount
    debtToken := debtToken
    access := access
    params := .standard
    badDebt := .empty
    statistics := ⟨0, 0, 0, 0⟩
    paused := false
    events := .standard
    guard := .free }
  ledger := .empty
  oracle := .empty
  bank := .empty
  clock := 0

theorem fresh : start.Fresh where
  vault := ⟨vaultAccount, admin, borrowModule, rfl⟩
  engine := ⟨engineAccount, debtToken, admin, .standard, rfl⟩
  apart := by decide
  bank := rfl

/-- A user gets one unit of a token and deposits it. -/
def depositing (user token : Address) : List Turn :=
  [.happening (.mint token user unit),
    .happening (.approve token user vaultAccount unit),
    .call user (.deposit token unit)]

/-- The turns that make the world. -/
def opening : List Turn :=
  [.call admin (.grantVaultRole .governance admin),
    .call admin (.grantEngineRole .governance admin),
    .call admin (.grantVaultRole .liquidation engineAccount),
    .happening (.registerToken debtToken 18),
    .happening (.registerToken weth 18),
    .happening (.registerToken wbtc 18),
    .happening (.setFee weth 100),
    .call admin (.addCollateral weth ⟨7500, 8000, 500⟩),
    .call admin (.addCollateral wbtc ⟨7500, 8000, 500⟩),
    .happening (.setPrice weth price 18),
    .happening (.setPrice wbtc price 18),
    .happening (.mint debtToken liquidator .largest),
    .happening (.approve debtToken liquidator engineAccount .largest)]
  ++ depositing alice weth ++ depositing alice wbtc ++ depositing bob weth

/-- Five times the price of a unit. -/
def loan : Amount := ⟨10000 * debtUnit.val, by decide⟩

/-- The small world with both users in debt and with means to bear losses. -/
def indebted (debt : Amount) : Protocol :=
  start.run (opening ++
    [.happening (.setDebt alice debt), .happening (.setDebt bob debt),
      .happening (.setReserves unit), .happening (.setSupplied .largest)])

end Sample

end Custody
