/-
The world of a scenario.

A scenario's world is built like any other, by things that happen and by calls that accounts make,
and each of them could be refused.  What a scenario chooses are amounts, decimals, a price and risk
parameters, so the question is which of these choices can stand in the way.

Nothing is too large: each token is created once, in a bank that has none of it, and the deposit is
the first.  Nobody lacks a role, a balance or an allowance, because the world hands them out before
they are needed.  So only parameters are refused, those of the engine or those of the collateral.
With valid ones there is a world, and in it nothing that others decide is in the way of a
liquidation.
-/
import Custody.Proofs.Cause
import Custody.Proofs.Dealing
import Custody.Proofs.Membership
import Custody.Proofs.Scenario

namespace Custody

open Custody.Action

/-- A list of steps goes on after a step that answers. -/
theorem Action.forM_of_ok {σ α : Type} {f : α → Action σ PUnit} {a : α}
    {l : List α} {s t : σ}
    (h : f a s = .ok ⟨⟩ t) : (a :: l).forM f s = l.forM f t :=
  bind_of_ok h

/-- And it stops at one that is refused. -/
theorem Action.forM_of_error {σ α : Type} {f : α → Action σ PUnit} {a : α}
    {l : List α} {s t : σ}
    {e : Error} (h : f a s = .error e t) : (a :: l).forM f s = .error e t :=
  bind_of_error h

/-! ### Stocks -/

/-- Tokens of an account, all of which another account may move. -/
structure Stock where
  token : Address
  decimals : UInt8
  owner : Address
  spender : Address
  amount : Amount

namespace Bank

variable {b c : Bank} {x y : Stock}

/-- The bank in which an account is given the first tokens of a kind. -/
structure Given (x : Stock) (b c : Bank) : Prop where
  decimals : c.decimals = b.decimals
  fees : c.fees = b.fees
  frozen : c.frozen = b.frozen
  supply : ∀ t, c.totalSupply t = if t = x.token then x.amount else b.totalSupply t
  balance : ∀ t a,
    c.balance t a = if t = x.token ∧ a = x.owner then x.amount else b.balance t a
  allowance : ∀ t o s, c.allowance t o s =
    if t = x.token ∧ o = x.owner ∧ s = x.spender then x.amount else b.allowance t o s

/-- What the first tokens of a kind come to is no sum. -/
theorem give (hknown : b.decimals.contains x.token = true) (hsupply : b.totalSupply x.token = 0)
    (hbalance : b.balance x.token x.owner = 0) :
    ∃ mid, mint x.token x.owner x.amount b = .ok () mid ∧
      ∃ c, approve x.token x.owner x.spender x.amount mid = .ok () c ∧ Given x b c := by
  have hsum : (0 : Amount).add x.amount = .ok x.amount :=
    Amount.add_eq_ok.mpr (Nat.zero_add x.amount.val).symm
  have hminted : mint x.token x.owner x.amount b = .ok () { b with
      balances := Book.put b.balances x.token x.owner x.amount
      supply := b.supply.insert x.token x.amount } := by
    simp only [mint, putBalance, putSupply, get_bind, modify_bind, bind_eq_ok, check_eq_ok,
      modify_eq_ok, hsupply, hbalance, hsum]
    exact ⟨_, _, ⟨ensureKnown_eq_ok.mpr hknown, rfl⟩, _, _, ⟨rfl, rfl⟩, _, _,
      ⟨rfl, rfl⟩, rfl⟩
  exact ⟨_, hminted, _, rfl, rfl, rfl, rfl, fun t => totalSupply_insert b x.token t x.amount,
    fun t a => balance_put b x.token x.owner t a x.amount,
    fun t o s => allowance_insert b x.token x.owner x.spender t o s x.amount⟩

/-- A stock is there. -/
structure Stocked (x : Stock) (b : Bank) : Prop where
  known : b.decimals.contains x.token = true
  balance : b.balance x.token x.owner = x.amount
  allowance : b.allowance x.token x.owner x.spender = x.amount

theorem Given.stocked (h : Given x b c) (hknown : b.decimals.contains x.token = true) :
    Stocked x c where
  known := by
    rw [h.decimals]
    exact hknown
  balance := by rw [h.balance, if_pos ⟨rfl, rfl⟩]
  allowance := by rw [h.allowance, if_pos ⟨rfl, rfl, rfl⟩]

/-- A stock of another token stays. -/
theorem Given.stocked_of_ne (h : Given y b c) (hx : Stocked x b) (hne : x.token ≠ y.token) :
    Stocked x c where
  known := by
    rw [h.decimals]
    exact hx.known
  balance := by
    rw [h.balance, if_neg fun h => hne h.1]
    exact hx.balance
  allowance := by
    rw [h.allowance, if_neg fun h => hne h.1]
    exact hx.allowance

/-- Two stocks, and nothing that keeps them from being moved. -/
structure Furnished (x y : Stock) (b : Bank) : Prop where
  first : Stocked x b
  second : Stocked y b
  free : b.fees = .empty
  unfrozen : b.frozen = .empty

end Bank

namespace Protocol

/-- Two stocks come to be, the tokens of the first one get a price, and its owner gets a debt. -/
def furnishing (x y : Stock) (price debt : Amount) : List Happening :=
  [.registerToken x.token x.decimals,
    .registerToken y.token y.decimals,
    .mint x.token x.owner x.amount,
    .approve x.token x.owner x.spender x.amount,
    .mint y.token y.owner y.amount,
    .approve y.token y.owner y.spender y.amount,
    .setPrice x.token price x.decimals,
    .setDebt x.owner debt]

private theorem onBank_of_ok {p : Protocol} {x : Action Bank Unit} {b c : Bank}
    (h : x b = .ok () c) : onBank x { p with bank := b } = .ok () { p with bank := c } :=
  on_eq_ok.mpr ⟨c, h, rfl⟩

/-- None of it is refused where there is nothing yet. -/
theorem furnishing_answers {p : Protocol} {x y : Stock} (price debt : Amount)
    (hempty : p.bank = .empty) (hne : x.token ≠ y.token) :
    ∃ bank ledger oracle,
      (furnishing x y price debt).forM happen p =
        .ok ⟨⟩ { p with bank := bank, ledger := ledger, oracle := oracle } ∧
      bank.Furnished x y ∧ ledger.debt x.owner = debt ∧
        ledger.rejecting = p.ledger.rejecting := by
  let registered : Bank := { Bank.empty with
    decimals := (Table.empty.insert x.token x.decimals).insert y.token y.decimals }
  have hx : registered.decimals.contains x.token = true := by
    simp [registered, Table.contains, hne]
  have hy : registered.decimals.contains y.token = true := by
    simp [registered, Table.contains]
  obtain ⟨b₁, hmint, b₂, happrove, hgiven⟩ := Bank.give hx rfl rfl
  have hknown : b₂.decimals.contains y.token = true := by
    rw [hgiven.decimals]
    exact hy
  have hsupply : b₂.totalSupply y.token = 0 := by
    rw [hgiven.supply, if_neg hne.symm]
    rfl
  have hbalance : b₂.balance y.token y.owner = 0 := by
    rw [hgiven.balance, if_neg fun h => hne h.1.symm]
    rfl
  obtain ⟨b₃, hmint', b₄, happrove', hgiven'⟩ := Bank.give hknown hsupply hbalance
  refine ⟨b₄, (Ledger.setDebt x.owner debt).left p.ledger,
    p.oracle.setPrice x.token price x.decimals, ?_, ?_, Ledger.setDebt_self, rfl⟩
  · have hp : p = { p with bank := .empty } := by rw [← hempty]
    rw [hp]
    refine .trans (forM_of_ok rfl) (.trans (forM_of_ok rfl) ?_)
    refine .trans (forM_of_ok (onBank_of_ok hmint)) ?_
    refine .trans (forM_of_ok (onBank_of_ok happrove)) ?_
    refine .trans (forM_of_ok (onBank_of_ok hmint')) ?_
    refine .trans (forM_of_ok (onBank_of_ok happrove')) ?_
    rfl
  · refine ⟨hgiven'.stocked_of_ne (hgiven.stocked hx) hne, hgiven'.stocked hknown, ?_, ?_⟩
    · rw [hgiven'.fees, hgiven.fees]
      rfl
    · rw [hgiven'.frozen, hgiven.frozen]
      rfl

end Protocol

namespace Protocol

variable {p q : Protocol} {caller account token : Address} {role : Role}
  {params : CollateralParams} {e : Error} {reply : Reply} {call : Call}

/-! ### Calls of the administration -/

/-- An administrative change that nobody else is in the way of ends as the change itself. -/
theorem submit_administer {change : Action Vault Unit}
    (hcall : perform ⟨caller, p.clock⟩ call = administer change)
    (hfree : p.vault.guard = .free) :
    (∀ w, change { p.vault with guard := ⟨true⟩ } = .ok () w →
      submit caller call p = .ok .done { p with vault := { w with guard := .free } }) ∧
    (∀ e w, change { p.vault with guard := ⟨true⟩ } = .error e w →
      ∃ q, submit caller call p = .error e q) := by
  have hentered : p.vault.guard.entered = false := by
    rw [hfree]
    rfl
  constructor
  · intro w hchange
    have hheld : vaultCall (onVault change) p =
        .ok () { p with vault := { w with guard := .free } } :=
      Guard.hold_eq_ok.mpr ⟨hentered, _, on_eq_ok.mpr ⟨w, hchange, rfl⟩, rfl⟩
    rw [submit_eq_ok, hcall]
    exact bind_of_ok hheld
  · intro e w hchange
    have hheld : vaultCall (onVault change) p =
        .error e { p with vault := { w with guard := .free } } :=
      Guard.hold_eq_error.mpr (.inr ⟨hentered, _, on_eq_error.mpr ⟨w, hchange, rfl⟩, rfl⟩)
    have hdirect : direct caller call p = .error e _ :=
      (congrFun hcall p).trans (bind_of_error hheld)
    exact ⟨_, orRestore_eq_error.mpr ⟨_, hdirect, rfl⟩⟩

/-- An admin can give a role to anybody.  Nothing but the members of that role and the log is
different then. -/
theorem submit_grant (caller account : Address) (role : Role) (hfree : p.vault.guard = .free)
    (hadmin : p.vault.access.holds .admin caller = true) (hnamed : account ≠ .zero) :
    ∃ access events,
      (∀ r u, access.holds r u =
        if r = role ∧ u = account then true else p.vault.access.holds r u) ∧
      submit caller (.grantVaultRole role account) p =
        .ok .done { p with vault := { p.vault with access := access, events := events } } := by
  have hanswers : (Access.grant caller role account).Answers p.vault.access :=
    Access.Request.grant_answers hadmin hnamed
  obtain ⟨changed, access, hgrant⟩ := hanswers.exists_ok
  have hholds := (Access.Request.grant_answered hgrant).holds
  have hgranted : ∃ events, Vault.grantRole ⟨caller, p.clock⟩ role account
      { p.vault with guard := ⟨true⟩ } = .ok () { p.vault with
        access := access
        events := events
        guard := ⟨true⟩ } := by
    have hwritten : Vault.onAccess (Access.grant caller role account)
        { p.vault with guard := ⟨true⟩ } = .ok changed { p.vault with
          access := access
          guard := ⟨true⟩ } := on_eq_ok.mpr ⟨access, hgrant, rfl⟩
    cases changed with
    | true => exact ⟨_, bind_of_ok hwritten⟩
    | false => exact ⟨_, bind_of_ok hwritten⟩
  obtain ⟨events, hevents⟩ := hgranted
  refine ⟨access, events, hholds, ((submit_administer rfl hfree).1 _ hevents).trans ?_⟩
  rw [← hfree]

/-- The first token of a vault is checked for its parameters. -/
theorem checkAdd_first {v : Vault} (hconfigs : v.configs = .empty) (hlisted : v.listed = [])
    (htoken : token ≠ .zero) : v.checkAdd token params = params.validate := by
  have hnew : v.added? token = none := by
    rw [Vault.added?, hconfigs]
    rfl
  rw [Vault.checkAdd, Address.ensureNonZero_eq_ok.mpr htoken, hnew, hlisted]
  cases params.validate with
  | ok _ => rfl
  | error _ => rfl

/-- Governance lists a token that passes the check, -/
theorem submit_addCollateral (caller token : Address) (hfree : p.vault.guard = .free)
    (hrole : p.vault.access.holds .governance caller = true)
    (hchecked : p.vault.checkAdd token params = .ok ()) :
    ∃ events, submit caller (.addCollateral token params) p =
      .ok .done { p with vault := { p.vault.withToken token params with events := events } } := by
  have hlisted : ∃ events, Vault.addCollateral ⟨caller, p.clock⟩ token params
      { p.vault with guard := ⟨true⟩ } = .ok () { p.vault.withToken token params with
        events := events
        guard := ⟨true⟩ } := by
    simp only [Vault.addCollateral, Vault.tell, get_bind, set_bind, bind_eq_ok, check_eq_ok,
      modify_eq_ok, Access.ensure_eq_ok]
    exact ⟨_, (), _, ⟨hrole, rfl⟩, (), _, ⟨hchecked, rfl⟩, rfl⟩
  obtain ⟨events, hevents⟩ := hlisted
  refine ⟨events, ((submit_administer rfl hfree).1 _ hevents).trans ?_⟩
  rw [← hfree]
  rfl

/-- and no other token. -/
theorem submit_addCollateral_refused (caller token : Address) (hfree : p.vault.guard = .free)
    (hrole : p.vault.access.holds .governance caller = true)
    (hchecked : p.vault.checkAdd token params = .error e) :
    ∃ q, submit caller (.addCollateral token params) p = .error e q := by
  have hentitled : p.vault.access.ensure .governance caller = .ok () :=
    Access.ensure_eq_ok.mpr hrole
  have hrefused : Vault.addCollateral ⟨caller, p.clock⟩ token params
      { p.vault with guard := ⟨true⟩ } = .error e { p.vault with guard := ⟨true⟩ } := by
    refine (bind_of_ok (check_eq_ok.mpr ⟨hentitled, rfl⟩)).trans ?_
    exact bind_of_error (check_eq_error.mpr ⟨hchecked, rfl⟩)
  exact (submit_administer rfl hfree).2 _ _ hrefused

theorem Orderly.submitted (h : Orderly account p) (hsubmit : submit caller call p = .ok reply q) :
    Orderly account q := by
  have hafter : p.after (.call caller call) = q := left_of_ok hsubmit
  rw [← hafter]
  exact h.after p (.call caller call) trivial

theorem Orderly.happened {happening : Happening} {r : Unit} (h : Orderly account p)
    (hspares : happening.Spares account) (hhappen : happen happening p = .ok r q) :
    Orderly account q := by
  have hafter : p.after (.happening happening) = q := left_of_ok hhappen
  rw [← hafter]
  exact h.after p (.happening happening) hspares

theorem Orderly.through_happenings {happenings : List Happening} : ∀ {p q : Protocol},
    Orderly account p → (∀ happening ∈ happenings, happening.Spares account) →
      happenings.forM happen p = .ok ⟨⟩ q → Orderly account q := by
  induction happenings with
  | nil =>
      intro p q h _ hdone
      obtain ⟨-, rfl⟩ := pure_eq_ok.mp hdone
      exact h
  | cons first rest ih =>
      intro p q h hspares hdone
      obtain ⟨_, mid, hfirst, hrest⟩ := bind_eq_ok.mp hdone
      exact ih (h.happened (hspares first (by simp)) hfirst) (fun x hx => hspares x (by simp [hx]))
        hrest

theorem furnishing_spares {x y : Stock} {price debt : Amount} (hx : x.owner ≠ account)
    (hy : y.owner ≠ account) : ∀ happening ∈ furnishing x y price debt,
      happening.Spares account := by
  simp only [furnishing, List.forall_mem_cons, List.not_mem_nil, false_implies, implies_true,
    and_true]
  exact ⟨trivial, trivial, trivial, hx, trivial, hy, trivial, trivial⟩

/-- Whoever has a stock for the vault deposits it whole, if the token costs no fee. -/
theorem submit_deposit {x : Stock} (h : Orderly account p) (hvault : p.vault.address ≠ .zero)
    (hspender : x.spender = p.vault.address) (hstocked : p.bank.Stocked x)
    (hrunning : p.vault.paused = false) (henabled : p.vault.ensureEnabled x.token = .ok ())
    (hunfrozen : p.bank.frozen.contains x.token = false) (hfree : p.bank.fee x.token = 0)
    (hpositive : x.amount ≠ 0) (howner : x.owner ≠ p.vault.address) :
    ∃ q, submit x.owner (.deposit x.token x.amount) p = .ok (.amount x.amount) q ∧
      Deposited ⟨x.owner, p.clock⟩ x.owner x.token x.amount x.amount
        (.deposited x.owner x.token x.amount) p q := by
  have hopen : p.vault.ensureRunning = .ok () := by
    rw [Vault.ensureRunning, hrunning]
    rfl
  have hallowed : x.amount ≤ p.bank.allowance x.token x.owner p.vault.address := by
    rw [← hspender, hstocked.allowance]
    exact Nat.le_refl _
  have hcovered : x.amount ≤ p.bank.balance x.token x.owner := by
    rw [hstocked.balance]
    exact Nat.le_refl _
  have hworth : x.amount.val * (p.bank.fee x.token).toNat / 10000 < x.amount.val := by
    rw [hfree, UInt64.toNat_zero, Nat.mul_zero, Nat.zero_div]
    exact Amount.pos_iff.mp (Amount.pos_of_ne_zero hpositive)
  have hanswers : (deposit ⟨x.owner, p.clock⟩ x.token x.amount).Answers p :=
    h.payable.deposit_answers h.idle hopen henabled hunfrozen hpositive hvault hallowed hcovered
      hworth
  obtain ⟨received, q, hdeposit⟩ := hanswers.exists_ok
  have hdeposited := deposit_ok hdeposit
  obtain rfl : received = x.amount := (hdeposited.dealt howner).moved.received_eq hfree
  exact ⟨q, submit_eq_ok.mpr (bind_of_ok hdeposit), hdeposited⟩

/-- A deposit is in nobody's way, -/
theorem Open.deposited {ctx : Context} {user t : Address} {amount received : Amount} {told : Event}
    (h : Open token p) (hdeposited : Deposited ctx user t amount received told p q) :
    Open token q := by
  obtain ⟨deposit, total, -, -, hvault⟩ := hdeposited.vault
  obtain ⟨⟨_, hmoved⟩, -⟩ := Bank.transferFrom_ok hdeposited.moved
  refine ⟨?_, ?_, ?_, ?_, ?_, ?_⟩
  · rw [hdeposited.engine]
    exact h.running
  · rw [hdeposited.engine, hvault]
    exact h.role
  · rw [hdeposited.ledger]
    exact h.accepting
  · rw [hmoved.frozen]
    exact h.unfrozen
  · rw [hdeposited.engine, hmoved.frozen]
    exact h.repayable
  · rw [hdeposited.engine, Bank.fee, hmoved.fees]
    exact h.free

/-- and one of another token takes nobody's debt tokens. -/
theorem Funded.deposited {ctx : Context} {user t : Address} {amount received offer : Amount}
    {told : Event} (h : Funded caller offer p) (hne : t ≠ p.engine.debtToken)
    (hdeposited : Deposited ctx user t amount received told p q) : Funded caller offer q := by
  obtain ⟨⟨_, hmoved⟩, hallowance⟩ := Bank.transferFrom_ok hdeposited.moved
  refine ⟨?_, ?_⟩
  · rw [hdeposited.engine, hmoved.balance_elsewhere (fun h => hne h.1.symm) fun h => hne h.1.symm]
    exact h.balance
  · have hspent := hallowance p.engine.debtToken caller p.engine.address
    rw [if_neg fun h => hne h.1.symm] at hspent
    rw [hdeposited.engine, Amount.ext hspent]
    exact h.allowance

end Protocol

namespace Scenario

open Protocol

variable {s : Scenario} {sizing : LiquidationParams} {p q : Protocol} {α : Type}

/-! ### The beginning -/

/-- The roles at the beginning. -/
def access : Access := ⟨Table.empty.insert .admin (KeySet.add Table.empty admin)⟩

/-- The protocol before anything happened, written out. -/
def origin (sizing : LiquidationParams) : Protocol where
  vault := .vacant vaultAccount access borrowModule
  engine := .vacant engineAccount debtToken access sizing
  ledger := .empty
  oracle := .empty
  bank := .empty
  clock := startTime

theorem access_start : Access.start admin = .ok access := by
  rw [Access.start, Address.ensureNonZero_eq_ok.mpr (ne_of_mem_of_not_mem (by simp) zero_not_mem)]
  rfl

theorem vault_start : Vault.start vaultAccount admin borrowModule =
    .ok (.vacant vaultAccount access borrowModule) := by
  rw [Vault.start, Address.ensureNonZero_eq_ok.mpr (ne_of_mem_of_not_mem (by simp) zero_not_mem),
    Address.ensureNonZero_eq_ok.mpr (ne_of_mem_of_not_mem (by simp) zero_not_mem), access_start]
  rfl

/-- All that is checked of the beginning is the sizing. -/
theorem engine_start (sizing : LiquidationParams) :
    Engine.start engineAccount debtToken admin sizing = (do
      sizing.validate
      return .vacant engineAccount debtToken access sizing) := by
  rw [Engine.start, Address.ensureNonZero_eq_ok.mpr (ne_of_mem_of_not_mem (by simp) zero_not_mem),
    Address.ensureNonZero_eq_ok.mpr (ne_of_mem_of_not_mem (by simp) zero_not_mem), access_start]
  rfl

theorem start_eq (sizing : LiquidationParams) : start sizing = (do
    sizing.validate
    return origin sizing) := by
  rw [start, vault_start, engine_start]
  cases sizing.validate with
  | ok _ => rfl
  | error _ => rfl

theorem fresh_origin (hsizing : sizing.validate = .ok ()) : (origin sizing).Fresh where
  vault := ⟨_, _, _, vault_start⟩
  engine := ⟨_, _, _, sizing, by rw [engine_start, hsizing]; rfl⟩
  apart := by
    show engineAccount ≠ vaultAccount
    exact ne_of_mem_of_not_mem (by simp) vaultAccount_not_mem
  bank := rfl

/-! ### What happens before the calls -/

/-- The collateral of the borrower. -/
def pledge (s : Scenario) : Stock := ⟨collateral, s.decimals, borrower, vaultAccount, s.deposit⟩

/-- The debt tokens of the liquidator. -/
def means (s : Scenario) : Stock :=
    ⟨debtToken, debtDecimals, liquidator, engineAccount, s.repay⟩

theorem happenings_eq (s : Scenario) :
    s.happenings = furnishing s.pledge s.means s.price s.debt := rfl

theorem happenings_spare (s : Scenario) :
    ∀ happening ∈ s.happenings, happening.Spares vaultAccount := by
  rw [happenings_eq]
  refine furnishing_spares ?_ ?_
  · show borrower ≠ vaultAccount
    exact ne_of_mem_of_not_mem (by simp) vaultAccount_not_mem
  · show liquidator ≠ vaultAccount
    exact ne_of_mem_of_not_mem (by simp) vaultAccount_not_mem

theorem happenings_answer (s : Scenario) (sizing : LiquidationParams) :
    ∃ bank ledger oracle,
      s.happenings.forM happen (origin sizing) =
        .ok ⟨⟩ { origin sizing with bank := bank, ledger := ledger, oracle := oracle } ∧
      bank.Furnished s.pledge s.means ∧ ledger.debt borrower = s.debt ∧
      ledger.rejecting = false := by
  rw [happenings_eq]
  exact furnishing_answers s.price s.debt rfl collateral_ne_debtToken

/-! ### The calls -/

/-- The vault once the collateral is listed. -/
structure Listed (s : Scenario) (v : Vault) : Prop where
  address : v.address = vaultAccount
  running : v.paused = false
  free : v.guard = .free
  role : v.access.holds .liquidation engineAccount = true
  config : v.configs.get? collateral = some (.listed s.collateralParams)
  valid : s.collateralParams.validate = .ok ()
  deposits : v.deposits = .empty

/-- The call that deposits the collateral, if there is any. -/
def depositing (s : Scenario) : List (Address × Call) :=
  if 0 < s.deposit then [(borrower, .deposit collateral s.deposit)] else []

/-- The admin makes governance list tokens and the engine seize collateral. -/
theorem calls_granted (h : Orderly vaultAccount p)
    (hvault : p.vault = .vacant vaultAccount access borrowModule) :
    ∃ v, v = { p.vault with access := v.access, events := v.events } ∧
      v.access.holds .governance governance = true ∧
      v.access.holds .liquidation engineAccount = true ∧
      Orderly vaultAccount { p with vault := v } ∧
      ∀ rest : List (Address × Call),
        ((admin, .grantVaultRole .governance governance) ::
          (admin, .grantVaultRole .liquidation engineAccount) :: rest).forM
            (fun c => discard (submit c.1 c.2)) p =
          rest.forM (fun c => discard (submit c.1 c.2)) { p with vault := v } := by
  have hadmin : p.vault.access.holds .admin admin = true := by
    rw [hvault]
    exact (Access.holds_of_start access_start .admin admin).trans (if_pos ⟨rfl, rfl⟩)
  have hfree : p.vault.guard = .free := by
    rw [hvault]
    rfl
  obtain ⟨a, log, hholds, hfirst⟩ :=
    submit_grant (p := p) admin governance .governance hfree hadmin
    (ne_of_mem_of_not_mem (by simp) zero_not_mem)
  have horderly := h.submitted hfirst
  have hstill : a.holds .admin admin = true := by
    rw [hholds, if_neg fun h => nomatch h.1]
    exact hadmin
  obtain ⟨a', log', hholds', hsecond⟩ := submit_grant
    (p := { p with vault := { p.vault with access := a, events := log } })
    admin engineAccount .liquidation hfree hstill (ne_of_mem_of_not_mem (by simp) zero_not_mem)
  have hgovernance : a.holds .governance governance = true := by
    rw [hholds, if_pos ⟨rfl, rfl⟩]
  refine ⟨_, rfl, ?_, ?_, horderly.submitted hsecond, fun rest => ?_⟩
  · exact (hholds' .governance governance).trans ((if_neg fun h => nomatch h.1).trans hgovernance)
  · exact (hholds' .liquidation engineAccount).trans (if_pos ⟨rfl, rfl⟩)
  · refine .trans (forM_of_ok (discard_eq_ok.mpr ⟨_, hfirst⟩)) ?_
    exact forM_of_ok (discard_eq_ok.mpr ⟨_, hsecond⟩)

/-- Only the parameters of the collateral can keep it from being listed. -/
theorem calls_listed (h : Orderly vaultAccount p)
    (hvault : p.vault = .vacant vaultAccount access borrowModule) :
    (∃ e q, s.collateralParams.validate = .error e ∧
        (s.calls.forM fun c => discard (submit c.1 c.2)) p = .error e q) ∨
      ∃ v, Listed s v ∧ Orderly vaultAccount { p with vault := v } ∧
        (s.calls.forM fun c => discard (submit c.1 c.2)) p =
          (s.depositing.forM fun c => discard (submit c.1 c.2)) { p with vault := v } := by
  obtain ⟨v, hv, hgovernance, hrole, horderly, hgranted⟩ := calls_granted h hvault
  rw [hvault] at hv
  have hfree : v.guard = .free := by
    rw [hv]
    rfl
  have hchecked : v.checkAdd collateral s.collateralParams = s.collateralParams.validate := by
    rw [hv]
    exact checkAdd_first rfl rfl (ne_of_mem_of_not_mem (by simp) zero_not_mem)
  cases hvalid : s.collateralParams.validate with
  | error e =>
      obtain ⟨q, hthird⟩ := submit_addCollateral_refused (p := { p with vault := v })
        governance collateral hfree hgovernance (hchecked.trans hvalid)
      refine .inl ⟨e, q, rfl, (hgranted _).trans ?_⟩
      exact forM_of_error (discard_eq_error.mpr hthird)
  | ok _ =>
      obtain ⟨log, hthird⟩ := submit_addCollateral (p := { p with vault := v })
        governance collateral hfree hgovernance (hchecked.trans hvalid)
      refine .inr ⟨_, ?_, horderly.submitted hthird, (hgranted _).trans ?_⟩
      · refine ⟨horderly.payable.solvent.address, ?_, hfree, hrole, ?_, hvalid, ?_⟩
        · show v.paused = false
          rw [hv]
          rfl
        · show (v.configs.insert collateral _).get? collateral = _
          rw [Table.get?_insert, if_pos rfl]
        · show v.deposits = .empty
          rw [hv]
          rfl
      · exact forM_of_ok (discard_eq_ok.mpr ⟨_, hthird⟩)

/-! ### The world -/

/-- What is true in the world of a scenario, whatever its amounts are. -/
structure Ready (s : Scenario) (p : Protocol) : Prop where
  orderly : Orderly vaultAccount p
  unhindered : Open collateral p
  added : ∃ config, p.vault.added? collateral = some config
  known : p.bank.decimals.contains collateral = true
  funded : Funded liquidator s.repay p
  debtToken : p.engine.debtToken = debtToken
  debt : p.ledger.debt borrower = s.debt
  recordless : p.engine.badDebt.total = 0
  clock : p.clock = startTime

/-- Parameters that are valid have a positive factor. -/
theorem Listed.added {v : Vault} (h : Listed s v) :
    ∃ config, v.added? collateral = some config := by
  obtain ⟨⟨hfactor, -⟩, -⟩ := CollateralParams.bounds_of_validate h.valid
  refine ⟨.listed s.collateralParams, ?_⟩
  rw [Vault.added?, h.config]
  exact Option.filter_eq_some_iff.mpr ⟨rfl, decide_eq_true hfactor⟩

/-- Once the collateral is listed, all of it is true. -/
theorem Listed.ready {v : Vault} {bank : Bank} {ledger : Ledger} {oracle : Oracle}
    (h : Listed s v)
    (horderly : Orderly vaultAccount
      { origin sizing with vault := v, bank := bank, ledger := ledger, oracle := oracle })
    (hbank : bank.Furnished s.pledge s.means) (hdebt : ledger.debt borrower = s.debt)
    (haccepting : ledger.rejecting = false) :
    s.Ready
      { origin sizing with vault := v, bank := bank, ledger := ledger, oracle := oracle } where
  orderly := horderly
  unhindered := {
    running := rfl
    role := h.role
    accepting := haccepting
    unfrozen := by
      show bank.frozen.contains collateral = false
      rw [hbank.unfrozen]
      rfl
    repayable := by
      show bank.frozen.contains Scenario.debtToken = false
      rw [hbank.unfrozen]
      rfl
    free := by
      show bank.fee Scenario.debtToken = 0
      rw [Bank.fee, hbank.free]
      rfl }
  added := h.added
  known := hbank.first.known
  funded := {
    balance := Nat.le_of_eq (congrArg Amount.val hbank.second.balance.symm)
    allowance := Nat.le_of_eq (congrArg Amount.val hbank.second.allowance.symm) }
  debtToken := rfl
  debt := hdebt
  recordless := rfl
  clock := rfl

/-- The deposit changes none of it. -/
theorem Ready.deposited {ctx : Context} {received : Amount} {told : Event} (h : s.Ready p)
    (horderly : Orderly vaultAccount q)
    (hdeposited : Deposited ctx borrower collateral s.deposit received told p q) : s.Ready q where
  orderly := horderly
  unhindered := h.unhindered.deposited hdeposited
  added := by
    obtain ⟨deposit, total, -, -, hvault⟩ := hdeposited.vault
    rw [hvault]
    exact h.added
  known := by
    obtain ⟨⟨_, hmoved⟩, -⟩ := Bank.transferFrom_ok hdeposited.moved
    rw [hmoved.decimals]
    exact h.known
  funded := by
    refine h.funded.deposited ?_ hdeposited
    rw [h.debtToken]
    exact collateral_ne_debtToken
  debtToken := by
    rw [hdeposited.engine]
    exact h.debtToken
  debt := by
    rw [hdeposited.ledger]
    exact h.debt
  recordless := by
    rw [hdeposited.engine]
    exact h.recordless
  clock := hdeposited.clock.trans h.clock

/-- The deposit of the collateral is booked whole. -/
theorem Ready.depositing_answers (h : s.Ready p) (hlisted : Listed s p.vault)
    (hstocked : p.bank.Stocked s.pledge) (hfees : p.bank.fees = .empty) :
    ∃ q, (s.depositing.forM fun c => discard (submit c.1 c.2)) p = .ok ⟨⟩ q ∧ s.Ready q ∧
      q.vault.depositOf borrower collateral = s.deposit := by
  have hnothing : p.vault.depositOf borrower collateral = 0 := by
    rw [Vault.depositOf, hlisted.deposits]
    rfl
  unfold depositing
  split
  next hpositive =>
    have hvault : p.vault.address ≠ .zero := by
      rw [hlisted.address]
      exact ne_of_mem_of_not_mem (by simp) zero_not_mem
    have howner : borrower ≠ p.vault.address := by
      rw [hlisted.address]
      exact ne_of_mem_of_not_mem (by simp) vaultAccount_not_mem
    have henabled : p.vault.ensureEnabled collateral = .ok () := by
      rw [Vault.ensureEnabled, hlisted.config]
      rfl
    have hfree : p.bank.fee collateral = 0 := by
      rw [Bank.fee, hfees]
      rfl
    have hsome : s.deposit ≠ 0 := fun hzero =>
      (Amount.pos_iff.mp hpositive).ne' (Amount.eq_zero_iff.mp hzero)
    obtain ⟨q, hsubmit, hdeposited⟩ := submit_deposit (x := s.pledge) h.orderly hvault
      hlisted.address.symm hstocked hlisted.running henabled h.unhindered.unfrozen
        hfree hsome howner
    refine ⟨q, forM_of_ok (discard_eq_ok.mpr ⟨_, hsubmit⟩),
      h.deposited (h.orderly.submitted hsubmit) hdeposited, ?_⟩
    apply Amount.ext
    rw [hdeposited.deposit, if_pos ⟨rfl, rfl⟩, hnothing]
    exact Nat.zero_add s.deposit.val
  next hnone =>
    refine ⟨p, rfl, h, hnothing.trans ?_⟩
    exact (Amount.not_pos_iff.mp hnone).symm

/-- With a valid sizing, only the parameters of the collateral are refused. -/
theorem prepare_cases (s : Scenario) (hsizing : sizing.validate = .ok ()) :
    (∃ e q, s.collateralParams.validate = .error e ∧ s.prepare (origin sizing) = .error e q) ∨
      ∃ p, s.prepare (origin sizing) = .ok ⟨⟩ p ∧ s.Ready p ∧
        p.vault.depositOf borrower collateral = s.deposit := by
  obtain ⟨bank, ledger, oracle, hhappened, hbank, hdebt, haccepting⟩ :=
    happenings_answer s sizing
  have horigin : Orderly vaultAccount (origin sizing) := (fresh_origin hsizing).orderly
  have horderly := horigin.through_happenings s.happenings_spare hhappened
  have hprepare : s.prepare (origin sizing) = (s.calls.forM fun c => discard (submit c.1 c.2))
      { origin sizing with bank := bank, ledger := ledger, oracle := oracle } :=
    bind_of_ok hhappened
  rw [hprepare]
  rcases calls_listed (s := s) horderly rfl with
    ⟨e, q, hinvalid, hrefused⟩ | ⟨v, hlisted, horderly, hcalls⟩
  · exact .inl ⟨e, q, hinvalid, hrefused⟩
  · right
    rw [hcalls]
    have hready := hlisted.ready horderly hbank hdebt haccepting
    exact hready.depositing_answers hlisted hbank.first hbank.free

/-- A parameter of the engine or of the collateral is refused. -/
def Invalid (s : Scenario) (sizing : LiquidationParams) (e : Error) : Prop :=
  sizing.validate = .error e ∨ s.collateralParams.validate = .error e

theorem Invalid.outOfBounds {e : Error} (h : Invalid s sizing e) : e.OutOfBounds := by
  rcases h with hsizing | hcollateral
  · exact LiquidationParams.validate_refusedBy e hsizing
  · exact CollateralParams.validate_refusedBy e hcollateral

/-- **A scenario has a world, unless a parameter is refused.**  Then nothing can be done in it. -/
theorem world_cases (s : Scenario) (sizing : LiquidationParams) :
    (∃ e, Invalid s sizing e ∧
        ∀ (α : Type) (x : Action Protocol α), s.inWorld sizing x = .error e) ∨
      ∃ p, World s sizing p ∧ s.Ready p ∧
        p.vault.depositOf borrower collateral = s.deposit := by
  cases hsizing : sizing.validate with
  | error e =>
      refine .inl ⟨e, .inl hsizing, fun α x => ?_⟩
      rw [inWorld, start_eq, hsizing]
      rfl
  | ok _ =>
      have hstart : start sizing = .ok (origin sizing) := by
        rw [start_eq, hsizing]
        rfl
      rcases prepare_cases s hsizing with
        ⟨e, q, hinvalid, hrefused⟩ | ⟨p, hprepare, hready, hdeposit⟩
      · refine .inl ⟨e, .inr hinvalid, fun α x => ?_⟩
        exact inWorld_of_error hstart (bind_of_error hrefused)
      · exact .inr ⟨p, ⟨_, hstart, hprepare⟩, hready, hdeposit⟩

end Scenario

end Custody
