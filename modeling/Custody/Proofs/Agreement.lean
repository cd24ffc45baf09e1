/-
Two runs of one call.

Some statements compare two runs.  A call is made in two states that differ in one thing, and
it is to end alike in both: with the same answer or for the same reason, and in states that
differ in that thing again.  Such a statement is shown step by step along the text of the
call, with the relation between the two states as the invariant.

What differs is here the terms of the protocol, that is, the configs of tokens and the prices.
Calls that do not administer read the terms and write them nowhere.  Apart from what tokens
take deposits they read parameters and bypassing prices, even where they ask for checked ones.
So the text of these calls is gone through once, for any two terms that have these in common.
-/
import Custody.Proofs.Margin
import Custody.Proofs.Transaction

namespace Custody

open EStateM (Result)

namespace Action

variable {σ τ α β : Type} {R : σ → σ → Prop} {s t : σ}

/-! ### Ending alike -/

/-- From these two states the actions answer alike or are refused alike, and the states that
they leave are related. -/
inductive Agree (R : σ → σ → Prop) (x : Action σ α) (s : σ) (y : Action σ α)
    (t : σ) : Prop
  | answered {a : α} {s' t' : σ} :
      x s = .ok a s' → y t = .ok a t' → R s' t' → Agree R x s y t
  | refused {e : Error} {s' t' : σ} :
      x s = .error e s' → y t = .error e t' → R s' t' → Agree R x s y t

theorem Agree.left {x y : Action σ α} (h : Agree R x s y t) : R (x.left s) (y.left t) := by
  cases h with
  | answered hx hy h => rwa [left_of_ok hx, left_of_ok hy]
  | refused hx hy h => rwa [left_of_error hx, left_of_error hy]

theorem Agree.imp {S : σ → σ → Prop} {x y : Action σ α} (h : Agree R x s y t)
    (hRS : ∀ s t, R s t → S s t) : Agree S x s y t := by
  cases h with
  | answered hx hy h => exact .answered hx hy (hRS _ _ h)
  | refused hx hy h => exact .refused hx hy (hRS _ _ h)

/-- From one state one action ends in one way. -/
theorem agree_refl (x : Action σ α) : Agree (· = ·) x s x s := by
  cases h : x s with
  | ok a s' => exact .answered h h rfl
  | error e s' => exact .refused h h rfl

theorem agree_pure {a : α} (h : R s t) : Agree R (pure a) s (pure a) t := .answered rfl rfl h

theorem agree_get {f g : σ → Action σ α} (h : Agree R (f s) s (g t) t) :
    Agree R (get >>= f) s (get >>= g) t := by
  cases h with
  | answered hf hg h => exact .answered hf hg h
  | refused hf hg h => exact .refused hf hg h

theorem agree_set {s' t' : σ} (h : R s' t') :
    Agree R (set s' : Action σ PUnit) s (set t') t := .answered rfl rfl h

theorem agree_modify {f g : σ → σ} (h : R (f s) (g t)) :
    Agree R (modify f : Action σ PUnit) s (modify g) t := .answered rfl rfl h

theorem agree_bind {x y : Action σ α} {f g : α → Action σ β} (hx : Agree R x s y t)
    (hf : ∀ a s' t', R s' t' → Agree R (f a) s' (g a) t') :
    Agree R (x >>= f) s (y >>= g) t := by
  cases hx with
  | answered hs ht h =>
      cases hf _ _ _ h with
      | answered hfa hga h =>
          exact .answered ((bind_of_ok hs).trans hfa) ((bind_of_ok ht).trans hga) h
      | refused hfa hga h =>
          exact .refused ((bind_of_ok hs).trans hfa) ((bind_of_ok ht).trans hga) h
  | refused hs ht h => exact .refused (bind_of_error hs) (bind_of_error ht) h

theorem agree_lift {x y : Except Error α} (hxy : x = y) (h : R s t) :
    Agree R (liftM x) s (liftM y) t := by
  subst hxy
  cases x with
  | ok a => exact .answered rfl rfl h
  | error e => exact .refused rfl rfl h

/-- Two checks may answer differently where what follows looks at a part of the answer. -/
theorem agree_check_map {γ : Type} {x y : Except Error α}
    {f g : α → Action σ β} (φ : α → γ)
    (hxy : y.map φ = x.map φ) (h : R s t)
    (hf : ∀ a b, x = .ok a → φ b = φ a → Agree R (f a) s (g b) t) :
    Agree R (liftM x >>= f) s (liftM y >>= g) t := by
  cases x <;> cases y <;>
    simp only [Except.map, reduceCtorEq, Except.error.injEq, Except.ok.injEq] at hxy
  · subst hxy
    exact .refused rfl rfl h
  · cases hf _ _ rfl hxy with
    | answered hfa hgb h => exact .answered hfa hgb h
    | refused hfa hgb h => exact .refused hfa hgb h

/-- Two checks that say the same are one check. -/
theorem agree_check {x y : Except Error α} {f g : α → Action σ β} (hxy : x = y) (h : R s t)
    (hf : ∀ a, x = .ok a → Agree R (f a) s (g a) t) :
    Agree R (liftM x >>= f) s (liftM y >>= g) t := by
  refine agree_check_map id (by rw [hxy]) h ?_
  rintro a _ hx rfl
  exact hf _ hx

theorem agree_ite {c : Prop} [Decidable c] {x x' y y' : Action σ α}
    (hx : c → Agree R x s x' t) (hy : ¬ c → Agree R y s y' t) :
    Agree R (if c then x else y) s (if c then x' else y') t := by
  by_cases h : c
  · simpa only [if_pos h] using hx h
  · simpa only [if_neg h] using hy h

theorem agree_refuseIf {c : Prop} [Decidable c] {e : Error} {f g : PUnit → Action σ α}
    (h : R s t) (hf : ¬ c → Agree R (f ⟨⟩) s (g ⟨⟩) t) :
    Agree R (if c then throw e >>= f else f ⟨⟩) s (if c then throw e >>= g else g ⟨⟩) t :=
  agree_ite (fun _ => .refused rfl rfl h) hf

theorem agree_discard {x y : Action σ α} (h : Agree R x s y t) :
    Agree R (discard x) s (discard y) t := by
  cases h with
  | answered hx hy h =>
      exact .answered (a := ⟨⟩) (discard_eq_ok.mpr ⟨_, hx⟩)
        (discard_eq_ok.mpr ⟨_, hy⟩) h
  | refused hx hy h => exact .refused (discard_eq_error.mpr hx) (discard_eq_error.mpr hy) h

variable {part : σ → τ} {update : τ → σ → σ}

/-- An action on a part ends alike if it does so on the two parts. -/
theorem agree_on {S : τ → τ → Prop} {x y : Action τ α} (h : Agree S x (part s) y (part t))
    (hupdate : ∀ u w, S u w → R (update u s) (update w t)) :
    Agree R (on part update x) s (on part update y) t := by
  cases h with
  | answered hx hy h =>
      exact .answered (on_eq_ok.mpr ⟨_, hx, rfl⟩) (on_eq_ok.mpr ⟨_, hy, rfl⟩)
        (hupdate _ _ h)
  | refused hx hy h =>
      exact .refused (on_eq_error.mpr ⟨_, hx, rfl⟩) (on_eq_error.mpr ⟨_, hy, rfl⟩)
        (hupdate _ _ h)

/-- If the parts are the same, the action on them does not matter. -/
theorem agree_on_same {x : Action τ α} (hpart : part s = part t)
    (hupdate : ∀ u, R (update u s) (update u t)) :
    Agree R (on part update x) s (on part update x) t := by
  refine agree_on (S := (· = ·)) ?_ ?_
  · rw [hpart]
    exact agree_refl x
  · rintro u _ rfl
    exact hupdate u

theorem agree_undoing {undo undo' : σ → σ} {x y : Action σ α} (h : Agree R x s y t)
    (hundo : ∀ u w, R u w → R (undo u) (undo' w)) :
    Agree R (undoing undo x) s (undoing undo' y) t := by
  cases h with
  | answered hx hy h => exact .answered (undoing_eq_ok.mpr hx) (undoing_eq_ok.mpr hy) h
  | refused hx hy h =>
      exact .refused (undoing_eq_error.mpr ⟨_, hx, rfl⟩) (undoing_eq_error.mpr ⟨_, hy, rfl⟩)
        (hundo _ _ h)

theorem agree_orRestore {restore : σ → σ → σ} {x y : Action σ α} (h : Agree R x s y t)
    (hrestore : ∀ u w, R u w → R (restore s u) (restore t w)) :
    Agree R (orRestore restore x) s (orRestore restore y) t := by
  cases h with
  | answered hx hy h => exact .answered (orRestore_eq_ok.mpr hx) (orRestore_eq_ok.mpr hy) h
  | refused hx hy h =>
      exact .refused (orRestore_eq_error.mpr ⟨_, hx, rfl⟩)
        (orRestore_eq_error.mpr ⟨_, hy, rfl⟩) (hrestore _ _ h)

/-- A call that is made twice enters the guard twice or not at all. -/
theorem agree_hold {guard : σ → Guard} {update : Guard → σ → σ} {x y : Action σ α}
    (hguard : guard s = guard t) (h : R s t)
    (hupdate : ∀ g u w, R u w → R (update g u) (update g w))
    (hx : ∀ u w, R u w → Agree R x u y w) :
    Agree R (Guard.hold guard update x) s (Guard.hold guard update y) t := by
  cases hentered : (guard s).entered with
  | true =>
      have hother : (guard t).entered = true := hguard ▸ hentered
      exact .refused (Guard.hold_eq_error.mpr (.inl ⟨hentered, rfl, rfl⟩))
        (Guard.hold_eq_error.mpr (.inl ⟨hother, rfl, rfl⟩)) h
  | false =>
      have hother : (guard t).entered = false := hguard ▸ hentered
      cases hx (update ⟨true⟩ s) (update ⟨true⟩ t) (hupdate _ _ _ h) with
      | answered hs ht h =>
          exact .answered (Guard.hold_eq_ok.mpr ⟨hentered, _, hs, rfl⟩)
            (Guard.hold_eq_ok.mpr ⟨hother, _, ht, rfl⟩) (hupdate _ _ _ h)
      | refused hs ht h =>
          exact .refused (Guard.hold_eq_error.mpr (.inr ⟨hentered, _, hs, rfl⟩))
            (Guard.hold_eq_error.mpr (.inr ⟨hother, _, ht, rfl⟩)) (hupdate _ _ _ h)

end Action

/-- The call deposits this token. -/
def Call.Deposits : Call → Address → Prop
  | .deposit deposited _, token | .depositFor _ deposited _, token => deposited = token
  | _, _ => False

/-! ### Readings -/

namespace Health

variable {l : Ledger} {o o' : Oracle} {mode : ReadMode} {view view' : CollateralView}
  {user : Address}

/-- A health factor is made of the deposits, the parameters and the prices of listed tokens. -/
theorem factor_congr (htokens : view'.tokens = view.tokens)
    (hdeposit : view'.deposit = view.deposit)
    (hparams : ∀ token, (view'.config token).map CollateralConfig.params =
      (view.config token).map CollateralConfig.params)
    (hentry : ∀ token, o'.entry mode token = o.entry mode token) :
    factor l o' mode view' user = factor l o mode view user :=
  factor_eq_of_user rfl htokens (fun token => by rw [hdeposit]) hparams hentry

end Health

/-- Of a config the added ones are told by their parameters. -/
theorem Vault.added?_congr {v w : Vault} {token : Address}
    (h : (w.configs.get? token).map CollateralConfig.params =
      (v.configs.get? token).map CollateralConfig.params) :
    (w.added? token).map CollateralConfig.params =
      (v.added? token).map CollateralConfig.params := by
  unfold added?
  cases hv : v.configs.get? token with
  | none =>
      cases hw : w.configs.get? token with
      | none => rfl
      | some d => simp [hv, hw] at h
  | some c =>
      cases hw : w.configs.get? token with
      | none => simp [hv, hw] at h
      | some d =>
          simp only [hv, hw, Option.map_some, Option.some.injEq] at h
          have hadded : d.isAdded = c.isAdded := by
            unfold CollateralConfig.isAdded
            rw [h]
          by_cases hc : c.isAdded = true
          · simp [Option.filter, hadded, hc, h]
          · simp [Option.filter, hadded, hc]

theorem Vault.ensureEnabled_congr {v w : Vault} {token : Address}
    (h : w.configs.get? token = v.configs.get? token) :
    w.ensureEnabled token = v.ensureEnabled token := by
  unfold ensureEnabled
  rw [h]

/-- A quote is made of the deposit, the parameters and the bypassing price of one token. -/
theorem Engine.quote_congr {v w : Vault} {o o' : Oracle} {b : Bank} {borrower token : Address}
    {offer : Amount} (hdeposits : w.deposits = v.deposits)
    (hparams : (w.configs.get? token).map CollateralConfig.params =
      (v.configs.get? token).map CollateralConfig.params)
    (hentry : o'.entry .bypassing token = o.entry .bypassing token) :
    Engine.quote w o' b borrower token offer = Engine.quote v o b borrower token offer := by
  have hadded := Vault.added?_congr hparams
  have hprice : o'.price .bypassing token = o.price .bypassing token := by
    unfold Oracle.price
    rw [hentry]
  unfold quote
  simp only [Vault.depositOf, hdeposits, hprice, Oracle.value_congr hentry]
  cases hv : v.added? token <;> cases hw : w.added? token <;>
    simp only [hv, hw, Option.map_none, Option.map_some, reduceCtorEq, Option.some.injEq]
      at hadded ⊢
  rw [hadded]
  rfl

/-! ### The terms of the protocol -/

namespace Protocol

open Custody.Action

/-- The configs of tokens, and the prices. -/
structure Terms where
  configs : Table Address CollateralConfig
  oracle : Oracle

/-- The protocol on other terms. -/
def under (p : Protocol) (terms : Terms) : Protocol :=
  { p with
    vault := { p.vault with configs := terms.configs }
    oracle := terms.oracle }

/-- Terms with the same parameters and the same prices once breakers are bypassed. -/
structure Terms.Equivalent (a b : Terms) : Prop where
  params : ∀ token, (b.configs.get? token).map CollateralConfig.params =
    (a.configs.get? token).map CollateralConfig.params
  entry : ∀ token, b.oracle.entry .bypassing token = a.oracle.entry .bypassing token

namespace Terms.Equivalent

variable {a b : Terms} (h : a.Equivalent b) (p : Protocol) (borrower : Address)

include h

theorem health : (p.under b).health borrower = (p.under a).health borrower :=
  Health.factor_congr rfl rfl h.params h.entry

theorem reading :
    ((p.under b).healthReading borrower).value? = ((p.under a).healthReading borrower).value? := by
  unfold healthReading
  rw [Health.read_value, Health.read_value]
  exact congrArg Except.toOption (h.health p borrower)

theorem isLiquidatable :
    (p.under b).isLiquidatable borrower = (p.under a).isLiquidatable borrower := by
  have hhealth := h.health p borrower
  unfold Protocol.health at hhealth
  unfold Protocol.isLiquidatable Engine.isLiquidatable
  rw [hhealth]
  rfl

theorem maxRepayable : (p.under b).maxRepayable borrower = (p.under a).maxRepayable borrower := by
  have hhealth := h.health p borrower
  unfold Protocol.health at hhealth
  unfold Protocol.maxRepayable Engine.maxRepayable
  rw [hhealth]
  rfl

theorem quote (token : Address) (offer : Amount) :
    (p.under b).quote borrower token offer = (p.under a).quote borrower token offer :=
  Engine.quote_congr rfl (h.params token) (h.entry token)

end Terms.Equivalent

/-! ### Differences beside the engine and the books -/

/-- A difference that the engine, the ledger and the bank have no part in. -/
structure Beside (R : Protocol → Protocol → Prop) : Prop where
  engine : ∀ {p q : Protocol}, R p q → p.engine = q.engine
  ledger : ∀ {p q : Protocol}, R p q → p.ledger = q.ledger
  bank : ∀ {p q : Protocol}, R p q → p.bank = q.bank
  withEngine : ∀ {p q : Protocol} {e : Engine}, R p q →
    R { p with engine := e } { q with engine := e }
  withLedger : ∀ {p q : Protocol} {l : Ledger}, R p q →
    R { p with ledger := l } { q with ledger := l }
  withBank : ∀ {p q : Protocol} {b : Bank}, R p q → R { p with bank := b } { q with bank := b }

section

variable {R : Protocol → Protocol → Prop} (hR : Beside R) {p q : Protocol} {α : Type}

include hR

theorem agree_onEngine (x : Action Engine α) (h : R p q) : Agree R (onEngine x) p (onEngine x) q :=
  agree_on_same (hR.engine h) fun _ => hR.withEngine h

theorem agree_onLedger (x : Action Ledger α) (h : R p q) : Agree R (onLedger x) p (onLedger x) q :=
  agree_on_same (hR.ledger h) fun _ => hR.withLedger h

theorem agree_onBank (x : Action Bank α) (h : R p q) : Agree R (onBank x) p (onBank x) q :=
  agree_on_same (hR.bank h) fun _ => hR.withBank h

theorem agree_engineCall {x : Action Protocol α} (hx : ∀ p q, R p q → Agree R x p x q)
    (h : R p q) : Agree R (engineCall x) p (engineCall x) q := by
  refine agree_hold ?_ h ?_ hx
  · rw [hR.engine h]
  · intro g p q h
    rw [hR.engine h]
    exact hR.withEngine h

/-- A change that is made to the engine alone. -/
theorem agree_engineChange (x : Action Engine α) (h : R p q) :
    Agree R (engineCall (onEngine x)) p (engineCall (onEngine x)) q :=
  agree_engineCall hR (fun _ _ h => agree_onEngine hR x h) h

end

/-! ### One state on two terms -/

/-- The same state, on terms `a` and on terms `b`. -/
inductive Recast (a b : Terms) : Protocol → Protocol → Prop
  | of (s : Protocol) : Recast a b (s.under a) (s.under b)

variable {a b : Terms} {p q : Protocol} {α : Type} {ctx : Context}
  {funder user token recipient liquidator borrower : Address} {amount offer : Amount}
  {quote : Quote}

theorem recast_beside : Beside (Recast a b) where
  engine := by
    rintro _ _ ⟨s⟩
    rfl
  ledger := by
    rintro _ _ ⟨s⟩
    rfl
  bank := by
    rintro _ _ ⟨s⟩
    rfl
  withEngine := by
    rintro _ _ e ⟨s⟩
    exact .of { s with engine := e }
  withLedger := by
    rintro _ _ l ⟨s⟩
    exact .of { s with ledger := l }
  withBank := by
    rintro _ _ b ⟨s⟩
    exact .of { s with bank := b }

/-! ### Writing -/

/-- The same vault with one table of configs and with another. -/
inductive Reconfigured (a b : Terms) : Vault → Vault → Prop
  | of (v : Vault) :
      Reconfigured a b { v with configs := a.configs } { v with configs := b.configs }

private theorem onVault_recast {x : Action Vault α}
    (hx : ∀ v w, Reconfigured a b v w → Agree (Reconfigured a b) x v x w)
    (h : Recast a b p q) : Agree (Recast a b) (onVault x) p (onVault x) q := by
  obtain ⟨s⟩ := h
  refine agree_on (hx _ _ (.of s.vault)) ?_
  rintro _ _ ⟨v⟩
  exact .of { s with vault := v }

private theorem tell_reconfigured {now : Timestamp} {event : Event} (v w : Vault)
    (h : Reconfigured a b v w) :
    Agree (Reconfigured a b) (Vault.tell now event) v (Vault.tell now event) w := by
  obtain ⟨v⟩ := h
  exact agree_modify (.of { v with events := v.events.add now event })

private theorem credit_reconfigured (v w : Vault) (h : Reconfigured a b v w) :
    Agree (Reconfigured a b) (Vault.credit user token amount) v
      (Vault.credit user token amount) w := by
  obtain ⟨v⟩ := h
  refine agree_get (agree_check rfl (.of v) fun deposit _ => ?_)
  refine agree_check rfl (.of v) fun total _ => ?_
  exact agree_set (.of (v.putDeposit user token deposit total))

private theorem debit_reconfigured (v w : Vault) (h : Reconfigured a b v w) :
    Agree (Reconfigured a b) (Vault.debit user token amount) v
      (Vault.debit user token amount) w := by
  obtain ⟨v⟩ := h
  refine agree_get (agree_refuseIf (.of v) fun _ => agree_check rfl (.of v) fun total _ => ?_)
  refine agree_bind (agree_set (.of (v.putDeposit user token _ total))) fun _ _ _ h => ?_
  exact agree_pure h

private theorem vaultCall_recast {x : Action Protocol α}
    (hx : ∀ p q, Recast a b p q → Agree (Recast a b) x p x q) (h : Recast a b p q) :
    Agree (Recast a b) (vaultCall x) p (vaultCall x) q := by
  refine agree_hold ?_ h ?_ hx
  · obtain ⟨s⟩ := h
    rfl
  · rintro g _ _ ⟨s⟩
    exact .of { s with vault := { s.vault with guard := g } }

/-! ### Deposits -/

section

variable (henabled :
    ∀ v w, Reconfigured a b v w → w.ensureEnabled token = v.ensureEnabled token)

include henabled

private theorem pull_recast (h : Recast a b p q) :
    Agree (Recast a b) (pull funder user token amount) p (pull funder user token amount) q := by
  unfold pull
  refine agree_refuseIf h fun _ => agree_get ?_
  obtain ⟨s⟩ := h
  refine agree_check (henabled _ _ (.of s.vault)).symm (.of s) fun _ _ => ?_
  refine agree_bind (agree_onBank recast_beside _ (.of s)) ?_
  rintro _ _ _ ⟨t⟩
  refine agree_get (agree_check rfl (.of t) fun received _ => agree_refuseIf (.of t) fun _ => ?_)
  refine agree_bind (onVault_recast credit_reconfigured (.of t)) fun _ _ _ h => ?_
  exact agree_pure h

private theorem deposit_recast (h : Recast a b p q) :
    Agree (Recast a b) (deposit ctx token amount) p (deposit ctx token amount) q := by
  refine vaultCall_recast ?_ h
  rintro _ _ ⟨s⟩
  refine agree_get (agree_check rfl (.of s) fun _ _ => ?_)
  refine agree_bind (pull_recast henabled (.of s)) fun _ _ _ h => ?_
  exact agree_bind (onVault_recast tell_reconfigured h) fun _ _ _ h => agree_pure h

private theorem depositFor_recast (h : Recast a b p q) :
    Agree (Recast a b) (depositFor ctx user token amount) p
      (depositFor ctx user token amount) q := by
  refine vaultCall_recast ?_ h
  rintro _ _ ⟨s⟩
  refine agree_get (agree_check rfl (.of s) fun _ _ => agree_check rfl (.of s) fun _ _ => ?_)
  refine agree_check rfl (.of s) fun _ _ => ?_
  refine agree_bind (pull_recast henabled (.of s)) fun _ _ _ h => ?_
  exact agree_bind (onVault_recast tell_reconfigured h) fun _ _ _ h => agree_pure h

end

/-! ### Releases -/

/-- A debit, a check that does not tell the terms apart, a transfer, and the event. -/
private theorem release_recast {check : Action Protocol Unit} {now : Timestamp} {event : Event}
    (hcheck : ∀ p q, Recast a b p q → Agree (Recast a b) check p check q)
    (h : Recast a b p q) :
    Agree (Recast a b)
      (do
        let receipt ← onVault (Vault.debit user token amount)
        send receipt recipient amount check
        onVault (Vault.tell now event)) p
      (do
        let receipt ← onVault (Vault.debit user token amount)
        send receipt recipient amount check
        onVault (Vault.tell now event)) q := by
  refine agree_bind (onVault_recast debit_reconfigured h) fun receipt s t h => ?_
  have hsend : Agree (Recast a b) (send receipt recipient amount check) s
      (send receipt recipient amount check) t := by
    refine agree_undoing (agree_bind (hcheck s t h) ?_) ?_
    · rintro _ _ _ ⟨u⟩
      exact agree_get (agree_onBank recast_beside _ (.of u))
    · rintro _ _ ⟨u⟩
      exact .of { u with vault := u.vault.undo receipt }
  exact agree_bind hsend fun _ _ _ h => onVault_recast tell_reconfigured h

private theorem withdraw_recast (h : Recast a b p q) :
    Agree (Recast a b) (withdraw ctx user token amount) p (withdraw ctx user token amount) q := by
  refine vaultCall_recast ?_ h
  rintro _ _ ⟨s⟩
  refine agree_get (agree_refuseIf (.of s) fun _ => agree_refuseIf (.of s) fun _ => ?_)
  exact release_recast (fun _ _ h => agree_pure h) (.of s)

private theorem seize_recast (h : Recast a b p q) :
    Agree (Recast a b) (seize ctx user token amount liquidator) p
      (seize ctx user token amount liquidator) q := by
  refine vaultCall_recast ?_ h
  rintro _ _ ⟨s⟩
  refine agree_get (agree_check rfl (.of s) fun _ _ => agree_check rfl (.of s) fun _ _ => ?_)
  refine agree_refuseIf (.of s) fun _ => ?_
  exact release_recast (fun _ _ h => agree_pure h) (.of s)

/-- The margin is checked on a reading, and it does not matter which of the two reads gave it. -/
theorem checkMargin_congr {p q : Protocol} (hledger : q.ledger = p.ledger)
    (hread : (q.healthReading user).value? = (p.healthReading user).value?) :
    checkMargin q user = checkMargin p user := by
  unfold checkMargin
  rw [hledger, hread]

private theorem withdrawFor_recast (hterms : a.Equivalent b) {skipCheck : Bool}
    (h : Recast a b p q) :
    Agree (Recast a b) (withdrawFor ctx user token amount recipient skipCheck) p
      (withdrawFor ctx user token amount recipient skipCheck) q := by
  refine vaultCall_recast ?_ h
  rintro _ _ ⟨s⟩
  refine agree_get (agree_check rfl (.of s) fun _ _ => agree_check rfl (.of s) fun _ _ => ?_)
  refine agree_refuseIf (.of s) fun _ => agree_check rfl (.of s) fun _ _ => ?_
  refine agree_refuseIf (.of s) fun _ => release_recast ?_ (.of s)
  rintro _ _ ⟨t⟩
  refine agree_ite (fun _ => agree_pure (.of t)) fun _ => ?_
  have hmargin := checkMargin_congr (q := t.under b) (p := t.under a) rfl (hterms.reading t user)
  exact agree_get (agree_lift hmargin.symm (.of t))

/-! ### Liquidations and write-offs -/

private theorem settle_recast (h : Recast a b p q) :
    Agree (Recast a b) (settle ctx borrower token quote) p (settle ctx borrower token quote) q := by
  obtain ⟨s⟩ := h
  refine agree_get (agree_bind (agree_onBank recast_beside _ (.of s)) fun _ _ _ h => ?_)
  refine agree_bind (agree_onBank recast_beside _ h) fun _ _ _ h => ?_
  exact agree_bind (seize_recast h) fun _ _ _ h => agree_onLedger recast_beside _ h

private theorem commit_recast (h : Recast a b p q) :
    Agree (Recast a b) (commit ctx borrower token quote) p (commit ctx borrower token quote) q := by
  have hrecord : Agree (Recast a b) (recordShortfall ctx borrower quote.shortfall) p
      (recordShortfall ctx borrower quote.shortfall) q := by
    refine agree_ite (fun _ => ?_) fun _ => agree_pure h
    exact agree_bind (agree_onEngine recast_beside _ h) fun _ _ _ h =>
      agree_onEngine recast_beside _ h
  refine agree_bind hrecord fun _ _ _ h => ?_
  exact agree_bind (agree_onEngine recast_beside _ h) fun _ _ _ h =>
    agree_onEngine recast_beside _ h

theorem prepare_congr (ctx : Context) (offer : Amount) (hengine : q.engine = p.engine)
    (hledger : q.ledger = p.ledger) (hhealth : q.health borrower = p.health borrower)
    (hquote : ∀ offer, q.quote borrower token offer = p.quote borrower token offer) :
    prepare ctx borrower token offer q = prepare ctx borrower token offer p := by
  unfold prepare
  simp only [hengine, hledger, hhealth, hquote]

private theorem liquidate_recast (hterms : a.Equivalent b) (h : Recast a b p q) :
    Agree (Recast a b) (liquidate ctx borrower token offer) p
      (liquidate ctx borrower token offer) q := by
  rw [liquidate_eq]
  refine agree_engineCall recast_beside ?_ h
  rintro _ _ ⟨s⟩
  have hprepare := prepare_congr ctx offer (p := s.under a) (q := s.under b) rfl rfl
    (hterms.health s borrower) (hterms.quote s borrower token)
  refine agree_get (agree_check hprepare.symm (.of s) fun prepared _ => ?_)
  have hsettle : Agree (Recast a b)
      (orRestore unsettle (settle ctx borrower token prepared.2)) (s.under a)
      (orRestore unsettle (settle ctx borrower token prepared.2)) (s.under b) := by
    refine agree_orRestore (settle_recast (.of s)) ?_
    rintro _ _ ⟨t⟩
    exact .of (unsettle s t)
  refine agree_bind hsettle fun _ _ _ h => ?_
  exact agree_bind (commit_recast h) fun _ _ _ h => agree_pure h

private theorem forgive_recast {recorded absorbed : Amount} (h : Recast a b p q) :
    Agree (Recast a b) (forgive ctx borrower recorded absorbed) p
      (forgive ctx borrower recorded absorbed) q := by
  refine agree_bind (agree_discard (agree_onEngine recast_beside _ h)) ?_
  rintro _ _ _ ⟨s⟩
  refine agree_get (agree_check rfl (.of s) fun sum _ => ?_)
  exact agree_bind (agree_onEngine recast_beside _ (.of s)) fun _ _ _ h => agree_pure h

private theorem socialize_recast (h : Recast a b p q) :
    Agree (Recast a b) (socialize ctx borrower) p (socialize ctx borrower) q := by
  rw [socialize_eq]
  refine agree_engineCall recast_beside ?_ h
  rintro _ _ ⟨s⟩
  refine agree_get (agree_check rfl (.of s) fun _ _ => agree_refuseIf (.of s) fun _ => ?_)
  refine agree_ite (fun _ => ?_) fun _ => forgive_recast (.of s)
  exact agree_bind (agree_onLedger recast_beside _ (.of s)) fun _ _ _ h => forgive_recast h

/-! ### Calls -/

/-- **A call that does not administer tells terms apart by health factors and quotes, and a deposit
also by whether its token takes deposits.** -/
theorem perform_recast {call : Call} (hcall : ¬ call.Administers) (hterms : a.Equivalent b)
    (henabled : ∀ token, call.Deposits token → ∀ v w, Reconfigured a b v w →
      w.ensureEnabled token = v.ensureEnabled token) (h : Recast a b p q) :
    Agree (Recast a b) (perform ctx call) p (perform ctx call) q := by
  cases call with
  | deposit =>
      exact agree_bind (deposit_recast (henabled _ rfl) h) fun _ _ _ h => agree_pure h
  | depositFor =>
      exact agree_bind (depositFor_recast (henabled _ rfl) h) fun _ _ _ h => agree_pure h
  | withdraw => exact agree_bind (withdraw_recast h) fun _ _ _ h => agree_pure h
  | seize => exact agree_bind (seize_recast h) fun _ _ _ h => agree_pure h
  | withdrawFor => exact agree_bind (withdrawFor_recast hterms h) fun _ _ _ h => agree_pure h
  | liquidate => exact agree_bind (liquidate_recast hterms h) fun _ _ _ h => agree_pure h
  | socialize => exact agree_bind (socialize_recast h) fun _ _ _ h => agree_pure h
  | _ => exact absurd trivial hcall

/-! ### Turns -/

variable {R : Protocol → Protocol → Prop} {caller : Address} {call : Call}
    {happening : Happening}

/-- Calls that end alike are turns with the same answer. -/
theorem turn_of_submit (h : Agree R (submit caller call) p (submit caller call) q) :
    q.answer (.call caller call) = p.answer (.call caller call) ∧
      R (p.after (.call caller call)) (q.after (.call caller call)) := by
  refine ⟨?_, h.left⟩
  cases h with
  | answered hp hq _ | refused hp hq _ => simp only [answer, hp, hq]

theorem turn_of_happen (h : Agree R (happen happening) p (happen happening) q) :
    q.answer (.happening happening) = p.answer (.happening happening) ∧
      R (p.after (.happening happening)) (q.after (.happening happening)) := by
  refine ⟨?_, h.left⟩
  cases h with
  | answered hp hq _ | refused hp hq _ => simp only [answer, hp, hq]

/-- Turns that end alike make runs that do. -/
theorem run_of_turns {Allowed : Turn → Prop}
    (hturn : ∀ p q turn, Allowed turn → R p q →
      q.answer turn = p.answer turn ∧ R (p.after turn) (q.after turn))
    (turns : List Turn) (hall : ∀ turn ∈ turns, Allowed turn) (h : R p q) :
    q.trace turns = p.trace turns ∧ R (p.run turns) (q.run turns) := by
  induction turns generalizing p q with
  | nil => exact ⟨rfl, h⟩
  | cons turn rest ih =>
      obtain ⟨hanswer, hafter⟩ := hturn p q turn (hall turn (by simp)) h
      obtain ⟨htrace, hrun⟩ := ih (fun t ht => hall t (by simp [ht])) hafter
      refine ⟨?_, hrun⟩
      rw [trace, trace, hanswer, htrace]

end Protocol

end Custody
