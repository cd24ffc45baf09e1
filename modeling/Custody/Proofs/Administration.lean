/-
What an administrative call changes, and who may make it.

Administration checks first and writes afterwards, and the first check is the caller's
role.  What an answered call did is written down here, once for each kind of call and
exactly, the log included; whatever a later statement asks of an administrative call is
read off these lists and not off the call.

Three knobs of the vault turn with a delay: listing a token, changing its parameters,
and replacing the borrow module.  Each is requested, cancelled and executed, which makes
nine calls.  A knob has a value, a proposal that may wait, and a value in force, and in
these terms the nine calls are three.
-/
import Custody.Proofs.Call

namespace Custody

open Custody.Action

/-! ### Roles -/

namespace Access

variable {a b : Access} {caller account : Address} {role : Role} {changed : Bool}

theorem ensure_eq_ok {r : Unit} :
    a.ensure role account = .ok r ↔ a.holds role account = true := by
  unfold ensure
  by_cases h : a.holds role account = true
  · simp [h]
  · simp [h]

theorem grant_ok (h : grant caller role account a = .ok changed b) :
    a.holds .admin caller = true := by
  simp only [grant, get_bind, bind_eq_ok, check_eq_ok, ensure_eq_ok] at h
  obtain ⟨_, _, ⟨hadmin, -⟩, -⟩ := h
  exact hadmin

theorem revoke_ok (h : revoke caller role account a = .ok changed b) :
    a.holds .admin caller = true := by
  simp only [revoke, get_bind, bind_eq_ok, check_eq_ok, ensure_eq_ok] at h
  obtain ⟨_, _, ⟨hadmin, -⟩, -⟩ := h
  exact hadmin

theorem grant_clean : (grant caller role account).Clean a := by
  refine clean_get (clean_check fun _ _ => clean_check fun _ _ => ?_)
  exact (answers_bind answers_set fun _ _ _ => answers_pure).clean

theorem revoke_clean : (revoke caller role account).Clean a := by
  refine clean_get (clean_check fun _ _ => clean_refuseIf fun _ => ?_)
  intro e b hrefused
  split at hrefused
  next => cases hrefused
  next => cases hrefused

end Access

/-! ### Proposals -/

namespace Timelock

variable {α κ : Type} [Ord κ] [ToString κ] {now : Timestamp} {delay : UInt64} {value : α}

theorem ready_eq_ok {c : PendingChange α} :
    c.ready now delay = .ok value ↔ c.readyAt delay ≤ now ∧ c.value = value := by
  unfold PendingChange.ready
  by_cases h : now < c.readyAt delay
  · simp [h, UInt64.not_le.mpr h]
  · simp [h, UInt64.not_lt.mp h]

theorem Slot.required_eq_ok {s : Slot α} {c : PendingChange α} :
    s.required = .ok c ↔ s.pending = some c := by
  unfold Slot.required
  cases s.pending <;> simp

theorem Queue.required_eq_ok {q : Queue κ α} {k : κ} {c : PendingChange α} :
    q.required k = .ok c ↔ q.get? k = some c := by
  unfold Queue.required
  cases q.get? k <;> simp

end Timelock

/-! ### Knobs -/

/-- What a knob is set to. -/
abbrev Knob.Value : Knob → Type
  | .addCollateral _ | .updateCollateral _ => CollateralParams
  | .borrowModule => Address

/-- A step of a delayed change. -/
inductive ChangeStep where
  | request (knob : Knob) (value : knob.Value)
  | cancel (knob : Knob)
  | execute (knob : Knob)

/-- The knob that a step is about. -/
def ChangeStep.knob : ChangeStep → Knob
  | .request knob _ | .cancel knob | .execute knob => knob

/-- The step that a call makes, if it is about a delayed change. -/
def Call.changeStep? : Call → Option ChangeStep
  | .requestAdd token params => some (.request (.addCollateral token) params)
  | .cancelAdd token => some (.cancel (.addCollateral token))
  | .executeAdd token => some (.execute (.addCollateral token))
  | .requestUpdate token params => some (.request (.updateCollateral token) params)
  | .cancelUpdate token => some (.cancel (.updateCollateral token))
  | .executeUpdate token => some (.execute (.updateCollateral token))
  | .requestModule next => some (.request .borrowModule next)
  | .cancelModule => some (.cancel .borrowModule)
  | .executeModule => some (.execute .borrowModule)
  | _ => none

namespace Vault

variable {v w : Vault}

/-- The proposal that waits at a knob. -/
def pending (v : Vault) : (knob : Knob) → Option (PendingChange knob.Value)
  | .addCollateral token => v.pendingAdds.get? token
  | .updateCollateral token => v.pendingUpdates.get? token
  | .borrowModule => v.pendingModule.pending

/-- The vault with this proposal at a knob. -/
def propose (v : Vault) : (knob : Knob) → PendingChange knob.Value → Vault
  | .addCollateral token, c =>
    { v with pendingAdds := { v.pendingAdds with entries := v.pendingAdds.entries.insert token c } }
  | .updateCollateral token, c =>
    { v with pendingUpdates :=
        { v.pendingUpdates with entries := v.pendingUpdates.entries.insert token c } }
  | .borrowModule, c => { v with pendingModule := { v.pendingModule with pending := some c } }

/-- The vault without a proposal at a knob. -/
def unpropose (v : Vault) : Knob → Vault
  | .addCollateral token =>
    { v with pendingAdds := { v.pendingAdds with entries := v.pendingAdds.entries.erase token } }
  | .updateCollateral token =>
    { v with pendingUpdates :=
        { v.pendingUpdates with entries := v.pendingUpdates.entries.erase token } }
  | .borrowModule => { v with pendingModule := { v.pendingModule with pending := none } }

/-- What is checked of a value when it is requested, and again when it is executed. -/
def vet (v : Vault) : (knob : Knob) → knob.Value → Except Error Unit
  | .addCollateral token, params => v.checkAdd token params
  | .updateCollateral token, params => v.checkUpdate token params
  | .borrowModule, next => next.ensureNonZero "borrow_module"

/-- The vault with a value in force.  A token that is listed keeps taking deposits, or not. -/
def enforce (v : Vault) : (knob : Knob) → knob.Value → Vault
  | .addCollateral token, params => v.withToken token params
  | .updateCollateral token, params =>
    match v.configs.get? token with
    | none => v
    | some config =>
      { v with configs := v.configs.insert token { config with params := params } }
  | .borrowModule, next => { v with borrowModule := next }

/-- What is told when a value is put in force. -/
def enforced (v : Vault) : (knob : Knob) → knob.Value → Event
  | .addCollateral token, params | .updateCollateral token, params =>
    .collateralConfigured token params false
  | .borrowModule, next => .borrowModuleChanged v.borrowModule next

/-- The vault after a call that changed it so and told an event at its end. -/
def closing (v : Vault) (now : Timestamp) (event : Event) : Vault :=
  { v with events := v.events.add now event, guard := .free }

/-- A change of the members of a role, told if there was one. -/
def regrouped (v : Vault) (access : Access) (changed : Bool) (now : Timestamp)
    (event : Event) : Vault :=
  { v with
    access := access
    events := if changed then v.events.add now event else v.events
    guard := .free }

/-- What an answered administrative call did to the vault, and the role it takes. -/
inductive Amended (ctx : Context) (v w : Vault) : Call → Prop where
  | requested {call : Call} {knob : Knob} {value : knob.Value} :
      call.changeStep? = some (.request knob value) →
      v.access.holds .vaultAdmin ctx.caller = true → v.vet knob value = .ok () →
      w = (v.propose knob ⟨value, ctx.now⟩).closing ctx.now
        (.adminChangeRequested knob ctx.now (Timestamp.after ctx.now changeDelay)) →
      Amended ctx v w call
  | cancelled {call : Call} {knob : Knob} :
      call.changeStep? = some (.cancel knob) →
      v.access.holds .vaultAdmin ctx.caller = true → (v.pending knob).isSome = true →
      w = (v.unpropose knob).closing ctx.now (.adminChangeCancelled knob) →
      Amended ctx v w call
  | executed {call : Call} {knob : Knob} {c : PendingChange knob.Value} :
      call.changeStep? = some (.execute knob) →
      v.access.holds .vaultAdmin ctx.caller = true → v.pending knob = some c →
      c.readyAt changeDelay ≤ ctx.now → v.vet knob c.value = .ok () →
      w = ((v.enforce knob c.value).unpropose knob).closing ctx.now (v.enforced knob c.value) →
      Amended ctx v w call
  | added {token : Address} {params : CollateralParams} :
      v.access.holds .governance ctx.caller = true → v.checkAdd token params = .ok () →
      w = (v.withToken token params).closing ctx.now (.collateralConfigured token params true) →
      Amended ctx v w (.addCollateral token params)
  | switched {call : Call} {token : Address} {config : CollateralConfig} {enabled : Bool} :
      (call = if enabled then .enable token else .disable token) →
      v.access.holds .vaultAdmin ctx.caller = true → v.added? token = some config →
      w = { v with configs := v.configs.insert token { config with enabled := enabled } }.closing
        ctx.now (.collateralStatusChanged token enabled) →
      Amended ctx v w call
  | granted {role : Role} {account : Address} {a : Access} {changed : Bool} :
      Access.grant ctx.caller role account v.access = .ok changed a →
      w = v.regrouped a changed ctx.now (.roleGranted role account) →
      Amended ctx v w (.grantVaultRole role account)
  | revoked {role : Role} {account : Address} {a : Access} {changed : Bool} :
      Access.revoke ctx.caller role account v.access = .ok changed a →
      w = v.regrouped a changed ctx.now (.roleRevoked role account) →
      Amended ctx v w (.revokeVaultRole role account)
  | paused : v.access.holds .pauser ctx.caller = true →
      w = { v with paused := true }.closing ctx.now (.pauseChanged true ctx.caller) →
      Amended ctx v w .pause
  | unpaused : v.access.holds .admin ctx.caller = true →
      w = { v with paused := false }.closing ctx.now (.pauseChanged false ctx.caller) →
      Amended ctx v w .unpause

/-- Nobody administers the vault without a role in it. -/
theorem Amended.held {ctx : Context} {call : Call} (h : Amended ctx v w call) :
    ∃ role, v.access.holds role ctx.caller = true := by
  cases h with
  | requested _ hrole | cancelled _ hrole | executed _ hrole | added hrole | switched _ hrole
  | paused hrole | unpaused hrole => exact ⟨_, hrole⟩
  | granted hgrant => exact ⟨_, Access.grant_ok hgrant⟩
  | revoked hrevoke => exact ⟨_, Access.revoke_ok hrevoke⟩

end Vault

/-! ### The engine -/

namespace Engine

variable {e f : Engine}

/-- The engine after a call that changed it so and told an event at its end. -/
def closing (e : Engine) (now : Timestamp) (event : Event) : Engine :=
  { e with events := e.events.add now event, guard := .free }

/-- A change of the members of a role, told if there was one. -/
def regrouped (e : Engine) (access : Access) (changed : Bool) (now : Timestamp)
    (event : Event) : Engine :=
  { e with
    access := access
    events := if changed then e.events.add now event else e.events
    guard := .free }

/-- What an answered administrative call did to the engine, and the role it takes. -/
inductive Governed (ctx : Context) (e f : Engine) : Call → Prop where
  | resized {call : Call} {params : LiquidationParams} :
      (call = .setCloseFactor params.closeFactor ∧
          LiquidationParams.checkCloseFactor params.closeFactor = .ok () ∧
          params.fullThreshold = e.params.fullThreshold ∨
        call = .setFullThreshold params.fullThreshold ∧
          LiquidationParams.checkFullThreshold params.fullThreshold = .ok () ∧
          params.closeFactor = e.params.closeFactor) →
      e.access.holds .governance ctx.caller = true →
      f = { e with params := params }.closing ctx.now
        (.liquidationParamsUpdated params.closeFactor params.fullThreshold) →
      Governed ctx e f call
  | granted {role : Role} {account : Address} {a : Access} {changed : Bool} :
      Access.grant ctx.caller role account e.access = .ok changed a →
      f = e.regrouped a changed ctx.now (.roleGranted role account) →
      Governed ctx e f (.grantEngineRole role account)
  | revoked {role : Role} {account : Address} {a : Access} {changed : Bool} :
      Access.revoke ctx.caller role account e.access = .ok changed a →
      f = e.regrouped a changed ctx.now (.roleRevoked role account) →
      Governed ctx e f (.revokeEngineRole role account)
  | paused : e.access.holds .pauser ctx.caller = true →
      f = { e with paused := true }.closing ctx.now (.pauseChanged true ctx.caller) →
      Governed ctx e f .pause
  | unpaused : e.access.holds .admin ctx.caller = true →
      f = { e with paused := false }.closing ctx.now (.pauseChanged false ctx.caller) →
      Governed ctx e f .unpause

/-- Nobody governs the engine without a role in it. -/
theorem Governed.held {ctx : Context} {call : Call} (h : Governed ctx e f call) :
    ∃ role, e.access.holds role ctx.caller = true := by
  cases h with
  | resized _ hrole | paused hrole | unpaused hrole => exact ⟨_, hrole⟩
  | granted hgrant => exact ⟨_, Access.grant_ok hgrant⟩
  | revoked hrevoke => exact ⟨_, Access.revoke_ok hrevoke⟩

end Engine

/-! ### The vault's changes -/

namespace Vault

variable {ctx : Context} {v w : Vault} {token next account : Address}
  {params : CollateralParams} {role : Role} {r : Unit}

theorem requestAdd_amended
    (h : requestAdd ctx token params { v with guard := ⟨true⟩ } = .ok r w) :
    Amended ctx v { w with guard := .free } (.requestAdd token params) := by
  simp only [requestAdd, onAdds, tellRequested, tell, Timelock.Queue.propose, get_bind,
    bind_eq_ok, check_eq_ok, on_eq_ok, modify_eq_ok, Access.ensure_eq_ok] at h
  obtain ⟨_, _, ⟨hrole, rfl⟩, _, _, ⟨hvetted, rfl⟩, _, _, ⟨_, rfl, rfl⟩, rfl⟩ := h
  exact .requested rfl hrole hvetted rfl

theorem cancelAdd_amended (h : cancelAdd ctx token { v with guard := ⟨true⟩ } = .ok r w) :
    Amended ctx v { w with guard := .free } (.cancelAdd token) := by
  simp only [cancelAdd, onAdds, tell, Timelock.Queue.cancel, Timelock.Queue.clear, get_bind,
    modify_bind, bind_eq_ok, check_eq_ok, discard_eq_ok, on_eq_ok, modify_eq_ok, pure_eq_ok,
    Access.ensure_eq_ok, Timelock.Queue.required_eq_ok] at h
  obtain ⟨_, _, ⟨hrole, rfl⟩, _, _,
    ⟨c, _, ⟨_, _, ⟨hwaits, rfl⟩, rfl, rfl⟩, rfl⟩, rfl⟩ := h
  exact .cancelled rfl hrole (Option.isSome_of_eq_some hwaits) rfl

theorem executeAdd_amended (h : executeAdd ctx token { v with guard := ⟨true⟩ } = .ok r w) :
    Amended ctx v { w with guard := .free } (.executeAdd token) := by
  simp only [executeAdd, onAdds, tell, Timelock.Queue.ready, Timelock.Queue.clear, get_bind,
    set_bind, bind_eq_ok, check_eq_ok, on_eq_ok, modify_eq_ok, Access.ensure_eq_ok,
    Check.bind_eq_ok, Timelock.Queue.required_eq_ok, Timelock.ready_eq_ok] at h
  obtain ⟨_, _, ⟨hrole, rfl⟩, _, _, ⟨⟨c, hwaits, hready, rfl⟩, rfl⟩, _, _,
    ⟨hvetted, rfl⟩, _, _, ⟨_, rfl, rfl⟩, rfl⟩ := h
  exact .executed rfl hrole hwaits hready hvetted rfl

theorem addCollateral_amended
    (h : addCollateral ctx token params { v with guard := ⟨true⟩ } = .ok r w) :
    Amended ctx v { w with guard := .free } (.addCollateral token params) := by
  simp only [addCollateral, tell, get_bind, set_bind, bind_eq_ok, check_eq_ok, modify_eq_ok,
    Access.ensure_eq_ok] at h
  obtain ⟨_, _, ⟨hrole, rfl⟩, _, _, ⟨hchecked, rfl⟩, rfl⟩ := h
  exact .added hrole hchecked rfl

theorem requestUpdate_amended
    (h : requestUpdate ctx token params { v with guard := ⟨true⟩ } = .ok r w) :
    Amended ctx v { w with guard := .free } (.requestUpdate token params) := by
  simp only [requestUpdate, onUpdates, tellRequested, tell, Timelock.Queue.propose, get_bind,
    bind_eq_ok, check_eq_ok, on_eq_ok, modify_eq_ok, Access.ensure_eq_ok] at h
  obtain ⟨_, _, ⟨hrole, rfl⟩, _, _, ⟨hvetted, rfl⟩, _, _, ⟨_, rfl, rfl⟩, rfl⟩ := h
  exact .requested rfl hrole hvetted rfl

theorem cancelUpdate_amended (h : cancelUpdate ctx token { v with guard := ⟨true⟩ } = .ok r w) :
    Amended ctx v { w with guard := .free } (.cancelUpdate token) := by
  simp only [cancelUpdate, onUpdates, tell, Timelock.Queue.cancel, Timelock.Queue.clear, get_bind,
    modify_bind, bind_eq_ok, check_eq_ok, discard_eq_ok, on_eq_ok, modify_eq_ok, pure_eq_ok,
    Access.ensure_eq_ok, Timelock.Queue.required_eq_ok] at h
  obtain ⟨_, _, ⟨hrole, rfl⟩, _, _,
    ⟨c, _, ⟨_, _, ⟨hwaits, rfl⟩, rfl, rfl⟩, rfl⟩, rfl⟩ := h
  exact .cancelled rfl hrole (Option.isSome_of_eq_some hwaits) rfl

theorem requireAdded_eq_ok {config : CollateralConfig} :
    v.requireAdded token = .ok config ↔ v.added? token = some config := by
  unfold requireAdded
  cases v.added? token <;> simp

/-- A token that was added has its config. -/
theorem get?_of_added {config : CollateralConfig} (h : v.added? token = some config) :
    v.configs.get? token = some config := by
  unfold added? at h
  cases hget : v.configs.get? token with
  | none => simp [hget] at h
  | some found =>
      rw [hget, Option.filter_eq_some_iff] at h
      exact h.1

theorem executeUpdate_amended
    (h : executeUpdate ctx token { v with guard := ⟨true⟩ } = .ok r w) :
    Amended ctx v { w with guard := .free } (.executeUpdate token) := by
  simp only [executeUpdate, onUpdates, tell, Timelock.Queue.ready, Timelock.Queue.clear, get_bind,
    set_bind, bind_eq_ok, check_eq_ok, on_eq_ok, modify_eq_ok, Access.ensure_eq_ok,
    Check.bind_eq_ok, Timelock.Queue.required_eq_ok, Timelock.ready_eq_ok, requireAdded_eq_ok] at h
  obtain ⟨_, _, ⟨hrole, rfl⟩, _, _, ⟨⟨c, hwaits, hready, rfl⟩, rfl⟩, config, _,
    ⟨hadded, rfl⟩, _, _, ⟨hvalid, rfl⟩, _, _, ⟨_, rfl, rfl⟩, rfl⟩ := h
  have hadded : v.added? token = some config := hadded
  have hget : v.configs.get? token = some config := get?_of_added hadded
  have hvetted : v.vet (.updateCollateral token) c.value = .ok () := by
    simp only [vet, checkUpdate, requireAdded, hadded]
    exact hvalid
  refine .executed rfl hrole hwaits hready hvetted ?_
  simp only [enforce, hget]
  rfl

theorem setEnabled_amended {enabled : Bool}
    (h : setEnabled enabled ctx token { v with guard := ⟨true⟩ } = .ok r w) :
    Amended ctx v { w with guard := .free }
      (if enabled then .enable token else .disable token) := by
  simp only [setEnabled, tell, get_bind, set_bind, bind_eq_ok, check_eq_ok, modify_eq_ok,
    Access.ensure_eq_ok, requireAdded_eq_ok] at h
  obtain ⟨_, _, ⟨hrole, rfl⟩, config, _, ⟨hadded, rfl⟩, rfl⟩ := h
  exact .switched rfl hrole hadded rfl

theorem requestModule_amended
    (h : requestModule ctx next { v with guard := ⟨true⟩ } = .ok r w) :
    Amended ctx v { w with guard := .free } (.requestModule next) := by
  simp only [requestModule, onModule, tellRequested, tell, Timelock.Slot.propose, get_bind,
    bind_eq_ok, check_eq_ok, on_eq_ok, modify_eq_ok, Access.ensure_eq_ok] at h
  obtain ⟨_, _, ⟨hrole, rfl⟩, _, _, ⟨hvetted, rfl⟩, _, _, ⟨_, rfl, rfl⟩, rfl⟩ := h
  exact .requested rfl hrole hvetted rfl

theorem cancelModule_amended (h : cancelModule ctx { v with guard := ⟨true⟩ } = .ok r w) :
    Amended ctx v { w with guard := .free } .cancelModule := by
  simp only [cancelModule, onModule, tell, Timelock.Slot.cancel, Timelock.Slot.clear, get_bind,
    modify_bind, bind_eq_ok, check_eq_ok, discard_eq_ok, on_eq_ok, modify_eq_ok, pure_eq_ok,
    Access.ensure_eq_ok, Timelock.Slot.required_eq_ok] at h
  obtain ⟨_, _, ⟨hrole, rfl⟩, _, _,
    ⟨c, _, ⟨_, _, ⟨hwaits, rfl⟩, rfl, rfl⟩, rfl⟩, rfl⟩ := h
  exact .cancelled rfl hrole (Option.isSome_of_eq_some hwaits) rfl

theorem executeModule_amended (h : executeModule ctx { v with guard := ⟨true⟩ } = .ok r w) :
    Amended ctx v { w with guard := .free } .executeModule := by
  simp only [executeModule, onModule, tell, Timelock.Slot.ready, Timelock.Slot.clear, get_bind,
    set_bind, bind_eq_ok, check_eq_ok, on_eq_ok, modify_eq_ok, Access.ensure_eq_ok,
    Check.bind_eq_ok, Timelock.Slot.required_eq_ok, Timelock.ready_eq_ok] at h
  obtain ⟨_, _, ⟨hrole, rfl⟩, _, _, ⟨⟨c, hwaits, hready, rfl⟩, rfl⟩, _, _,
    ⟨hvetted, rfl⟩, _, _, ⟨_, rfl, rfl⟩, rfl⟩ := h
  exact .executed rfl hrole hwaits hready hvetted rfl

/-- A change of the members of a role, and telling of it. -/
private theorem onAccess_regrouped {x : Action Access Bool} {event : Event}
    (h : (onAccess x >>= fun changed => if changed then tell ctx.now event else pure ())
      { v with guard := ⟨true⟩ } = .ok r w) :
    ∃ a changed, x v.access = .ok changed a ∧
      { w with guard := .free } = v.regrouped a changed ctx.now event := by
  simp only [onAccess, bind_eq_ok, on_eq_ok] at h
  obtain ⟨changed, _, ⟨a, hx, rfl⟩, h⟩ := h
  refine ⟨a, changed, hx, ?_⟩
  cases changed with
  | true =>
      obtain rfl := modify_eq_ok.mp h
      rfl
  | false =>
      obtain ⟨-, rfl⟩ := pure_eq_ok.mp h
      rfl

theorem grantRole_amended
    (h : grantRole ctx role account { v with guard := ⟨true⟩ } = .ok r w) :
    Amended ctx v { w with guard := .free } (.grantVaultRole role account) := by
  obtain ⟨a, changed, hgrant, hw⟩ := onAccess_regrouped h
  exact .granted hgrant hw

theorem revokeRole_amended
    (h : revokeRole ctx role account { v with guard := ⟨true⟩ } = .ok r w) :
    Amended ctx v { w with guard := .free } (.revokeVaultRole role account) := by
  obtain ⟨a, changed, hrevoke, hw⟩ := onAccess_regrouped h
  exact .revoked hrevoke hw

theorem pause_amended (h : pause ctx { v with guard := ⟨true⟩ } = .ok r w) :
    Amended ctx v { w with guard := .free } .pause := by
  simp only [pause, setPaused, tell, get_bind, modify_bind, bind_eq_ok, check_eq_ok, modify_eq_ok,
    Access.ensure_eq_ok] at h
  obtain ⟨_, _, ⟨hrole, rfl⟩, rfl⟩ := h
  exact .paused hrole rfl

theorem unpause_amended (h : unpause ctx { v with guard := ⟨true⟩ } = .ok r w) :
    Amended ctx v { w with guard := .free } .unpause := by
  simp only [unpause, setPaused, tell, get_bind, modify_bind, bind_eq_ok, check_eq_ok,
    modify_eq_ok, Access.ensure_eq_ok] at h
  obtain ⟨_, _, ⟨hrole, rfl⟩, rfl⟩ := h
  exact .unpaused hrole rfl

end Vault

/-! ### The engine's changes -/

namespace Engine

variable {ctx : Context} {e f : Engine} {bps : UInt64} {account : Address} {role : Role}
  {r : Unit}

theorem setCloseFactor_governed
    (h : setCloseFactor ctx bps { e with guard := ⟨true⟩ } = .ok r f) :
    Governed ctx e { f with guard := .free } (.setCloseFactor bps) := by
  simp only [setCloseFactor, setParams, tell, get_bind, modify_bind, bind_eq_ok, check_eq_ok,
    modify_eq_ok, Access.ensure_eq_ok] at h
  obtain ⟨_, _, ⟨hrole, rfl⟩, _, _, ⟨hchecked, rfl⟩, rfl⟩ := h
  exact @Governed.resized ctx e _ _ { e.params with closeFactor := bps }
    (.inl ⟨rfl, hchecked, rfl⟩) hrole rfl

theorem setFullThreshold_governed
    (h : setFullThreshold ctx bps { e with guard := ⟨true⟩ } = .ok r f) :
    Governed ctx e { f with guard := .free } (.setFullThreshold bps) := by
  simp only [setFullThreshold, setParams, tell, get_bind, modify_bind, bind_eq_ok, check_eq_ok,
    modify_eq_ok, Access.ensure_eq_ok] at h
  obtain ⟨_, _, ⟨hrole, rfl⟩, _, _, ⟨hchecked, rfl⟩, rfl⟩ := h
  exact @Governed.resized ctx e _ _ { e.params with fullThreshold := bps }
    (.inr ⟨rfl, hchecked, rfl⟩) hrole rfl

/-- A change of the members of a role, and telling of it. -/
private theorem onMembers_regrouped {x : Action Access Bool} {event : Event}
    (h : (onAccess x >>= fun changed => if changed then tell ctx.now event else pure ())
      { e with guard := ⟨true⟩ } = .ok r f) :
    ∃ a changed, x e.access = .ok changed a ∧
      { f with guard := .free } = e.regrouped a changed ctx.now event := by
  simp only [onAccess, bind_eq_ok, on_eq_ok] at h
  obtain ⟨changed, _, ⟨a, hx, rfl⟩, h⟩ := h
  refine ⟨a, changed, hx, ?_⟩
  cases changed with
  | true =>
      obtain rfl := modify_eq_ok.mp h
      rfl
  | false =>
      obtain ⟨-, rfl⟩ := pure_eq_ok.mp h
      rfl

theorem grantRole_governed
    (h : grantRole ctx role account { e with guard := ⟨true⟩ } = .ok r f) :
    Governed ctx e { f with guard := .free } (.grantEngineRole role account) := by
  obtain ⟨a, changed, hgrant, hf⟩ := onMembers_regrouped h
  exact .granted hgrant hf

theorem revokeRole_governed
    (h : revokeRole ctx role account { e with guard := ⟨true⟩ } = .ok r f) :
    Governed ctx e { f with guard := .free } (.revokeEngineRole role account) := by
  obtain ⟨a, changed, hrevoke, hf⟩ := onMembers_regrouped h
  exact .revoked hrevoke hf

theorem pause_governed (h : pause ctx { e with guard := ⟨true⟩ } = .ok r f) :
    Governed ctx e { f with guard := .free } .pause := by
  simp only [pause, setPaused, tell, get_bind, modify_bind, bind_eq_ok, check_eq_ok, modify_eq_ok,
    Access.ensure_eq_ok] at h
  obtain ⟨_, _, ⟨hrole, rfl⟩, rfl⟩ := h
  exact .paused hrole rfl

theorem unpause_governed (h : unpause ctx { e with guard := ⟨true⟩ } = .ok r f) :
    Governed ctx e { f with guard := .free } .unpause := by
  simp only [unpause, setPaused, tell, get_bind, modify_bind, bind_eq_ok, check_eq_ok,
    modify_eq_ok, Access.ensure_eq_ok] at h
  obtain ⟨_, _, ⟨hrole, rfl⟩, rfl⟩ := h
  exact .unpaused hrole rfl

end Engine

/-! ### Both components -/

namespace Protocol

variable {ctx : Context} {call : Call} {p q : Protocol} {reply : Reply} {r : Unit}

/-- What an answered administrative call did. -/
inductive Managed (ctx : Context) (call : Call) (p q : Protocol) : Prop where
  | vault : Vault.Amended ctx p.vault q.vault call → q = { p with vault := q.vault } →
      Managed ctx call p q
  | engine : Engine.Governed ctx p.engine q.engine call → q = { p with engine := q.engine } →
      Managed ctx call p q
  | both : Vault.Amended ctx p.vault q.vault call → Engine.Governed ctx p.engine q.engine call →
      q = { p with vault := q.vault, engine := q.engine } → Managed ctx call p q

/-- Nobody administers without a role in one of the components. -/
theorem Managed.held (h : Managed ctx call p q) :
    ∃ role, p.vault.access.holds role ctx.caller = true ∨
      p.engine.access.holds role ctx.caller = true := by
  cases h with
  | vault hamended | both hamended =>
      obtain ⟨role, hrole⟩ := hamended.held
      exact ⟨role, .inl hrole⟩
  | engine hgoverned =>
      obtain ⟨role, hrole⟩ := hgoverned.held
      exact ⟨role, .inr hrole⟩

theorem vaultCall_amended {change : Action Vault Unit}
    (hchange : ∀ {r w}, change { p.vault with guard := ⟨true⟩ } = .ok r w →
      Vault.Amended ctx p.vault { w with guard := .free } call)
    (h : vaultCall (onVault change) p = .ok r q) :
    Vault.Amended ctx p.vault q.vault call ∧ q = { p with vault := q.vault } := by
  simp only [vaultCall, onVault, Guard.hold_eq_ok, on_eq_ok] at h
  obtain ⟨-, _, ⟨w, hw, rfl⟩, rfl⟩ := h
  exact ⟨hchange hw, rfl⟩

private theorem engineCall_governed {change : Action Engine Unit}
    (hchange : ∀ {r f}, change { p.engine with guard := ⟨true⟩ } = .ok r f →
      Engine.Governed ctx p.engine { f with guard := .free } call)
    (h : engineCall (onEngine change) p = .ok r q) :
    Engine.Governed ctx p.engine q.engine call ∧ q = { p with engine := q.engine } := by
  simp only [engineCall, onEngine, Guard.hold_eq_ok, on_eq_ok] at h
  obtain ⟨-, _, ⟨f, hf, rfl⟩, rfl⟩ := h
  exact ⟨hchange hf, rfl⟩

private theorem administer_managed {change : Action Vault Unit}
    (hchange : ∀ {r w}, change { p.vault with guard := ⟨true⟩ } = .ok r w →
      Vault.Amended ctx p.vault { w with guard := .free } call)
    (h : administer change p = .ok reply q) : Managed ctx call p q := by
  simp only [administer, bind_eq_ok, pure_eq_ok] at h
  obtain ⟨_, _, hdone, -, rfl⟩ := h
  obtain ⟨hamended, hq⟩ := vaultCall_amended hchange hdone
  exact .vault hamended hq

private theorem govern_managed {change : Action Engine Unit}
    (hchange : ∀ {r f}, change { p.engine with guard := ⟨true⟩ } = .ok r f →
      Engine.Governed ctx p.engine { f with guard := .free } call)
    (h : govern change p = .ok reply q) : Managed ctx call p q := by
  simp only [govern, bind_eq_ok, pure_eq_ok] at h
  obtain ⟨_, _, hdone, -, rfl⟩ := h
  obtain ⟨hgoverned, hq⟩ := engineCall_governed hchange hdone
  exact .engine hgoverned hq

/-- The two halves of a pause, one after the other. -/
private theorem halves_ok {first : Action Vault Unit} {second : Action Engine Unit}
    (hfirst : ∀ {v r w}, first { v with guard := ⟨true⟩ } = .ok r w →
      Vault.Amended ctx v { w with guard := .free } call)
    (hsecond : ∀ {e r f}, second { e with guard := ⟨true⟩ } = .ok r f →
      Engine.Governed ctx e { f with guard := .free } call)
    (h : (do
      vaultCall (onVault first)
      engineCall (onEngine second)
      return .done : Action Protocol Reply) p = .ok reply q) :
    Vault.Amended ctx p.vault q.vault call ∧ Engine.Governed ctx p.engine q.engine call ∧
      q = { p with vault := q.vault, engine := q.engine } := by
  simp only [bind_eq_ok, pure_eq_ok] at h
  obtain ⟨_, mid, hvault, _, _, hengine, -, rfl⟩ := h
  obtain ⟨hamended, hmid⟩ := vaultCall_amended hfirst hvault
  obtain ⟨hgoverned, hq⟩ := engineCall_governed hsecond hengine
  rw [hq]
  rw [hmid] at hgoverned ⊢
  exact ⟨hamended, hgoverned, rfl⟩

/-- An answered pause paused both components. -/
theorem pause_ok (h : perform ctx .pause p = .ok reply q) :
    Vault.Amended ctx p.vault q.vault .pause ∧ Engine.Governed ctx p.engine q.engine .pause ∧
      q = { p with vault := q.vault, engine := q.engine } :=
  halves_ok Vault.pause_amended Engine.pause_governed h

theorem unpause_ok (h : perform ctx .unpause p = .ok reply q) :
    Vault.Amended ctx p.vault q.vault .unpause ∧
      Engine.Governed ctx p.engine q.engine .unpause ∧
      q = { p with vault := q.vault, engine := q.engine } :=
  halves_ok Vault.unpause_amended Engine.unpause_governed h

/-- **What each answered administrative call did.** -/
theorem perform_managed (hcall : call.Administers) (h : perform ctx call p = .ok reply q) :
    Managed ctx call p q := by
  cases call with
  | deposit | depositFor | withdraw | seize | withdrawFor | liquidate | socialize =>
      exact hcall.elim
  | requestAdd => exact administer_managed Vault.requestAdd_amended h
  | cancelAdd => exact administer_managed Vault.cancelAdd_amended h
  | executeAdd => exact administer_managed Vault.executeAdd_amended h
  | addCollateral => exact administer_managed Vault.addCollateral_amended h
  | requestUpdate => exact administer_managed Vault.requestUpdate_amended h
  | cancelUpdate => exact administer_managed Vault.cancelUpdate_amended h
  | executeUpdate => exact administer_managed Vault.executeUpdate_amended h
  | requestModule => exact administer_managed Vault.requestModule_amended h
  | cancelModule => exact administer_managed Vault.cancelModule_amended h
  | executeModule => exact administer_managed Vault.executeModule_amended h
  | disable => exact administer_managed Vault.setEnabled_amended h
  | enable => exact administer_managed Vault.setEnabled_amended h
  | setCloseFactor => exact govern_managed Engine.setCloseFactor_governed h
  | setFullThreshold => exact govern_managed Engine.setFullThreshold_governed h
  | grantVaultRole => exact administer_managed Vault.grantRole_amended h
  | revokeVaultRole => exact administer_managed Vault.revokeRole_amended h
  | grantEngineRole => exact govern_managed Engine.grantRole_governed h
  | revokeEngineRole => exact govern_managed Engine.revokeRole_governed h
  | pause =>
      obtain ⟨hamended, hgoverned, hq⟩ := pause_ok h
      exact .both hamended hgoverned hq
  | unpause =>
      obtain ⟨hamended, hgoverned, hq⟩ := unpause_ok h
      exact .both hamended hgoverned hq

end Protocol

end Custody
