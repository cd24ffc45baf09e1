/-
The vault and the engine pause together.

Each component has a pause of its own and its own accounts that may set it, so a pause can be
granted by the one and refused by the other.  Submitted, such a half pause is undone.  An
answered pause has set both and any other answered call has set neither, so two components that
started together stay together.

While they are paused, deposits, withdrawals on the integrator's path and liquidations are refused
before anything else is looked at, whoever calls.  Other calls go on, and none of them adds to a
deposit.
-/
import Custody.Proofs.Transaction

namespace Custody

open Custody.Action

/-- Calls that a pause stops. -/
def Call.Stoppable : Call → Prop
  | .deposit .. | .depositFor .. | .withdrawFor .. | .liquidate .. => True
  | _ => False

/-- What a call sets the pauses to, if it sets them. -/
def Call.pauses? : Call → Option Bool
  | .pause => some true
  | .unpause => some false
  | _ => none

/-- A delayed change is no pause. -/
theorem Call.pauses?_of_changeStep {call : Call} {step : ChangeStep}
    (h : call.changeStep? = some step) : call.pauses? = none := by
  cases call with
  | pause | unpause => simp [changeStep?] at h
  | _ => rfl

variable {ctx : Context} {call : Call}

namespace Vault

variable {v w : Vault} {knob : Knob}

theorem propose_paused {c : PendingChange knob.Value} : (v.propose knob c).paused = v.paused := by
  cases knob <;> rfl

theorem unpropose_paused : (v.unpropose knob).paused = v.paused := by
  cases knob <;> rfl

theorem enforce_paused {value : knob.Value} : (v.enforce knob value).paused = v.paused := by
  cases knob with
  | updateCollateral token =>
      simp only [enforce]
      cases v.configs.get? token <;> rfl
  | addCollateral | borrowModule => rfl

theorem ensureRunning_paused (h : v.paused = true) :
    v.ensureRunning = .error .paused := by
  unfold ensureRunning
  exact if_pos h

/-- Administration of the vault leaves its pause alone unless it sets it. -/
theorem Amended.paused_eq (h : Amended ctx v w call) :
    w.paused = call.pauses?.getD v.paused := by
  cases h with
  | requested hstep _ _ hw =>
      rw [Call.pauses?_of_changeStep hstep, hw]
      exact propose_paused
  | cancelled hstep _ _ hw =>
      rw [Call.pauses?_of_changeStep hstep, hw]
      exact unpropose_paused
  | executed hstep _ _ _ _ hw =>
      rw [Call.pauses?_of_changeStep hstep, hw]
      exact unpropose_paused.trans enforce_paused
  | @switched _ _ _ enabled hcall _ _ hw =>
      rw [hcall, hw]
      cases enabled <;> rfl
  | added _ _ hw | granted _ hw | revoked _ hw | paused _ hw | unpaused _ hw =>
      rw [hw]
      rfl

end Vault

theorem Engine.ensureRunning_paused {e : Engine} (h : e.paused = true) :
    e.ensureRunning = .error .paused := by
  unfold ensureRunning
  exact if_pos h

theorem Engine.Governed.paused_eq {e f : Engine} (h : Engine.Governed ctx e f call) :
    f.paused = call.pauses?.getD e.paused := by
  cases h with
  | resized hcall _ hf =>
      rw [hf]
      rcases hcall with ⟨rfl, -⟩ | ⟨rfl, -⟩ <;> rfl
  | granted _ hf | revoked _ hf | paused _ hf | unpaused _ hf =>
      rw [hf]
      rfl

namespace Protocol

variable {p q : Protocol} {reply : Reply} {caller : Address} {α : Type}

/-! ### Both or neither -/

theorem Managed.paused_eq (h : Managed ctx call p q) (hcall : call.pauses? = none) :
    q.vault.paused = p.vault.paused ∧ q.engine.paused = p.engine.paused := by
  cases h with
  | vault hamended hq =>
      refine ⟨by rw [hamended.paused_eq, hcall]; rfl, ?_⟩
      rw [hq]
  | engine hgoverned hq =>
      refine ⟨?_, by rw [hgoverned.paused_eq, hcall]; rfl⟩
      rw [hq]
  | both hamended hgoverned _ =>
      exact ⟨by rw [hamended.paused_eq, hcall]; rfl, by rw [hgoverned.paused_eq, hcall]; rfl⟩

/-- What custody, liquidations and write-offs do leaves the engine's pause alone. -/
theorem Effect.engine_paused (h : Effect ctx call reply p q) (hcall : ¬ call.Administers) :
    q.engine.paused = p.engine.paused := by
  cases h with
  | deposited hdeposited | depositedFor _ hdeposited => rw [hdeposited.engine]
  | withdrawn _ hreleased | seized _ hreleased | withdrawnFor _ hreleased =>
      rw [hreleased.engine]
  | liquidated hliquidated => rw [hliquidated.committed.rest]
  | socialized hsocialized => rw [hsocialized.engine]
  | administered hadministers => exact absurd hadministers hcall

/-- **An answered call sets both pauses or neither.** -/
theorem perform_paused (h : perform ctx call p = .ok reply q) :
    q.vault.paused = call.pauses?.getD p.vault.paused ∧
      q.engine.paused = call.pauses?.getD p.engine.paused := by
  cases call with
  | deposit | depositFor | withdraw | seize | withdrawFor | liquidate | socialize =>
      exact ⟨((perform_rules id).of_ok h).paused, (perform_ok h).engine_paused id⟩
  | pause =>
      obtain ⟨hamended, hgoverned, -⟩ := pause_ok h
      exact ⟨hamended.paused_eq, hgoverned.paused_eq⟩
  | unpause =>
      obtain ⟨hamended, hgoverned, -⟩ := unpause_ok h
      exact ⟨hamended.paused_eq, hgoverned.paused_eq⟩
  | _ => exact (perform_managed (by trivial) h).paused_eq rfl

/-- The components are both paused or both not, and nobody holds them. -/
structure Together (p : Protocol) : Prop where
  idle : p.Idle
  paused : p.vault.paused = p.engine.paused

theorem Together.after (h : p.Together) (turn : Turn) : (p.after turn).Together := by
  refine ⟨h.idle.after turn, ?_⟩
  cases turn with
  | call caller call =>
      rcases after_call p caller call with ⟨reply, hanswered, -⟩ | ⟨e, hrefused, -⟩
      · obtain ⟨hvault, hengine⟩ := perform_paused (submit_eq_ok.mp hanswered)
        rw [hvault, hengine, h.paused]
      · rw [refused_unchanged h.idle hrefused]
        exact h.paused
  | happening happening =>
      obtain ⟨hvault, hengine⟩ := after_happening p happening
      rw [hvault, hengine]
      exact h.paused

theorem Together.run (h : p.Together) (turns : List Turn) : (p.run turns).Together := by
  have hstep : ∀ p turn, True → Together p → Together (p.after turn) :=
    fun _ turn _ h => h.after turn
  exact run_induction hstep turns p (fun _ _ => trivial) h

/-! ### What a pause stops -/

/-- The first step of a call is taken with the guard entered, and may refuse the call. -/
private theorem hold_refused {guard : Protocol → Guard} {update : Guard → Protocol → Protocol}
    {f : Protocol → Action Protocol α} {e : Error} (check : Protocol → Except Error Unit)
    (hfree : guard p = .free) (hcheck : check (update ⟨true⟩ p) = .error e) :
    ∃ s, Guard.hold guard update (get >>= fun p => liftM (check p) >>= fun _ => f p) p =
      .error e s := by
  have hentered : (guard p).entered = false := by
    rw [hfree]
    rfl
  have hrefused : (get >>= fun p => liftM (check p) >>= fun _ => f p : Action Protocol α)
      (update ⟨true⟩ p) = .error e (update ⟨true⟩ p) := by
    rw [get_bind]
    exact bind_of_error (check_eq_error.mpr ⟨hcheck, rfl⟩)
  exact ⟨_, Guard.hold_eq_error.mpr (.inr ⟨hentered, _, hrefused, rfl⟩)⟩

private theorem vaultCall_paused {f : Protocol → Action Protocol α} (hidle : p.Idle)
    (hpaused : p.vault.paused = true) :
    ∃ s, vaultCall (get >>= fun p => liftM p.vault.ensureRunning >>= fun _ => f p) p =
      .error .paused s := by
  refine hold_refused (fun p => p.vault.ensureRunning) hidle.vault ?_
  exact Vault.ensureRunning_paused hpaused

private theorem engineCall_paused {f : Protocol → Action Protocol α} (hidle : p.Idle)
    (hpaused : p.engine.paused = true) :
    ∃ s, engineCall (get >>= fun p => liftM p.engine.ensureRunning >>= fun _ => f p) p =
      .error .paused s := by
  refine hold_refused (fun p => p.engine.ensureRunning) hidle.engine ?_
  exact Engine.ensureRunning_paused hpaused

/-- **A pause stops these calls, whoever makes them and with whatever arguments.** -/
theorem submit_paused (hidle : p.Idle) (hvault : p.vault.paused = true)
    (hengine : p.engine.paused = true) (hcall : call.Stoppable) (caller : Address) :
    submit caller call p = .error .paused p := by
  have hperform : ∃ s, perform ⟨caller, p.clock⟩ call p = .error .paused s := by
    cases call with
    | deposit | depositFor | withdrawFor =>
        obtain ⟨s, hs⟩ := vaultCall_paused hidle hvault
        exact ⟨s, bind_of_error hs⟩
    | liquidate =>
        obtain ⟨s, hs⟩ := engineCall_paused hidle hengine
        exact ⟨s, bind_of_error hs⟩
    | _ => exact hcall.elim
  obtain ⟨s, hs⟩ := hperform
  have hsubmit : submit caller call p = .error .paused (restore p s) :=
    orRestore_eq_error.mpr ⟨s, hs, rfl⟩
  rw [hsubmit, refused_unchanged hidle hsubmit]

/-! ### What a pause keeps small -/

/-- While the vault is paused nothing adds to a deposit. -/
theorem Effect.deposit_le (h : Effect ctx call reply p q) (hpaused : p.vault.paused = true)
    (user token : Address) : q.vault.depositOf user token ≤ p.vault.depositOf user token := by
  have hstopped : p.vault.ensureRunning ≠ .ok () := by
    rw [Vault.ensureRunning_paused hpaused]
    nofun
  cases h with
  | deposited hdeposited | depositedFor _ hdeposited => exact absurd hdeposited.running hstopped
  | withdrawn _ hreleased | seized _ hreleased | withdrawnFor _ hreleased =>
      exact hreleased.deposit_le user token
  | liquidated hliquidated =>
      obtain ⟨pulled, burned, -, -, hreleased⟩ := hliquidated.settled.moved
      exact hreleased.deposit_le user token
  | socialized hsocialized =>
      rw [hsocialized.rest]
      exact Nat.le_refl _
  | administered _ hadmin =>
      simp only [Amount.le_def, Vault.depositOf, hadmin.vault.deposits, Nat.le_refl]

theorem deposit_le_of_paused (hpaused : p.vault.paused = true) (turn : Turn)
    (user token : Address) :
    (p.after turn).vault.depositOf user token ≤ p.vault.depositOf user token := by
  cases turn with
  | call caller call =>
      rcases after_call p caller call with ⟨reply, -, heffect⟩ | ⟨e, -, hrestored⟩
      · exact heffect.deposit_le hpaused user token
      · rw [hrestored.vault]
        exact Nat.le_refl _
  | happening happening =>
      rw [(after_happening p happening).vault]
      exact Nat.le_refl _

/-- **A pause is joint and complete.**  From a state in which neither component is paused and no
call is under way, every run ends with both paused or both not.  If they are, each call that a
pause stops is refused for the pause, whoever makes it, and no turn of any kind raises a deposit. -/
theorem pause_joint_complete (hidle : p.Idle) (hvault : p.vault.paused = false)
    (hengine : p.engine.paused = false) (turns : List Turn) :
    let q := p.run turns
    q.vault.paused = q.engine.paused ∧
      (q.vault.paused = true →
        (∀ (call : Call) (caller : Address), call.Stoppable →
          submit caller call q = .error .paused q) ∧
        ∀ (turn : Turn) (user token : Address),
          (q.after turn).vault.depositOf user token ≤ q.vault.depositOf user token) := by
  intro q
  have hstart : p.Together := ⟨hidle, hvault.trans hengine.symm⟩
  have htogether : q.Together := hstart.run turns
  refine ⟨htogether.paused, ?_⟩
  intro hpaused
  refine ⟨?_, ?_⟩
  · intro call caller hcall
    exact submit_paused htogether.idle hpaused (htogether.paused ▸ hpaused) hcall caller
  · intro turn user token
    exact deposit_le_of_paused hpaused turn user token

/-- Bob may pause the vault and not the engine, and admin may pause both; both of them try. -/
def pausing : List Turn :=
  Sample.opening ++
    [.call Sample.admin (.grantVaultRole .pauser Sample.bob),
      .call Sample.admin (.grantVaultRole .pauser Sample.admin),
      .call Sample.admin (.grantEngineRole .pauser Sample.admin),
      .call Sample.bob .pause,
      .call Sample.admin .pause]

/-- Bob's pause is half done and undone; after admin's alice can neither deposit nor liquidate. -/
theorem pause_joint_complete_pausing :
    let p := Sample.start
    let q := p.run pausing
    p.Idle ∧ p.vault.paused = false ∧ p.engine.paused = false ∧
      (p.run pausing.dropLast).vault.paused = false ∧
      q.vault.paused = true ∧ q.engine.paused = true ∧
      submit Sample.alice (.deposit Sample.wbtc Sample.unit) q = .error .paused q ∧
      submit Sample.alice (.liquidate Sample.bob Sample.weth .largest) q = .error .paused q ∧
      ∀ (turn : Turn) (user token : Address),
        (q.after turn).vault.depositOf user token ≤ q.vault.depositOf user token := by
  have hidle : Sample.start.Idle := ⟨rfl, rfl⟩
  have hpaused : (Sample.start.run pausing).vault.paused = true := by decide +kernel
  obtain ⟨htogether, hstops⟩ := pause_joint_complete hidle rfl rfl pausing
  obtain ⟨hrefused, hkept⟩ := hstops hpaused
  exact ⟨hidle, rfl, rfl, by decide +kernel, hpaused, htogether.symm.trans hpaused,
    hrefused _ _ trivial, hrefused _ _ trivial, hkept⟩

end Protocol

end Custody
