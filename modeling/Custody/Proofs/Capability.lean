/-
Which calls may change what, and who may make them.

Deposits, the risk parameters of tokens, the borrow module, the roles, the liquidation
parameters and the records of bad debt are protected.  Each has a few calls that may change
it, and each of these asks its caller for one thing.  That is a matrix, and it is written
down here as one: a row for each pair of a protected part and a call that may change it.

A liquidation is the row with two callers.  The liquidator calls the engine, and the engine
calls the vault, so the liquidator needs no role but the engine does; what the liquidator
needs is that the borrower is somebody else and below parity.

Whatever a run has changed was changed by one of its turns.  So the matrix holds of runs as
it holds of calls, with the capabilities as they were when the call was made.
-/
import Custody.Proofs.Authority
import Custody.Proofs.Delay

namespace Custody

open Custody.Action

/-- A part of the state that not everybody may change. -/
inductive Protected where
  /-- What a user has deposited in a token, which may not become less. -/
  | deposit (user token : Address)
  /-- The risk parameters of a token. -/
  | params (token : Address)
  | listing
  | borrowModule
  | vaultRoles
  | engineRoles
  | liquidationParams
  /-- The bad debt on record for a borrower, which may not become less. -/
  | badDebt (borrower : Address)

/-- A protected part is as it was. -/
def Protected.Kept : Protected → Protocol → Protocol → Prop
  | .deposit user token, p, q => p.vault.depositOf user token ≤ q.vault.depositOf user token
  | .params token, p, q => (q.vault.configs.get? token).map CollateralConfig.params =
      (p.vault.configs.get? token).map CollateralConfig.params
  | .listing, p, q => q.vault.listed = p.vault.listed
  | .borrowModule, p, q => q.vault.borrowModule = p.vault.borrowModule
  | .vaultRoles, p, q => q.vault.access = p.vault.access
  | .engineRoles, p, q => q.engine.access = p.engine.access
  | .liquidationParams, p, q => q.engine.params = p.engine.params
  | .badDebt borrower, p, q => p.engine.badDebt.of borrower ≤ q.engine.badDebt.of borrower

/-- The capability matrix: which account may make which call that changes a protected part. -/
inductive Protocol.Entitled (p : Protocol) (caller : Address) : Protected → Call → Prop
  | withdrawn {user token : Address} {amount : Amount} :
      caller = p.vault.borrowModule →
        Entitled p caller (.deposit user token) (.withdraw user token amount)
  | seized {user token liquidator : Address} {amount : Amount} :
      p.vault.access.holds .liquidation caller = true →
        Entitled p caller (.deposit user token) (.seize user token amount liquidator)
  | withdrawnFor {user token recipient : Address} {amount : Amount} {skipCheck : Bool} :
      p.vault.access.holds .leverageVault caller = true →
        Entitled p caller (.deposit user token)
          (.withdrawFor user token amount recipient skipCheck)
  | liquidated {borrower token : Address} {offer : Amount} {health : UInt64} :
      caller ≠ borrower → p.health borrower = .ok health → health < parityBps →
        p.vault.access.holds .liquidation p.engine.address = true →
        Entitled p caller (.deposit borrower token) (.liquidate borrower token offer)
  | added {part : Protected} {token : Address} {params : CollateralParams} :
      part = .params token ∨ part = .listing →
        p.vault.access.holds .governance caller = true →
        Entitled p caller part (.addCollateral token params)
  | addExecuted {part : Protected} {token : Address} :
      part = .params token ∨ part = .listing →
        p.vault.access.holds .vaultAdmin caller = true →
        Entitled p caller part (.executeAdd token)
  | updateExecuted {token : Address} :
      p.vault.access.holds .vaultAdmin caller = true →
        Entitled p caller (.params token) (.executeUpdate token)
  | moduleExecuted :
      p.vault.access.holds .vaultAdmin caller = true →
        Entitled p caller .borrowModule .executeModule
  | vaultGranted {role : Role} {account : Address} :
      p.vault.access.holds .admin caller = true →
        Entitled p caller .vaultRoles (.grantVaultRole role account)
  | vaultRevoked {role : Role} {account : Address} :
      p.vault.access.holds .admin caller = true →
        Entitled p caller .vaultRoles (.revokeVaultRole role account)
  | engineGranted {role : Role} {account : Address} :
      p.engine.access.holds .admin caller = true →
        Entitled p caller .engineRoles (.grantEngineRole role account)
  | engineRevoked {role : Role} {account : Address} :
      p.engine.access.holds .admin caller = true →
        Entitled p caller .engineRoles (.revokeEngineRole role account)
  | closeFactorSet {bps : UInt64} :
      p.engine.access.holds .governance caller = true →
        Entitled p caller .liquidationParams (.setCloseFactor bps)
  | fullThresholdSet {bps : UInt64} :
      p.engine.access.holds .governance caller = true →
        Entitled p caller .liquidationParams (.setFullThreshold bps)
  | socialized {borrower : Address} :
      p.engine.access.holds .governance caller = true →
        Entitled p caller (.badDebt borrower) (.socialize borrower)

/-! ### Keeping -/

namespace Protected

variable {p q s : Protocol} {part : Protected}

theorem Kept.refl (part : Protected) (p : Protocol) : part.Kept p p := by
  cases part with
  | deposit | badDebt => exact Nat.le_refl _
  | params | listing | borrowModule | vaultRoles | engineRoles | liquidationParams => exact rfl

theorem Kept.trans (h : part.Kept p q) (h' : part.Kept q s) : part.Kept p s := by
  cases part with
  | deposit | badDebt => exact Nat.le_trans h h'
  | params | listing | borrowModule | vaultRoles | engineRoles | liquidationParams =>
      exact Eq.trans h' h

/-- Under the same rules only a deposit and a record are left to look at. -/
theorem kept_of_rules (h : Protocol.SameRules p q)
    (hdeposit : ∀ user token, part = .deposit user token →
      p.vault.depositOf user token ≤ q.vault.depositOf user token)
    (hbadDebt : ∀ borrower, part = .badDebt borrower →
      p.engine.badDebt.of borrower ≤ q.engine.badDebt.of borrower) : part.Kept p q := by
  cases part with
  | deposit user token => exact hdeposit user token rfl
  | params token =>
      show (q.vault.configs.get? token).map _ = _
      rw [h.vault.configs]
  | listing => exact h.vault.listed
  | borrowModule => exact h.vault.borrowModule
  | vaultRoles => exact h.vault.access
  | engineRoles => exact h.access
  | liquidationParams => exact h.params
  | badDebt borrower => exact hbadDebt borrower rfl

/-- The guards are not protected. -/
theorem kept_of_copies (hvault : q.vault.copy = p.vault.copy)
    (hengine : q.engine.copy = p.engine.copy) : part.Kept p q := by
  cases part with
  | deposit user token =>
      have hdeposit : q.vault.depositOf user token = p.vault.depositOf user token :=
        congrArg (fun v => v.depositOf user token) hvault
      exact Nat.le_of_eq (congrArg Amount.val hdeposit.symm)
  | params token =>
      exact congrArg (fun v => (v.configs.get? token).map CollateralConfig.params) hvault
  | listing => exact congrArg (fun v => v.listed) hvault
  | borrowModule => exact congrArg (fun v => v.borrowModule) hvault
  | vaultRoles => exact congrArg (fun v => v.access) hvault
  | engineRoles => exact congrArg (fun e => e.access) hengine
  | liquidationParams => exact congrArg (fun e => e.params) hengine
  | badDebt borrower =>
      have hrecord : q.engine.badDebt.of borrower = p.engine.badDebt.of borrower :=
        congrArg (fun e => e.badDebt.of borrower) hengine
      exact Nat.le_of_eq (congrArg Amount.val hrecord.symm)

end Protected

/-! ### Administration -/

/-- The call that executes the change of a knob. -/
def Knob.execution : Knob → Call
  | .addCollateral token => .executeAdd token
  | .updateCollateral token => .executeUpdate token
  | .borrowModule => .executeModule

theorem Call.eq_execution_of_step {call : Call} {knob : Knob}
    (h : call.changeStep? = some (.execute knob)) : call = knob.execution := by
  cases call <;> cases h <;> rfl

namespace Vault.Amended

variable {ctx : Context} {v w : Vault} {call : Call}

/-- Every step of a delayed change takes the same role. -/
theorem held_of_step {step : ChangeStep} (h : Amended ctx v w call)
    (hstep : call.changeStep? = some step) : v.access.holds .vaultAdmin ctx.caller = true := by
  cases h with
  | requested _ hrole | cancelled _ hrole | executed _ hrole | switched _ hrole => exact hrole
  | added | granted | revoked | paused | unpaused => cases hstep

theorem held_of_added {token : Address} {params : CollateralParams}
    (h : Amended ctx v w (.addCollateral token params)) :
    v.access.holds .governance ctx.caller = true := by
  cases h with
  | added hrole => exact hrole
  | requested hstep | cancelled hstep | executed hstep => cases hstep
  | @switched _ _ _ enabled hcall => cases enabled <;> cases hcall

/-- What was turned, and who turned it: an execution or a listing at once. -/
inductive Turned (ctx : Context) (v : Vault) : Knob → Call → Prop
  | executed {knob : Knob} : v.access.holds .vaultAdmin ctx.caller = true →
      Turned ctx v knob knob.execution
  | added {token : Address} {params : CollateralParams} :
      v.access.holds .governance ctx.caller = true →
      Turned ctx v (.addCollateral token) (.addCollateral token params)

/-- An answered call leaves in force what was, or an entitled account turned one knob. -/
theorem turned_cases (h : Amended ctx v w call) :
    SameForce v w ∨
      ∃ knob value, Turned ctx v knob call ∧ SameForce (v.enforce knob value) w := by
  rcases h.force_cases with hsame | ⟨knob, value, hmade, hforce⟩
  · exact .inl hsame
  · refine .inr ⟨knob, value, ?_, hforce⟩
    rcases hmade with hstep | ⟨token, params, rfl, rfl⟩
    · have hrole := h.held_of_step hstep
      rw [Call.eq_execution_of_step hstep]
      exact .executed hrole
    · exact .added h.held_of_added

/-- The roles of the vault change by grants and revocations of its admins. -/
theorem access_cases (h : Amended ctx v w call) :
    w.access = v.access ∨
      v.access.holds .admin ctx.caller = true ∧
        ∃ role account, call = .grantVaultRole role account ∨
          call = .revokeVaultRole role account := by
  cases h with
  | @requested _ knob _ _ _ _ hw =>
      subst hw
      left
      cases knob <;> rfl
  | @cancelled _ knob _ _ _ hw =>
      subst hw
      left
      cases knob <;> rfl
  | @executed _ knob c _ _ _ _ _ hw =>
      subst hw
      left
      cases knob with
      | addCollateral | borrowModule => rfl
      | updateCollateral token =>
          simp only [closing, unpropose, enforce]
          split <;> rfl
  | added _ _ hw | switched _ _ _ hw | paused _ hw | unpaused _ hw =>
      subst hw
      exact .inl rfl
  | granted hgrant => exact .inr ⟨Access.grant_ok hgrant, _, _, .inl rfl⟩
  | revoked hrevoke => exact .inr ⟨Access.revoke_ok hrevoke, _, _, .inr rfl⟩

end Vault.Amended

namespace Engine.Governed

variable {ctx : Context} {e f : Engine} {call : Call}

theorem access_cases (h : Governed ctx e f call) :
    f.access = e.access ∨
      e.access.holds .admin ctx.caller = true ∧
        ∃ role account, call = .grantEngineRole role account ∨
          call = .revokeEngineRole role account := by
  cases h with
  | resized _ _ hf | paused _ hf | unpaused _ hf =>
      subst hf
      exact .inl rfl
  | granted hgrant => exact .inr ⟨Access.grant_ok hgrant, _, _, .inl rfl⟩
  | revoked hrevoke => exact .inr ⟨Access.revoke_ok hrevoke, _, _, .inr rfl⟩

theorem params_cases (h : Governed ctx e f call) :
    f.params = e.params ∨
      e.access.holds .governance ctx.caller = true ∧
        ∃ bps, call = .setCloseFactor bps ∨ call = .setFullThreshold bps := by
  cases h with
  | resized hcall hrole =>
      rcases hcall with ⟨rfl, -, -⟩ | ⟨rfl, -, -⟩
      · exact .inr ⟨hrole, _, .inl rfl⟩
      · exact .inr ⟨hrole, _, .inr rfl⟩
  | granted _ hf | revoked _ hf | paused _ hf | unpaused _ hf =>
      subst hf
      exact .inl rfl

end Engine.Governed

namespace Protocol

variable {ctx : Context} {caller : Address} {call : Call} {reply : Reply} {p q : Protocol}
  {part : Protected}

theorem Managed.vault_cases (h : Managed ctx call p q) :
    q.vault = p.vault ∨ Vault.Amended ctx p.vault q.vault call := by
  cases h with
  | vault hamended | both hamended => exact .inr hamended
  | engine _ hq =>
      rw [hq]
      exact .inl rfl

theorem Managed.engine_cases (h : Managed ctx call p q) :
    q.engine = p.engine ∨ Engine.Governed ctx p.engine q.engine call := by
  cases h with
  | engine hgoverned | both _ hgoverned => exact .inr hgoverned
  | vault _ hq =>
      rw [hq]
      exact .inl rfl

/-- What was in force stayed in force, or an entitled account turned one knob. -/
theorem Managed.turned_cases (h : Managed ctx call p q) :
    Vault.SameForce p.vault q.vault ∨
      ∃ knob value, Vault.Amended.Turned ctx p.vault knob call ∧
        Vault.SameForce (p.vault.enforce knob value) q.vault := by
  rcases h.vault_cases with hsame | hamended
  · rw [hsame]
    exact .inl ⟨rfl, fun _ => rfl⟩
  · exact hamended.turned_cases

/-- Turning a knob changes the value of that knob and no other protected part. -/
private theorem entitled_of_turned {knob : Knob} {value : knob.Value} (hpart : ¬ part.Kept p q)
    (hcases : part = .listing ∨ part = .borrowModule ∨ ∃ token, part = .params token)
    (hturned : Vault.Amended.Turned ⟨caller, p.clock⟩ p.vault knob call)
    (hforce : Vault.SameForce (p.vault.enforce knob value) q.vault) :
    p.Entitled caller part call := by
  rcases hcases with rfl | rfl | ⟨token, rfl⟩
  · -- The list of tokens grows by a listing only.
    rcases Vault.listed_enforce p.vault knob value with hsame | ⟨token, rfl, -⟩
    · exact absurd (hforce.listed.trans hsame) hpart
    · cases hturned with
      | executed hrole => exact .addExecuted (.inr rfl) hrole
      | added hrole => exact .added (.inr rfl) hrole
  · -- The borrow module has one knob.
    by_cases hknob : knob = .borrowModule
    · subst hknob
      cases hturned with
      | executed hrole => exact .moduleExecuted hrole
    · have hsame := Vault.borrowModule_enforce p.vault knob value hknob
      have hmodule : q.vault.borrowModule = (p.vault.enforce knob value).borrowModule :=
        Option.some.inj (hforce.inForce .borrowModule)
      exact absurd (hmodule.trans hsame) hpart
  · -- The parameters of a token have two.
    by_cases hadd : knob = .addCollateral token
    · subst hadd
      cases hturned with
      | executed hrole => exact .addExecuted (.inl rfl) hrole
      | added hrole => exact .added (.inl rfl) hrole
    by_cases hupdate : knob = .updateCollateral token
    · subst hupdate
      cases hturned with
      | executed hrole => exact .updateExecuted hrole
    · have hsame := Vault.params_enforce p.vault knob value hadd hupdate
      exact absurd ((hforce.inForce (.updateCollateral token)).trans hsame) hpart

/-- Administration writes no book, and what else it changes is in its caller's charge. -/
theorem Managed.entitled (h : Managed ⟨caller, p.clock⟩ call p q) (hadmin : Administered p q)
    (hpart : ¬ part.Kept p q) : p.Entitled caller part call := by
  cases part with
  | deposit user token =>
      refine absurd ?_ hpart
      show p.vault.depositOf user token ≤ q.vault.depositOf user token
      simp only [Vault.depositOf, hadmin.vault.deposits]
      exact Nat.le_refl _
  | badDebt borrower =>
      refine absurd ?_ hpart
      show p.engine.badDebt.of borrower ≤ q.engine.badDebt.of borrower
      rw [hadmin.engine.badDebt]
      exact Nat.le_refl _
  | params token =>
      rcases h.turned_cases with hforce | ⟨knob, value, hturned, hforce⟩
      · exact absurd (hforce.inForce (.updateCollateral token)) hpart
      · exact entitled_of_turned hpart (.inr (.inr ⟨token, rfl⟩)) hturned hforce
  | listing =>
      rcases h.turned_cases with hforce | ⟨knob, value, hturned, hforce⟩
      · exact absurd hforce.listed hpart
      · exact entitled_of_turned hpart (.inl rfl) hturned hforce
  | borrowModule =>
      rcases h.turned_cases with hforce | ⟨knob, value, hturned, hforce⟩
      · exact absurd (Option.some.inj (hforce.inForce .borrowModule)) hpart
      · exact entitled_of_turned hpart (.inr (.inl rfl)) hturned hforce
  | vaultRoles =>
      rcases h.vault_cases with hsame | hamended
      · exact absurd (congrArg Vault.access hsame) hpart
      rcases hamended.access_cases with hsame | ⟨hrole, role, account, rfl | rfl⟩
      · exact absurd hsame hpart
      · exact .vaultGranted hrole
      · exact .vaultRevoked hrole
  | engineRoles =>
      rcases h.engine_cases with hsame | hgoverned
      · exact absurd (congrArg Engine.access hsame) hpart
      rcases hgoverned.access_cases with hsame | ⟨hrole, role, account, rfl | rfl⟩
      · exact absurd hsame hpart
      · exact .engineGranted hrole
      · exact .engineRevoked hrole
  | liquidationParams =>
      rcases h.engine_cases with hsame | hgoverned
      · exact absurd (congrArg Engine.params hsame) hpart
      rcases hgoverned.params_cases with hsame | ⟨hrole, bps, rfl | rfl⟩
      · exact absurd hsame hpart
      · exact .closeFactorSet hrole
      · exact .fullThresholdSet hrole

/-! ### Collateral and bad debt -/

/-- A release lowers one deposit. -/
theorem Released.kept {user token recipient : Address} {amount : Amount} {now : Timestamp}
    {told : Event} (h : Released user token amount recipient now told p q)
    (hrules : SameRules p q) (hpart : part ≠ .deposit user token) : part.Kept p q := by
  refine Protected.kept_of_rules hrules (fun u t heq => ?_) fun borrower _ => ?_
  · subst heq
    rw [h.deposit_elsewhere (by rintro ⟨rfl, rfl⟩; exact hpart rfl)]
    exact Nat.le_refl _
  · rw [h.engine]
    exact Nat.le_refl _

theorem Deposited.kept {user token : Address} {amount received : Amount} {told : Event}
    (h : Deposited ctx user token amount received told p q) (hrules : SameRules p q) :
    part.Kept p q := by
  refine Protected.kept_of_rules hrules (fun u t _ => h.le_deposit u t) fun borrower _ => ?_
  rw [h.engine]
  exact Nat.le_refl _

/-- A liquidation lowers one deposit, and adds to a record if anything. -/
theorem Liquidated.kept {borrower token : Address} {offer : Amount} {health : UInt64}
    {quote : Quote} (h : Liquidated ctx borrower token offer health quote p q)
    (hrules : SameRules p q) (hpart : part ≠ .deposit borrower token) : part.Kept p q := by
  refine Protected.kept_of_rules hrules (fun u t heq => ?_) fun b _ => ?_
  · subst heq
    obtain ⟨pulled, burned, -, -, hreleased⟩ := h.settled.moved
    rw [hreleased.deposit_elsewhere (by rintro ⟨rfl, rfl⟩; exact hpart rfl)]
    exact Nat.le_refl _
  · have hrecord := h.committed.badDebt.record b
    rw [Amount.le_def]
    omega

/-- A write-off drops one record. -/
theorem Socialized.kept {borrower : Address} {absorbed : Amount}
    (h : Socialized ctx borrower absorbed p q) (hrules : SameRules p q)
    (hpart : part ≠ .badDebt borrower) : part.Kept p q := by
  refine Protected.kept_of_rules hrules (fun u t _ => ?_) fun b heq => ?_
  · rw [h.rest]
    exact Nat.le_refl _
  · subst heq
    have hother : b ≠ borrower := by
      rintro rfl
      exact hpart rfl
    rw [h.cleared.of_of_ne hother]
    exact Nat.le_refl _

/-! ### Every call and every run -/

/-- What an answered call changed, its caller was entitled to change. -/
theorem entitled_of_answered (h : perform ⟨caller, p.clock⟩ call p = .ok reply q)
    (hpart : ¬ part.Kept p q) : p.Entitled caller part call := by
  have hrules : ¬ call.Administers → SameRules p q := fun hcall => sameRules_of_perform hcall h
  cases perform_ok h with
  | deposited hdeposited | depositedFor _ hdeposited =>
      exact absurd (hdeposited.kept (hrules id)) hpart
  | @withdrawn _ _ user token amount hmodule hreleased =>
      by_cases heq : part = .deposit user token
      · subst heq
        exact .withdrawn hmodule
      · exact absurd (hreleased.kept (hrules id) heq) hpart
  | @seized _ _ user token liquidator amount hrole hreleased =>
      by_cases heq : part = .deposit user token
      · subst heq
        exact .seized (Access.ensure_eq_ok.mp hrole)
      · exact absurd (hreleased.kept (hrules id) heq) hpart
  | @withdrawnFor _ _ user token recipient amount skipCheck hrole hreleased =>
      by_cases heq : part = .deposit user token
      · subst heq
        exact .withdrawnFor (Access.ensure_eq_ok.mp hrole)
      · exact absurd (hreleased.kept (hrules id) heq) hpart
  | @liquidated _ _ borrower token offer health quote hliquidated =>
      by_cases heq : part = .deposit borrower token
      · subst heq
        have hprepared := prepare_ok hliquidated.prepared
        exact .liquidated (checkOffer_eq_ok.mp hprepared.offered).1 hprepared.read
          hprepared.unhealthy (Access.ensure_eq_ok.mp hliquidated.settled.role)
      · exact absurd (hliquidated.kept (hrules id) heq) hpart
  | @socialized _ _ borrower absorbed hsocialized =>
      by_cases heq : part = .badDebt borrower
      · subst heq
        exact .socialized (Access.ensure_eq_ok.mp hsocialized.role)
      · exact absurd (hsocialized.kept (hrules id) heq) hpart
  | administered hadministers hadmin =>
      exact (perform_managed hadministers h).entitled hadmin hpart

/-- What a call changed, answered or refused, its caller was entitled to change. -/
theorem entitled_of_changed (hpart : ¬ part.Kept p (p.after (.call caller call))) :
    p.Entitled caller part call := by
  rcases after_call p caller call with ⟨reply, hsubmit, -⟩ | ⟨e, -, hrestored⟩
  · exact entitled_of_answered (submit_eq_ok.mp hsubmit) hpart
  · refine absurd (Protected.kept_of_copies ?_ ?_) hpart
    · rw [hrestored.vault]
      rfl
    · rw [hrestored.engine]
      rfl

/-- What a run changed, one of its turns changed. -/
theorem changed_in_turn : ∀ (turns : List Turn) (p : Protocol), ¬ part.Kept p (p.run turns) →
    ∃ before turn later, turns = before ++ turn :: later ∧
      ¬ part.Kept (p.run before) ((p.run before).after turn) := by
  intro turns
  induction turns with
  | nil => intro p h; exact absurd (Protected.Kept.refl part p) h
  | cons turn rest ih =>
      intro p h
      by_cases hfirst : part.Kept p (p.after turn)
      · -- The first turn kept it, so the rest of the run did not.
        have hrest : ¬ part.Kept (p.after turn) ((p.after turn).run rest) :=
          fun hkept => h (hfirst.trans hkept)
        obtain ⟨before, changing, later, rfl, hchanged⟩ := ih (p.after turn) hrest
        exact ⟨turn :: before, changing, later, rfl, hchanged⟩
      · exact ⟨[], turn, rest, rfl, hfirst⟩

/-- **Every change is in somebody's charge.**  After a call of any account, a deposit that is
lower, a risk parameter, the list of tokens, the borrow module, the roles of a component or a
liquidation parameter that changed, and a record of bad debt that fell are each in a row of the
matrix with the call and its caller.  If one of them is not as it was after a run, whatever
else happened in it, one of the calls of the run is in a row with it, with the capabilities as
they were at that call. -/
theorem changes_in_charge (p : Protocol) (part : Protected) :
    (∀ caller call,
      part.Kept p (p.after (.call caller call)) ∨ p.Entitled caller part call) ∧
    ∀ turns, part.Kept p (p.run turns) ∨
      ∃ before caller call later, turns = before ++ .call caller call :: later ∧
        (p.run before).Entitled caller part call := by
  refine ⟨fun caller call => ?_, fun turns => ?_⟩
  · by_cases hkept : part.Kept p (p.after (.call caller call))
    · exact .inl hkept
    · exact .inr (entitled_of_changed hkept)
  · by_cases hkept : part.Kept p (p.run turns)
    · exact .inl hkept
    · obtain ⟨before, turn, later, hturns, hchanged⟩ := changed_in_turn turns p hkept
      cases turn with
      | call caller call =>
          exact .inr ⟨before, caller, call, later, hturns, entitled_of_changed hchanged⟩
      | happening happening =>
          obtain ⟨hvault, hengine⟩ := after_happening (p.run before) happening
          exact absurd (Protected.kept_of_copies (by rw [hvault]) (by rw [hengine])) hchanged

/-- A liquidator without any role takes a deposit of alice, who is far below parity. -/
theorem changes_in_charge_liquidation :
    let p := Sample.indebted Sample.loan
    let call := Call.liquidate Sample.alice Sample.wbtc .largest
    let part := Protected.deposit Sample.alice Sample.wbtc
    ¬ part.Kept p (p.after (.call Sample.liquidator call)) ∧
      p.Entitled Sample.liquidator part call := by
  intro p call part
  have hlost : ¬ p.vault.depositOf Sample.alice Sample.wbtc ≤
      (p.after (.call Sample.liquidator call)).vault.depositOf Sample.alice Sample.wbtc := by
    decide +kernel
  exact ⟨hlost, ((changes_in_charge p part).1 Sample.liquidator call).resolve_left hlost⟩

end Protocol

end Custody
