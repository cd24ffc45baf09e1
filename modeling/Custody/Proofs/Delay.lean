/-
Delayed changes take effect as they were requested.

What waits at a knob is a slot of the vault, and what a maintainer wants to know is
about the past: that a change which takes effect was requested long enough ago, that
nothing about the same knob has succeeded since then, and that the value is the one that
was requested.  The link is an invariant of histories.  A proposal that waits is what the
latest successful step at its knob requested, and at the time that the proposal tells.

A history may contain anything.  Accounts call the components directly and claim any time
at all, they submit transactions, and everything around the vault changes at will.
-/
import Mathlib.Data.List.Induction
import Custody.Proofs.Rules
import Custody.Proofs.Run

namespace Custody

open Custody.Action

/-! ### Knobs -/

namespace Vault

variable {ctx : Context} {v w : Vault} {call : Call} {knob other : Knob}

/-- The value that a knob is set to; a token that was never listed has no parameters. -/
def inForce (v : Vault) : (knob : Knob) → Option knob.Value
  | .addCollateral token | .updateCollateral token =>
    (v.configs.get? token).map CollateralConfig.params
  | .borrowModule => some v.borrowModule

theorem pending_propose (v : Vault) (knob : Knob) (c : PendingChange knob.Value) :
    (v.propose knob c).pending knob = some c := by
  cases knob <;> simp [propose, pending, Timelock.Queue.get?]

theorem pending_propose_of_ne (v : Vault) (c : PendingChange knob.Value) (h : other ≠ knob) :
    (v.propose knob c).pending other = v.pending other := by
  cases knob <;> cases other <;> simp_all [propose, pending, Timelock.Queue.get?]

theorem pending_unpropose (v : Vault) (knob : Knob) : (v.unpropose knob).pending knob = none := by
  cases knob <;> simp [unpropose, pending, Timelock.Queue.get?]

theorem pending_unpropose_of_ne (v : Vault) (h : other ≠ knob) :
    (v.unpropose knob).pending other = v.pending other := by
  cases knob <;> cases other <;> simp_all [unpropose, pending, Timelock.Queue.get?]

/-- Putting a value in force leaves the proposals alone. -/
theorem pending_enforce (v : Vault) (knob other : Knob) (value : knob.Value) :
    (v.enforce knob value).pending other = v.pending other := by
  cases knob with
  | addCollateral token => cases other <;> rfl
  | updateCollateral token =>
      simp only [enforce]
      split <;> cases other <;> rfl
  | borrowModule => cases other <;> rfl

/-- Dropping a proposal leaves the values in force alone. -/
theorem inForce_unpropose (v : Vault) (knob other : Knob) :
    (v.unpropose knob).inForce other = v.inForce other := by
  cases knob <;> cases other <;> rfl

/-- The parameters of a token are its parameters, whichever of its knobs sets them. -/
theorem inForce_enforce {value : knob.Value} (h : v.vet knob value = .ok ()) :
    (v.enforce knob value).inForce knob = some value := by
  cases knob with
  | addCollateral token => simp [enforce, inForce, withToken, CollateralConfig.listed]
  | updateCollateral token =>
      simp only [vet, checkUpdate, Check.bind_eq_ok, Check.discard_eq_ok,
        requireAdded_eq_ok] at h
      obtain ⟨_, ⟨config, hadded⟩, -⟩ := h
      simp [enforce, inForce, get?_of_added hadded]
  | borrowModule => rfl

theorem SameKnobs.pending (h : SameKnobs v w) (knob : Knob) : w.pending knob = v.pending knob := by
  cases knob with
  | addCollateral => simp only [Vault.pending, h.pendingAdds]
  | updateCollateral => simp only [Vault.pending, h.pendingUpdates]
  | borrowModule => simp only [Vault.pending, h.pendingModule]

theorem SameKnobs.inForce (h : SameKnobs v w) (knob : Knob) :
    w.inForce knob = v.inForce knob := by
  cases knob with
  | addCollateral | updateCollateral => simp only [Vault.inForce, h.configs]
  | borrowModule => simp only [Vault.inForce, h.borrowModule]

/-! ### What one amendment does to a knob -/

/-- A call makes at most one step, so at other knobs it makes none. -/
private theorem knob_ne_of_step {made : ChangeStep} (hmade : call.changeStep? = some made)
    (hne : knob ≠ made.knob) : ∀ step, call.changeStep? = some step → step.knob ≠ knob := by
  rintro step hstep rfl
  rw [hmade] at hstep
  obtain rfl := Option.some.inj hstep
  exact hne rfl

namespace Amended

/-- After an answered call a knob waits for what the call requested, or for nothing, or for
what it waited for before and the call was no step at this knob. -/
theorem pending_cases (h : Amended ctx v w call) (knob : Knob) :
    (∃ value, call.changeStep? = some (.request knob value) ∧
      w.pending knob = some ⟨value, ctx.now⟩) ∨
    w.pending knob = none ∨
    (w.pending knob = v.pending knob ∧
      ∀ step, call.changeStep? = some step → step.knob ≠ knob) := by
  cases h with
  | @requested _ at_ value hstep _ _ hw =>
      subst hw
      by_cases heq : knob = at_
      · subst heq
        exact .inl ⟨value, hstep, pending_propose v knob _⟩
      · exact .inr (.inr ⟨pending_propose_of_ne v _ heq, knob_ne_of_step hstep heq⟩)
  | @cancelled _ at_ hstep _ _ hw =>
      subst hw
      by_cases heq : knob = at_
      · subst heq
        exact .inr (.inl (pending_unpropose v knob))
      · exact .inr (.inr ⟨pending_unpropose_of_ne v heq, knob_ne_of_step hstep heq⟩)
  | @executed _ at_ c hstep _ _ _ _ hw =>
      subst hw
      by_cases heq : knob = at_
      · subst heq
        exact .inr (.inl (pending_unpropose _ knob))
      · refine .inr (.inr ⟨?_, knob_ne_of_step hstep heq⟩)
        exact (pending_unpropose_of_ne _ heq).trans (pending_enforce v at_ knob c.value)
  | @switched call token config enabled hcall _ _ hw =>
      subst hw hcall
      refine .inr (.inr ⟨by cases knob <;> rfl, ?_⟩)
      cases enabled <;> nofun
  | added _ _ hw | granted _ hw | revoked _ hw | paused _ hw | unpaused _ hw =>
      subst hw
      exact .inr (.inr ⟨by cases knob <;> rfl, nofun⟩)

/-- An answered execution puts in force what waited, and not before its time. -/
theorem executed_of_step (h : Amended ctx v w call)
    (hstep : call.changeStep? = some (.execute knob)) :
    ∃ c, v.pending knob = some c ∧ c.readyAt changeDelay ≤ ctx.now ∧
      w.inForce knob = some c.value := by
  cases h with
  | @executed _ at_ c hmade _ hwaits hready hvetted hw =>
      rw [hmade] at hstep
      obtain rfl : at_ = knob := by cases hstep; rfl
      subst hw
      exact ⟨c, hwaits, hready,
        (inForce_unpropose _ at_ at_).trans (inForce_enforce hvetted)⟩
  | requested hmade | cancelled hmade =>
      rw [hmade] at hstep
      cases hstep
  | @switched call token config enabled hcall =>
      subst hcall
      cases enabled <;> cases hstep
  | added | granted | revoked | paused | unpaused => cases hstep

end Amended

/-! ### What is in force

A value is put in force by an execution, and a listing by governance at once.  What that
changes is told by the knob alone, whoever turned it.
-/

/-- Two states of a vault with the same tokens listed and the same values in force. -/
structure SameForce (v w : Vault) : Prop where
  listed : w.listed = v.listed
  inForce : ∀ knob, w.inForce knob = v.inForce knob

/-- What may follow an amendment and has no force: proposals, roles, the pause and the log. -/
private theorem SameForce.of_fields (hconfigs : w.configs = v.configs)
    (hlisted : w.listed = v.listed) (hmodule : w.borrowModule = v.borrowModule) :
    SameForce v w := by
  refine ⟨hlisted, fun knob => ?_⟩
  cases knob with
  | addCollateral | updateCollateral => simp only [Vault.inForce, hconfigs]
  | borrowModule => simp only [Vault.inForce, hmodule]

private theorem SameForce.closing_unpropose (v : Vault) (knob : Knob) (now : Timestamp)
    (event : Event) : SameForce v ((v.unpropose knob).closing now event) := by
  cases knob <;> exact .of_fields rfl rfl rfl

/-- An answered call leaves in force what was, or puts one value in force. -/
theorem Amended.force_cases (h : Amended ctx v w call) :
    SameForce v w ∨ ∃ knob value,
      (call.changeStep? = some (.execute knob) ∨
        ∃ token params, knob = .addCollateral token ∧ call = .addCollateral token params) ∧
      SameForce (v.enforce knob value) w := by
  cases h with
  | @requested _ knob _ _ _ _ hw =>
      subst hw
      left
      cases knob <;> exact .of_fields rfl rfl rfl
  | @cancelled _ knob _ _ _ hw =>
      subst hw
      exact .inl (.closing_unpropose v knob ctx.now _)
  | @executed _ knob c hstep _ _ _ _ hw =>
      subst hw
      exact .inr ⟨knob, c.value, .inl hstep, .closing_unpropose _ knob ctx.now _⟩
  | @added token params _ _ hw =>
      subst hw
      exact .inr ⟨.addCollateral token, params, .inr ⟨token, params, rfl, rfl⟩,
        .of_fields rfl rfl rfl⟩
  | @switched _ token config enabled _ _ hadded hw =>
      subst hw
      refine .inl ⟨rfl, fun knob => ?_⟩
      -- The parameters of the token are written back as they are.
      have hget := get?_of_added hadded
      have hparams : ∀ t, ((v.configs.insert token { config with enabled := enabled }).get? t).map
          CollateralConfig.params = (v.configs.get? t).map CollateralConfig.params := by
        intro t
        rw [Table.get?_insert]
        by_cases heq : t = token
        · rw [if_pos heq, heq, hget]
          rfl
        · rw [if_neg heq]
      cases knob with
      | addCollateral t | updateCollateral t => exact hparams t
      | borrowModule => rfl
  | granted _ hw | revoked _ hw | paused _ hw | unpaused _ hw =>
      subst hw
      exact .inl (.of_fields rfl rfl rfl)

/-- Only a listing makes the list of tokens longer. -/
theorem listed_enforce (v : Vault) (knob : Knob) (value : knob.Value) :
    (v.enforce knob value).listed = v.listed ∨
      ∃ token, knob = .addCollateral token ∧
        (v.enforce knob value).listed = v.listed ++ [token] := by
  cases knob with
  | addCollateral token => exact .inr ⟨token, rfl, rfl⟩
  | updateCollateral token =>
      left
      simp only [enforce]
      split <;> rfl
  | borrowModule => exact .inl rfl

/-- The parameters of a token are set by its own two knobs only. -/
theorem params_enforce (v : Vault) (knob : Knob) (value : knob.Value) {token : Address}
    (hadd : knob ≠ .addCollateral token) (hupdate : knob ≠ .updateCollateral token) :
    (v.enforce knob value).inForce (.updateCollateral token) =
      v.inForce (.updateCollateral token) := by
  cases knob with
  | addCollateral added =>
      have hne : token ≠ added := fun heq => hadd (by rw [heq])
      simp only [enforce, withToken, inForce, Table.get?_insert, if_neg hne]
  | updateCollateral updated =>
      have hne : token ≠ updated := fun heq => hupdate (by rw [heq])
      simp only [enforce]
      split
      next => rfl
      next => simp only [inForce, Table.get?_insert, if_neg hne]
  | borrowModule => rfl

/-- The borrow module is set by its own knob only. -/
theorem borrowModule_enforce (v : Vault) (knob : Knob) (value : knob.Value)
    (h : knob ≠ .borrowModule) : (v.enforce knob value).borrowModule = v.borrowModule := by
  cases knob with
  | addCollateral token => rfl
  | updateCollateral token =>
      simp only [enforce]
      split <;> rfl
  | borrowModule => exact absurd rfl h

end Vault

/-! ### Histories -/

/-- Something that happens in the life of a vault. -/
inductive Episode where
  /-- An account calls the components, at a time that it tells. -/
  | direct (ctx : Context) (call : Call)
  /-- An account submits a call as a transaction. -/
  | submitted (caller : Address) (call : Call)
  /-- An account pauses the vault alone, or ends the pause. -/
  | pausing (ctx : Context) (paused : Bool)
  /-- The events of the vault are taken out. -/
  | drained
  /-- Anything at all happens around the vault. -/
  | around (engine : Engine) (ledger : Ledger) (oracle : Oracle) (bank : Bank) (clock : Timestamp)

namespace Protocol

open Vault (SameKnobs SameForce Amended)

variable {p q : Protocol} {episode : Episode} {episodes : List Episode} {ctx : Context}
  {call : Call} {step : ChangeStep} {knob : Knob} {reply : Reply}

/-- The state after an episode; what was called may have been refused. -/
def next (p : Protocol) : Episode → Protocol
  | .direct ctx call => (perform ctx call).left p
  | .submitted caller call => (submit caller call).left p
  | .pausing ctx paused => (if paused then pauseVault ctx else unpauseVault ctx).left p
  | .drained => { p with vault := { p.vault with events := p.vault.events.drained } }
  | .around engine ledger oracle bank clock => ⟨p.vault, engine, ledger, oracle, bank, clock⟩

/-- The state after a history. -/
def through (p : Protocol) (episodes : List Episode) : Protocol := episodes.foldl next p

theorem through_append (p : Protocol) (episodes later : List Episode) :
    p.through (episodes ++ later) = (p.through episodes).through later :=
  List.foldl_append

theorem through_snoc (p : Protocol) (episodes : List Episode) (last : Episode) :
    p.through (episodes ++ [last]) = (p.through episodes).next last :=
  through_append p episodes [last]

/-- The call that is answered in an episode, and who made it when. -/
inductive Answered (p : Protocol) : Episode → Context → Call → Prop
  | direct {ctx : Context} {call : Call} {reply : Reply} {q : Protocol} :
      perform ctx call p = .ok reply q → Answered p (.direct ctx call) ctx call
  | submitted {caller : Address} {call : Call} {reply : Reply} {q : Protocol} :
      submit caller call p = .ok reply q →
        Answered p (.submitted caller call) ⟨caller, p.clock⟩ call

/-- A step of a delayed change succeeds in an episode. -/
def Succeeds (p : Protocol) (episode : Episode) (ctx : Context) (step : ChangeStep) : Prop :=
  ∃ call, p.Answered episode ctx call ∧ call.changeStep? = some step

/-- A knob is turned in an episode: its change is executed, or governance lists the token at
once. -/
def Turns (p : Protocol) (episode : Episode) (ctx : Context) (knob : Knob) : Prop :=
  p.Succeeds episode ctx (.execute knob) ∨
    ∃ token params, knob = .addCollateral token ∧
      p.Answered episode ctx (.addCollateral token params)

/-- No step at a knob succeeds in a history. -/
def Quiet (p : Protocol) (knob : Knob) (episodes : List Episode) : Prop :=
  ∀ before episode, before ++ [episode] <+: episodes →
    ∀ ctx step, (p.through before).Succeeds episode ctx step → step.knob ≠ knob

/-- The latest successful step at a knob in a history was this request. -/
def LatestRequest (p : Protocol) (episodes : List Episode) (knob : Knob)
    (c : PendingChange knob.Value) : Prop :=
  ∃ before request between ctx, episodes = before ++ request :: between ∧
    (p.through before).Succeeds request ctx (.request knob c.value) ∧
    ctx.now = c.requestedAt ∧ ((p.through before).next request).Quiet knob between

/-! ### One episode -/

/-- At most one call is made in an episode. -/
private theorem Answered.unique {ctx' : Context} {call' : Call}
    (h : p.Answered episode ctx call) (h' : p.Answered episode ctx' call') :
    ctx = ctx' ∧ call = call' := by
  cases h with
  | direct => cases h'; exact ⟨rfl, rfl⟩
  | submitted => cases h'; exact ⟨rfl, rfl⟩

private theorem administers_of_step (h : call.changeStep? = some step) : call.Administers := by
  cases call with
  | deposit | depositFor | withdraw | seize | withdrawFor | liquidate | socialize => cases h
  | _ => trivial

/-- An answered call amended the vault, or it was no step and left all knobs alone. -/
private theorem amended_or_knobs (h : perform ctx call p = .ok reply q) :
    Amended ctx p.vault q.vault call ∨
      SameKnobs p.vault q.vault ∧ call.changeStep? = none := by
  by_cases hcall : call.Administers
  · cases perform_managed hcall h with
    | vault hamended | both hamended => exact .inl hamended
    | engine hgoverned hq =>
        refine .inr ⟨?_, ?_⟩
        · rw [hq]
          exact .rfl
        · cases hgoverned with
          | resized hresized => rcases hresized with ⟨rfl, -⟩ | ⟨rfl, -⟩ <;> rfl
          | granted | revoked | paused | unpaused => rfl
  · refine .inr ⟨((perform_rules hcall).of_ok h).toSameKnobs, ?_⟩
    cases hstep : call.changeStep? with
    | none => rfl
    | some step => exact absurd (administers_of_step hstep) hcall

private theorem next_of_answered (hanswered : p.Answered episode ctx call)
    (h : perform ctx call p = .ok reply (p.next episode)) :
    (∃ ctx call, p.Answered episode ctx call ∧
      Amended ctx p.vault (p.next episode).vault call) ∨
    (SameKnobs p.vault (p.next episode).vault ∧
      ∀ ctx step, ¬ p.Succeeds episode ctx step) := by
  rcases amended_or_knobs h with hamended | ⟨hknobs, hnone⟩
  · exact .inl ⟨ctx, call, hanswered, hamended⟩
  · refine .inr ⟨hknobs, ?_⟩
    rintro ctx' step ⟨call', hanswered', hstep⟩
    obtain ⟨-, rfl⟩ := hanswered.unique hanswered'
    rw [hnone] at hstep
    cases hstep

private theorem not_succeeds (h : ∀ ctx call, ¬ p.Answered episode ctx call) :
    ∀ ctx step, ¬ p.Succeeds episode ctx step := by
  rintro ctx step ⟨call, hanswered, -⟩
  exact h ctx call hanswered

/-- An episode amends the vault by an answered call, or it leaves all knobs alone and no step
succeeds in it. -/
theorem next_cases (p : Protocol) (episode : Episode) :
    (∃ ctx call, p.Answered episode ctx call ∧
      Amended ctx p.vault (p.next episode).vault call) ∨
    (SameKnobs p.vault (p.next episode).vault ∧
      ∀ ctx step, ¬ p.Succeeds episode ctx step) := by
  cases episode with
  | direct ctx call =>
      cases h : perform ctx call p with
      | ok reply q =>
          have hnext : p.next (.direct ctx call) = q := left_of_ok h
          exact next_of_answered (.direct h) (hnext ▸ h)
      | error e q =>
          have hnext : p.next (.direct ctx call) = q := left_of_error h
          have hunanswered : ∀ ctx' call', ¬ p.Answered (.direct ctx call) ctx' call' := by
            intro ctx' call' hanswered
            cases hanswered with
            | direct h' =>
                rw [h] at h'
                cases h'
          rw [hnext]
          exact .inr ⟨perform_refused h, not_succeeds hunanswered⟩
  | submitted caller call =>
      cases h : submit caller call p with
      | ok reply q =>
          have hnext : p.next (.submitted caller call) = q := left_of_ok h
          exact next_of_answered (.submitted h) (hnext ▸ submit_eq_ok.mp h)
      | error e q =>
          have hnext : p.next (.submitted caller call) = q := left_of_error h
          have hunanswered : ∀ ctx' call', ¬ p.Answered (.submitted caller call) ctx' call' := by
            intro ctx' call' hanswered
            cases hanswered with
            | submitted h' =>
                rw [h] at h'
                cases h'
          rw [hnext, (submit_refused h).vault]
          exact .inr ⟨SameKnobs.rfl.aside, not_succeeds hunanswered⟩
  | pausing ctx paused =>
      refine .inr ⟨?_, not_succeeds nofun⟩
      cases paused with
      | true => exact pauseVault_knobs
      | false => exact unpauseVault_knobs
  | drained => exact .inr ⟨SameKnobs.rfl.aside, not_succeeds nofun⟩
  | around => exact .inr ⟨.rfl, not_succeeds nofun⟩

/-- An episode leaves in force what was, or turns one knob. -/
theorem next_force (p : Protocol) (episode : Episode) :
    SameForce p.vault (p.next episode).vault ∨
    ∃ ctx knob value, p.Turns episode ctx knob ∧
      SameForce (p.vault.enforce knob value) (p.next episode).vault := by
  rcases next_cases p episode with ⟨ctx, call, hanswered, hamended⟩ | ⟨hknobs, -⟩
  · rcases hamended.force_cases with hsame | ⟨knob, value, hmade, hforce⟩
    · exact .inl hsame
    · refine .inr ⟨ctx, knob, value, ?_, hforce⟩
      rcases hmade with hstep | ⟨token, params, hknob, rfl⟩
      · exact .inl ⟨call, hanswered, hstep⟩
      · exact .inr ⟨token, params, hknob, hanswered⟩
  · exact .inl ⟨hknobs.listed, hknobs.inForce⟩

/-! ### What waits was requested

The induction is along the history, and the invariant speaks of all of it up to now: a
proposal that waits is that of the latest request.
-/

theorem Quiet.snoc {between : List Episode} (h : p.Quiet knob between)
    (hlast : ∀ ctx step, (p.through between).Succeeds episode ctx step → step.knob ≠ knob) :
    p.Quiet knob (between ++ [episode]) := by
  intro before e hprefix
  rcases List.prefix_concat_iff.mp hprefix with heq | hearlier
  · obtain ⟨rfl, hsame⟩ := List.append_inj' heq rfl
    obtain rfl := List.head_eq_of_cons_eq hsame
    exact hlast
  · exact h before e hearlier

theorem LatestRequest.snoc {c : PendingChange knob.Value} (h : p.LatestRequest episodes knob c)
    (hlast : ∀ ctx step, (p.through episodes).Succeeds episode ctx step → step.knob ≠ knob) :
    p.LatestRequest (episodes ++ [episode]) knob c := by
  obtain ⟨before, request, between, ctx, rfl, hrequest, hnow, hquiet⟩ := h
  refine ⟨before, request, between ++ [episode], ctx, by simp, hrequest, hnow, ?_⟩
  rw [through_append] at hlast
  exact hquiet.snoc hlast

/-- A proposal that waits at a knob is that of the latest request. -/
def Traced (p : Protocol) (knob : Knob) (episodes : List Episode) : Prop :=
  ∀ c, (p.through episodes).vault.pending knob = some c → p.LatestRequest episodes knob c

private theorem Traced.snoc (h : p.Traced knob episodes) (last : Episode) :
    p.Traced knob (episodes ++ [last]) := by
  intro c hwaits
  rw [through_snoc] at hwaits
  rcases next_cases (p.through episodes) last with
    ⟨ctx, call, hanswered, hamended⟩ | ⟨hknobs, hnone⟩
  · rcases hamended.pending_cases knob
      with ⟨value, hstep, hnow⟩ | hvacant | ⟨hkept, hother⟩
    · -- The last episode is the request.
      rw [hnow] at hwaits
      obtain rfl := Option.some.inj hwaits
      refine ⟨episodes, last, [], ctx, rfl, ⟨call, hanswered, hstep⟩, rfl, ?_⟩
      intro before e hprefix
      simp at hprefix
    · rw [hvacant] at hwaits
      cases hwaits
    · rw [hkept] at hwaits
      refine (h c hwaits).snoc ?_
      rintro ctx' step ⟨call', hanswered', hstep⟩
      obtain ⟨-, rfl⟩ := hanswered.unique hanswered'
      exact hother step hstep
  · rw [hknobs.pending] at hwaits
    exact (h c hwaits).snoc fun ctx step hsucceeds => absurd hsucceeds (hnone ctx step)

/-- In a new vault nothing waits. -/
private theorem pending_start {address admin borrowModule : Address} {v : Vault}
    (h : Vault.start address admin borrowModule = .ok v) (knob : Knob) : v.pending knob = none := by
  obtain ⟨access, -, rfl⟩ := Vault.start_ok h
  cases knob <;> rfl

/-- From a new vault on, a proposal that waits is that of the latest request. -/
theorem traced {address admin borrowModule : Address}
    (hstart : Vault.start address admin borrowModule = .ok p.vault) (knob : Knob)
    (episodes : List Episode) : p.Traced knob episodes := by
  induction episodes using List.reverseRecOn with
  | nil =>
      intro c hwaits
      have hnone := pending_start hstart knob
      rw [show (p.through []).vault = p.vault from rfl, hnone] at hwaits
      cases hwaits
  | append_singleton episodes last ih => exact ih.snoc last

/-! ### Every history -/

/-- What an execution puts in force is the latest request, made at least the delay ago. -/
private theorem executed_as_requested {address admin borrowModule : Address}
    (hstart : Vault.start address admin borrowModule = .ok p.vault) {last : Episode}
    (h : (p.through episodes).Succeeds last ctx (.execute knob)) :
    ∃ c, p.LatestRequest episodes knob c ∧
      min (c.requestedAt.toNat + 172800) (UInt64.size - 1) ≤ ctx.now.toNat ∧
      ((p.through episodes).next last).vault.inForce knob = some c.value := by
  obtain ⟨call, hanswered, hstep⟩ := h
  rcases next_cases (p.through episodes) last with
    ⟨ctx', call', hanswered', hamended⟩ | ⟨-, hnone⟩
  · obtain ⟨rfl, rfl⟩ := hanswered.unique hanswered'
    obtain ⟨c, hwaits, hready, hforce⟩ := hamended.executed_of_step hstep
    refine ⟨c, traced hstart knob episodes c hwaits, ?_, hforce⟩
    rw [PendingChange.readyAt, UInt64.le_iff_toNat_le, Timestamp.toNat_after] at hready
    exact hready
  · exact absurd ⟨call, hanswered, hstep⟩ (hnone ctx _)

/-- **Delayed changes take effect as requested, and nothing else does.**  In a history of a
new vault, whenever a change is executed, the latest successful step at its knob is a request,
at least the delay ago, of the value that is then in force.  The listed tokens, the parameters
of a token and the borrow module change by turning their knobs, and in no other way. -/
theorem changes_delayed {address admin borrowModule : Address}
    (hstart : Vault.start address admin borrowModule = .ok p.vault) (episodes : List Episode)
    (last : Episode) :
    let q := p.through episodes
    let v := q.vault
    let w := (q.next last).vault
    (∀ ctx knob, q.Succeeds last ctx (.execute knob) →
      ∃ c, p.LatestRequest episodes knob c ∧
        min (c.requestedAt.toNat + 172800) (UInt64.size - 1) ≤ ctx.now.toNat ∧
        w.inForce knob = some c.value) ∧
    (w.listed = v.listed ∨ ∃ ctx token, q.Turns last ctx (.addCollateral token) ∧
      w.listed = v.listed ++ [token]) ∧
    (∀ token, w.inForce (.updateCollateral token) = v.inForce (.updateCollateral token) ∨
      ∃ ctx, q.Turns last ctx (.addCollateral token) ∨
        q.Turns last ctx (.updateCollateral token)) ∧
    (w.borrowModule = v.borrowModule ∨ ∃ ctx, q.Turns last ctx .borrowModule) := by
  intro q v w
  refine ⟨fun ctx knob hsucceeds => executed_as_requested hstart hsucceeds, ?_⟩
  rcases next_force q last with hsame | ⟨ctx, knob, value, hturns, hforce⟩
  · have hmodule := hsame.inForce .borrowModule
    exact ⟨.inl hsame.listed, fun token => .inl (hsame.inForce _),
      .inl (Option.some.inj hmodule)⟩
  · refine ⟨?_, fun token => ?_, ?_⟩
    · rcases Vault.listed_enforce q.vault knob value with hsame | ⟨token, rfl, hlonger⟩
      · exact .inl (hforce.listed.trans hsame)
      · exact .inr ⟨ctx, token, hturns, hforce.listed.trans hlonger⟩
    · by_cases hadd : knob = .addCollateral token
      · exact .inr ⟨ctx, .inl (hadd ▸ hturns)⟩
      by_cases hupdate : knob = .updateCollateral token
      · exact .inr ⟨ctx, .inr (hupdate ▸ hturns)⟩
      · exact .inl ((hforce.inForce _).trans
          (Vault.params_enforce q.vault knob value hadd hupdate))
    · by_cases hmodule : knob = .borrowModule
      · exact .inr ⟨ctx, hmodule ▸ hturns⟩
      · have hread := Option.some.inj (hforce.inForce .borrowModule)
        exact .inl (hread.trans (Vault.borrowModule_enforce q.vault knob value hmodule))

/-- A listing is requested, and requested again with another threshold before it is executed. -/
def reconsidered : List Episode :=
  [.submitted Sample.admin (.grantVaultRole .vaultAdmin Sample.admin),
    .direct ⟨Sample.admin, 0⟩ (.requestAdd Sample.weth ⟨7500, 8000, 500⟩),
    .direct ⟨Sample.admin, 100⟩ (.requestAdd Sample.weth ⟨7500, 8500, 500⟩)]

/-- The delay counts from the second request, and a second before its end is too early. -/
example : (perform ⟨Sample.admin, 172899⟩ (.executeAdd Sample.weth)).reply?
    (Sample.start.through reconsidered) = none := by decide +kernel

/-- Executed as soon as the delay since the second request has passed, the listing has the
threshold of the second request. -/
theorem changes_delayed_reconsidered :
    let q := Sample.start.through reconsidered
    let execute := Episode.direct ⟨Sample.admin, 172900⟩ (.executeAdd Sample.weth)
    q.Succeeds execute ⟨Sample.admin, 172900⟩ (.execute (.addCollateral Sample.weth)) ∧
    (∃ c, Sample.start.LatestRequest reconsidered (.addCollateral Sample.weth) c ∧
      min (c.requestedAt.toNat + 172800) (UInt64.size - 1) ≤ (172900 : Timestamp).toNat ∧
      (q.next execute).vault.inForce (.addCollateral Sample.weth) = some c.value) ∧
    (q.next execute).vault.inForce (.addCollateral Sample.weth) =
      some (⟨7500, 8500, 500⟩ : CollateralParams) := by
  intro q execute
  have hanswered : (perform ⟨Sample.admin, 172900⟩ (.executeAdd Sample.weth)).reply? q =
      some .done := by decide +kernel
  have hsucceeds : q.Succeeds execute ⟨Sample.admin, 172900⟩
      (.execute (.addCollateral Sample.weth)) :=
    ⟨_, .direct (eq_ok_of_reply? hanswered), rfl⟩
  have hstart : Vault.start Sample.vaultAccount Sample.admin Sample.borrowModule =
      .ok Sample.start.vault := rfl
  have hdelayed := changes_delayed hstart reconsidered execute
  exact ⟨hsucceeds, hdelayed.1 _ _ hsucceeds, by decide +kernel⟩

end Protocol

end Custody
