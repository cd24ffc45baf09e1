/-
A vault can be rebuilt from its events.

The events are what remains of a vault when the vault itself is gone: whoever reads them
in order should arrive at the same deposits, listed tokens and members.  How an event is
read is written down here by itself.  It says what a reader makes of an event and knows
nothing of the calls that tell it, so that the calls have to match it and not the other way
round.

A log drops its oldest events when it is full, and it can be taken out.  What was taken out
still counts as told.  What was dropped is lost, so the statement is about histories that
told fewer events than a log keeps; then the log has dropped nothing.
-/
import Custody.Proofs.Registry

namespace Custody

open Custody.Action

/-! ### Logs -/

namespace EventLog

variable {log : EventLog} {now : Timestamp} {event : Event}

/-- The events that a log keeps, oldest first. -/
def told (log : EventLog) : List Event := log.toList.map (·.event)

/-- The log after some events, each told at its time. -/
def addAll (log : EventLog) (news : List (Timestamp × Event)) : EventLog :=
  news.foldl (fun log entry => log.add entry.1 entry.2) log

theorem addAll_append (log : EventLog) (news later : List (Timestamp × Event)) :
    log.addAll (news ++ later) = (log.addAll news).addAll later :=
  List.foldl_append

theorem limit_addAll : ∀ (news : List (Timestamp × Event)) (log : EventLog),
    (log.addAll news).limit = log.limit := by
  intro news
  induction news with
  | nil => intro log; rfl
  | cons entry rest ih => intro log; exact ih (log.add entry.1 entry.2)

/-- A log that is not full after an event has dropped none. -/
theorem told_add (h : (log.add now event).told.length < log.limit.toNat) :
    (log.add now event).told = log.told ++ [event] := by
  by_cases hexcess : (log.entries.push ⟨log.next, now, event⟩).size - log.limit.toNat = 0
  · simp only [told, toList, add, hexcess, if_true]
    simp
  · -- Otherwise it is cut to its limit, and full.
    simp only [told, toList, add, hexcess, if_false, List.length_map, Array.length_toList,
      Array.size_extract] at h
    omega

theorem told_addAll : ∀ (news : List (Timestamp × Event)) (log : EventLog),
    (log.addAll news).told.length < log.limit.toNat →
    (log.addAll news).told = log.told ++ news.map Prod.snd := by
  intro news
  induction news with
  | nil => intro log _; exact (List.append_nil _).symm
  | cons entry rest ih =>
      intro log h
      have hrest : (log.addAll (entry :: rest)).told =
          (log.add entry.1 entry.2).told ++ rest.map Prod.snd :=
        ih (log.add entry.1 entry.2) h
      rw [hrest, List.length_append] at h
      rw [hrest, told_add (by omega), List.append_assoc]
      rfl

end EventLog

/-! ### Members of roles -/

namespace Access

variable {a b : Access} {caller account : Address} {role : Role} {changed : Bool}

/-- One more member of a role. -/
def joined (a : Access) (role : Role) (account : Address) : Access :=
  ⟨a.members.insert role (KeySet.add (a.holders role) account)⟩

/-- One member of a role less. -/
def parted (a : Access) (role : Role) (account : Address) : Access :=
  ⟨a.members.insert role ((a.holders role).erase account)⟩

private theorem get?_holders (h : a.holds role account = true) :
    (a.holders role).get? account = some () := by
  cases hget : (a.holders role).get? account with
  | none => simp [holds, Table.contains, hget] at h
  | some => rfl

/-- A role that has members has an entry. -/
private theorem get?_members (h : a.holds role account = true) :
    a.members.get? role = some (a.holders role) := by
  have hholds := get?_holders h
  unfold holders at hholds ⊢
  cases hget : a.members.get? role with
  | none => rw [hget] at hholds; cases hholds
  | some => rfl

/-- Granting what an account holds already writes what is there. -/
theorem grant_members (h : grant caller role account a = .ok changed b) :
    b = if changed then a.joined role account else a := by
  simp only [grant, get_bind, set_bind, bind_eq_ok, check_eq_ok, pure_eq_ok] at h
  obtain ⟨_, _, ⟨-, rfl⟩, _, _, ⟨-, rfl⟩, rfl, rfl⟩ := h
  cases hholds : a.holds role account with
  | false => rfl
  | true =>
      have hsame : KeySet.add (a.holders role) account = a.holders role :=
        Table.insert_of_get? (get?_holders hholds)
      simp only [hsame, Table.insert_of_get? (get?_members hholds)]
      rfl

/-- Revoking what an account lacks writes what is there, or nothing. -/
theorem revoke_members (h : revoke caller role account a = .ok changed b) :
    b = if changed then a.parted role account else a := by
  simp only [revoke, get_bind, bind_eq_ok, check_eq_ok, refuseIf_eq_ok] at h
  obtain ⟨_, _, ⟨-, rfl⟩, -, h⟩ := h
  cases hget : a.members.get? role with
  | none =>
      rw [hget] at h
      obtain ⟨rfl, rfl⟩ := pure_eq_ok.mp h
      rfl
  | some held =>
      have hheld : a.holders role = held := by simp [holders, hget]
      simp only [hget, set_bind, pure_eq_ok] at h
      obtain ⟨rfl, rfl⟩ := h
      cases hholds : a.holds role account with
      | true => simp only [if_true, parted, hheld]
      | false =>
          have hnone : held.get? account = none := by
            simpa [holds, Table.contains, hheld] using hholds
          simp [Table.erase_of_get? hnone, Table.insert_of_get? hget]

end Access

/-! ### Reading the events of a vault -/

namespace Vault

/-- What the events of a vault tell of it. -/
structure Portrait where
  deposits : Book
  totals : Tally
  listed : List Address
  configs : Table Address CollateralConfig
  borrowModule : Address
  access : Access
  paused : Bool
deriving DecidableEq

/-- What is to be read in the events of this vault. -/
def portrait (v : Vault) : Portrait where
  deposits := v.deposits
  totals := v.totals
  listed := v.listed
  configs := v.configs
  borrowModule := v.borrowModule
  access := v.access
  paused := v.paused

namespace Portrait

/-- Write a deposit and the total of its token. -/
def putDeposit (s : Portrait) (user token : Address) (deposit total : Amount) : Portrait :=
  { s with
    deposits := Book.put s.deposits user token deposit
    totals := s.totals.insert token total }

/-- Add to a deposit and to the total. -/
def receive (s : Portrait) (user token : Address) (amount : Amount) : Except Error Portrait := do
  let deposit ← (Book.amount s.deposits user token).add amount
  let total ← (Tally.amount s.totals token).add amount
  return s.putDeposit user token deposit total

/-- Subtract from a deposit and from the total. -/
def release (s : Portrait) (user token : Address) (amount : Amount) : Except Error Portrait := do
  let deposit ← (Book.amount s.deposits user token).subtract amount
  let total ← (Tally.amount s.totals token).subtract amount
  return s.putDeposit user token deposit total

/-- A token that is unknown is listed and takes deposits; one that is known gets the
parameters and takes deposits, or not, as before. -/
def configure (s : Portrait) (token : Address) (params : CollateralParams) : Portrait :=
  match s.configs.get? token with
  | none =>
    { s with
      configs := s.configs.insert token ⟨true, params⟩
      listed := s.listed ++ [token] }
  | some config => { s with configs := s.configs.insert token { config with params := params } }

/-- Set whether a token takes deposits. -/
def setEnabled (s : Portrait) (token : Address) (enabled : Bool) : Portrait :=
  match s.configs.get? token with
  | none => s
  | some config => { s with configs := s.configs.insert token { config with enabled := enabled } }

/-- What a reader makes of an event. -/
def replay (s : Portrait) : Event → Except Error Portrait
  | .deposited user token amount | .depositedFor _ user token amount =>
    s.receive user token amount
  | .withdrawn user token amount | .withdrawnFor _ user token amount _ _
  | .seized user token amount _ => s.release user token amount
  | .collateralConfigured token params _ => .ok (s.configure token params)
  | .collateralStatusChanged token enabled => .ok (s.setEnabled token enabled)
  | .borrowModuleChanged _ current => .ok { s with borrowModule := current }
  | .roleGranted role account => .ok { s with access := s.access.joined role account }
  | .roleRevoked role account => .ok { s with access := s.access.parted role account }
  | .pauseChanged paused _ => .ok { s with paused := paused }
  | .adminChangeRequested .. | .adminChangeCancelled .. | .liquidated .. | .badDebtRecorded ..
  | .badDebtSocialized .. | .liquidationParamsUpdated .. => .ok s

end Portrait

variable {v w : Vault} {ctx : Context} {call : Call}

/-! ### Known tokens

A reader takes a token for unknown if it has no config, and the vault does if it has none
with a positive factor.  The two agree because the registry is in order: every config has
valid parameters.
-/

/-- Every token with a config counts as added. -/
def AllAdded (v : Vault) : Prop :=
  ∀ token config, v.configs.get? token = some config → config.isAdded = true

namespace AllAdded

theorem get?_eq_none (h : AllAdded v) {token : Address} (hnew : v.added? token = none) :
    v.configs.get? token = none := by
  cases hget : v.configs.get? token with
  | none => rfl
  | some config => simp [added?, hget, h token config hget] at hnew

end AllAdded

theorem Registered.allAdded (h : Registered v) : AllAdded v := by
  intro token config hget
  exact h.isAdded hget

/-! ### One change -/

/-- The events told between two states of a vault, read in the first, give the second. -/
def Replays (v w : Vault) : Prop :=
  ∃ news, w.events = v.events.addAll news ∧
    (news.map Prod.snd).foldlM Portrait.replay v.portrait = .ok w.portrait

namespace Replays

/-- Nothing told, nothing changed. -/
theorem silent (hevents : w.events = v.events) (hportrait : w.portrait = v.portrait) :
    Replays v w := by
  refine ⟨[], hevents, ?_⟩
  rw [hportrait]
  rfl

theorem single {now : Timestamp} {event : Event} (hevents : w.events = v.events.add now event)
    (hreplay : v.portrait.replay event = .ok w.portrait) : Replays v w := by
  refine ⟨[(now, event)], hevents, ?_⟩
  rw [List.map_singleton, List.foldlM_cons, hreplay]
  rfl

/-- The members of a role are written as they were, or told. -/
theorem regrouped {a b : Access} {changed : Bool} {now : Timestamp} {event : Event}
    (hmembers : a = if changed then b else v.access)
    (hreplay : v.portrait.replay event = .ok { v.portrait with access := b }) :
    Replays v (v.regrouped a changed now event) := by
  subst hmembers
  cases changed with
  | true => exact .single rfl hreplay
  | false => exact .silent rfl rfl

end Replays

/-- A reader lists a token that could be added. -/
private theorem configure_listed {token : Address} {params : CollateralParams}
    (hadded : AllAdded v) (h : v.checkAdd token params = .ok ()) :
    v.portrait.configure token params = (v.withToken token params).portrait := by
  have hnew := hadded.get?_eq_none (checkAdd_eq_ok h).2.2.1
  simp only [Portrait.configure, portrait, hnew]
  rfl

/-- **An event of administration tells what was changed**, and what was not changed was not
told. -/
theorem Amended.replays (h : Amended ctx v w call) (hadded : AllAdded v) : Replays v w := by
  cases h with
  | @requested _ knob _ _ _ _ hw | @cancelled _ knob _ _ _ hw =>
      subst hw
      cases knob <;> exact .single rfl rfl
  | @executed _ knob c _ _ _ _ hvetted hw =>
      subst hw
      cases knob with
      | addCollateral token =>
          exact .single rfl (congrArg Except.ok (configure_listed hadded hvetted))
      | updateCollateral token =>
          simp only [vet, checkUpdate, Check.bind_eq_ok, Check.discard_eq_ok,
            requireAdded_eq_ok] at hvetted
          obtain ⟨_, ⟨config, hconfig⟩, -⟩ := hvetted
          have hget := get?_of_added hconfig
          simp only [enforce, hget]
          refine .single rfl (congrArg Except.ok ?_)
          simp only [Portrait.configure, portrait, hget]
          rfl
      | borrowModule => exact .single rfl rfl
  | added _ hchecked hw =>
      subst hw
      exact .single rfl (congrArg Except.ok (configure_listed hadded hchecked))
  | switched _ _ hconfig hw =>
      subst hw
      have hget := get?_of_added hconfig
      refine .single rfl (congrArg Except.ok ?_)
      simp only [Portrait.setEnabled, portrait, hget]
      rfl
  | granted hgrant hw =>
      subst hw
      exact .regrouped (Access.grant_members hgrant) rfl
  | revoked hrevoke hw =>
      subst hw
      exact .regrouped (Access.revoke_members hrevoke) rfl
  | paused _ hw | unpaused _ hw =>
      subst hw
      exact .single rfl rfl

private theorem portrait_receive {user token : Address} {amount deposit total : Amount}
    (hdeposit : deposit.val = (v.depositOf user token).val + amount.val)
    (htotal : total.val = (v.total token).val + amount.val) :
    v.portrait.receive user token amount =
      .ok (v.putDeposit user token deposit total).portrait := by
  refine Check.bind_eq_ok.mpr ⟨deposit, Amount.add_eq_ok.mpr hdeposit, ?_⟩
  exact Check.bind_eq_ok.mpr ⟨total, Amount.add_eq_ok.mpr htotal, rfl⟩

private theorem portrait_release {user token : Address} {amount total : Amount}
    (hcovered : amount ≤ v.depositOf user token)
    (htotal : total.val + amount.val = (v.total token).val) :
    v.portrait.release user token amount =
      .ok (v.putDeposit user token (v.depositOf user token - amount) total).portrait := by
  have hdeposit : (v.depositOf user token - amount).val + amount.val =
      (v.depositOf user token).val := Nat.sub_add_cancel hcovered
  refine Check.bind_eq_ok.mpr ⟨_, Amount.subtract_eq_ok.mpr hdeposit, ?_⟩
  exact Check.bind_eq_ok.mpr ⟨total, Amount.subtract_eq_ok.mpr htotal, rfl⟩

/-- **Every change of a vault is told by its events.** -/
theorem Change.replays (h : v.Change w) (hadded : AllAdded v) : Replays v w := by
  cases h with
  | kept hcopy =>
      have hevents : w.copy.events = v.copy.events := by rw [hcopy]
      have hportrait : w.copy.portrait = v.copy.portrait := by rw [hcopy]
      exact .silent hevents hportrait
  | deposited _ _ hkind hdeposit htotal hw =>
      subst hw
      rcases hkind with rfl | ⟨funder, rfl⟩
      all_goals exact .single rfl (portrait_receive hdeposit htotal)
  | released _ hkind hcovered htotal hw =>
      subst hw
      rcases hkind with rfl | ⟨operator, recipient, skipped, rfl⟩ | ⟨liquidator, rfl⟩
      all_goals exact .single rfl (portrait_release hcovered htotal)
  | amended hamended => exact hamended.replays hadded

end Vault

/-! ### Histories -/

namespace Protocol

variable {p : Protocol}

/-- The events that are taken out in an episode. -/
def taken (p : Protocol) : Episode → List Event
  | .drained => p.vault.events.told
  | .direct .. | .submitted .. | .pausing .. | .around .. => []

/-- The events of the vault that can still be read after a history: first those that were
taken out on the way, then those that the log keeps. -/
def told : Protocol → List Episode → List Event
  | p, [] => p.vault.events.told
  | p, episode :: rest => p.taken episode ++ (p.next episode).told rest

theorem told_cons {episode : Episode} (rest : List Episode) (hlog : episode ≠ .drained) :
    p.told (episode :: rest) = (p.next episode).told rest := by
  cases episode with
  | drained => exact absurd rfl hlog
  | direct | submitted | pausing | around => rfl

/-- If nothing was taken out, the log has it all. -/
theorem told_of_undrained : ∀ (episodes : List Episode) (p : Protocol),
    Episode.drained ∉ episodes → p.told episodes = (p.through episodes).vault.events.told := by
  intro episodes
  induction episodes with
  | nil => intro p _; rfl
  | cons episode rest ih =>
      intro p hkept
      have hlog : episode ≠ .drained := by
        rintro rfl
        exact hkept (by simp)
      rw [told_cons rest hlog]
      exact ih (p.next episode) fun h => hkept (by simp [h])

/-- What is told in a history, after what the log had kept before, replays it. -/
private theorem told_replays : ∀ (episodes : List Episode) (p : Protocol), p.vault.Registered →
    (p.told episodes).length < p.vault.events.limit.toNat →
    ∃ news, p.told episodes = p.vault.events.told ++ news ∧
      news.foldlM Vault.Portrait.replay p.vault.portrait =
        .ok (p.through episodes).vault.portrait := by
  -- From the left, because what a log had kept is known at the start of a history only.
  intro episodes
  induction episodes with
  | nil => intro p _ _; exact ⟨[], (List.append_nil _).symm, rfl⟩
  | cons episode rest ih =>
      intro p hregistered hfew
      by_cases hlog : episode = .drained
      · subst hlog
        -- The next log starts empty, so all that it tells is news.
        have hlength : ((p.next .drained).told rest).length < p.vault.events.limit.toNat := by
          simp only [told, List.length_append] at hfew
          omega
        have hdrained : (p.next .drained).vault.Registered := hregistered.of_fields rfl rfl rfl
        obtain ⟨news, htold, hreplays⟩ := ih (p.next .drained) hdrained hlength
        refine ⟨news, ?_, hreplays⟩
        rw [told, htold]
        rfl
      · rw [told_cons rest hlog] at hfew ⊢
        have hchange := next_change p hlog
        obtain ⟨first, hevents, hfirst⟩ := hchange.replays hregistered.allAdded
        have hlimit : (p.next episode).vault.events.limit = p.vault.events.limit := by
          rw [hevents, EventLog.limit_addAll]
        obtain ⟨later, hlater, hreplays⟩ :=
          ih (p.next episode) (hchange.registered hregistered) (by rw [hlimit]; exact hfew)
        have hkept : (p.next episode).vault.events.told =
            p.vault.events.told ++ first.map Prod.snd := by
          rw [hlater, List.length_append, hevents] at hfew
          rw [hevents]
          exact EventLog.told_addAll first _ (by omega)
        refine ⟨first.map Prod.snd ++ later, ?_, ?_⟩
        · rw [hlater, hkept, List.append_assoc]
        · rw [List.foldlM_append, hfirst]
          exact hreplays

/-- **A vault can be rebuilt from its events.**  Read in order from the new vault on, they give
the present deposits and totals, the listed tokens in order with their configs, the borrow
module, the members of roles and whether the vault is paused.  A log that dropped an event is
full, so a history that told fewer events than a log keeps has lost none. -/
theorem rebuilt_from_events {address admin borrowModule : Address}
    (hstart : Vault.start address admin borrowModule = .ok p.vault) (episodes : List Episode)
    (hfew : (p.told episodes).length < retainedEvents.toNat) :
    (p.told episodes).foldlM Vault.Portrait.replay p.vault.portrait =
        .ok (p.through episodes).vault.portrait ∧
      (Episode.drained ∉ episodes →
        p.told episodes = (p.through episodes).vault.events.told) := by
  have hevents := (Vault.blank_of_start hstart).events
  obtain ⟨news, htold, hreplays⟩ := told_replays episodes p (.of_start hstart) (by
    rw [hevents]
    exact hfew)
  refine ⟨?_, told_of_undrained episodes p⟩
  rw [hevents] at htold
  rw [htold]
  exact hreplays

/-- The events of two deposits, one of them halved again, of which the log has only those told
after it was taken out; the withdrawal that the margin forbids told nothing. -/
theorem rebuilt_from_events_dealings :
    let history := Sample.dealings ++
      [.drained, .submitted Sample.admin (.revokeVaultRole .leverageVault Sample.admin)]
    let p := Sample.funded
    Vault.start Sample.vaultAccount Sample.admin Sample.borrowModule = .ok p.vault ∧
      (p.told history).length < retainedEvents.toNat ∧
      (p.told history).map Event.kind = ["RoleGranted", "RoleGranted", "CollateralConfigured",
        "Deposited", "Deposited", "WithdrawnFor", "RoleRevoked"] ∧
      (p.told history).foldlM Vault.Portrait.replay p.vault.portrait =
        .ok (p.through history).vault.portrait := by
  have hstart : Vault.start Sample.vaultAccount Sample.admin Sample.borrowModule =
      .ok Sample.funded.vault := rfl
  exact ⟨hstart, by decide +kernel, by decide +kernel,
    (rebuilt_from_events hstart _ (by decide +kernel)).1⟩

end Protocol

end Custody
