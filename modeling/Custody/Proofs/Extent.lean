/-
How much a component holds.

A component is made of tables and lists, and nothing in it says how long they may become.  They
become long slowly: an episode writes for one user, one token, one borrower, one account, so none
of them has more than one entry more than before.  Only a log may be told more than one event at
once, but a log is cut to a limit of its own.

So there is one number for all the tables and lists of a component, and a history makes it larger
by no more than the number of its episodes.
-/
import Custody.Proofs.EngineAccounting

namespace Custody

open Custody.Action

/-! ### Tables -/

namespace Table

variable {κ ι ν : Type} [Ord κ] [Ord ι] {n m : Nat} {k : κ}

theorem length_place_le (k : κ) (v : ν) (l : List (κ × ν)) :
    (place k v l).length ≤ l.length + 1 := by
  induction l with
  | nil => exact Nat.le_refl 1
  | cons head rest ih =>
      simp only [place]
      split
      · exact Nat.le_refl _
      · exact Nat.le_succ _
      · exact Nat.succ_le_succ ih

theorem size_insert_le [Std.TransOrd κ] (t : Table κ ν) (k : κ) (v : ν) :
    (t.insert k v).size ≤ t.size + 1 :=
  length_place_le k v t.entries

theorem size_erase_le (t : Table κ ν) (k : κ) : (t.erase k).size ≤ t.size :=
  (drop_sublist k t.entries).length_le

/-- A table of tables that all have at most this many entries. -/
structure Fits (n : Nat) (t : Table κ (Table ι ν)) : Prop where
  size : t.size ≤ n
  rows : ∀ k row, t.get? k = some row → row.size ≤ n

theorem fits_empty : (empty : Table κ (Table ι ν)).Fits n := ⟨Nat.zero_le n, nofun⟩

variable {t : Table κ (Table ι ν)} {row : Table ι ν}

theorem Fits.mono (h : t.Fits n) (hle : n ≤ m) : t.Fits m where
  size := h.size.trans hle
  rows := fun k row hrow => (h.rows k row hrow).trans hle

/-- An absent row has no entries. -/
theorem Fits.row_le (h : t.Fits n) : ((t.get? k).getD .empty).size ≤ n := by
  cases hrow : t.get? k with
  | none => exact Nat.zero_le n
  | some row => exact h.rows k row hrow

theorem Fits.insert [Std.TransOrd κ] [Std.LawfulEqOrd κ] [DecidableEq κ] (h : t.Fits n)
    (hrow : row.size ≤ n + 1) : (t.insert k row).Fits (n + 1) where
  size := (size_insert_le t k row).trans (Nat.succ_le_succ h.size)
  rows := by
    intro j other hother
    simp only [get?_insert] at hother
    split at hother
    · obtain rfl := Option.some.inj hother
      exact hrow
    · exact (h.rows j other hother).trans (Nat.le_succ n)

/-- One entry of one row is written. -/
theorem Fits.put [Std.TransOrd κ] [Std.LawfulEqOrd κ] [DecidableEq κ] [Std.TransOrd ι]
    (h : t.Fits n) (k : κ) (i : ι) (v : ν) :
    (t.insert k (((t.get? k).getD .empty).insert i v)).Fits (n + 1) :=
  h.insert ((size_insert_le _ i v).trans (Nat.succ_le_succ h.row_le))

end Table

/-! ### Logs -/

namespace EventLog

variable {log : EventLog} {n m : Nat}

/-- A log has at most this many entries, or as many as it keeps. -/
def Fits (n : Nat) (log : EventLog) : Prop := log.entries.size ≤ max n log.limit.toNat

theorem Fits.mono (h : log.Fits n) (hle : n ≤ m) : log.Fits m :=
  Nat.le_trans h (max_le_max_right _ hle)

theorem fits_empty (h : log.entries = #[]) : log.Fits n := by
  unfold Fits
  rw [h]
  exact Nat.zero_le _

/-- A log that is told an event is cut to its limit. -/
theorem fits_add {now : Timestamp} {event : Event} : (log.add now event).Fits n := by
  refine Nat.le_trans ?_ (le_max_right n _)
  show (log.add now event).entries.size ≤ log.limit.toNat
  simp only [add]
  split
  · omega
  · rw [Array.size_extract]
    omega

/-- A log that was told some events, one after the other. -/
theorem Fits.addAll (h : log.Fits n) (news : List (Timestamp × Event)) :
    (log.addAll news).Fits n := by
  induction news generalizing log with
  | nil => exact h
  | cons entry rest ih => exact ih fits_add

end EventLog

/-! ### Members of roles -/

namespace Access

variable {a b : Access} {caller account : Address} {role : Role} {n : Nat}

/-- One role has one member to begin with. -/
theorem fits_of_start {admin : Address} (h : Access.start admin = .ok a) : a.members.Fits 1 := by
  simp only [Access.start, Check.bind_eq_ok, Check.pure_eq_ok] at h
  obtain ⟨_, -, rfl⟩ := h
  exact Table.fits_empty.put Role.admin admin ()

/-- What can become of the members of roles. -/
inductive Change (a b : Access) : Prop where
  | kept : b = a → Change a b
  | granted {caller account : Address} {role : Role} {changed : Bool} :
      grant caller role account a = .ok changed b → Change a b
  | revoked {caller account : Address} {role : Role} {changed : Bool} :
      revoke caller role account a = .ok changed b → Change a b

theorem grant_leaves : (grant caller role account).Leaves a a.Change :=
  leaves_of_cases (fun _ _ h => .granted h) fun e b h => .kept (grant_clean e b h)

theorem revoke_leaves : (revoke caller role account).Leaves a a.Change :=
  leaves_of_cases (fun _ _ h => .revoked h) fun e b h => .kept (revoke_clean e b h)

/-- One account more is a member of one role, at most. -/
theorem Change.fits (h : a.Change b) (ha : a.members.Fits n) : b.members.Fits (n + 1) := by
  have hkept : a.members.Fits (n + 1) := ha.mono (Nat.le_succ n)
  cases h with
  | kept hb =>
      rw [hb]
      exact hkept
  | @granted _ account role _ hgrant =>
      rw [grant_members hgrant]
      split
      · exact ha.put role account ()
      · exact hkept
  | @revoked _ account role _ hrevoke =>
      rw [revoke_members hrevoke]
      split
      · exact ha.insert ((Table.size_erase_le _ account).trans hkept.row_le)
      · exact hkept

end Access

/-! ### Bad debt -/

/-- One record more, at most. -/
theorem BadDebt.Change.size_le {b c : BadDebt} (h : b.Change c) :
    c.records.size ≤ b.records.size + 1 := by
  cases h with
  | kept hc =>
      rw [hc]
      exact Nat.le_succ _
  | recorded _ hrecord =>
      obtain ⟨own, -, -, rfl⟩ := record_book hrecord
      exact Table.size_insert_le _ _ _
  | cleared hclear =>
      obtain ⟨-, -, total, -, rfl⟩ := clear_book hclear
      exact (Table.size_erase_le _ _).trans (Nat.le_succ _)

/-! ### The vault -/

namespace Vault

variable {v w : Vault} {ctx : Context} {call : Call} {n m : Nat}

/-- The names under which the vault reports a missing proposal. -/
def knobNames (v : Vault) : List String :=
  [v.pendingAdds.knob, v.pendingUpdates.knob, v.pendingModule.knob]

/-- No table, list or name of the vault is longer than this. -/
structure Fits (n : Nat) (v : Vault) : Prop where
  members : v.access.members.Fits n
  configs : v.configs.size ≤ n
  listed : v.listed.length ≤ n
  deposits : Table.Fits n v.deposits
  totals : v.totals.size ≤ n
  adds : v.pendingAdds.entries.size ≤ n
  updates : v.pendingUpdates.entries.size ≤ n
  names : ∀ name ∈ v.knobNames, (Hex.textBytes name).length ≤ n
  events : v.events.Fits n

theorem Fits.mono (h : v.Fits n) (hle : n ≤ m) : v.Fits m where
  members := h.members.mono hle
  configs := h.configs.trans hle
  listed := h.listed.trans hle
  deposits := h.deposits.mono hle
  totals := h.totals.trans hle
  adds := h.adds.trans hle
  updates := h.updates.trans hle
  names := fun name hname => (h.names name hname).trans hle
  events := h.events.mono hle

/-- Nothing can be told from a copy. -/
theorem fits_copy : v.copy.Fits n ↔ v.Fits n where
  mp h := { h with }
  mpr h := { h with }

/-- A call that ends with an event leaves a log that is cut to its limit. -/
theorem Fits.closing {now : Timestamp} {event : Event} (h : v.Fits n) :
    (v.closing now event).Fits n :=
  { h with events := EventLog.fits_add }

theorem Fits.regrouped {a : Access} {changed : Bool} {now : Timestamp} {event : Event}
    (h : v.Fits n) (ha : a.members.Fits n) : (v.regrouped a changed now event).Fits n := by
  refine { h with members := ha, events := ?_ }
  cases changed with
  | true => exact EventLog.fits_add
  | false => exact h.events

theorem Fits.putDeposit {user token : Address} {deposit total : Amount} (h : v.Fits n) :
    (v.putDeposit user token deposit total).Fits (n + 1) :=
  { h.mono (Nat.le_succ n) with
    deposits := h.deposits.put user token deposit
    totals := (Table.size_insert_le _ _ _).trans (Nat.succ_le_succ h.totals) }

theorem Fits.withConfig {token : Address} {config : CollateralConfig} (h : v.Fits n) :
    Fits (n + 1) { v with configs := v.configs.insert token config } :=
  { h.mono (Nat.le_succ n) with
    configs := (Table.size_insert_le _ _ _).trans (Nat.succ_le_succ h.configs) }

theorem Fits.withToken {token : Address} {params : CollateralParams} (h : v.Fits n) :
    (v.withToken token params).Fits (n + 1) := by
  refine { h.withConfig with listed := ?_ }
  show (v.listed ++ [token]).length ≤ n + 1
  rw [List.length_append]
  exact Nat.succ_le_succ h.listed

theorem Fits.propose (h : v.Fits n) : ∀ (knob : Knob) (c : PendingChange knob.Value),
    (v.propose knob c).Fits (n + 1)
  | .addCollateral _, _ =>
    { h.mono (Nat.le_succ n) with
      adds := (Table.size_insert_le _ _ _).trans (Nat.succ_le_succ h.adds) }
  | .updateCollateral _, _ =>
    { h.mono (Nat.le_succ n) with
      updates := (Table.size_insert_le _ _ _).trans (Nat.succ_le_succ h.updates) }
  | .borrowModule, _ => { h.mono (Nat.le_succ n) with }

theorem Fits.unpropose (h : v.Fits n) : ∀ knob : Knob, (v.unpropose knob).Fits n
  | .addCollateral _ => { h with adds := (Table.size_erase_le _ _).trans h.adds }
  | .updateCollateral _ => { h with updates := (Table.size_erase_le _ _).trans h.updates }
  | .borrowModule => { h with }

theorem Fits.enforce (h : v.Fits n) : ∀ (knob : Knob) (value : knob.Value),
    (v.enforce knob value).Fits (n + 1)
  | .addCollateral _, _ => h.withToken
  | .updateCollateral token, _ => by
    simp only [Vault.enforce]
    split
    · exact h.mono (Nat.le_succ n)
    · exact h.withConfig
  | .borrowModule, _ => { h.mono (Nat.le_succ n) with }

/-- Administration writes one entry at most. -/
theorem Amended.fits (h : Amended ctx v w call) (hv : v.Fits n) : w.Fits (n + 1) := by
  cases h with
  | @requested _ knob _ _ _ _ hw =>
      rw [hw]
      exact (hv.propose knob _).closing
  | @cancelled _ knob _ _ _ hw =>
      rw [hw]
      exact ((hv.unpropose knob).mono (Nat.le_succ n)).closing
  | @executed _ knob c _ _ _ _ _ hw =>
      rw [hw]
      exact ((hv.enforce knob c.value).unpropose knob).closing
  | added _ _ hw =>
      rw [hw]
      exact hv.withToken.closing
  | switched _ _ _ hw =>
      rw [hw]
      exact hv.withConfig.closing
  | granted hgrant hw =>
      rw [hw]
      exact (hv.mono (Nat.le_succ n)).regrouped ((Access.Change.granted hgrant).fits hv.members)
  | revoked hrevoke hw =>
      rw [hw]
      exact (hv.mono (Nat.le_succ n)).regrouped ((Access.Change.revoked hrevoke).fits hv.members)
  | paused _ hw | unpaused _ hw =>
      rw [hw]
      exact Fits.closing { hv.mono (Nat.le_succ n) with }

/-- **No change writes more than one entry.** -/
theorem Change.fits (h : v.Change w) (hv : v.Fits n) : w.Fits (n + 1) := by
  cases h with
  | kept hcopy =>
      rw [← fits_copy, hcopy, fits_copy]
      exact hv.mono (Nat.le_succ n)
  | deposited _ _ _ _ _ hw =>
      rw [hw]
      exact { hv.putDeposit with events := EventLog.fits_add }
  | released _ _ _ _ hw =>
      rw [hw]
      exact { hv.putDeposit with events := EventLog.fits_add }
  | amended hamended => exact hamended.fits hv

/-- In a new vault nothing is longer than a name, and the longest name has seventeen bytes. -/
theorem fits_of_start {address admin borrowModule : Address}
    (h : Vault.start address admin borrowModule = .ok v) : v.Fits 17 := by
  obtain ⟨access, haccess, rfl⟩ := start_ok h
  have hnames : ∀ name ∈ ["add collateral", "update collateral", "borrow module"],
      (Hex.textBytes name).length ≤ 17 := by decide
  exact
    { members := (Access.fits_of_start haccess).mono (by decide)
      configs := Nat.zero_le _
      listed := Nat.zero_le _
      deposits := Table.fits_empty
      totals := Nat.zero_le _
      adds := Nat.zero_le _
      updates := Nat.zero_le _
      names := hnames
      events := EventLog.fits_empty rfl }

end Vault

/-! ### The engine -/

namespace Engine

variable {e f g : Engine} {ctx : Context} {n m : Nat}

/-- No table or list of the engine is longer than this. -/
structure Fits (n : Nat) (e : Engine) : Prop where
  members : e.access.members.Fits n
  records : e.badDebt.records.size ≤ n
  events : e.events.Fits n

theorem Fits.mono (h : e.Fits n) (hle : n ≤ m) : e.Fits m where
  members := h.members.mono hle
  records := h.records.trans hle
  events := h.events.mono hle

theorem fits_of_start {address debtToken admin : Address} {params : LiquidationParams}
    (h : Engine.start address debtToken admin params = .ok e) : e.Fits 1 := by
  obtain ⟨-, -, access, haccess, rfl⟩ := start_ok h
  exact
    { members := Access.fits_of_start haccess
      records := Nat.zero_le _
      events := EventLog.fits_empty rfl }

/-- The engine has told some events, and one call has changed the members of roles at most. -/
structure Tells (e f : Engine) : Prop where
  access : e.access.Change f.access
  events : ∃ news, f.events = e.events.addAll news

theorem Tells.tell {now : Timestamp} {event : Event} (h : e.Tells f) :
    (tell now event).Leaves f e.Tells := by
  obtain ⟨haccess, news, hnews⟩ := h
  refine leaves_modify ⟨haccess, news ++ [(now, event)], ?_⟩
  rw [EventLog.addAll_append, ← hnews]
  rfl

/-- A field other than the log and the members of roles is written, and it is told. -/
theorem Tells.write {g : Engine → Engine} {now : Timestamp} {event : Event} (h : e.Tells (g f)) :
    (modify g >>= fun _ => Engine.tell now event).Leaves f e.Tells :=
  leaves_bind (leaves_modify h) fun _ _ _ h => h.tell

theorem Tells.onBadDebt {α : Type} {x : Action BadDebt α} (h : e.Tells f) :
    (onBadDebt x).Leaves f e.Tells :=
  leaves_on (leaves_of_forall fun _ => ⟨h.access, h.events⟩)

theorem Tells.count {repaid : Amount} {capped : Bool} (h : e.Tells f) :
    (count repaid capped).Leaves f e.Tells := by
  refine leaves_bind (leaves_modify ⟨h.access, h.events⟩) fun _ _ _ h => ?_
  exact leaves_get (leaves_check h fun _ _ => leaves_modify ⟨h.access, h.events⟩)

theorem tells_entered : e.Tells e.entered := ⟨.kept rfl, [], rfl⟩

private theorem onAccess_tells {x : Action Access Bool} {now : Timestamp} {event : Event}
    (hx : x.Leaves e.access e.access.Change) :
    (onAccess x >>= fun changed => if changed then tell now event else pure ()).Leaves e.entered
      e.Tells := by
  refine leaves_bind (leaves_on (hx.imp fun a ha => ⟨ha, [], rfl⟩)) fun changed f _ h => ?_
  cases changed with
  | true => exact h.tell
  | false => exact leaves_pure h

theorem Governs.tells {change : Action Engine Unit} (h : Governs ctx change) :
    change.Leaves e.entered e.Tells := by
  have hentered : e.Tells e.entered := tells_entered
  cases h with
  | closeFactor | fullThreshold =>
      refine leaves_get (leaves_check hentered fun _ _ => leaves_check hentered fun _ _ => ?_)
      exact Tells.write ⟨.kept rfl, [], rfl⟩
  | grant => exact onAccess_tells Access.grant_leaves
  | revoke => exact onAccess_tells Access.revoke_leaves
  | pause | unpause =>
      exact leaves_get (leaves_check hentered fun _ _ => Tells.write ⟨.kept rfl, [], rfl⟩)

/-- **One call writes no more than one entry**, however many events it tells. -/
theorem Tells.fits (h : e.Tells f) (hbook : e.badDebt.Change f.badDebt) (he : e.Fits n) :
    f.Fits (n + 1) where
  members := h.access.fits he.members
  records := hbook.size_le.trans (Nat.succ_le_succ he.records)
  events := by
    obtain ⟨news, hnews⟩ := h.events
    rw [hnews]
    exact (he.events.mono (Nat.le_succ n)).addAll news

end Engine

/-! ### Histories -/

namespace Protocol

variable {ctx : Context} {borrower token : Address} {quote : Quote} {e : Engine} {p : Protocol}
  {n : Nat}

private theorem commit_tells (h : e.Tells p.engine) :
    (commit ctx borrower token quote).Leaves p fun q => e.Tells q.engine := by
  have hrecord : (recordShortfall ctx borrower quote.shortfall).Leaves p
      fun q => e.Tells q.engine := by
    refine leaves_ite (fun _ => ?_) fun _ => leaves_pure h
    exact leaves_bind (leaves_on h.onBadDebt) fun _ _ _ h => leaves_on h.tell
  refine leaves_bind hrecord fun _ _ _ h => ?_
  exact leaves_bind (leaves_on h.count) fun _ _ _ h => leaves_on h.tell

private theorem forgive_tells {recorded absorbed : Amount} (h : e.Tells p.engine) :
    (forgive ctx borrower recorded absorbed).Leaves p fun q => e.Tells q.engine := by
  refine leaves_bind (leaves_discard (leaves_on h.onBadDebt)) fun _ q _ h => ?_
  refine leaves_get (leaves_check h fun sum _ => leaves_bind (leaves_on ?_) fun _ _ _ h => ?_)
  · exact Engine.Tells.write ⟨h.access, h.events⟩
  · exact leaves_pure h

/-- Whatever is done with an engine is told. -/
theorem tells_ends (e : Engine) : Ends e e.Tells where
  guard h := ⟨h.access, h.events⟩
  kept := ⟨.kept rfl, [], rfl⟩
  governed hchange := hchange.tells
  committed hq := by
    refine commit_tells ?_
    rw [hq]
    exact Engine.tells_entered
  forgiven hq := by
    refine forgive_tells ?_
    rw [hq]
    exact Engine.tells_entered

/-- An episode writes one entry of the vault at most. -/
theorem fits_next (h : p.vault.Fits n) (episode : Episode) :
    (p.next episode).vault.Fits (n + 1) := by
  by_cases hlog : episode = .drained
  · subst hlog
    exact { h.mono (Nat.le_succ n) with events := EventLog.fits_empty rfl }
  · exact (next_change p hlog).fits h

/-- An episode writes one entry of the engine at most. -/
theorem fits_engineNext (h : p.engine.Fits n) (episode : EngineEpisode) :
    (p.engineNext episode).engine.Fits (n + 1) := by
  by_cases hlog : episode = .drained
  · subst hlog
    exact { h.mono (Nat.le_succ n) with events := EventLog.fits_empty rfl }
  · exact (engineNext_ends (tells_ends p.engine) hlog).fits
      (p.engineNext_change episode).badDebt h

/-- What one step makes larger by one, a history makes larger by the number of its steps. -/
private theorem foldl_grows {σ ε : Type} {step : σ → ε → σ} {F : Nat → σ → Prop}
    (hstep : ∀ {n : Nat} {s : σ}, F n s → ∀ e, F (n + 1) (step s e)) (steps : List ε) :
    ∀ {n : Nat} {s : σ}, F n s → F (n + steps.length) (steps.foldl step s) := by
  induction steps with
  | nil => intro n s h; exact h
  | cons e rest ih =>
      intro n s h
      rw [List.length_cons, Nat.add_comm rest.length, ← Nat.add_assoc]
      exact ih (hstep h e)

/-- **A vault grows by no more than one entry an episode.** -/
theorem fits_through (h : p.vault.Fits n) (episodes : List Episode) :
    (p.through episodes).vault.Fits (n + episodes.length) :=
  foldl_grows (F := fun n (p : Protocol) => p.vault.Fits n) fits_next episodes h

/-- **An engine grows by no more than one entry an episode.** -/
theorem fits_engineThrough (h : p.engine.Fits n) (episodes : List EngineEpisode) :
    (p.engineThrough episodes).engine.Fits (n + episodes.length) :=
  foldl_grows (F := fun n (p : Protocol) => p.engine.Fits n) fits_engineNext episodes h

end Protocol

end Custody
