/-
What a log still holds.

Entries leave a log in two ways: the oldest one is dropped when the log is full, and all of them
are taken out.  Numbers go on in both cases.  So after any mixture of the two the log holds a
window on the whole history of what it was told, and the window reaches back to the limit or to
the last time that it was emptied, whichever is nearer.

The invariant says this of the entries with their numbers, not of the events alone: the whole
history is numbered from zero, and the log is a suffix of it.  That numbers are consecutive, end
before the next one and never come twice is read off the numbered history.  No bound on the
history is needed for the invariant.  It comes in where a number is read, since a counter is a
word and comes round.

Times are another matter.  A log takes any time that it is given.  What keeps them in order is
that every call tells its events at the time on the clock and that the clock does not go back,
also not when a call is refused and what it told is forgotten.
-/
import Mathlib.Data.List.DropRight
import Custody.Proofs.Replay
import Custody.Proofs.Rules

namespace Custody

open Custody.Action

/-! ### Suffixes -/

/-- The end of an end. -/
private theorem rtake_within {α : Type} (l : List α) (n m : Nat) :
    (l.rtake n).rtake m = l.rtake (min m n) := by
  simp only [List.rtake_eq_reverse_take_reverse, List.reverse_reverse, List.take_take]

/-- A window does not reach beyond a suffix that is long enough. -/
private theorem rtake_append {α : Type} (early late : List α) {n : Nat} (h : n ≤ late.length) :
    (early ++ late).rtake n = late.rtake n := by
  have hlength : (early ++ late).length - n = early.length + (late.length - n) := by
    rw [List.length_append]
    omega
  rw [List.rtake, hlength, List.drop_length_add_append, List.rtake]

private theorem rtake_map {α β : Type} (f : α → β) (l : List α) (n : Nat) :
    (l.rtake n).map f = (l.map f).rtake n := by
  rw [List.rtake, List.rtake, List.map_drop, List.length_map]

namespace EventLog

variable {log : EventLog} {now : Timestamp} {event : Event}

/-! ### Histories of a log -/

/-- What can be done with a log. -/
inductive Step where
  /-- It is told an event. -/
  | told (now : Timestamp) (event : Event)
  /-- Its entries are taken out. -/
  | taken
deriving DecidableEq

/-- The event that a step adds, with its time. -/
def Step.addition? : Step → Option (Timestamp × Event)
  | .told now event => some (now, event)
  | .taken => none

/-- The log after a step. -/
def after (log : EventLog) : Step → EventLog
  | .told now event => log.add now event
  | .taken => log.drained

/-- The log after a history. -/
def through (log : EventLog) (steps : List Step) : EventLog := steps.foldl after log

/-- All that was added in a history. -/
def additions (steps : List Step) : List (Timestamp × Event) := steps.filterMap Step.addition?

/-- What was added after the entries were taken out for the last time. -/
def sinceTaken (steps : List Step) : List (Timestamp × Event) :=
  additions (steps.rtakeWhile fun step => step.addition?.isSome)

/-- Events with their numbers, counted from zero. -/
def numbered (events : List (Timestamp × Event)) : List LogEntry :=
  events.zipIdx.map fun e => ⟨.ofNat e.2, e.1.1, e.1.2⟩

theorem additions_append (steps later : List Step) :
    additions (steps ++ later) = additions steps ++ additions later :=
  List.filterMap_append

/-- What was added since is the end of all that was added. -/
theorem additions_eq_append (steps : List Step) :
    ∃ early, additions steps = early ++ sinceTaken steps := by
  obtain ⟨early, hsteps⟩ := List.rtakeWhile_suffix (fun step => step.addition?.isSome) steps
  refine ⟨additions early, ?_⟩
  rw [sinceTaken, ← additions_append, hsteps]

theorem length_sinceTaken_le (steps : List Step) :
    (sinceTaken steps).length ≤ (additions steps).length := by
  obtain ⟨early, hearly⟩ := additions_eq_append steps
  rw [hearly, List.length_append]
  exact Nat.le_add_left _ _

theorem numbered_concat (events : List (Timestamp × Event)) (e : Timestamp × Event) :
    numbered (events ++ [e]) = numbered events ++ [⟨.ofNat events.length, e.1, e.2⟩] := by
  simp [numbered, List.zipIdx_append]

/-- The events can be read off what is numbered. -/
theorem numbered_events (events : List (Timestamp × Event)) :
    (numbered events).map (fun entry => (entry.timestamp, entry.event)) = events := by
  rw [numbered, List.map_map]
  exact List.zipIdx_map_fst 0 events

/-- As long as the counter does not come round, the numbers are those from zero on. -/
theorem numbered_sequences (events : List (Timestamp × Event)) (h : events.length ≤ 2 ^ 64) :
    (numbered events).map (fun entry => entry.sequence.toNat) = List.range events.length := by
  induction events using List.reverseRecOn with
  | nil => rfl
  | append_singleton events e ih =>
      rw [List.length_append, List.length_singleton] at h ⊢
      rw [numbered_concat, List.map_append, ih (by omega), List.range_succ]
      simp only [List.map_singleton, UInt64.toNat_ofNat', Nat.mod_eq_of_lt h]

/-- Then a number is a place in the history. -/
theorem getElem?_of_mem_numbered {events : List (Timestamp × Event)} {entry : LogEntry}
    (h : events.length ≤ 2 ^ 64) (hmem : entry ∈ numbered events) :
    events[entry.sequence.toNat]? = some (entry.timestamp, entry.event) := by
  obtain ⟨⟨e, i⟩, hindex, rfl⟩ := List.mem_map.mp hmem
  have hget : events[i]? = some e := by simpa using List.mem_zipIdx_iff_getElem?.mp hindex
  obtain ⟨hi, -⟩ := List.getElem?_eq_some_iff.mp hget
  simp only [UInt64.toNat_ofNat', Nat.mod_eq_of_lt (Nat.lt_of_lt_of_le hi h)]
  exact hget

/-! ### The window -/

/-- An event is added at the end, and the limit is kept from the front. -/
theorem toList_add :
    (log.add now event).toList =
      (log.toList ++ [LogEntry.mk log.next now event]).rtake log.limit.toNat := by
  simp only [toList, add, List.rtake, ← Array.toList_push, Array.length_toList]
  split
  next hfits => rw [hfits, List.drop_zero]
  next => simp [Array.toList_extract]

/-- The log holds the end of the numbered history. -/
structure Window (width : Nat) (steps : List Step) (log : EventLog) : Prop where
  limit : log.limit.toNat = width
  next : log.next = .ofNat (additions steps).length
  entries : log.toList =
    (numbered (additions steps)).rtake (min width (sinceTaken steps).length)

theorem window_keeping (limit : UInt64) :
    Window (max limit.toNat 1) [] (keeping limit) where
  limit := by
    unfold keeping
    by_cases hzero : limit = 0
    · simp [hzero]
    · have hpos : limit.toNat ≠ 0 := fun h => hzero (UInt64.toNat_inj.mp h)
      simp only [hzero, if_false]
      omega
  next := rfl
  entries := by
    rw [show sinceTaken [] = [] from rfl, List.length_nil, Nat.min_zero, List.rtake_zero]
    rfl

/-- **Every step keeps the window.** -/
theorem Window.after {width : Nat} {steps : List Step} (h : Window width steps log)
    (step : Step) : Window width (steps ++ [step]) (log.after step) := by
  cases step with
  | told now event =>
      have hadditions : additions (steps ++ [.told now event]) =
          additions steps ++ [(now, event)] := additions_append _ _
      have hsince : sinceTaken (steps ++ [.told now event]) =
          sinceTaken steps ++ [(now, event)] := by
        unfold sinceTaken
        rw [List.rtakeWhile_concat_pos _ _ _ rfl]
        exact additions_append _ _
      refine ⟨h.limit, ?_, ?_⟩
      · show log.next + 1 = _
        rw [h.next, hadditions, List.length_append, UInt64.ofNat_add]
        rfl
      · show (log.add now event).toList = _
        rw [toList_add, h.limit, h.entries, h.next, hadditions, hsince, numbered_concat,
          ← List.rtake_concat_succ, rtake_within, List.length_append, List.length_singleton]
        congr 1
        omega
  | taken =>
      have hadditions : additions (steps ++ [.taken]) = additions steps := by
        rw [additions_append]
        exact List.append_nil _
      have hsince : sinceTaken (steps ++ [.taken]) = [] := by
        unfold sinceTaken
        rw [List.rtakeWhile_concat_neg _ _ _ (by decide)]
        rfl
      refine ⟨h.limit, ?_, ?_⟩
      · rw [hadditions]
        exact h.next
      · rw [hsince, List.length_nil, Nat.min_zero, List.rtake_zero]
        rfl

theorem window_through (limit : UInt64) (steps : List Step) :
    Window (max limit.toNat 1) steps ((keeping limit).through steps) := by
  induction steps using List.reverseRecOn with
  | nil => exact window_keeping limit
  | append_singleton steps step ih =>
      rw [through, List.foldl_append]
      exact ih.after step

namespace Window

variable {width : Nat} {steps later : List Step} {log' : EventLog} {entry entry' : LogEntry}

theorem events (h : Window width steps log) :
    log.toList.map (fun entry => (entry.timestamp, entry.event)) =
      (sinceTaken steps).rtake (min width (sinceTaken steps).length) := by
  obtain ⟨early, hearly⟩ := additions_eq_append steps
  rw [h.entries, rtake_map, numbered_events, hearly]
  exact rtake_append early (sinceTaken steps) (Nat.min_le_right ..)

theorem toNat_next (h : Window width steps log) (hfew : (additions steps).length < 2 ^ 64) :
    log.next.toNat = (additions steps).length := by
  rw [h.next, UInt64.toNat_ofNat', Nat.mod_eq_of_lt hfew]

/-- The numbers are consecutive and end before the next one. -/
theorem sequences (h : Window width steps log) (hfew : (additions steps).length < 2 ^ 64) :
    log.toList.map (fun entry => entry.sequence.toNat) =
      List.range' (log.next.toNat - min width (sinceTaken steps).length)
        (min width (sinceTaken steps).length) := by
  have hkept := length_sinceTaken_le steps
  rw [h.entries, rtake_map, numbered_sequences _ hfew.le, List.rtake, List.length_range,
    h.toNat_next hfew, List.range_eq_range', List.drop_range', Nat.mul_one, Nat.zero_add]
  congr 1
  omega

/-- A number names an event in the whole history, also when its entry has left the log. -/
theorem getElem?_of_mem (h : Window width steps log) (hfew : (additions steps).length < 2 ^ 64)
    (hmem : entry ∈ log.toList) :
    (additions steps)[entry.sequence.toNat]? = some (entry.timestamp, entry.event) := by
  rw [h.entries] at hmem
  exact getElem?_of_mem_numbered hfew.le (List.mem_of_mem_drop hmem)

/-- So two entries with one number are one entry, whenever they are seen. -/
theorem eq_of_sequence (h : Window width steps log) (h' : Window width (steps ++ later) log')
    (hfew : (additions (steps ++ later)).length < 2 ^ 64) (hmem : entry ∈ log.toList)
    (hmem' : entry' ∈ log'.toList) (hsequence : entry'.sequence = entry.sequence) :
    entry' = entry := by
  have hlater := h'.getElem?_of_mem hfew hmem'
  rw [additions_append] at hfew hlater
  rw [List.length_append] at hfew
  have hbefore := h.getElem?_of_mem (by omega) hmem
  obtain ⟨hindex, -⟩ := List.getElem?_eq_some_iff.mp hbefore
  rw [hsequence, List.getElem?_append_left hindex, hbefore] at hlater
  obtain ⟨htime, hevent⟩ := Prod.mk.inj (Option.some.inj hlater)
  cases entry
  cases entry'
  rw [LogEntry.mk.injEq]
  exact ⟨hsequence, htime.symm, hevent.symm⟩

end Window

/-! ### Times -/

/-- What a log becomes when it is told some events at one time. -/
inductive ToldAt (now : Timestamp) (log : EventLog) : EventLog → Prop where
  | none : ToldAt now log log
  | tell {mid : EventLog} {event : Event} :
      ToldAt now log mid → ToldAt now log (mid.add now event)

theorem ToldAt.single : ToldAt now log (log.add now event) := .tell .none

/-- The entries are in the order of their times, and none is from the future. -/
structure Ordered (now : Timestamp) (log : EventLog) : Prop where
  sorted : log.toList.Pairwise fun a b => a.timestamp ≤ b.timestamp
  past : ∀ entry ∈ log.toList, entry.timestamp ≤ now

theorem ordered_empty (h : log.toList = []) : log.Ordered now := by
  refine ⟨?_, ?_⟩ <;> rw [h]
  · exact .nil
  · exact nofun

theorem Ordered.mono {later : Timestamp} (h : log.Ordered now) (hle : now ≤ later) :
    log.Ordered later where
  sorted := h.sorted
  past entry hmem := UInt64.le_trans (h.past entry hmem) hle

theorem Ordered.add (h : log.Ordered now) : (log.add now event).Ordered now := by
  have hpushed : (log.toList ++ [LogEntry.mk log.next now event]).Pairwise
      fun a b => a.timestamp ≤ b.timestamp :=
    List.pairwise_append.mpr ⟨h.sorted, List.pairwise_singleton .., by simpa using h.past⟩
  have hpast : ∀ entry ∈ log.toList ++ [LogEntry.mk log.next now event],
      entry.timestamp ≤ now := by
    intro entry hmem
    rcases List.mem_append.mp hmem with hmem | hmem
    · exact h.past entry hmem
    · rw [List.mem_singleton.mp hmem]
      exact UInt64.le_refl now
  refine ⟨?_, ?_⟩ <;> rw [toList_add]
  · exact hpushed.sublist (List.drop_sublist ..)
  · exact fun entry hmem => hpast entry (List.mem_of_mem_drop hmem)

theorem ToldAt.ordered {log' : EventLog} (h : ToldAt now log log') (hlog : log.Ordered now) :
    log'.Ordered now := by
  induction h with
  | none => exact hlog
  | tell _ ih => exact ih.add

end EventLog

/-! ### What a call tells -/

open EventLog (ToldAt)

theorem Vault.Amended.toldAt {ctx : Context} {v w : Vault} {call : Call}
    (h : Amended ctx v w call) : ToldAt ctx.now v.events w.events := by
  cases h with
  | @requested _ knob _ _ _ _ hw | @cancelled _ knob _ _ _ hw =>
      rw [hw]
      cases knob <;> exact .single
  | @executed _ knob c _ _ _ _ _ hw =>
      rw [hw]
      cases knob with
      | addCollateral | borrowModule => exact .single
      | updateCollateral token =>
          simp only [enforce]
          split <;> exact .single
  | added _ _ hw | switched _ _ _ hw | paused _ hw | unpaused _ hw =>
      rw [hw]
      exact .single
  | @granted _ _ _ changed _ hw | @revoked _ _ _ changed _ hw =>
      rw [hw]
      cases changed with
      | true => exact .single
      | false => exact .none

theorem Engine.Governed.toldAt {ctx : Context} {e f : Engine} {call : Call}
    (h : Governed ctx e f call) : ToldAt ctx.now e.events f.events := by
  cases h with
  | resized _ _ hf | paused _ hf | unpaused _ hf =>
      rw [hf]
      exact .single
  | @granted _ _ _ changed _ hf | @revoked _ _ _ changed _ hf =>
      rw [hf]
      cases changed with
      | true => exact .single
      | false => exact .none

namespace Protocol

variable {ctx : Context} {p q : Protocol} {caller : Address} {call : Call} {reply : Reply}

/-- What both components tell, they tell at one time. -/
structure TellsAt (now : Timestamp) (p q : Protocol) : Prop where
  vault : ToldAt now p.vault.events q.vault.events
  engine : ToldAt now p.engine.events q.engine.events

theorem Deposited.tellsAt {user token : Address} {amount received : Amount} {told : Event}
    (h : Deposited ctx user token amount received told p q) : TellsAt ctx.now p q := by
  obtain ⟨deposit, total, -, -, hvault⟩ := h.vault
  refine ⟨?_, ?_⟩
  · rw [hvault]
    exact .single
  · rw [h.engine]
    exact .none

theorem Released.toldAt {user token recipient : Address} {amount : Amount} {now : Timestamp}
    {told : Event} (h : Released user token amount recipient now told p q) :
    ToldAt now p.vault.events q.vault.events := by
  obtain ⟨total, -, hvault⟩ := h.vault
  rw [hvault]
  exact .single

theorem Released.tellsAt {user token recipient : Address} {amount : Amount} {now : Timestamp}
    {told : Event} (h : Released user token amount recipient now told p q) : TellsAt now p q := by
  refine ⟨h.toldAt, ?_⟩
  rw [h.engine]
  exact .none

/-- A shortfall is told before the liquidation that left it. -/
theorem Committed.toldAt {borrower token : Address} {quote : Quote} {e f : Engine}
    (h : Committed ctx borrower token quote e f) : ToldAt ctx.now e.events f.events := by
  rw [h.events]
  refine .tell ?_
  unfold shortfallTold
  split
  · exact .single
  · exact .none

/-- **An answered call tells what it tells at its own time.** -/
theorem perform_tellsAt (h : perform ctx call p = .ok reply q) : TellsAt ctx.now p q := by
  cases perform_ok h with
  | deposited hdeposited | depositedFor _ hdeposited => exact hdeposited.tellsAt
  | withdrawn _ hreleased | seized _ hreleased | withdrawnFor _ hreleased =>
      exact hreleased.tellsAt
  | liquidated hliquidated =>
      obtain ⟨_, _, -, -, hreleased⟩ := hliquidated.settled.moved
      exact ⟨hreleased.toldAt, hliquidated.committed.toldAt⟩
  | socialized hsocialized =>
      refine ⟨?_, ?_⟩
      · rw [hsocialized.rest]
        exact .none
      · rw [hsocialized.engine]
        exact .single
  | administered hcall _ =>
      cases perform_managed hcall h with
      | vault hamended hq =>
          refine ⟨hamended.toldAt, ?_⟩
          rw [hq]
          exact .none
      | engine hgoverned hq =>
          refine ⟨?_, hgoverned.toldAt⟩
          rw [hq]
          exact .none
      | both hamended hgoverned => exact ⟨hamended.toldAt, hgoverned.toldAt⟩

/-! ### Runs -/

private theorem onBank_clock {α : Type} {x : Action Bank α} :
    (onBank x).Leaves p fun q => p.clock ≤ q.clock :=
  leaves_on (leaves_of_forall fun _ => UInt64.le_refl p.clock)

private theorem onLedger_clock {α : Type} {x : Action Ledger α} :
    (onLedger x).Leaves p fun q => p.clock ≤ q.clock :=
  leaves_on (leaves_of_forall fun _ => UInt64.le_refl p.clock)

/-- Time does not go back. -/
theorem happen_clock (p : Protocol) (happening : Happening) :
    p.clock ≤ (p.after (.happening happening)).clock := by
  show (happen happening).Leaves p fun q => p.clock ≤ q.clock
  cases happening with
  | setPrice | setBreaker | setDown => exact UInt64.le_refl p.clock
  | setTime now =>
      show p.clock ≤ if p.clock ≤ now then now else p.clock
      split
      next hle => exact hle
      next => exact UInt64.le_refl p.clock
  | advance seconds =>
      show p.clock ≤ Timestamp.after p.clock seconds
      have hlast : p.clock.toNat ≤ UInt64.size - 1 := Nat.le_pred_of_lt p.clock.toNat_lt
      rw [UInt64.le_iff_toNat_le, Timestamp.toNat_after]
      exact Nat.le_min.mpr ⟨Nat.le_add_right _ _, hlast⟩
  | registerToken | setFee | setFrozen | mint | approve | transfer | transferFrom | burn =>
      exact onBank_clock
  | setDebt | setReserves | setSupplied | setRejecting | reduceDebt | absorbLoss =>
      exact onLedger_clock

/-- Both logs are in the order of their times, up to the time on the clock. -/
structure Chronicled (p : Protocol) : Prop where
  vault : p.vault.events.Ordered p.clock
  engine : p.engine.events.Ordered p.clock

/-- **No turn puts a log out of order**, answered or refused. -/
theorem Chronicled.after (h : p.Chronicled) (turn : Turn) : (p.after turn).Chronicled := by
  cases turn with
  | happening happening =>
      have haround := after_happening p happening
      have hclock := happen_clock p happening
      refine ⟨?_, ?_⟩
      · rw [haround.vault]
        exact h.vault.mono hclock
      · rw [haround.engine]
        exact h.engine.mono hclock
  | call caller call =>
      show (submit caller call).Leaves p Chronicled
      refine leaves_of_cases (fun reply q hok => ?_) fun e q hrefused => ?_
      · have hclock := (submit_outside.of_ok hok).clock
        have htold := perform_tellsAt (submit_eq_ok.mp hok)
        refine ⟨?_, ?_⟩ <;> rw [hclock]
        · exact htold.vault.ordered h.vault
        · exact htold.engine.ordered h.engine
      · have hclock := (submit_outside.of_error hrefused).clock
        have hrestored := submit_refused hrefused
        refine ⟨?_, ?_⟩ <;> rw [hclock]
        · rw [hrestored.vault]
          exact h.vault
        · rw [hrestored.engine]
          exact h.engine

theorem Chronicled.run (h : p.Chronicled) (turns : List Turn) : (p.run turns).Chronicled := by
  have hstep : ∀ (p : Protocol) (turn : Turn), True → p.Chronicled →
      (p.after turn).Chronicled :=
    fun _ turn _ h => h.after turn
  exact run_induction hstep turns p (fun _ _ => trivial) h

theorem chronicled_of_start {vaultAccount engineAccount vaultAdmin engineAdmin borrowModule
    debtToken : Address} {params : LiquidationParams}
    (hvault : Vault.start vaultAccount vaultAdmin borrowModule = .ok p.vault)
    (hengine : Engine.start engineAccount debtToken engineAdmin params = .ok p.engine) :
    p.Chronicled := by
  obtain ⟨_, -, hvault⟩ := Vault.start_ok hvault
  obtain ⟨-, -, _, -, hengine⟩ := Engine.start_ok hengine
  refine ⟨EventLog.ordered_empty ?_, EventLog.ordered_empty ?_⟩
  · rw [hvault]
    rfl
  · rw [hengine]
    rfl

end Protocol

namespace EventLog

/-- **What a log still holds.**  It is told fewer events than a counter counts, and its entries
are taken out at any times in between.  Then it holds the newest events, as many as its limit or,
if these are fewer, all since its entries were taken out.  Their numbers are consecutive and end
before the next one, which is how many events were told at all.  No number comes twice, also when
entries are looked at earlier and later.  In a run of new components the logs of both are in the
order of their times. -/
theorem newest_retained :
    (∀ (limit : UInt64) (steps : List Step), (additions steps).length < 2 ^ 64 →
      let log := (keeping limit).through steps
      let kept := min (max limit.toNat 1) (sinceTaken steps).length
      log.toList.map (fun entry => (entry.timestamp, entry.event)) =
          (sinceTaken steps).rtake kept ∧
        log.toList.map (fun entry => entry.sequence.toNat) =
          List.range' (log.next.toNat - kept) kept ∧
        log.next.toNat = (additions steps).length ∧
        ∀ later, (additions (steps ++ later)).length < 2 ^ 64 →
          ∀ entry ∈ log.toList, ∀ entry' ∈ (log.through later).toList,
            entry'.sequence = entry.sequence → entry' = entry) ∧
    ∀ (p : Protocol) (vaultAccount engineAccount vaultAdmin engineAdmin borrowModule
        debtToken : Address) (params : LiquidationParams),
      Vault.start vaultAccount vaultAdmin borrowModule = .ok p.vault →
      Engine.start engineAccount debtToken engineAdmin params = .ok p.engine →
      ∀ turns : List Turn,
        let q := p.run turns
        q.vault.events.toList.Pairwise (fun a b => a.timestamp ≤ b.timestamp) ∧
          q.engine.events.toList.Pairwise fun a b => a.timestamp ≤ b.timestamp := by
  refine ⟨fun limit steps hfew => ?_, ?_⟩
  · have hwindow := window_through limit steps
    refine ⟨hwindow.events, hwindow.sequences hfew, hwindow.toNat_next hfew, ?_⟩
    intro later hlater entry hmem entry' hmem' hsequence
    have hafter := window_through limit (steps ++ later)
    rw [through, List.foldl_append] at hafter
    exact hwindow.eq_of_sequence hafter hlater hmem hmem' hsequence
  · intro p _ _ _ _ _ _ _ hvault hengine turns
    have hrun := (Protocol.chronicled_of_start hvault hengine).run turns
    exact ⟨hrun.vault.sorted, hrun.engine.sorted⟩

/-- A log is told two events, emptied, and told three more. -/
def emptiedOnce : List Step :=
  let event := Event.pauseChanged true Sample.admin
  [.told 4 event, .told 6 event, .taken, .told 7 event, .told 8 event, .told 9 event]

/-- The pause is refused by the engine when the vault has told it already.  Then time is set to the
past, which changes nothing, and the pause is made. -/
def latePause : List Turn :=
  [.call Sample.admin (.grantVaultRole .pauser Sample.admin), .happening (.advance 60),
    .call Sample.admin .pause, .happening (.setTime 10),
    .call Sample.admin (.grantEngineRole .pauser Sample.admin), .call Sample.admin .pause]

/-- Of the three a log for two entries holds the last two.  The refused pause is not told. -/
theorem newest_retained_emptiedOnce :
    let log := (keeping 2).through emptiedOnce
    let q := Sample.start.run latePause
    (additions emptiedOnce).length < 2 ^ 64 ∧ log.next.toNat = 5 ∧
      log.toList.map (fun entry => entry.sequence.toNat) = [3, 4] ∧
      Vault.start Sample.vaultAccount Sample.admin Sample.borrowModule = .ok Sample.start.vault ∧
      Engine.start Sample.engineAccount Sample.debtToken Sample.admin .standard =
        .ok Sample.start.engine ∧
      q.vault.events.toList.map (·.timestamp) = [0, 60] ∧
      q.vault.events.toList.Pairwise fun a b => a.timestamp ≤ b.timestamp := by
  intro log q
  have hfew : (additions emptiedOnce).length < 2 ^ 64 := by decide
  have hvault : Vault.start Sample.vaultAccount Sample.admin Sample.borrowModule =
      .ok Sample.start.vault := rfl
  have hengine : Engine.start Sample.engineAccount Sample.debtToken Sample.admin .standard =
      .ok Sample.start.engine := rfl
  obtain ⟨-, hsequences, hnext, -⟩ := newest_retained.1 2 emptiedOnce hfew
  have hsorted := newest_retained.2 Sample.start _ _ _ _ _ _ _ hvault hengine latePause
  have hcount : (additions emptiedOnce).length = 5 := rfl
  rw [hnext, hcount] at hsequences
  exact ⟨hfew, hnext.trans hcount, hsequences, hvault, hengine, by decide +kernel, hsorted.1⟩

end EventLog

end Custody
