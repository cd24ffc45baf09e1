/-
What can become of a vault.

A vault has some twenty entry points, and calls reach it directly, through liquidations
and through transactions, answered or refused.  Still there are four things that can become
of it: nothing but a free guard, one deposit more, one deposit less, or one amendment by
administration, the last three with one event told.  Whatever is to hold of every vault is
shown for these four, and the calls are gone through here.

Most of the work is with refusals.  A transaction restores the vault, but a direct call has
to leave it in order by itself: checks come before writes, and a debit that cannot be sent is
undone.  Two refused calls do leave a change.  A liquidation that was settled and could not
be recorded has released collateral, and a pause of both components that stops at the
engine has paused the vault.
-/
import Custody.Proofs.Books
import Custody.Proofs.Delay

namespace Custody

open Custody.Action

/-! ### The changes -/

/-- The event tells that this much of a token arrived for a user. -/
def Event.Deposits (user token : Address) (amount : Amount) (event : Event) : Prop :=
  event = .deposited user token amount ∨
    ∃ funder, event = .depositedFor funder user token amount

/-- The event tells that this much of a user's deposit was released. -/
def Event.Releases (user token : Address) (amount : Amount) (event : Event) : Prop :=
  event = .withdrawn user token amount ∨
    (∃ operator recipient skipped,
      event = .withdrawnFor operator user token amount recipient skipped) ∨
    ∃ liquidator, event = .seized user token amount liquidator

namespace Vault

variable {v w : Vault} {user token : Address} {amount : Amount}

/-- What can become of a vault. -/
inductive Change (v w : Vault) : Prop where
  /-- Only the guard may differ. -/
  | kept : w.copy = v.copy → Change v w
  | deposited {user token : Address} {received deposit total : Amount} {now : Timestamp}
      {told : Event} :
      received ≠ 0 →
      v.ensureEnabled token = .ok () →
      told.Deposits user token received →
      deposit.val = (v.depositOf user token).val + received.val →
      total.val = (v.total token).val + received.val →
      w = { v.putDeposit user token deposit total with
        events := v.events.add now told
        guard := .free } →
      Change v w
  | released {user token : Address} {amount total : Amount} {now : Timestamp} {told : Event} :
      amount ≠ 0 →
      told.Releases user token amount →
      amount ≤ v.depositOf user token →
      total.val + amount.val = (v.total token).val →
      w = { v.putDeposit user token (v.depositOf user token - amount) total with
        events := v.events.add now told
        guard := .free } →
      Change v w
  | amended {ctx : Context} {call : Call} : Amended ctx v w call → Change v w

/-- Nothing has been deposited or listed, and nothing told. -/
structure Blank (v : Vault) : Prop where
  deposits : v.deposits = .empty
  totals : v.totals = .empty
  configs : v.configs = .empty
  events : v.events = .standard

theorem blank_of_start {address admin borrowModule : Address}
    (h : Vault.start address admin borrowModule = .ok v) : Blank v := by
  obtain ⟨access, -, rfl⟩ := start_ok h
  exact ⟨rfl, rfl, rfl, rfl⟩

/-! ### Booking and undoing -/

theorem credit_clean : (credit user token amount).Clean v := by
  refine clean_get (clean_check fun _ _ => clean_check fun _ _ => ?_)
  exact answers_set.clean

theorem debit_refuses : (debit user token amount).Refuses v fun w => w = v := by
  refine refuses_get (refuses_refuseIf rfl fun _ => refuses_check rfl fun _ _ => ?_)
  exact (answers_bind answers_set fun _ _ _ => answers_pure).refuses

/-- **A debit that is undone never was.**  A positive amount is debited from an entry, so the
entry is there to be written back. -/
theorem undo_debit {receipt : Receipt} (hpositive : amount ≠ 0)
    (h : debit user token amount v = .ok receipt w) : w.undo receipt = v := by
  obtain ⟨hcovered, rfl, total, htotal, rfl⟩ := debit_ok h
  have hamount : amount.val ≠ 0 := fun hval => hpositive (Amount.eq_zero_iff.mpr hval)
  rw [Amount.le_def] at hcovered
  have hdeposit : Book.amount v.deposits user token ≠ 0 := by
    intro hzero
    have hread : (v.depositOf user token).val = 0 := Amount.eq_zero_iff.mp hzero
    omega
  have hsum : Tally.amount v.totals token ≠ 0 := by
    intro hzero
    have hread : (v.total token).val = 0 := Amount.eq_zero_iff.mp hzero
    omega
  simp only [undo, putDeposit, depositOf, Vault.total, Book.put_put, Table.insert_insert,
    Book.put_amount hdeposit, Tally.insert_amount hsum]

/-! ### Refused administration -/

variable {ctx : Context} {account : Address} {role : Role}

/-- Changing the members of a role checks first, and telling of it is not refused. -/
private theorem onAccess_clean {x : Action Access Bool} {event : Event}
    (hx : x.Clean v.access) :
    (onAccess x >>= fun changed => if changed then tell ctx.now event else pure ()).Clean v := by
  refine clean_bind (clean_on hx rfl) fun changed _ _ => ?_
  cases changed with
  | true => exact answers_modify
  | false => exact answers_pure

theorem grantRole_clean : (grantRole ctx role account).Clean v :=
  onAccess_clean Access.grant_clean

theorem revokeRole_clean : (revokeRole ctx role account).Clean v :=
  onAccess_clean Access.revoke_clean

theorem pause_clean : (pause ctx).Clean v :=
  clean_get (clean_check fun _ _ => (answers_bind answers_modify fun _ _ _ => answers_modify).clean)

theorem unpause_clean : (unpause ctx).Clean v :=
  clean_get (clean_check fun _ _ => (answers_bind answers_modify fun _ _ _ => answers_modify).clean)

end Vault

namespace Protocol

variable {ctx : Context} {user token recipient liquidator funder borrower : Address}
  {amount offer : Amount} {p q : Protocol} {α : Type} {call : Call} {reply : Reply} {e : Error}

/-! ### Refused custody -/

/-- The state in which the steps of a vault call run. -/
def held (p : Protocol) : Protocol := { p with vault := { p.vault with guard := ⟨true⟩ } }

/-- The same state but for the bank, of which `Q` holds. -/
def Rebanked (Q : Bank → Prop) (p q : Protocol) : Prop := ∃ bank, Q bank ∧ q = { p with bank }

section

variable {Q : Bank → Prop} {skipCheck : Bool}

theorem Rebanked.same (hbank : Q p.bank) : p.Rebanked Q p := ⟨p.bank, hbank, rfl⟩

theorem Rebanked.kept (h : p.Rebanked Q q) : p.vault.Change q.vault := by
  obtain ⟨bank, -, rfl⟩ := h
  exact .kept rfl

theorem clean_of_rebanked {x : Action Protocol α}
    (h : x.Refuses p (p.Rebanked fun bank => bank = p.bank)) : x.Clean p := by
  intro e q hrefused
  obtain ⟨bank, rfl, rfl⟩ := h e q hrefused
  rfl

private theorem tell_answers {now : Timestamp} {event : Event} :
    (onVault (Vault.tell now event)).Answers p :=
  answers_on answers_modify

/-- The guard is entered for the steps only, so a refused call leaves what they leave. -/
private theorem vaultCall_refuses {x : Action Protocol α} (hbank : Q p.bank)
    (hx : x.Refuses p.held (p.held.Rebanked Q)) : (vaultCall x).Refuses p (p.Rebanked Q) := by
  refine Guard.refuses_hold (.same hbank) fun hfree => hx.imp fun q hq => ?_
  obtain ⟨bank, hleft, rfl⟩ := hq
  refine ⟨bank, hleft, ?_⟩
  show ({ p with vault := { p.vault with guard := .free }, bank } : Protocol) = { p with bank }
  rw [← hfree]

private theorem pull_refuses :
    (pull funder user token amount).Refuses p (p.Rebanked fun _ => True) := by
  unfold pull
  have hsame : p.Rebanked (fun _ => True) p := .same trivial
  refine refuses_refuseIf hsame fun _ => refuses_get (refuses_check hsame fun _ _ => ?_)
  have hbank {β : Type} {x : Action Bank β} : (onBank x).Leaves p (p.Rebanked fun _ => True) :=
    leaves_on (leaves_of_forall fun bank => ⟨bank, trivial, rfl⟩)
  refine refuses_bind hbank.refuses fun _ s hs => refuses_get ?_
  have hpulled : p.Rebanked (fun _ => True) s := hbank.of_ok hs
  refine refuses_check hpulled fun _ _ => refuses_refuseIf hpulled fun _ => ?_
  refine refuses_bind (refuses_on (Vault.credit_clean.refuses hpulled)) fun _ _ _ => ?_
  exact refuses_pure

theorem deposit_refuses :
    (deposit ctx token amount).Refuses p (p.Rebanked fun _ => True) := by
  have hsame : p.held.Rebanked (fun _ => True) p.held := .same trivial
  refine vaultCall_refuses trivial (refuses_get (refuses_check hsame fun _ _ => ?_))
  refine refuses_bind pull_refuses fun _ _ _ => ?_
  exact (answers_bind tell_answers fun _ _ _ => answers_pure).refuses

theorem depositFor_refuses :
    (depositFor ctx user token amount).Refuses p (p.Rebanked fun _ => True) := by
  have hsame : p.held.Rebanked (fun _ => True) p.held := .same trivial
  refine vaultCall_refuses trivial (refuses_get (refuses_check hsame fun _ _ => ?_))
  refine refuses_check hsame fun _ _ => refuses_check hsame fun _ _ => ?_
  refine refuses_bind pull_refuses fun _ _ _ => ?_
  exact (answers_bind tell_answers fun _ _ _ => answers_pure).refuses

variable (hbank : Q p.bank)
  (hsend : ∀ token sender recipient amount,
    (Bank.transfer token sender recipient amount).Refuses p.bank Q)

include hbank hsend

/-- A debit that is not sent is undone, and one that is sent is told.  So only the bank, which is
asked last, can have kept something. -/
private theorem release_refuses {check : Action Protocol Unit} {now : Timestamp} {event : Event}
    (hcheck : ∀ p : Protocol, check.Leaves p fun q => q = p) (hpositive : amount ≠ 0) :
    (do
      let receipt ← onVault (Vault.debit user token amount)
      send receipt recipient amount check
      onVault (Vault.tell now event) : Action Protocol Unit).Refuses p (p.Rebanked Q) := by
  have hdebit : (onVault (Vault.debit user token amount)).Refuses p (p.Rebanked Q) := by
    refine refuses_on (Vault.debit_refuses.imp fun v hv => ?_)
    rw [hv]
    exact .same hbank
  refine refuses_bind hdebit fun receipt s hs => ?_
  simp only [onVault, on_eq_ok] at hs
  obtain ⟨w, hdebited, rfl⟩ := hs
  have hsent : (do
      check
      onBank (Bank.transfer receipt.token (← get).vault.address recipient amount) :
        Action Protocol Unit).Refuses { p with vault := w } (Rebanked Q { p with vault := w }) := by
    refine refuses_bind ((hcheck _).refuses.imp fun t ht => ?_) fun _ t ht => refuses_get ?_
    · obtain rfl := ht
      exact .same hbank
    · obtain rfl := (hcheck _).of_ok ht
      exact refuses_on ((hsend _ _ _ _).imp fun bank hleft => ⟨bank, hleft, rfl⟩)
  refine refuses_bind (refuses_undoing (hsent.imp fun t ht => ?_)) fun _ _ _ =>
    tell_answers.refuses
  obtain ⟨bank, hleft, rfl⟩ := ht
  refine ⟨bank, hleft, ?_⟩
  show ({ p with vault := w.undo receipt, bank } : Protocol) = { p with bank }
  rw [Vault.undo_debit hpositive hdebited]

theorem withdraw_refuses : (withdraw ctx user token amount).Refuses p (p.Rebanked Q) := by
  have hsame : p.held.Rebanked Q p.held := .same hbank
  refine vaultCall_refuses hbank (refuses_get (refuses_refuseIf hsame fun _ => ?_))
  refine refuses_refuseIf hsame fun hpositive => ?_
  exact release_refuses (p := p.held) hbank hsend (fun _ => leaves_pure rfl) hpositive

theorem seize_refuses : (seize ctx user token amount liquidator).Refuses p (p.Rebanked Q) := by
  have hsame : p.held.Rebanked Q p.held := .same hbank
  refine vaultCall_refuses hbank (refuses_get (refuses_check hsame fun _ _ => ?_))
  refine refuses_check hsame fun _ _ => refuses_refuseIf hsame fun hpositive => ?_
  exact release_refuses (p := p.held) hbank hsend (fun _ => leaves_pure rfl) hpositive

theorem withdrawFor_refuses :
    (withdrawFor ctx user token amount recipient skipCheck).Refuses p (p.Rebanked Q) := by
  have hsame : p.held.Rebanked Q p.held := .same hbank
  refine vaultCall_refuses hbank (refuses_get (refuses_check hsame fun _ _ => ?_))
  refine refuses_check hsame fun _ _ => refuses_refuseIf hsame fun hpositive => ?_
  refine refuses_check hsame fun _ _ => refuses_refuseIf hsame fun _ => ?_
  exact release_refuses (p := p.held) hbank hsend (fun q => margin_aside q rfl) hpositive

end

/-! ### Refused liquidations and write-offs -/

/-- A settlement takes one deposit out of the vault. -/
theorem Settled.vault_change {quote : Quote} (h : Settled ctx borrower token quote p q) :
    p.vault.Change q.vault := by
  obtain ⟨pulled, burned, -, -, hreleased⟩ := h.moved
  obtain ⟨total, htotal, hvault⟩ := hreleased.vault
  exact .released hreleased.positive (.inr (.inr ⟨ctx.caller, rfl⟩)) hreleased.covered htotal
    hvault

/-- A refused liquidation has kept the vault, or it was settled and could not be recorded. -/
theorem liquidate_refused (h : liquidate ctx borrower token offer p = .error e q) :
    p.vault.Change q.vault := by
  simp only [liquidate_eq, engineCall, Guard.hold_eq_error] at h
  rcases h with ⟨-, -, rfl⟩ | ⟨-, u, hu, rfl⟩
  · exact .kept rfl
  simp only [get_bind, bind_eq_error, check_eq_error, check_eq_ok, orRestore_eq_ok,
    pure_ne_error, and_false, exists_false, or_false] at hu
  rcases hu with ⟨-, rfl⟩ | ⟨⟨health, quote⟩, _, ⟨-, rfl⟩,
    hsettle | ⟨_, mid, hsettle, hcommit⟩⟩
  · exact .kept rfl
  · obtain rfl := unsettled hsettle
    exact .kept rfl
  · have hvault : u.vault = mid.vault :=
      (commit_leaves (Q := fun q => q.vault = mid.vault) (fun h => h) rfl).of_error hcommit
    show p.vault.Change u.vault
    rw [hvault]
    exact (settle_ok hsettle).1.vault_change

/-- A write-off leaves the vault alone, answered or refused. -/
theorem socialize_vault : (socialize ctx borrower).Leaves p fun q => q.vault = p.vault :=
  socialize_leaves (Q := fun q => q.vault = p.vault) (fun h => h) (fun h => h) rfl

/-! ### Every call -/

/-- **What an answered call makes of the vault.** -/
theorem perform_change (h : perform ctx call p = .ok reply q) : p.vault.Change q.vault := by
  cases perform_ok h with
  | deposited hdeposited =>
      obtain ⟨deposit, total, hdeposit, htotal, hvault⟩ := hdeposited.vault
      exact .deposited hdeposited.something hdeposited.enabled (.inl rfl) hdeposit htotal hvault
  | depositedFor _ hdeposited =>
      obtain ⟨deposit, total, hdeposit, htotal, hvault⟩ := hdeposited.vault
      exact .deposited hdeposited.something hdeposited.enabled (.inr ⟨ctx.caller, rfl⟩) hdeposit
        htotal hvault
  | withdrawn _ hreleased =>
      obtain ⟨total, htotal, hvault⟩ := hreleased.vault
      exact .released hreleased.positive (.inl rfl) hreleased.covered htotal hvault
  | seized _ hreleased =>
      obtain ⟨total, htotal, hvault⟩ := hreleased.vault
      exact .released hreleased.positive (.inr (.inr ⟨_, rfl⟩)) hreleased.covered htotal hvault
  | withdrawnFor _ hreleased =>
      obtain ⟨total, htotal, hvault⟩ := hreleased.vault
      exact .released hreleased.positive (.inr (.inl ⟨_, _, _, rfl⟩)) hreleased.covered htotal
        hvault
  | liquidated hliquidated => exact hliquidated.settled.vault_change
  | socialized hsocialized =>
      refine .kept ?_
      rw [hsocialized.rest]
  | administered hcall _ =>
      cases perform_managed hcall h with
      | vault hamended | both hamended => exact .amended hamended
      | engine _ hq =>
          refine .kept ?_
          rw [hq]

private theorem vaultCall_kept {change : Action Vault α} (hchange : ∀ {v}, change.Clean v)
    (h : vaultCall (onVault change) p = .error e q) : p.vault.Change q.vault := by
  have hsteps : (onVault change).Refuses p.held (p.held.Rebanked fun _ => True) :=
    refuses_on (hchange.refuses (.same trivial))
  exact (vaultCall_refuses trivial hsteps e q h).kept

private theorem administer_kept {change : Action Vault Unit} (hchange : ∀ {v}, change.Clean v)
    (h : administer change p = .error e q) : p.vault.Change q.vault :=
  vaultCall_kept hchange (administer_error h)

/-- A pause of both components that is refused has stopped at one of them. -/
private theorem halves_change {first : Action Vault Unit} {second : Action Engine Unit}
    (hfirst : ∀ {v r w}, first { v with guard := ⟨true⟩ } = .ok r w →
      Vault.Amended ctx v { w with guard := .free } call)
    (hclean : ∀ {v}, first.Clean v)
    (h : (do
      vaultCall (onVault first)
      engineCall (onEngine second)
      return .done : Action Protocol Reply) p = .error e q) : p.vault.Change q.vault := by
  simp only [bind_eq_error, pure_ne_error, and_false, exists_false, or_false] at h
  rcases h with hvault | ⟨_, mid, hvault, hengine⟩
  · exact vaultCall_kept hclean hvault
  · rw [engineCall_vault.of_error hengine]
    exact .amended (vaultCall_amended hfirst hvault).1

private theorem bind_pure_refuses {x : Action Protocol α} {f : α → Reply}
    {Q : Protocol → Prop} (h : x.Refuses p Q) : (x >>= fun a => pure (f a)).Refuses p Q :=
  refuses_bind h fun _ _ _ => refuses_pure

/-- **What a refused call makes of the vault.** -/
theorem perform_refused_change (h : perform ctx call p = .error e q) :
    p.vault.Change q.vault := by
  have hsend (token sender recipient : Address) (amount : Amount) :
      (Bank.transfer token sender recipient amount).Refuses p.bank fun _ => True :=
    fun _ _ _ => trivial
  cases call with
  | deposit => exact (bind_pure_refuses deposit_refuses e q h).kept
  | depositFor => exact (bind_pure_refuses depositFor_refuses e q h).kept
  | withdraw => exact (bind_pure_refuses (withdraw_refuses trivial hsend) e q h).kept
  | seize => exact (bind_pure_refuses (seize_refuses trivial hsend) e q h).kept
  | withdrawFor => exact (bind_pure_refuses (withdrawFor_refuses trivial hsend) e q h).kept
  | liquidate =>
      exact bind_pure_refuses (fun _ _ hrefused => liquidate_refused hrefused) e q h
  | socialize =>
      refine .kept (congrArg Vault.copy ?_)
      exact bind_pure_refuses socialize_vault.refuses e q h
  | requestAdd => exact administer_kept Vault.requestAdd_clean h
  | cancelAdd => exact administer_kept Vault.cancelAdd_clean h
  | executeAdd => exact administer_kept Vault.executeAdd_clean h
  | addCollateral => exact administer_kept Vault.addCollateral_clean h
  | requestUpdate => exact administer_kept Vault.requestUpdate_clean h
  | cancelUpdate => exact administer_kept Vault.cancelUpdate_clean h
  | executeUpdate => exact administer_kept Vault.executeUpdate_clean h
  | requestModule => exact administer_kept Vault.requestModule_clean h
  | cancelModule => exact administer_kept Vault.cancelModule_clean h
  | executeModule => exact administer_kept Vault.executeModule_clean h
  | disable => exact administer_kept Vault.setEnabled_clean h
  | enable => exact administer_kept Vault.setEnabled_clean h
  | setCloseFactor | setFullThreshold | grantEngineRole | revokeEngineRole =>
      rw [govern_vault.of_error h]
      exact .kept rfl
  | grantVaultRole => exact administer_kept Vault.grantRole_clean h
  | revokeVaultRole => exact administer_kept Vault.revokeRole_clean h
  | pause => exact halves_change Vault.pause_amended Vault.pause_clean h
  | unpause => exact halves_change Vault.unpause_amended Vault.unpause_clean h

/-- **What an episode makes of the vault**, unless it takes out the log. -/
theorem next_change (p : Protocol) {episode : Episode} (hlog : episode ≠ .drained) :
    p.vault.Change (p.next episode).vault := by
  cases episode with
  | direct ctx call =>
      show p.vault.Change ((perform ctx call).left p).vault
      exact leaves_of_cases (fun _ _ h => perform_change h) fun _ _ h => perform_refused_change h
  | submitted caller call =>
      show p.vault.Change ((submit caller call).left p).vault
      refine leaves_of_cases (fun _ _ h => perform_change (submit_eq_ok.mp h)) fun _ _ h => ?_
      rw [(submit_refused h).vault]
      exact .kept rfl
  | pausing ctx paused =>
      cases paused with
      | true =>
          show p.vault.Change ((pauseVault ctx).left p).vault
          refine leaves_of_cases (fun _ _ h => ?_) fun _ _ h => vaultCall_kept Vault.pause_clean h
          exact .amended (vaultCall_amended Vault.pause_amended h).1
      | false =>
          show p.vault.Change ((unpauseVault ctx).left p).vault
          refine leaves_of_cases (fun _ _ h => ?_) fun _ _ h => vaultCall_kept Vault.unpause_clean h
          exact .amended (vaultCall_amended Vault.unpause_amended h).1
  | drained => exact absurd rfl hlog
  | around => exact .kept rfl

/-- What survives every change, and does not look at the log, holds after every history. -/
theorem through_induction {Inv : Vault → Prop}
    (hchange : ∀ {v w : Vault}, v.Change w → Inv v → Inv w)
    (hdrained : ∀ {v : Vault}, Inv v → Inv { v with events := v.events.drained }) :
    ∀ (episodes : List Episode) (p : Protocol), Inv p.vault →
      Inv (p.through episodes).vault := by
  intro episodes
  induction episodes with
  | nil => intro p h; exact h
  | cons episode rest ih =>
      intro p h
      refine ih (p.next episode) ?_
      cases episode with
      | drained => exact hdrained h
      | direct | submitted | pausing | around => exact hchange (next_change p nofun) h

end Protocol

/-! ### A short history -/

namespace Sample

/-- Nothing has been deposited yet, but two users have the means, and alice owes a thousand
dollars. -/
def funded : Protocol := start.run
  [.happening (.registerToken weth 18), .happening (.setFee weth 100),
    .happening (.setPrice weth price 18),
    .happening (.mint weth alice unit), .happening (.approve weth alice vaultAccount unit),
    .happening (.mint weth bob unit), .happening (.approve weth bob vaultAccount unit),
    .happening (.setDebt alice ⟨1000 * debtUnit.val, by decide⟩)]

/-- Two deposits less the fee, a withdrawal that the margin forbids, and one that is made. -/
def dealings : List Episode :=
  [.submitted admin (.grantVaultRole .governance admin),
    .submitted admin (.grantVaultRole .leverageVault admin),
    .submitted admin (.addCollateral weth ⟨7500, 8000, 500⟩),
    .direct ⟨alice, 0⟩ (.deposit weth unit),
    .submitted bob (.deposit weth unit),
    .direct ⟨admin, 0⟩
      (.withdrawFor alice weth ⟨500000000000000000, by decide⟩ admin false),
    .direct ⟨admin, 0⟩ (.withdrawFor bob weth ⟨500000000000000000, by decide⟩ bob false)]

end Sample

end Custody
