/-
What has a history.

A vault, an engine and a bank each start empty and change by their own methods only.  What is said
here of a component that has a history is said with nothing assumed about the others: a vault may
have met another bank in every call, and the bank may never have heard of it.

A run of the whole protocol is a narrower thing, and in it each of the three has a history.
-/
import Custody.Proofs.EngineAccounting
import Custody.Proofs.Registry
import Custody.Proofs.Release

namespace Custody

open Custody.Action

/-- Some history of a new vault ends here. -/
def Vault.Reached (v : Vault) : Prop :=
  ∃ (p : Protocol) (address admin borrowModule : Address) (episodes : List Episode),
    Vault.start address admin borrowModule = .ok p.vault ∧ (p.through episodes).vault = v

/-- Some history of a new engine ends here. -/
def Engine.Reached (e : Engine) : Prop :=
  ∃ (p : Protocol) (address debtToken admin : Address) (params : LiquidationParams)
      (episodes : List EngineEpisode),
    Engine.start address debtToken admin params = .ok p.engine ∧
      (p.engineThrough episodes).engine = e

/-- Some history of the empty bank ends here. -/
def Bank.Reached (b : Bank) : Prop :=
  ∃ history : List Operation, empty.through history = b

/-! ### What every history keeps -/

theorem Vault.Reached.balanced {v : Vault} (h : v.Reached) : v.Balanced := by
  obtain ⟨p, address, admin, borrowModule, episodes, hstart, rfl⟩ := h
  exact Protocol.through_induction (fun hchange h => hchange.balanced h)
    (fun h => h.of_books ⟨rfl, rfl, rfl⟩) episodes p (.of_start hstart)

theorem Vault.Reached.registered {v : Vault} (h : v.Reached) : v.Registered := by
  obtain ⟨p, address, admin, borrowModule, episodes, hstart, rfl⟩ := h
  exact Protocol.through_registered hstart episodes

theorem Engine.Reached.badDebt_sound {e : Engine} (h : e.Reached) : e.badDebt.Sound := by
  obtain ⟨p, address, debtToken, admin, params, episodes, hstart, rfl⟩ := h
  refine Protocol.engineThrough_induction (fun h => h.badDebt.sound) episodes p ?_
  obtain ⟨-, -, access, -, hengine⟩ := Engine.start_ok hstart
  rw [hengine]
  exact BadDebt.sound_empty

theorem Bank.Reached.sound {b : Bank} (h : b.Reached) : b.Sound := by
  obtain ⟨history, rfl⟩ := h
  exact through_sound history sound_empty

/-! ### One step more -/

theorem Bank.Reached.after {b : Bank} (h : b.Reached) (operation : Operation) :
    (b.after operation).Reached := by
  obtain ⟨history, rfl⟩ := h
  exact ⟨history ++ [operation], List.foldl_concat ..⟩

namespace Protocol

variable {p q : Protocol}

/-- What was around the components in their histories is replaced by what is around them now. -/
theorem next_vault_reached (h : p.vault.Reached) (episode : Episode) :
    (p.next episode).vault.Reached := by
  obtain ⟨origin, address, admin, borrowModule, episodes, hstart, hvault⟩ := h
  refine ⟨origin, address, admin, borrowModule,
    episodes ++ [.around p.engine p.ledger p.oracle p.bank p.clock, episode], hstart, ?_⟩
  rw [through_append]
  show (Protocol.next ⟨(origin.through episodes).vault, p.engine, p.ledger, p.oracle, p.bank,
    p.clock⟩ episode).vault = (p.next episode).vault
  rw [hvault]

theorem engineNext_reached (h : p.engine.Reached) (episode : EngineEpisode) :
    (p.engineNext episode).engine.Reached := by
  obtain ⟨origin, address, debtToken, admin, params, episodes, hstart, hengine⟩ := h
  refine ⟨origin, address, debtToken, admin, params,
    episodes ++ [.around p.vault p.ledger p.oracle p.bank p.clock, episode], hstart, ?_⟩
  unfold engineThrough at hengine ⊢
  rw [List.foldl_append]
  show (Protocol.engineNext ⟨p.vault, (List.foldl engineNext origin episodes).engine, p.ledger,
    p.oracle, p.bank, p.clock⟩ episode).engine = (p.engineNext episode).engine
  rw [hengine]

/-- Each component has a history. -/
structure Reached (p : Protocol) : Prop where
  vault : p.vault.Reached
  engine : p.engine.Reached
  bank : p.bank.Reached

/-- A submitted call is an episode of both components, and what happens around them is none. -/
theorem Reached.after (h : p.Reached) (turn : Turn) : (p.after turn).Reached := by
  have hbank : (p.after turn).bank.Reached :=
    after_bank (fun operation h => h.after operation) h.bank turn
  cases turn with
  | call caller call =>
      exact ⟨next_vault_reached h.vault (.submitted caller call),
        engineNext_reached h.engine (.submitted caller call), hbank⟩
  | happening happening =>
      obtain ⟨hvault, hengine⟩ := after_happening p happening
      exact ⟨hvault ▸ h.vault, hengine ▸ h.engine, hbank⟩

/-- **In every run each component has a history.** -/
theorem Reached.run (h : p.Reached) (turns : List Turn) : (p.run turns).Reached := by
  have hstep : ∀ (p : Protocol) (turn : Turn), True → p.Reached → (p.after turn).Reached :=
    fun p turn _ h => h.after turn
  exact run_induction hstep turns p (fun _ _ => trivial) h

theorem Fresh.reached (h : Fresh p) : p.Reached := by
  obtain ⟨address, admin, borrowModule, hvault⟩ := h.vault
  obtain ⟨engine, debtToken, governor, params, hengine⟩ := h.engine
  exact ⟨⟨p, address, admin, borrowModule, [], hvault, rfl⟩,
    ⟨p, engine, debtToken, governor, params, [], hengine, rfl⟩, ⟨[], h.bank.symm⟩⟩

end Protocol

end Custody
