/-
A refused release leaves no trace.

A release debits the books before it asks the bank, and on the integrator's path before it looks at
the margin.  Both can still say no, and then the two lines that were written are written back.  The
bank is asked last, so what is left to know of it is that a transfer which it refuses has not moved
anything yet.  That is so for every bank with a history, because its supplies bound its balances.

Nothing is assumed about the vault, the ledger or the oracle, nor about who calls, so the calls are
as safe alone as they are inside a transaction.
-/
import Custody.Proofs.Reached

namespace Custody.Protocol

open Custody.Action

variable {p : Protocol}

/-- **A refused release leaves no trace.**  Whoever calls, directly and at whatever time, for
whatever user, token, amount and recipient, with the health check or without it: a withdrawal, a
seizure and a withdrawal on the integrator's path that are refused leave exactly the state that they
found. -/
theorem releases_leave_no_trace (hbank : p.bank.Reached) (ctx : Context) (user token : Address)
    (amount : Amount) :
    (withdraw ctx user token amount).Clean p ∧
      (∀ liquidator, (seize ctx user token amount liquidator).Clean p) ∧
      ∀ recipient skipCheck, (withdrawFor ctx user token amount recipient skipCheck).Clean p := by
  have hsend (token sender recipient : Address) (amount : Amount) :
      (Bank.transfer token sender recipient amount).Refuses p.bank fun bank => bank = p.bank :=
    Bank.transfer_clean hbank.sound
  refine ⟨?_, fun liquidator => ?_, fun recipient skipCheck => ?_⟩
  · exact clean_of_rebanked (withdraw_refuses rfl hsend)
  · exact clean_of_rebanked (seize_refuses rfl hsend)
  · exact clean_of_rebanked (withdrawFor_refuses rfl hsend)

/-- The vault after a few dealings, and whoever may liquidate, beside a bank in which nobody has
anything. -/
def ransacked : Protocol :=
  { Sample.funded.through (Sample.dealings ++
      [.submitted Sample.admin (.grantVaultRole .liquidation Sample.engineAccount)]) with
    bank := Bank.empty.through [.register Sample.weth 18] }

/-- Half of alice's deposit is debited three times.  Twice the bank has nothing to send, and once
alice's margin forbids it; each time the state is the same as before. -/
theorem releases_leave_no_trace_ransacked :
    let p := ransacked
    let half : Amount := ⟨500000000000000000, by decide⟩
    let withdrawal := withdraw ⟨Sample.borrowModule, 0⟩ Sample.alice Sample.weth half
    let seizure :=
      seize ⟨Sample.engineAccount, 0⟩ Sample.alice Sample.weth half Sample.liquidator
    let leverage :=
      withdrawFor ⟨Sample.admin, 0⟩ Sample.alice Sample.weth half Sample.admin false
    p.bank.Reached ∧ half ≤ p.vault.depositOf Sample.alice Sample.weth ∧
      (withdrawal.reply? p = none ∧ withdrawal.left p = p) ∧
      (seizure.reply? p = none ∧ seizure.left p = p) ∧
      (leverage.reply? p = none ∧ leverage.left p = p) := by
  intro p half withdrawal seizure leverage
  have hbank : p.bank.Reached := ⟨[.register Sample.weth 18], rfl⟩
  obtain ⟨hwithdraw, -, -⟩ :=
    releases_leave_no_trace hbank ⟨Sample.borrowModule, 0⟩ Sample.alice Sample.weth half
  obtain ⟨-, hseize, -⟩ :=
    releases_leave_no_trace hbank ⟨Sample.engineAccount, 0⟩ Sample.alice Sample.weth half
  obtain ⟨-, -, hleverage⟩ :=
    releases_leave_no_trace hbank ⟨Sample.admin, 0⟩ Sample.alice Sample.weth half
  have hrefused : withdrawal.reply? p = none := by decide +kernel
  have hrefused' : seizure.reply? p = none := by decide +kernel
  have hrefused'' : leverage.reply? p = none := by decide +kernel
  exact ⟨hbank, by decide +kernel, ⟨hrefused, hwithdraw.left_eq hrefused⟩,
    ⟨hrefused', (hseize Sample.liquidator).left_eq hrefused'⟩,
    ⟨hrefused'', (hleverage Sample.admin false).left_eq hrefused''⟩⟩

end Custody.Protocol
