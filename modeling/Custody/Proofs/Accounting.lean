/-
The two books of a vault agree.

A vault books each deposit, and beside the deposits the total of each token.  Crediting,
debiting and undoing write both books, and the second one is never read from the first.
That they agree is an invariant, and the one that custody rests on: what is compared with
the bank's balance are totals, and what users are paid are deposits.

A vault can also check its books by itself.  It adds up the deposits in checked arithmetic
and compares, and the check has to pass: the partial sums stay below the totals, and totals
are amounts, so nothing overflows on the way.
-/
import Custody.Proofs.Change

namespace Custody

/-! ### Adding up lines -/

theorem linesSum_cons (token : Address) (line : Address × Address × Amount)
    (lines : List (Address × Address × Amount)) : linesSum token (line :: lines) =
      (if token = line.2.1 then line.2.2.val else 0) + linesSum token lines := by
  simp only [linesSum, List.map_cons, List.sum_cons]

/-- Lines whose sums are amounts can be added up, token by token. -/
theorem sums_of_lines : ∀ (lines : List (Address × Address × Amount)) (sums : Tally),
    (∀ token, (sums.amount token).val + linesSum token lines < Amount.size) →
    ∃ r : Tally,
      lines.foldlM (fun sums line => do
        let sum ← (Tally.amount sums line.2.1).add line.2.2
        return sums.insert line.2.1 sum) sums = (.ok r : Except Error Tally) ∧
      ∀ token, (r.amount token).val = (sums.amount token).val + linesSum token lines := by
  intro lines
  induction lines with
  | nil => intro sums _; exact ⟨sums, rfl, fun _ => rfl⟩
  | cons line rest ih =>
      intro sums hfits
      have hline := hfits line.2.1
      rw [linesSum_cons, if_pos rfl] at hline
      obtain ⟨sum, hsum⟩ : ∃ sum : Amount,
          sum.val = (sums.amount line.2.1).val + line.2.2.val := ⟨⟨_, by omega⟩, rfl⟩
      -- What the line adds to its token it takes from what is still to come.
      have hnext : ∀ token, (Tally.amount (sums.insert line.2.1 sum) token).val +
          linesSum token rest = (sums.amount token).val + linesSum token (line :: rest) := by
        intro token
        rw [Tally.amount_insert, linesSum_cons]
        by_cases ht : token = line.2.1
        · rw [if_pos ht, if_pos ht, ht]
          omega
        · rw [if_neg ht, if_neg ht]
          omega
      obtain ⟨r, hr, hread⟩ := ih (sums.insert line.2.1 sum) fun token => by
        rw [hnext]
        exact hfits token
      refine ⟨r, ?_, fun token => (hread token).trans (hnext token)⟩
      rw [List.foldlM_cons, Check.bind_eq_ok]
      exact ⟨_, Check.bind_eq_ok.mpr ⟨sum, Amount.add_eq_ok.mpr hsum, rfl⟩, hr⟩

/-! ### Balanced books -/

namespace Vault

variable {v w : Vault}

/-- For each token the total is the sum of the deposits of all users. -/
def Balanced (v : Vault) : Prop :=
  ∀ token, (v.total token).val = ∑ user, (v.depositOf user token).val

namespace Balanced

theorem of_start {address admin borrowModule : Address}
    (h : Vault.start address admin borrowModule = .ok v) : Balanced v := by
  have hblank := blank_of_start h
  intro token
  simp only [Vault.total, depositOf, hblank.deposits, hblank.totals]
  exact Finset.sum_const_zero.symm

theorem of_books (h : Balanced v) (hsame : SameBooks v w) : Balanced w := by
  intro token
  simp only [Vault.total, depositOf, hsame.deposits, hsame.totals]
  exact h token

/-- Writing a deposit and the total of its token keeps the balance if both move alike. -/
theorem putDeposit (h : Balanced v) {user token : Address} {deposit total : Amount}
    (halike : deposit.val + (v.total token).val = total.val + (v.depositOf user token).val) :
    Balanced (v.putDeposit user token deposit total) := by
  intro t
  have hbefore := h t
  rw [total_putDeposit]
  by_cases ht : t = token
  · subst ht
    have hread : ∀ u, ((v.putDeposit user t deposit total).depositOf u t).val =
        if u = user then deposit.val else (v.depositOf u t).val := by
      intro u
      rw [depositOf_putDeposit]
      by_cases hu : u = user <;> simp [hu]
    have hsum := sum_replace (fun u => (v.depositOf u t).val) user deposit.val
    simp only [hread, if_true]
    omega
  · have hread :
      ∀ u, (v.putDeposit user token deposit total).depositOf u t = v.depositOf u t := by
      intro u
      rw [depositOf_putDeposit, if_neg fun h => ht h.2]
    simp only [hread, if_neg ht]
    exact hbefore

end Balanced

/-- Administration leaves the books alone. -/
theorem Amended.books {ctx : Context} {call : Call} (h : Amended ctx v w call) :
    SameBooks v w := by
  cases h with
  | @requested _ knob _ _ _ _ hw | @cancelled _ knob _ _ _ hw =>
      subst hw
      cases knob <;> exact ⟨rfl, rfl, rfl⟩
  | @executed _ knob c _ _ _ _ _ hw =>
      subst hw
      cases knob with
      | addCollateral | borrowModule => exact ⟨rfl, rfl, rfl⟩
      | updateCollateral token =>
          simp only [enforce]
          split <;> exact ⟨rfl, rfl, rfl⟩
  | added _ _ hw | switched _ _ _ hw | granted _ hw | revoked _ hw | paused _ hw | unpaused _ hw =>
      subst hw
      exact ⟨rfl, rfl, rfl⟩

/-- **No change of a vault takes its books out of balance.** -/
theorem Change.balanced (h : v.Change w) (hbalanced : Balanced v) : Balanced w := by
  cases h with
  | kept hcopy =>
      have hsame : SameBooks v.copy w.copy := by
        rw [hcopy]
        exact .rfl
      exact hbalanced.of_books ⟨hsame.address, hsame.deposits, hsame.totals⟩
  | deposited _ _ _ hdeposit htotal hw =>
      subst hw
      exact (hbalanced.putDeposit (by omega)).of_books ⟨rfl, rfl, rfl⟩
  | released _ _ hcovered htotal hw =>
      subst hw
      rw [Amount.le_def] at hcovered
      refine (hbalanced.putDeposit ?_).of_books ⟨rfl, rfl, rfl⟩
      rw [Amount.val_sub]
      omega
  | amended hamended => exact hbalanced.of_books hamended.books

/-- A vault with balanced books passes its own check. -/
theorem Balanced.verify_ok (h : Balanced v) : v.verify = .ok () := by
  have hlines : ∀ token, linesSum token (Book.lines v.deposits) = (v.total token).val := by
    intro token
    rw [h token]
    exact (Book.sum_amount v.deposits token).symm
  obtain ⟨sums, hsums, hread⟩ :=
    sums_of_lines (Book.lines v.deposits) Table.empty fun token => by
    have hbound := (v.total token).isLt
    rw [hlines]
    show 0 + _ < _
    omega
  unfold verify
  refine Check.bind_eq_ok.mpr ⟨sums, hsums, Check.forM_eq_ok fun token _ => ?_⟩
  have hsame : v.total token = Tally.amount sums token := by
    refine Amount.ext ?_
    rw [hread, hlines]
    exact (Nat.zero_add _).symm
  simp only [hsame, ne_eq, not_true_eq_false, if_false]
  rfl

end Vault

namespace Protocol

/-! ### Every history -/

/-- **The totals of a vault are the sums of its deposits**, and the vault finds so itself, after
every history of calls, answered or refused, and with whatever around it. -/
theorem totals_are_sums {p : Protocol} {address admin borrowModule : Address}
    (hstart : Vault.start address admin borrowModule = .ok p.vault) (episodes : List Episode) :
    let v := (p.through episodes).vault
    (∀ token, (v.total token).val = ∑ user, (v.depositOf user token).val) ∧
      v.verify = .ok () := by
  have hbalanced : Vault.Balanced (p.through episodes).vault :=
    through_induction (fun hchange h => hchange.balanced h)
      (fun h => h.of_books ⟨rfl, rfl, rfl⟩) episodes p (.of_start hstart)
  exact ⟨hbalanced, hbalanced.verify_ok⟩

/-- Of two deposits less the fee one was halved, and a withdrawal that the margin forbids left
no trace. -/
theorem totals_are_sums_dealings :
    let v := (Sample.funded.through Sample.dealings).vault
    Vault.start Sample.vaultAccount Sample.admin Sample.borrowModule = .ok Sample.funded.vault ∧
      v.total Sample.weth = ⟨1480000000000000000, by decide⟩ ∧
      (∀ token, (v.total token).val = ∑ user, (v.depositOf user token).val) ∧
      v.verify = .ok () := by
  have hstart : Vault.start Sample.vaultAccount Sample.admin Sample.borrowModule =
      .ok Sample.funded.vault := rfl
  exact ⟨hstart, by decide +kernel, totals_are_sums hstart Sample.dealings⟩

end Protocol

end Custody
