/-
A fingerprint remembers who has held a deposit.

The fingerprint of a vault is meant to stand for its configuration and its balances.  What is
digested are the entries of the deposits, and an entry stays when all of it is withdrawn.  So a
user who is gone reads like one who never came, and has left an entry of zero behind.

That is all that is left of the past.  An entry comes only with a deposit, because nothing is
booked unless something arrived, and no entry goes.  Two vaults that read the same therefore have
the same fingerprint exactly if the same users have ever held the same tokens, however much it
was and in whatever order.
-/
import Custody.Proofs.Commitment

namespace Custody

/-! ### Entries of zero -/

namespace Book

variable {b c : Book} {x y : Address} {v : Amount}

/-- There is an entry for the pair, if only of zero. -/
def OnRecord (b : Book) (x y : Address) : Prop := ∃ v, (row b x).get? y = some v

theorem onRecord_of_amount (h : b.amount x y ≠ 0) : b.OnRecord x y :=
  ⟨b.amount x y, mem_lines.mp (mem_lines_of_amount h)⟩

theorem onRecord_put (b : Book) (x y x' y' : Address) (v : Amount) :
    (put b x y v).OnRecord x' y' ↔ (x' = x ∧ y' = y) ∨ b.OnRecord x' y' := by
  unfold OnRecord
  rw [row_put]
  by_cases hx : x' = x
  · by_cases hy : y' = y <;> simp [hx, hy]
  · simp [hx]

/-- Unless it is a zero in a new place, what is written puts on record what is then positive. -/
theorem onRecord_put_iff (h : v ≠ 0 ∨ b.OnRecord x y) (x' y' : Address) :
    (put b x y v).OnRecord x' y' ↔ b.OnRecord x' y' ∨ amount (put b x y v) x' y' ≠ 0 := by
  constructor
  · rw [onRecord_put]
    rintro (⟨rfl, rfl⟩ | hrecord)
    · rcases h with hpositive | hrecord
      · refine .inr ?_
        rwa [amount_put, if_pos ⟨rfl, rfl⟩]
      · exact .inl hrecord
    · exact .inl hrecord
  · rintro (hrecord | hpositive)
    · exact (onRecord_put b x y x' y' v).mpr (.inr hrecord)
    · exact onRecord_of_amount hpositive

/-- What is on record is what is read. -/
theorem OnRecord.get?_eq (h : b.OnRecord x y) : (row b x).get? y = some (b.amount x y) := by
  obtain ⟨v, hget⟩ := h
  unfold amount Tally.amount
  rw [hget]
  rfl

/-- Without empty rows a book is given by what is read and by what is on record. -/
theorem eq_of_amounts (hb : b.Filled) (hc : c.Filled)
    (hamount : ∀ x y, b.amount x y = c.amount x y)
    (hrecord : ∀ x y, b.OnRecord x y ↔ c.OnRecord x y) : b = c := by
  refine eq_of_rows hb hc fun x => Table.ext_get? fun y => ?_
  by_cases hlisted : b.OnRecord x y
  · rw [hlisted.get?_eq, ((hrecord x y).mp hlisted).get?_eq, hamount]
  · have hnone : ∀ {d : Book}, ¬ d.OnRecord x y → (row d x).get? y = none :=
      fun h => Option.eq_none_iff_forall_ne_some.mpr fun v hget => h ⟨v, hget⟩
    rw [hnone hlisted, hnone fun h => hlisted ((hrecord x y).mpr h)]

end Book

namespace Vault

variable {v w : Vault} {user token : Address}

/-- Two vaults with the same configuration and the same balances, as far as one can ask. -/
structure ReadsLike (v w : Vault) : Prop where
  borrowModule : v.borrowModule = w.borrowModule
  listed : v.listed = w.listed
  config : ∀ token, v.configs.get? token = w.configs.get? token
  deposit : ∀ user token, v.depositOf user token = w.depositOf user token

/-- **An entry comes with a deposit and stays.** -/
theorem Change.onRecord_iff (h : v.Change w) (user token : Address) :
    Book.OnRecord w.deposits user token ↔
      Book.OnRecord v.deposits user token ∨ w.depositOf user token ≠ 0 := by
  have hsame : w.deposits = v.deposits → (Book.OnRecord w.deposits user token ↔
      Book.OnRecord v.deposits user token ∨ w.depositOf user token ≠ 0) := by
    intro hdeposits
    rw [← hdeposits]
    exact ⟨.inl, fun h => h.elim id Book.onRecord_of_amount⟩
  cases h with
  | kept hcopy => exact hsame (show w.copy.deposits = v.copy.deposits by rw [hcopy])
  | amended hamended => exact hsame hamended.books.deposits
  | @deposited u t received deposit total _ _ hsomething _ _ hdeposit _ hw =>
      subst hw
      refine Book.onRecord_put_iff (.inl fun hzero => hsomething (Amount.eq_zero_iff.mpr ?_)) _ _
      rw [hzero, Amount.val_zero] at hdeposit
      omega
  | @released u t amount total _ _ hpositive _ hcovered _ hw =>
      subst hw
      refine Book.onRecord_put_iff (.inr (Book.onRecord_of_amount fun hzero => ?_)) _ _
      have hread : v.depositOf u t = 0 := hzero
      rw [hread, Amount.le_def, Amount.val_zero, Nat.le_zero] at hcovered
      exact hpositive (Amount.eq_zero_iff.mpr hcovered)

end Vault

/-! ### Histories -/

namespace Protocol

variable {p q : Protocol} {address admin borrowModule address' admin' borrowModule' : Address}
  {user token : Address}

/-- The user has held a deposit of the token at some time in the history. -/
def HasHeld (p : Protocol) (episodes : List Episode) (user token : Address) : Prop :=
  ∃ earlier, earlier <+: episodes ∧ (p.through earlier).vault.depositOf user token ≠ 0

theorem hasHeld_snoc (p : Protocol) (episodes : List Episode) (last : Episode) :
    p.HasHeld (episodes ++ [last]) user token ↔
      p.HasHeld episodes user token ∨
        (p.through (episodes ++ [last])).vault.depositOf user token ≠ 0 := by
  simp only [HasHeld, List.prefix_concat_iff]
  constructor
  · rintro ⟨earlier, rfl | hearlier, hheld⟩
    · exact .inr hheld
    · exact .inl ⟨earlier, hearlier, hheld⟩
  · rintro (⟨earlier, hearlier, hheld⟩ | hheld)
    · exact ⟨earlier, .inr hearlier, hheld⟩
    · exact ⟨_, .inl rfl, hheld⟩

theorem next_onRecord_iff (p : Protocol) (episode : Episode) (user token : Address) :
    Book.OnRecord (p.next episode).vault.deposits user token ↔
      Book.OnRecord p.vault.deposits user token ∨
        (p.next episode).vault.depositOf user token ≠ 0 := by
  by_cases hlog : episode = .drained
  · rw [hlog]
    exact ⟨.inl, fun h => h.elim id Book.onRecord_of_amount⟩
  · exact (next_change p hlog).onRecord_iff user token

/-- **What is on record is who has held a deposit.** -/
theorem onRecord_iff_hasHeld (h : Vault.start address admin borrowModule = .ok p.vault)
    (episodes : List Episode) (user token : Address) :
    Book.OnRecord (p.through episodes).vault.deposits user token ↔
      p.HasHeld episodes user token := by
  induction episodes using List.reverseRecOn with
  | nil =>
      have hempty : p.vault.deposits = .empty := (Vault.blank_of_start h).deposits
      constructor
      · rintro ⟨v, hget⟩
        rw [show (p.through []).vault.deposits = .empty from hempty] at hget
        cases hget
      · rintro ⟨earlier, hearlier, hheld⟩
        rw [List.prefix_nil.mp hearlier] at hheld
        exact Book.onRecord_of_amount hheld
  | append_singleton episodes last ih =>
      rw [hasHeld_snoc, ← ih, through_snoc]
      exact next_onRecord_iff _ last user token

/-- **A fingerprint remembers who has held a deposit**, and beside configuration and balances it
remembers nothing else.  Two vaults that each have a history and read the same give the same bytes
to be digested exactly if in both histories the same users have held the same tokens; and then
they have the same fingerprint. -/
theorem fingerprint_remembers_holders {episodes others : List Episode}
    (hp : Vault.start address admin borrowModule = .ok p.vault)
    (hq : Vault.start address' admin' borrowModule' = .ok q.vault)
    (hsame : (p.through episodes).vault.ReadsLike (q.through others).vault) :
    ((p.through episodes).vault.fingerprintInput = (q.through others).vault.fingerprintInput ↔
        ∀ user token, p.HasHeld episodes user token ↔ q.HasHeld others user token) ∧
      ((∀ user token, p.HasHeld episodes user token ↔ q.HasHeld others user token) →
        (p.through episodes).vault.fingerprint = (q.through others).vault.fingerprint) := by
  have hreached : (p.through episodes).vault.Reached := ⟨p, _, _, _, episodes, hp, rfl⟩
  have hreached' : (q.through others).vault.Reached := ⟨q, _, _, _, others, hq, rfl⟩
  have hinput : (∀ user token, p.HasHeld episodes user token ↔ q.HasHeld others user token) →
      (p.through episodes).vault.fingerprintInput =
        (q.through others).vault.fingerprintInput := by
    intro hheld
    have hdeposits : (p.through episodes).vault.deposits = (q.through others).vault.deposits := by
      refine Book.eq_of_amounts hreached.filled hreached'.filled hsame.deposit fun user token => ?_
      rw [onRecord_iff_hasHeld hp, onRecord_iff_hasHeld hq, hheld]
    have hconfigs : (p.through episodes).vault.configs = (q.through others).vault.configs :=
      Table.ext_get? hsame.config
    unfold Vault.fingerprintInput Vault.tokenFingerprint
    rw [hsame.borrowModule, hsame.listed, hconfigs, hdeposits]
  refine ⟨⟨fun h user token => ?_, hinput⟩, fun h => ?_⟩
  · obtain ⟨-, -, hlines⟩ := hreached.registered.cut hreached'.registered h
    have hdeposits := Book.eq_of_lines hreached.filled hreached'.filled hlines
    rw [← onRecord_iff_hasHeld hp, ← onRecord_iff_hasHeld hq, hdeposits]
  · unfold Vault.fingerprint
    rw [hinput h]

/-- A token is listed, and nobody has a deposit. -/
def listing : List Episode :=
  [.submitted Sample.admin (.grantVaultRole .governance Sample.admin),
    .submitted Sample.admin (.addCollateral Sample.weth ⟨7500, 8000, 500⟩)]

/-- Then alice deposits and withdraws all that arrived. -/
def visit : List Episode :=
  listing ++ [.submitted Sample.alice (.deposit Sample.weth Sample.unit),
    .submitted Sample.borrowModule
      (.withdraw Sample.alice Sample.weth ⟨99 * (Sample.unit.val / 100), by decide⟩)]

theorem visit_readsLike :
    (Sample.funded.through visit).vault.ReadsLike (Sample.funded.through listing).vault := by
  have hdeposits : (Sample.funded.through visit).vault.deposits =
      Book.put .empty Sample.alice Sample.weth 0 := by decide +kernel
  have hempty : (Sample.funded.through listing).vault.deposits = .empty := by decide +kernel
  have hconfigs : (Sample.funded.through visit).vault.configs =
      (Sample.funded.through listing).vault.configs := by decide +kernel
  refine ⟨by decide +kernel, by decide +kernel, fun token => by rw [hconfigs],
    fun user token => ?_⟩
  rw [Vault.depositOf, Vault.depositOf, hdeposits, hempty, Book.amount_put]
  split <;> rfl

/-- The visit is over, and the bytes that are digested still tell of it. -/
theorem fingerprint_remembers_holders_visit :
    let visited := (Sample.funded.through visit).vault
    let untouched := (Sample.funded.through listing).vault
    Vault.start Sample.vaultAccount Sample.admin Sample.borrowModule = .ok Sample.funded.vault ∧
      visited.ReadsLike untouched ∧
      Sample.funded.HasHeld visit Sample.alice Sample.weth ∧
      ¬ Sample.funded.HasHeld listing Sample.alice Sample.weth ∧
      visited.fingerprintInput ≠ untouched.fingerprintInput := by
  intro visited untouched
  have hstart : Vault.start Sample.vaultAccount Sample.admin Sample.borrowModule =
      .ok Sample.funded.vault := rfl
  have hheld : Sample.funded.HasHeld visit Sample.alice Sample.weth :=
    ⟨visit.take 3, List.take_prefix .., by decide +kernel⟩
  have hnever : ¬ Sample.funded.HasHeld listing Sample.alice Sample.weth := by
    have hzero : ∀ earlier ∈ listing.inits,
        (Sample.funded.through earlier).vault.depositOf Sample.alice Sample.weth = 0 := by
      decide +kernel
    rintro ⟨earlier, hearlier, hpositive⟩
    exact hpositive (hzero earlier ((List.mem_inits ..).mpr hearlier))
  refine ⟨hstart, visit_readsLike, hheld, hnever, fun h => hnever ?_⟩
  have hholders := (fingerprint_remembers_holders hstart hstart visit_readsLike).1.mp h
  exact (hholders Sample.alice Sample.weth).mp hheld

/-- **Vaults that read the same need not have the same fingerprint.**  One of these has never had
a deposit, and the other has had one that is withdrawn. -/
theorem readings_not_fingerprint :
    let visited := (Sample.funded.through visit).vault
    let untouched := (Sample.funded.through listing).vault
    visited.Reached ∧ untouched.Reached ∧ visited.ReadsLike untouched ∧
      visited.fingerprint ≠ untouched.fingerprint :=
  ⟨⟨Sample.funded, Sample.vaultAccount, Sample.admin, Sample.borrowModule, visit, rfl, rfl⟩,
    ⟨Sample.funded, Sample.vaultAccount, Sample.admin, Sample.borrowModule, listing, rfl, rfl⟩,
    visit_readsLike, by decide +kernel⟩

end Protocol

end Custody
