/-
The registry of collateral stays in order.

The tokens that a vault lists stand in a list and in a table of configs.  Two paths lead into
both of them, one with a delay and one without, and while a proposal waits the other path may
list the same token or fill the list.  So what is executed is vetted once more, and vetting
is all that the invariant needs: what is listed is new, has valid parameters and still fits.

Deposits are booked under listed tokens only.  A deposit needs a config that takes deposits,
and a release needs a deposit that is there already; a token that is disabled stays listed,
and so does a token whose deposits are all gone.
-/
import Custody.Proofs.Change

namespace Custody

/-! ### Entries -/

namespace Table

variable {κ ν : Type} [Ord κ] [Std.LawfulEqOrd κ] {k : κ} {v : ν}

theorem mem_of_find {l : List (κ × ν)} (h : find k l = some v) : (k, v) ∈ l := by
  induction l with
  | nil => cases h
  | cons head rest ih =>
      obtain ⟨j, u⟩ := head
      simp only [find] at h
      split at h
      next heq =>
        obtain rfl := Std.LawfulEqOrd.eq_of_compare heq
        obtain rfl := Option.some.inj h
        simp
      next =>
        have hrest := ih h
        simp [hrest]

variable [Std.TransOrd κ]

/-- What is read is what the entries say. -/
theorem mem_entries {t : Table κ ν} : (k, v) ∈ t.entries ↔ t.get? k = some v :=
  ⟨fun h => get?_of_mem h, fun h => mem_of_find h⟩

theorem mem_keys {t : Table κ ν} : k ∈ t.keys ↔ ∃ v, t.get? k = some v := by
  simp only [keys, List.mem_map, Prod.exists, mem_entries]
  constructor
  · rintro ⟨j, u, hget, rfl⟩
    exact ⟨u, hget⟩
  · rintro ⟨u, hget⟩
    exact ⟨k, u, hget, rfl⟩

end Table

namespace Book

variable {b : Book} {x y : Address} {v : Amount}

theorem row_put (b : Book) (x y z : Address) (v : Amount) :
    row (put b x y v) z = if z = x then (row b x).insert y v else row b z := by
  simp only [row, put, Table.get?_insert]
  by_cases hz : z = x <;> simp [hz]

/-- The lines of a book are the entries of its rows. -/
theorem mem_lines : (x, y, v) ∈ lines b ↔ (row b x).get? y = some v := by
  simp only [lines, List.mem_flatMap, List.mem_map, Prod.exists, Prod.mk.injEq, Table.mem_entries]
  unfold row
  constructor
  · rintro ⟨z, r, hrow, z', v', hget, rfl, rfl, rfl⟩
    rw [hrow]
    exact hget
  · intro hget
    cases hrow : b.get? x with
    | none => simp [hrow] at hget
    | some r =>
        rw [hrow] at hget
        exact ⟨x, r, hrow, y, v, hget, rfl, rfl, rfl⟩

/-- A positive amount stands in a line. -/
theorem mem_lines_of_amount (h : b.amount x y ≠ 0) : (x, y, b.amount x y) ∈ lines b := by
  rw [mem_lines]
  unfold amount Tally.amount at h ⊢
  cases hget : (row b x).get? y with
  | none => simp [hget] at h
  | some v => rfl

/-- A line that was written is the new one or was there before. -/
theorem mem_lines_put {x' y' : Address} {v' : Amount} (h : (x', y', v') ∈ lines (put b x y v)) :
    y' = y ∨ (x', y', v') ∈ lines b := by
  rw [mem_lines, row_put] at h
  rw [mem_lines]
  by_cases hx : x' = x
  · subst hx
    rw [if_pos rfl, Table.get?_insert] at h
    by_cases hy : y' = y
    · exact .inl hy
    · rw [if_neg hy] at h
      exact .inr h
  · rw [if_neg hx] at h
    exact .inr h

end Book

/-! ### Vetted parameters -/

/-- Parameters that pass their check are in their bounds. -/
theorem CollateralParams.bounds_of_validate {params : CollateralParams}
    (h : params.validate = .ok ()) :
    (0 < params.factor ∧ params.factor < params.threshold ∧ params.threshold ≤ 9500) ∧
      100 ≤ params.penalty ∧ params.penalty ≤ 2000 := by
  unfold validate at h
  split at h
  next => cases h
  next hfactor =>
    split at h
    next => cases h
    next hordered =>
      split at h
      next => cases h
      next hthreshold =>
        split at h
        next => cases h
        next hpenalty =>
          simp only [not_or, UInt64.not_lt, UInt64.not_le] at hordered hthreshold hpenalty
          exact ⟨⟨UInt64.pos_iff_ne_zero.mpr hfactor, hordered, hthreshold⟩, hpenalty⟩

namespace Vault

variable {ctx : Context} {v w : Vault} {call : Call} {user token : Address}
  {params : CollateralParams}

/-- A token that can be listed is the address of somebody, gets valid parameters, is new and
still fits. -/
theorem checkAdd_eq_ok (h : v.checkAdd token params = .ok ()) :
    token ≠ .zero ∧ params.validate = .ok () ∧ v.added? token = none ∧
      v.listed.length < maxTokens := by
  simp only [checkAdd, Check.bind_eq_ok, Check.refuseIf_eq_ok] at h
  obtain ⟨_, htoken, _, hvalid, hnew, hfits⟩ := h
  have hlength : ¬ maxTokens ≤ v.listed.length := by
    intro hfull
    rw [if_pos hfull] at hfits
    cases hfits
  exact ⟨Address.ensureNonZero_eq_ok.mp htoken, hvalid, Option.not_isSome_iff_eq_none.mp hnew,
    Nat.not_le.mp hlength⟩

/-! ### The registry -/

/-- The list, the configs and the deposits of a vault fit together. -/
structure Registered (v : Vault) : Prop where
  nodup : v.listed.Nodup
  nonzero : Address.zero ∉ v.listed
  fits : v.listed.length ≤ maxTokens
  configured : ∀ token, token ∈ v.listed ↔ token ∈ v.configs.keys
  valid : ∀ token config, v.configs.get? token = some config → config.params.validate = .ok ()
  /-- An entry counts even if nothing is left of the deposit. -/
  deposited : ∀ user token amount, (user, token, amount) ∈ Book.lines v.deposits →
    token ∈ v.listed

namespace Registered

theorem of_start {address admin borrowModule : Address}
    (h : Vault.start address admin borrowModule = .ok v) : Registered v := by
  obtain ⟨access, -, rfl⟩ := Vault.start_ok h
  refine ⟨.nil, List.not_mem_nil, Nat.zero_le _, fun token => Iff.rfl, ?_, ?_⟩
  · intro token config hget
    cases hget
  · intro user token amount hline
    cases hline

/-- What is registered does not depend on the rest of the vault. -/
theorem of_fields (h : Registered v) (hlisted : w.listed = v.listed)
    (hconfigs : w.configs = v.configs) (hdeposits : w.deposits = v.deposits) : Registered w := by
  refine ⟨?_, ?_, ?_, ?_, ?_, ?_⟩
  · rw [hlisted]
    exact h.nodup
  · rw [hlisted]
    exact h.nonzero
  · rw [hlisted]
    exact h.fits
  · rw [hlisted, hconfigs]
    exact h.configured
  · rw [hconfigs]
    exact h.valid
  · rw [hlisted, hdeposits]
    exact h.deposited

/-- A listed token is one that is configured. -/
theorem mem_listed (h : Registered v) :
    token ∈ v.listed ↔ ∃ config, v.configs.get? token = some config := by
  rw [h.configured, Table.mem_keys]

/-- Every config counts as added, because its parameters are valid. -/
theorem isAdded (h : Registered v) {config : CollateralConfig}
    (hget : v.configs.get? token = some config) : config.isAdded = true := by
  obtain ⟨⟨hfactor, -⟩, -⟩ :=
    CollateralParams.bounds_of_validate (h.valid token config hget)
  simpa [CollateralConfig.isAdded] using hfactor

/-- A token that does not count as added is not listed. -/
theorem not_listed (h : Registered v) (hnew : v.added? token = none) : token ∉ v.listed := by
  intro hlisted
  obtain ⟨config, hget⟩ := h.mem_listed.mp hlisted
  simp [added?, hget, h.isAdded hget] at hnew

/-- A config with valid parameters may be written at any token. -/
theorem valid_insert (h : Registered v) {config : CollateralConfig}
    (hvalid : config.params.validate = .ok ()) (other : Address) (found : CollateralConfig)
    (hget : (v.configs.insert token config).get? other = some found) :
    found.params.validate = .ok () := by
  rw [Table.get?_insert] at hget
  by_cases hother : other = token
  · rw [if_pos hother, Option.some.injEq] at hget
    rw [← hget]
    exact hvalid
  · rw [if_neg hother] at hget
    exact h.valid other found hget

/-- **Listing a token that passes the check keeps the registry in order**, whichever path it
comes on. -/
theorem withToken (h : Registered v) (hchecked : v.checkAdd token params = .ok ()) :
    Registered (v.withToken token params) := by
  obtain ⟨hzero, hvalid, hnew, hlength⟩ := checkAdd_eq_ok hchecked
  have hfresh := h.not_listed hnew
  refine ⟨?_, ?_, ?_, ?_, h.valid_insert hvalid, ?_⟩
  · have hdisjoint : v.listed.Disjoint [token] := by simpa using hfresh
    exact h.nodup.append (List.nodup_singleton token) hdisjoint
  · intro hmem
    rcases List.mem_append.mp hmem with hmem | hmem
    · exact h.nonzero hmem
    · exact hzero (List.mem_singleton.mp hmem).symm
  · show (v.listed ++ [token]).length ≤ maxTokens
    rw [List.length_append, List.length_singleton]
    omega
  · intro other
    simp only [Vault.withToken, Table.mem_keys, Table.get?_insert, List.mem_append,
      List.mem_singleton, h.mem_listed]
    by_cases hother : other = token <;> simp [hother]
  · intro user other amount hline
    exact List.mem_append_left [token] (h.deposited user other amount hline)

/-- Writing another config of a listed token keeps the registry in order if its parameters are
valid. -/
theorem configure (h : Registered v) {old config : CollateralConfig}
    (hold : v.configs.get? token = some old) (hvalid : config.params.validate = .ok ()) :
    Registered { v with configs := v.configs.insert token config } := by
  refine ⟨h.nodup, h.nonzero, h.fits, ?_, h.valid_insert hvalid, h.deposited⟩
  intro other
  simp only [Table.mem_keys, Table.get?_insert, h.mem_listed]
  by_cases hother : other = token
  · simp [hother, hold]
  · simp [hother]

/-- A deposit of a listed token may be written. -/
theorem putDeposit (h : Registered v) (hlisted : token ∈ v.listed) (deposit total : Amount) :
    Registered (v.putDeposit user token deposit total) := by
  refine ⟨h.nodup, h.nonzero, h.fits, h.configured, h.valid, ?_⟩
  intro other t amount hline
  rcases Book.mem_lines_put hline with rfl | hbefore
  · exact hlisted
  · exact h.deposited other t amount hbefore

end Registered

/-- **Administration keeps the registry in order.** -/
theorem Amended.registered (h : Amended ctx v w call) (hv : Registered v) : Registered w := by
  cases h with
  | @requested _ knob _ _ _ _ hw | @cancelled _ knob _ _ _ hw =>
      subst hw
      cases knob <;> exact hv.of_fields rfl rfl rfl
  | @executed _ knob c _ _ _ _ hvetted hw =>
      subst hw
      cases knob with
      | addCollateral token => exact (hv.withToken hvetted).of_fields rfl rfl rfl
      | updateCollateral token =>
          simp only [vet, checkUpdate, Check.bind_eq_ok, Check.discard_eq_ok,
            requireAdded_eq_ok] at hvetted
          obtain ⟨_, ⟨config, hconfig⟩, hvalid⟩ := hvetted
          have hget := get?_of_added hconfig
          simp only [enforce, hget]
          exact (hv.configure hget hvalid).of_fields rfl rfl rfl
      | borrowModule => exact hv.of_fields rfl rfl rfl
  | added _ hchecked hw =>
      subst hw
      exact (hv.withToken hchecked).of_fields rfl rfl rfl
  | @switched _ token config enabled _ _ hconfig hw =>
      subst hw
      have hget := get?_of_added hconfig
      have hvalid : ({ config with enabled := enabled } : CollateralConfig).params.validate =
          .ok () := hv.valid token config hget
      exact (hv.configure hget hvalid).of_fields rfl rfl rfl
  | granted _ hw | revoked _ hw | paused _ hw | unpaused _ hw =>
      subst hw
      exact hv.of_fields rfl rfl rfl

/-- **Every change of a vault keeps the registry in order.** -/
theorem Change.registered (h : v.Change w) (hv : Registered v) : Registered w := by
  cases h with
  | kept hcopy =>
      have hlisted : w.copy.listed = v.copy.listed := by rw [hcopy]
      have hconfigs : w.copy.configs = v.copy.configs := by rw [hcopy]
      have hdeposits : w.copy.deposits = v.copy.deposits := by rw [hcopy]
      exact hv.of_fields hlisted hconfigs hdeposits
  | @deposited user token _ deposit total _ _ _ henabled _ _ _ hw =>
      subst hw
      have hlisted : token ∈ v.listed := by
        unfold ensureEnabled at henabled
        split at henabled
        next => cases henabled
        next config hget => exact hv.mem_listed.mpr ⟨config, hget⟩
      exact (hv.putDeposit hlisted deposit total).of_fields rfl rfl rfl
  | @released user token amount total _ _ hpositive _ hcovered _ hw =>
      subst hw
      -- What is released was deposited, so there is an entry for it.
      have hdeposit : v.depositOf user token ≠ 0 := by
        intro hzero
        refine hpositive (Amount.eq_zero_iff.mpr ?_)
        rw [hzero, Amount.le_def, Amount.val_zero] at hcovered
        omega
      have hlisted := hv.deposited user token _ (Book.mem_lines_of_amount hdeposit)
      exact (hv.putDeposit hlisted _ total).of_fields rfl rfl rfl
  | amended hamended => exact hamended.registered hv

end Vault

namespace Protocol

variable {p : Protocol}

/-! ### Every history -/

theorem next_listed (p : Protocol) (episode : Episode) :
    p.vault.listed <+: (p.next episode).vault.listed := by
  rcases p.next_force episode with hsame | ⟨_, knob, value, -, hforce⟩
  · rw [hsame.listed]
  · rw [hforce.listed]
    rcases p.vault.listed_enforce knob value with heq | ⟨token, -, heq⟩
    · rw [heq]
    · rw [heq]
      exact List.prefix_append _ _

/-- The list of tokens grows at its end. -/
theorem through_listed (episodes : List Episode) : ∀ p : Protocol,
    p.vault.listed <+: (p.through episodes).vault.listed := by
  induction episodes with
  | nil => intro p; exact List.prefix_refl _
  | cons episode rest ih =>
      intro p
      exact (p.next_listed episode).trans (ih (p.next episode))

/-- What is listed, configured and deposited fits together after every history. -/
theorem through_registered {address admin borrowModule : Address}
    (hstart : Vault.start address admin borrowModule = .ok p.vault) (episodes : List Episode) :
    (p.through episodes).vault.Registered :=
  through_induction (fun hchange h => hchange.registered h) (fun h => h.of_fields rfl rfl rfl)
    episodes p (.of_start hstart)

/-- **The registry of collateral is in order after every history.**  No token is listed twice,
none is the address of nobody, and there are at most fifty; the listed tokens are those with a
config, and every config has valid parameters; every deposit on record is of a listed token;
and what follows can only add tokens at the end of the list. -/
theorem registry_in_order {address admin borrowModule : Address}
    (hstart : Vault.start address admin borrowModule = .ok p.vault) (episodes : List Episode) :
    let v := (p.through episodes).vault
    (v.listed.Nodup ∧ Address.zero ∉ v.listed ∧ v.listed.length ≤ 50) ∧
      (∀ token, token ∈ v.listed ↔ token ∈ v.configs.keys) ∧
      (∀ token config, v.configs.get? token = some config →
        config.params.validate = .ok () ∧
          (0 < config.params.factor ∧ config.params.factor < config.params.threshold ∧
            config.params.threshold ≤ 9500) ∧
          100 ≤ config.params.penalty ∧ config.params.penalty ≤ 2000) ∧
      (∀ user token amount, (user, token, amount) ∈ Book.lines v.deposits →
        token ∈ v.listed) ∧
      ∀ later, v.listed <+: ((p.through episodes).through later).vault.listed := by
  intro v
  have hregistered : v.Registered := through_registered hstart episodes
  refine ⟨⟨hregistered.nodup, hregistered.nonzero, hregistered.fits⟩, hregistered.configured,
    ?_, hregistered.deposited, fun later => through_listed later _⟩
  intro token config hget
  have hvalid := hregistered.valid token config hget
  exact ⟨hvalid, CollateralParams.bounds_of_validate hvalid⟩

/-- Two tokens are proposed.  Governance lists the first one before its time has come, so its
proposal is stale when it is executed; the token is disabled once it has a deposit. -/
def listings : List Episode :=
  [.submitted Sample.admin (.grantVaultRole .vaultAdmin Sample.admin),
    .submitted Sample.admin (.grantVaultRole .governance Sample.admin),
    .direct ⟨Sample.admin, 0⟩ (.requestAdd Sample.weth ⟨9000, 9500, 2000⟩),
    .direct ⟨Sample.admin, 0⟩ (.requestAdd Sample.wbtc ⟨7000, 8000, 500⟩),
    .submitted Sample.admin (.addCollateral Sample.weth ⟨7500, 8000, 500⟩),
    .submitted Sample.alice (.deposit Sample.weth Sample.unit),
    .direct ⟨Sample.admin, changeDelay⟩ (.executeAdd Sample.weth),
    .direct ⟨Sample.admin, changeDelay⟩ (.disable Sample.weth)]

/-- The stale proposal left the first token as governance had listed it; the second token follows
when its own proposal is executed. -/
theorem registry_in_order_listings :
    let v := (Sample.funded.through listings).vault
    let later := [Episode.direct ⟨Sample.admin, changeDelay⟩ (.executeAdd Sample.wbtc)]
    Vault.start Sample.vaultAccount Sample.admin Sample.borrowModule = .ok Sample.funded.vault ∧
      v.listed = [Sample.weth] ∧
      v.configs.get? Sample.weth = some ⟨false, 7500, 8000, 500⟩ ∧
      v.depositOf Sample.alice Sample.weth ≠ 0 ∧
      ((Sample.funded.through listings).through later).vault.listed =
        [Sample.weth, Sample.wbtc] ∧
      v.listed <+: ((Sample.funded.through listings).through later).vault.listed := by
  have hstart : Vault.start Sample.vaultAccount Sample.admin Sample.borrowModule =
      .ok Sample.funded.vault := rfl
  obtain ⟨-, -, -, -, hgrows⟩ := registry_in_order hstart listings
  exact ⟨hstart, by decide +kernel, by decide +kernel, by decide +kernel, by decide +kernel,
    hgrows _⟩

end Protocol

end Custody
