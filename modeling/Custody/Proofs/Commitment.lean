/-
A fingerprint commits to the configuration and to all deposits.

What is digested has no lengths and no separators.  A listed token takes 45 bytes and a line of
the deposits 56, so a string of bytes could be cut in more than one way, and nothing in it says
where the tokens end.  Two things say it from outside.  Every listed token has a config, without
which its record would be shorter, and no more than fifty tokens are listed.  Two cuts of one
string differ by a number of tokens whose bytes are whole lines, that is by a multiple of 56
tokens.  So there is one cut.

The lines list what is in the rows of the book.  That they give back the book as it is stored
needs one thing more, that no account has an empty row.
-/
import Mathlib.Algebra.Group.Action.Defs
import Custody.Fingerprint
import Custody.Proofs.Binary
import Custody.Proofs.Listing
import Custody.Proofs.Reached

namespace Custody

/-! ### Records of one width -/

/-- Records of one width are read back from where one stands after the other. -/
private theorem eq_of_flatten_eq {α : Type} {width : Nat} (hpositive : 0 < width) :
    ∀ {records records' : List (List α)}, (∀ r ∈ records, r.length = width) →
      (∀ r ∈ records', r.length = width) → records.flatten = records'.flatten →
      records = records' := by
  intro records
  induction records with
  | nil =>
      intro records' _ hwidth' h
      cases records' with
      | nil => rfl
      | cons r rest =>
          have hr : r = [] := (List.append_eq_nil_iff.mp h.symm).1
          have hlength := hwidth' r List.mem_cons_self
          rw [hr, List.length_nil] at hlength
          omega
  | cons r rest ih =>
      intro records' hwidth hwidth' h
      have hr := hwidth r List.mem_cons_self
      cases records' with
      | nil =>
          rw [(List.append_eq_nil_iff.mp h).1, List.length_nil] at hr
          omega
      | cons r' rest' =>
          have hlength : r.length = r'.length := hr.trans (hwidth' r' List.mem_cons_self).symm
          obtain ⟨rfl, hrest⟩ := List.append_inj h hlength
          rw [ih (fun s hs => hwidth s (List.mem_cons_of_mem r hs))
            (fun s hs => hwidth' s (List.mem_cons_of_mem r hs)) hrest]

private theorem length_flatMap_of_width {α β : Type} {f : α → List β}
    {width : Nat} {l : List α}
    (h : ∀ x ∈ l, (f x).length = width) : (l.flatMap f).length = l.length * width := by
  rw [List.length_flatMap, List.map_congr_left h, List.map_const', List.sum_replicate,
    smul_eq_mul]

/-- What is cut off in records of 45 bytes, fifty at most, and in records of 56 bytes is cut off
in one way. -/
private theorem one_cut {n n' m m' : Nat} (hn : n ≤ 50) (hn' : n' ≤ 50)
    (h : n * 45 + m * 56 = n' * 45 + m' * 56) : n = n' := by
  omega

/-! ### The parts of a fingerprint -/

theorem length_bigEndian (width n : Nat) : (bigEndian width n).length = width := by
  rw [bigEndian, List.length_reverse, Binary.length_littleEndian]

theorem bigEndian_inj {width n m : Nat} (hn : n < 256 ^ width) (hm : m < 256 ^ width)
    (h : bigEndian width n = bigEndian width m) : n = m := by
  have hbytes := List.reverse_inj.mp h
  rw [← Binary.ofLittleEndian_littleEndian hn, hbytes, Binary.ofLittleEndian_littleEndian hm]

theorem Address.bytes_injective : Function.Injective Address.bytes := by
  rintro ⟨bytes, _⟩ ⟨bytes', _⟩ rfl
  rfl

private theorem word_inj {n m : UInt64} (h : bigEndian 8 n.toNat = bigEndian 8 m.toNat) : n = m :=
  UInt64.toNat_inj.mp (bigEndian_inj n.toNat_lt m.toNat_lt h)

namespace CollateralConfig

theorem length_fingerprint (c : CollateralConfig) : c.fingerprint.length = 25 := by
  simp only [fingerprint, List.length_append, List.length_cons, length_bigEndian]

theorem fingerprint_injective : Function.Injective fingerprint := by
  intro c d h
  obtain ⟨h, hpenalty⟩ := List.append_inj' h (by simp only [length_bigEndian])
  obtain ⟨h, hthreshold⟩ := List.append_inj' h (by simp only [length_bigEndian])
  obtain ⟨henabled, hfactor⟩ := List.cons.inj h
  obtain ⟨enabled, factor, threshold, penalty⟩ := c
  obtain ⟨enabled', factor', threshold', penalty'⟩ := d
  obtain rfl : factor = factor' := word_inj hfactor
  obtain rfl : threshold = threshold' := word_inj hthreshold
  obtain rfl : penalty = penalty' := word_inj hpenalty
  have hflag : ∀ b b' : Bool,
      (if b then 1 else 0 : UInt8) = (if b' then 1 else 0) → b = b' := by
    decide
  rw [hflag enabled enabled' henabled]

end CollateralConfig

namespace Vault

variable {v w : Vault} {token : Address}

theorem length_depositFingerprint (line : Address × Address × Amount) :
    (depositFingerprint line).length = 56 := by
  simp only [depositFingerprint, List.length_append, length_bigEndian, Address.size]

theorem depositFingerprint_injective : Function.Injective depositFingerprint := by
  rintro ⟨user, token, amount⟩ ⟨user', token', amount'⟩ h
  obtain ⟨h, hamount⟩ := List.append_inj' h (by simp only [length_bigEndian])
  obtain ⟨huser, htoken⟩ := List.append_inj h (by simp only [Address.size])
  have hsize : Amount.size = 256 ^ 16 := by decide
  obtain rfl : user = user' := Address.bytes_injective huser
  obtain rfl : token = token' := Address.bytes_injective htoken
  obtain rfl : amount = amount' :=
    Amount.ext (bigEndian_inj (hsize ▸ amount.isLt) (hsize ▸ amount'.isLt) hamount)
  rfl

/-- Without a config the record of a token would be shorter. -/
theorem length_tokenFingerprint {config : CollateralConfig}
    (h : v.configs.get? token = some config) : (v.tokenFingerprint token).length = 45 := by
  simp only [tokenFingerprint, h, Option.map_some, Option.getD_some, List.length_append,
    Address.size, config.length_fingerprint]

/-- The records of tokens tell which tokens are listed, in their order. -/
theorem listed_of_records
    (h : v.listed.map v.tokenFingerprint = w.listed.map w.tokenFingerprint) :
    v.listed = w.listed := by
  have hfront : ∀ {u : Vault}, (u.listed.map u.tokenFingerprint).map (List.take 20) =
      u.listed.map Address.bytes := by
    intro u
    rw [List.map_map]
    exact List.map_congr_left fun token _ => List.take_left' token.size
  have hbytes := congrArg (List.map (List.take 20)) h
  rw [hfront, hfront] at hbytes
  exact List.map_injective_iff.mpr Address.bytes_injective hbytes

/-- After the token its record is that of its config. -/
theorem config_of_record {config config' : CollateralConfig}
    (hconfig : v.configs.get? token = some config) (hconfig' : w.configs.get? token = some config')
    (h : v.tokenFingerprint token = w.tokenFingerprint token) : config = config' := by
  simp only [tokenFingerprint, hconfig, hconfig', Option.map_some, Option.getD_some] at h
  exact CollateralConfig.fingerprint_injective (List.append_cancel_left h)

end Vault

/-! ### Books without empty rows -/

namespace Book

variable {b c : Book} {x y : Address} {v : Amount}

/-- Every account that is listed has an entry. -/
def Filled (b : Book) : Prop := ∀ x, b.get? x ≠ some .empty

theorem filled_empty : Filled .empty := nofun

theorem Filled.put (h : b.Filled) : (put b x y v).Filled := by
  intro z hempty
  rw [Book.put, Table.get?_insert] at hempty
  by_cases hz : z = x
  · rw [if_pos hz, Option.some.injEq] at hempty
    have hget : (Table.insert (b.row x) y v).get? y = some v := by
      rw [Table.get?_insert, if_pos rfl]
    rw [hempty] at hget
    cases hget
  · rw [if_neg hz] at hempty
    exact h z hempty

/-- Then an account is listed exactly if its row has an entry. -/
theorem Filled.get?_eq (h : b.Filled) (x : Address) :
    b.get? x = if b.row x = .empty then none else some (b.row x) := by
  unfold row
  cases hget : b.get? x with
  | none => rfl
  | some r =>
      have hr : r ≠ .empty := fun hempty => h x (hempty ▸ hget)
      rw [Option.getD_some, if_neg hr]

/-- Without empty rows a book is given by its rows. -/
theorem eq_of_rows (hb : b.Filled) (hc : c.Filled) (h : ∀ x, row b x = row c x) : b = c := by
  refine Table.ext_get? fun x => ?_
  rw [hb.get?_eq, hc.get?_eq, h]

/-- Without empty rows a book is given by its lines. -/
theorem eq_of_lines (hb : b.Filled) (hc : c.Filled) (h : lines b = lines c) : b = c := by
  refine eq_of_rows hb hc fun x => Table.ext_get? fun y => Option.ext fun v => ?_
  rw [← mem_lines, ← mem_lines, h]

end Book

namespace Vault

variable {v w : Vault}

/-- **No change leaves an empty row**, because what is withdrawn leaves an entry of zero. -/
theorem Change.filled (h : v.Change w) (hv : Book.Filled v.deposits) : Book.Filled w.deposits := by
  cases h with
  | kept hcopy =>
      show Book.Filled w.copy.deposits
      rw [hcopy]
      exact hv
  | deposited _ _ _ _ _ hw | released _ _ _ _ hw =>
      rw [hw]
      exact hv.put
  | amended hamended =>
      rw [hamended.books.deposits]
      exact hv

theorem Reached.filled (h : v.Reached) : Book.Filled v.deposits := by
  obtain ⟨p, address, admin, borrowModule, episodes, hstart, rfl⟩ := h
  have hkept : ∀ {v w : Vault}, v.Change w → Book.Filled v.deposits →
      Book.Filled w.deposits :=
    fun hchange h => hchange.filled h
  refine Protocol.through_induction hkept id episodes p ?_
  rw [(blank_of_start hstart).deposits]
  exact Book.filled_empty

/-! ### The whole fingerprint -/

namespace Registered

theorem length_tokenFingerprint (h : v.Registered) {token : Address}
    (hlisted : token ∈ v.listed) :
    (v.tokenFingerprint token).length = 45 := by
  obtain ⟨config, hconfig⟩ := h.mem_listed.mp hlisted
  exact Vault.length_tokenFingerprint hconfig

theorem length_tokens (h : v.Registered) :
    (v.listed.flatMap v.tokenFingerprint).length = v.listed.length * 45 :=
  length_flatMap_of_width fun _ hlisted => h.length_tokenFingerprint hlisted

theorem length_fingerprintInput (h : v.Registered) :
    v.fingerprintInput.length =
      20 + (v.listed.length * 45 + (Book.lines v.deposits).length * 56) := by
  rw [fingerprintInput, List.append_assoc, List.length_append, List.length_append, h.length_tokens,
    length_flatMap_of_width fun line _ => length_depositFingerprint line, Address.size]

/-- **Equal bytes are cut in one way**, into the borrow module, the records of tokens and the
lines of the deposits. -/
theorem cut (hv : v.Registered) (hw : w.Registered) (h : v.fingerprintInput = w.fingerprintInput) :
    v.borrowModule = w.borrowModule ∧
      v.listed.map v.tokenFingerprint = w.listed.map w.tokenFingerprint ∧
      Book.lines v.deposits = Book.lines w.deposits := by
  have hcount : v.listed.length = w.listed.length := by
    have hbytes := congrArg List.length h
    rw [hv.length_fingerprintInput, hw.length_fingerprintInput] at hbytes
    exact one_cut hv.fits hw.fits (Nat.add_left_cancel hbytes)
  rw [fingerprintInput, fingerprintInput, List.append_assoc, List.append_assoc] at h
  obtain ⟨hmodule, h⟩ := List.append_inj h (by simp only [Address.size])
  obtain ⟨htokens, hlines⟩ :=
    List.append_inj h (by rw [hv.length_tokens, hw.length_tokens, hcount])
  rw [List.flatMap_def, List.flatMap_def] at htokens hlines
  refine ⟨Address.bytes_injective hmodule, ?_, ?_⟩
  · refine eq_of_flatten_eq (by decide : 0 < 45) ?_ ?_ htokens
    · exact List.forall_mem_map.mpr fun _ => hv.length_tokenFingerprint
    · exact List.forall_mem_map.mpr fun _ => hw.length_tokenFingerprint
  · have hrecords := eq_of_flatten_eq (by decide : 0 < 56)
      (List.forall_mem_map.mpr fun line _ => length_depositFingerprint line)
      (List.forall_mem_map.mpr fun line _ => length_depositFingerprint line) hlines
    exact (List.map_inj_right fun _ _ h => depositFingerprint_injective h).mp hrecords

/-- A token that is not listed has no config. -/
theorem get?_eq_none (h : v.Registered) {token : Address} (htoken : token ∉ v.listed) :
    v.configs.get? token = none := by
  by_contra hsome
  exact htoken (h.mem_listed.mpr (Option.ne_none_iff_exists'.mp hsome))

/-- In vaults with the same records of tokens the same configs are stored. -/
theorem configs_of_records (hv : v.Registered) (hw : w.Registered)
    (h : v.listed.map v.tokenFingerprint = w.listed.map w.tokenFingerprint) :
    v.configs = w.configs := by
  have hlisted := listed_of_records h
  rw [← hlisted, List.map_inj_left] at h
  refine Table.ext_get? fun token => ?_
  by_cases htoken : token ∈ v.listed
  · obtain ⟨config, hconfig⟩ := hv.mem_listed.mp htoken
    obtain ⟨config', hconfig'⟩ := hw.mem_listed.mp (hlisted ▸ htoken)
    rw [hconfig, hconfig', config_of_record hconfig hconfig' (h token htoken)]
  · rw [hv.get?_eq_none htoken, hw.get?_eq_none (hlisted ▸ htoken)]

end Registered

/-- **A fingerprint commits to the configuration and to all deposits.**  Two vaults that have a
history give the same bytes to be digested exactly if they have the same borrow module, list the
same tokens in the same order, store the same configs and have the same deposits on record,
entries of zero included. -/
theorem fingerprint_commits (hv : v.Reached) (hw : w.Reached) :
    v.fingerprintInput = w.fingerprintInput ↔
      v.borrowModule = w.borrowModule ∧ v.listed = w.listed ∧ v.configs = w.configs ∧
        v.deposits = w.deposits := by
  constructor
  · intro h
    obtain ⟨hmodule, hrecords, hlines⟩ := hv.registered.cut hw.registered h
    exact ⟨hmodule, listed_of_records hrecords,
      hv.registered.configs_of_records hw.registered hrecords,
      Book.eq_of_lines hv.filled hw.filled hlines⟩
  · rintro ⟨hmodule, hlisted, hconfigs, hdeposits⟩
    unfold fingerprintInput tokenFingerprint
    rw [hmodule, hlisted, hconfigs, hdeposits]

/-- The vault after the short history and some more of it. -/
def dealt (later : List Episode) : Vault := (Sample.funded.through (Sample.dealings ++ later)).vault

theorem dealt_reached (later : List Episode) : (dealt later).Reached :=
  ⟨Sample.funded, Sample.vaultAccount, Sample.admin, Sample.borrowModule,
    Sample.dealings ++ later, rfl, rfl⟩

/-- A pause and another role change the vault and not its fingerprint.  A config that is disabled
changes both. -/
theorem fingerprint_commits_dealt :
    let v := dealt []
    let paused := dealt [.submitted Sample.admin (.grantVaultRole .pauser Sample.admin),
      .pausing ⟨Sample.admin, 0⟩ true]
    let disabled := dealt [.submitted Sample.admin (.grantVaultRole .vaultAdmin Sample.admin),
      .submitted Sample.admin (.disable Sample.weth)]
    v.Reached ∧ paused.Reached ∧ disabled.Reached ∧
      (paused.paused ≠ v.paused ∧ paused.fingerprintInput = v.fingerprintInput) ∧
      (disabled.listed = v.listed ∧ disabled.deposits = v.deposits ∧
        disabled.fingerprintInput ≠ v.fingerprintInput) := by
  intro v paused disabled
  have hv : v.Reached := dealt_reached []
  have hpaused : paused.Reached := dealt_reached _
  have hdisabled : disabled.Reached := dealt_reached _
  refine ⟨hv, hpaused, hdisabled, ⟨by decide +kernel, ?_⟩, by decide +kernel,
    by decide +kernel, ?_⟩
  · exact (fingerprint_commits hpaused hv).mpr (by decide +kernel)
  · intro h
    obtain ⟨-, -, hconfigs, -⟩ := (fingerprint_commits hdisabled hv).mp h
    exact absurd hconfigs (by decide +kernel)

end Vault

end Custody
