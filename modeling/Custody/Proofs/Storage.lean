/-
A stored component is read back.

The vault and the engine are stored field by field, and every field is made of numbers, flags,
texts, addresses, lists and tables.  Each of these is read back by itself, so what is left is to
follow the fields of each record in the order in which they are written.

Two things are not in the bytes.  A guard is not written, and what is read has a guard of its own
that nobody has entered.  And the roles are written in whatever order their members are listed,
so the bytes of one vault are not unique; any of them will do.

A length that is written has eight bytes, so lists have to be shorter than a word counts.  That is
no condition on a component that lives in memory, and it is shown of what a history reaches: an
episode writes one entry at most.
-/
import Custody.Binary.Records
import Custody.Proofs.Binary
import Custody.Proofs.Extent

namespace Custody

open Binary

/-! ### Parameters and proposals -/

theorem kept_params (p : CollateralParams) : Kept p := by
  show Reads decode (encode p.factor ++ encode p.threshold ++ encode p.penalty) p
  rw [List.append_assoc]
  exact reads_bind (kept_word _) (reads_bind (kept_word _) (reads_last (kept_word _)))

theorem kept_config (c : CollateralConfig) : Kept c :=
  reads_bind (kept_flag _) (reads_last (kept_params _))

theorem kept_sizing (p : LiquidationParams) : Kept p :=
  reads_bind (kept_word _) (reads_last (kept_word _))

section

variable {α κ : Type} [Binary α] [Binary κ] [Ord κ] [Std.TransOrd κ] [Std.LawfulEqOrd κ]

theorem kept_pending (h : ∀ a : α, Kept a) (c : PendingChange α) : Kept c :=
  reads_bind (h _) (reads_last (kept_word _))

theorem kept_slot (h : ∀ a : α, Kept a) {s : Timelock.Slot α}
    (hname : Countable (Hex.textBytes s.knob).length) : Kept s :=
  reads_bind (kept_text hname) (reads_last (kept_option fun c _ => kept_pending h c))

theorem kept_queue (hkey : ∀ k : κ, Kept k) (hvalue : ∀ a : α, Kept a)
    {q : Timelock.Queue κ α}
    (hname : Countable (Hex.textBytes q.knob).length) (hsize : Countable q.entries.size) :
    Kept q := by
  refine reads_bind (kept_text hname) (reads_last (kept_table hsize fun e _ => ?_))
  exact ⟨hkey e.1, kept_pending hvalue e.2⟩

end

/-! ### Events -/

theorem kept_knob (knob : Knob) : Kept knob := by
  cases knob with
  | addCollateral | updateCollateral =>
      exact reads_position (by decide) (reads_last (kept_address _))
  | borrowModule => exact fun _ => rfl

/-- **Every event is read back**: its position tells which fields follow. -/
theorem kept_event (event : Event) : Kept event := by
  show Reads Event.reader event.bytes event
  cases event <;> simp only [Event.bytes, List.append_assoc] <;>
    refine reads_position (by decide) ?_
  case deposited | withdrawn =>
    refine reads_bind (kept_address _) (reads_bind (kept_address _) ?_)
    exact reads_last (kept_amount _)
  case depositedFor =>
    refine reads_bind (kept_address _) (reads_bind (kept_address _) ?_)
    exact reads_bind (kept_address _) (reads_last (kept_amount _))
  case withdrawnFor =>
    refine reads_bind (kept_address _) (reads_bind (kept_address _) ?_)
    refine reads_bind (kept_address _) (reads_bind (kept_amount _) ?_)
    exact reads_bind (kept_address _) (reads_last (kept_flag _))
  case seized =>
    refine reads_bind (kept_address _) (reads_bind (kept_address _) ?_)
    exact reads_bind (kept_amount _) (reads_last (kept_address _))
  case liquidated =>
    refine reads_bind (kept_address _) (reads_bind (kept_address _) ?_)
    refine reads_bind (kept_address _) (reads_bind (kept_amount _) ?_)
    exact reads_last (kept_amount _)
  case badDebtRecorded | badDebtSocialized =>
    exact reads_bind (kept_address _) (reads_bind (kept_amount _) (reads_last (kept_amount _)))
  case liquidationParamsUpdated => exact reads_bind (kept_word _) (reads_last (kept_word _))
  case adminChangeRequested =>
    exact reads_bind (kept_knob _) (reads_bind (kept_word _) (reads_last (kept_word _)))
  case adminChangeCancelled => exact reads_last (kept_knob _)
  case collateralConfigured =>
    exact reads_bind (kept_address _) (reads_bind (kept_params _) (reads_last (kept_flag _)))
  case borrowModuleChanged => exact reads_bind (kept_address _) (reads_last (kept_address _))
  case collateralStatusChanged => exact reads_bind (kept_address _) (reads_last (kept_flag _))
  case roleGranted | roleRevoked => exact reads_bind (kept_role _) (reads_last (kept_address _))
  case pauseChanged => exact reads_bind (kept_flag _) (reads_last (kept_address _))

theorem kept_entry (e : LogEntry) : Kept e := by
  show Reads decode (encode e.sequence ++ encode e.timestamp ++ encode e.event) e
  rw [List.append_assoc]
  exact reads_bind (kept_word _) (reads_bind (kept_word _) (reads_last (kept_event _)))

theorem kept_log {log : EventLog} (hsize : Countable log.entries.size) : Kept log := by
  have hentries : Kept log.entries := kept_array hsize fun e _ => kept_entry e
  show Reads decode (encode log.next ++ encode log.entries ++ encode log.limit) log
  rw [List.append_assoc]
  exact reads_bind (kept_word _) (reads_bind hentries (reads_last (kept_word _)))

/-! ### Roles, bad debt and statistics -/

/-- The members of roles, listed in any order. -/
theorem reads_access {a : Access} {listing : Listing} (horder : listing.Perm a.members.entries)
    {n : Nat} (hfits : a.members.Fits n) (hn : Countable n) :
    Reads Access.reader (encode listing) a := by
  refine reads_last (reads_table horder (Nat.lt_of_le_of_lt hfits.size hn) ?_)
  rintro ⟨role, held⟩ hentry
  have hheld : held.size ≤ n := hfits.rows role held (Table.mem_entries.mp hentry)
  exact ⟨kept_role role, kept_set (Nat.lt_of_le_of_lt hheld hn) fun a _ => kept_address a⟩

theorem kept_tally {t : Tally} (hsize : Countable t.size) : Kept t :=
  kept_table hsize fun e _ => ⟨kept_address e.1, kept_amount e.2⟩

theorem kept_book {b : Book} {n : Nat} (hfits : Table.Fits n b) (hn : Countable n) : Kept b := by
  refine kept_table (Nat.lt_of_le_of_lt hfits.size hn) ?_
  rintro ⟨user, row⟩ hentry
  have hrow : row.size ≤ n := hfits.rows user row (Table.mem_entries.mp hentry)
  exact ⟨kept_address user, kept_tally (Nat.lt_of_le_of_lt hrow hn)⟩

theorem kept_badDebt {b : BadDebt} (hsize : Countable b.records.size) : Kept b :=
  reads_bind (kept_amount _) (reads_last (kept_tally hsize))

theorem kept_statistics (s : Statistics) : Kept s := by
  show Reads decode (encode s.liquidations ++ encode s.debtRepaid ++ encode s.capped
    ++ encode s.socialized) s
  rw [List.append_assoc, List.append_assoc]
  refine reads_bind (kept_word _) (reads_bind (kept_amount _) ?_)
  exact reads_bind (kept_word _) (reads_last (kept_amount _))

/-! ### The components -/

/-- The limit of a log is a word. -/
theorem EventLog.Fits.countable {log : EventLog} {n : Nat} (h : log.Fits n) (hn : Countable n) :
    Countable log.entries.size :=
  Nat.lt_of_le_of_lt h (max_lt hn log.limit.toNat_lt)

/-- **A stored vault is read back**, whatever the order of its roles. -/
theorem Vault.read_bytesWith {v : Vault} {n : Nat} (h : v.Fits n) (hn : Countable n)
    {listing : Listing} (horder : listing.Perm v.access.members.entries) :
    Binary.read (v.bytesWith listing) = .ok v.copy := by
  have hcountable : ∀ {m : Nat}, m ≤ n → Countable m := fun hle => Nat.lt_of_le_of_lt hle hn
  have hnames : ∀ name ∈ v.knobNames, Countable (Hex.textBytes name).length :=
    fun name hname => hcountable (h.names name hname)
  simp only [knobNames, List.forall_mem_cons] at hnames
  obtain ⟨hadds, hupdates, hmodule, -⟩ := hnames
  have hconfigs : Kept v.configs :=
    kept_table (hcountable h.configs) fun e _ => ⟨kept_address e.1, kept_config e.2⟩
  have hlisted : Kept v.listed :=
    kept_list (hcountable h.listed) fun token _ => kept_address token
  refine read_of_reads ?_
  show Reads Vault.reader (v.bytesWith listing) v.copy
  simp only [bytesWith, List.append_assoc]
  refine reads_bind (kept_address _) (reads_bind (reads_access horder h.members hn) ?_)
  refine reads_bind (kept_address _) (reads_bind hconfigs (reads_bind hlisted ?_))
  refine reads_bind (kept_book h.deposits hn) (reads_bind (kept_tally (hcountable h.totals)) ?_)
  refine reads_bind (kept_queue kept_address kept_params hadds (hcountable h.adds)) ?_
  refine reads_bind (kept_queue kept_address kept_params hupdates (hcountable h.updates)) ?_
  refine reads_bind (kept_slot kept_address hmodule) (reads_bind (kept_flag _) ?_)
  exact reads_last (kept_log (h.events.countable hn))

/-- **A stored engine is read back**, whatever the order of its roles. -/
theorem Engine.read_bytesWith {e : Engine} {n : Nat} (h : e.Fits n) (hn : Countable n)
    {listing : Listing} (horder : listing.Perm e.access.members.entries) :
    Binary.read (e.bytesWith listing) = .ok e.copy := by
  refine read_of_reads ?_
  show Reads Engine.reader (e.bytesWith listing) e.copy
  simp only [bytesWith, List.append_assoc]
  refine reads_bind (kept_address _) (reads_bind (kept_address _) ?_)
  refine reads_bind (reads_access horder h.members hn) (reads_bind (kept_sizing _) ?_)
  refine reads_bind (kept_badDebt (Nat.lt_of_le_of_lt h.records hn)) ?_
  refine reads_bind (kept_statistics _) (reads_bind (kept_flag _) ?_)
  exact reads_last (kept_log (h.events.countable hn))

/-! ### Histories -/

/-- The longest list whose length eight bytes can say. -/
def Binary.longest : Nat := UInt64.size - 1

namespace Protocol

/-- **A stored component is read back.**  Every vault and every engine whose lists are no longer
than eight bytes can say has bytes, in whatever order its roles are listed, and from these it is
read with every field as it was and a guard that nobody has entered.  A vault and an engine that
began new are like that after every history of fewer than two to the sixty-third episodes, with
calls made directly or as transactions, answered or refused. -/
theorem stored_component_read_back {p q : Protocol}
    {address admin borrowModule account debtToken governor : Address} {params : LiquidationParams}
    (hvault : Vault.start address admin borrowModule = .ok p.vault)
    (hengine : Engine.start account debtToken governor params = .ok q.engine)
    (episodes : List Episode) (reckonings : List EngineEpisode) :
    (∀ (v : Vault) (listing : Listing), v.Fits longest →
      listing.Perm v.access.members.entries →
        Binary.read (v.bytesWith listing) = .ok { v with guard := .free }) ∧
      (∀ (e : Engine) (listing : Listing), e.Fits longest →
        listing.Perm e.access.members.entries →
        Binary.read (e.bytesWith listing) = .ok { e with guard := .free }) ∧
      (episodes.length < 2 ^ 63 → (p.through episodes).vault.Fits longest) ∧
      (reckonings.length < 2 ^ 63 → (q.engineThrough reckonings).engine.Fits longest) := by
  have hlongest : Countable longest := by decide
  refine ⟨fun v listing hfits horder => v.read_bytesWith hfits hlongest horder,
    fun e listing hfits horder => e.read_bytesWith hfits hlongest horder, fun hfew => ?_,
    fun hfew => ?_⟩
  · refine (fits_through (Vault.fits_of_start hvault) episodes).mono ?_
    have : 17 + 2 ^ 63 ≤ longest := by decide
    omega
  · refine (fits_engineThrough (Engine.fits_of_start hengine) reckonings).mono ?_
    have : 1 + 2 ^ 63 ≤ longest := by decide
    omega

/-- A vault with deposits and a proposal that waits, and an engine with bad debt, are read back
from bytes that list their roles backwards. -/
theorem stored_component_read_back_dealings :
    let v := (Sample.funded.through (reconsidered ++ Sample.dealings)).vault
    let e := (Sample.start.engineThrough reckoning).engine
    (Vault.start Sample.vaultAccount Sample.admin Sample.borrowModule = .ok Sample.funded.vault ∧
        v.access.members.keys = [.admin, .vaultAdmin, .governance, .leverageVault] ∧
        (v.pendingAdds.get? Sample.weth).isSome = true ∧ 0 < v.total Sample.weth ∧
        Binary.read (v.bytesWith v.access.members.entries.reverse) =
          .ok { v with guard := .free }) ∧
      Engine.start Sample.engineAccount Sample.debtToken Sample.admin .standard =
          .ok Sample.start.engine ∧
        0 < e.badDebt.total ∧
        Binary.read (e.bytesWith e.access.members.entries.reverse) =
          .ok { e with guard := .free } := by
  have hvault : Vault.start Sample.vaultAccount Sample.admin Sample.borrowModule =
      .ok Sample.funded.vault := rfl
  have hengine : Engine.start Sample.engineAccount Sample.debtToken Sample.admin .standard =
      .ok Sample.start.engine := rfl
  obtain ⟨hreadVault, hreadEngine, hfitsVault, hfitsEngine⟩ :=
    stored_component_read_back hvault hengine (reconsidered ++ Sample.dealings) reckoning
  have hvaultBack := hreadVault _ _ (hfitsVault (by decide)) (List.reverse_perm _)
  have hengineBack := hreadEngine _ _ (hfitsEngine (by decide)) (List.reverse_perm _)
  exact ⟨⟨hvault, by decide +kernel, by decide +kernel, by decide +kernel, hvaultBack⟩,
    hengine, by decide +kernel, hengineBack⟩

end Protocol

end Custody
