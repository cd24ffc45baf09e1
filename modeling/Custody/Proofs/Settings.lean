/-
Settings survive being saved.

What is saved is a record: an object with a member for each field, one of which is a record itself.
Reading looks each field up by its name, takes the usual value for one that is missing, and refuses
one that occurs twice.  So it matters that the writer gives every field, gives it once and under the
name that the reader asks for; the text in between is a matter of the JSON reader alone.
-/
import Custody.Proofs.Json
import Custody.Settings

namespace Custody

/-! ### Records -/

namespace Json

variable {members : List (String × Json)}

theorem named?_some (members : List (String × Json)) :
    named? (members.map fun m => (some m.1, m.2)) = some members := by
  rw [named?, List.mapM_map]
  exact List.mapM_pure.trans (congrArg some (List.map_id members))

/-- Under names that differ, each member is the only one of its name. -/
theorem once?_of_mem (hnodup : (members.map Prod.fst).Nodup) {m : String × Json}
    (hm : m ∈ members) : once? m.1 members = some (some m.2) := by
  have honly : members.filter (fun other => other.1 = m.1) = [m] := by
    induction members with
    | nil => cases hm
    | cons other rest ih =>
        obtain ⟨hother, hrest⟩ := List.nodup_cons.mp hnodup
        rcases List.mem_cons.mp hm with rfl | hm
        · have hnone : rest.filter (fun other => other.1 = m.1) = [] :=
            List.filter_eq_nil_iff.mpr fun x hx heq =>
              hother (List.mem_map.mpr ⟨x, hx, of_decide_eq_true heq⟩)
          rw [List.filter_cons, if_pos (decide_eq_true rfl), hnone]
        · have hne : other.1 ≠ m.1 := fun heq => hother (List.mem_map.mpr ⟨m, hm, heq.symm⟩)
          rw [List.filter_cons, if_neg (by rwa [decide_eq_true_eq]), ih hrest hm]
  rw [once?, honly]

/-- **The fields of a record are read by their names.** -/
theorem optionalFields?_record (hnodup : (members.map Prod.fst).Nodup) :
    (record members).optionalFields? (members.map Prod.fst) =
      some (members.map fun m => some m.2) := by
  have hread : ∀ fields : List (String × Json), fields ⊆ members →
      (fields.map Prod.fst).mapM (fun name => once? name members) =
        some (fields.map fun m => some m.2) := by
    intro fields hfields
    induction fields with
    | nil => rfl
    | cons m fields ih =>
        obtain ⟨hm, hfields⟩ := List.cons_subset.mp hfields
        rw [List.map_cons, List.mapM_cons, once?_of_mem hnodup hm, ih hfields]
        rfl
  simp only [record, optionalFields?, named?_some, Option.bind_eq_bind, Option.bind_some]
  exact hread members (List.Subset.refl members)

theorem fields?_record (hnodup : (members.map Prod.fst).Nodup) :
    (record members).fields? (members.map Prod.fst) = some (members.map Prod.snd) := by
  rw [fields?, optionalFields?_record hnodup]
  simp only [Option.bind_eq_bind, Option.bind_some, List.mapM_map]
  exact List.mapM_pure

theorem toWord?_natural (n : UInt64) : (natural n.toNat).toWord? = some n := by
  rw [natural, toWord?, toNat?, if_pos n.toNat_lt]
  simp

end Json

theorem OutputFormat.ofName?_name (format : OutputFormat) : ofName? format.name = some format := by
  cases format <;> decide

namespace Settings

open Json

theorem exact_toJson (s : Settings) : Exact s.toJson := by
  simp [toJson, liquidationJson, record, Exact, ExactMembers, text, natural]

theorem ofJson?_liquidationJson (p : LiquidationParams) :
    LiquidationParams.ofJson? (liquidationJson p) = some p := by
  have hfields :
      (liquidationJson p).fields? ["close_factor_bps", "full_liquidation_threshold_bps"] =
      some [.natural p.closeFactor.toNat, .natural p.fullThreshold.toNat] :=
    fields?_record (by simp)
  simp only [LiquidationParams.ofJson?, hfields, Option.bind_eq_bind, Option.bind_some,
    toWord?_natural, Option.pure_def]

theorem ofJson?_toJson (s : Settings) : ofJson? s.toJson = some s := by
  have hfields : s.toJson.optionalFields? ["liquidation", "log_filter", "output"] =
      some [some (liquidationJson s.liquidation), some (.text s.logFilter),
        some (.text s.output.name)] :=
    optionalFields?_record (by simp)
  have houtput : (text s.output.name).tag?.bind OutputFormat.ofName? = some s.output :=
    OutputFormat.ofName?_name s.output
  simp only [ofJson?, hfields, Option.bind_eq_bind, Option.bind_some, field?,
    ofJson?_liquidationJson, toText?, Json.text, Option.pure_def] at houtput ⊢
  rw [houtput]
  rfl

/-- **Settings are read back from what is saved of them**, whatever their words and whatever
characters are in the filter. -/
theorem settings_survive_saving (s : Settings) : load s.save = .ok s := by
  have hread : (Json.ofText? s.save).bind ofJson? = some s := by
    rw [save, ofText?_pretty (exact_toJson s)]
    exact ofJson?_toJson s
  rw [load, hread]

end Settings

end Custody
