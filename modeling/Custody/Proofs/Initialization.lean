/-
What a forced `init` can repair.

A forced `init` writes the usual settings to the file of the settings, whether one is there or not,
and a file that is there can be written.  But no command is looked at before the settings in force
are made of that file.  So a forced `init` replaces only files that it need not replace: those that
have the right form and values in range.  With every other file it is refused, like any command,
and the file stays, be it a text or not.
-/
import Custody.CommandLine
import Custody.Proofs.Files

namespace Custody

namespace Settings

variable {lookup : String → Option String} {content : String} {s : Settings}

/-- The variables that override settings. -/
def overriding : List String :=
  ["MUSD_CLOSE_FACTOR_BPS", "MUSD_FULL_LIQUIDATION_THRESHOLD_BPS", "MUSD_LOG", "MUSD_OUTPUT"]

/-- Without them nothing is overridden. -/
theorem applyEnvironment_unset (h : ∀ name ∈ overriding, lookup name = none) :
    applyEnvironment lookup s = .ok () s := by
  simp only [overriding, List.forall_mem_cons] at h
  obtain ⟨hfactor, hthreshold, hlog, houtput, -⟩ := h
  simp only [applyEnvironment, hfactor, hthreshold, hlog, houtput]
  rfl

/-- The text of a file from which settings can be made. -/
def Sound (content : String) : Prop := ∃ s, load content = .ok s ∧ s.validate = .ok ()

theorem resolve_sound (h : ∀ name ∈ overriding, lookup name = none) (hsound : Sound content) :
    ∃ s, resolve (some content) lookup = .ok s := by
  obtain ⟨s, hload, hvalid⟩ := hsound
  refine ⟨s, ?_⟩
  simp only [resolve, hload, applyEnvironment_unset h, hvalid, bind, Except.bind]
  rfl

theorem resolve_unsound (h : ∀ name ∈ overriding, lookup name = none)
    (hunsound : ¬ Sound content) :
    ∃ e, resolve (some content) lookup = .error e := by
  cases hload : load content with
  | error e => exact ⟨e, by simp only [resolve, hload, bind, Except.bind]⟩
  | ok s =>
      cases hvalid : s.validate with
      | ok _ => exact absurd ⟨s, hload, hvalid⟩ hunsound
      | error e =>
          refine ⟨e, ?_⟩
          simp only [resolve, hload, applyEnvironment_unset h, hvalid, bind, Except.bind]

end Settings

namespace CommandLine

variable {lookup : String → Option String} {terminal : Bool} {f : Files}
  {arguments : List String} {s : Surroundings} {i : Invocation} {place : String}

/-- What is found is a text from which settings can be made. -/
def Found.Sound : Found → Prop
  | .text content => Settings.Sound content
  | .nothing | .unreadable _ => False

theorem Found.Sound.exists_text {found : Found} (h : found.Sound) :
    ∃ content, found = .text content ∧ Settings.Sound content := by
  cases found with
  | text content => exact ⟨content, rfl, h⟩
  | nothing | unreadable reason => exact False.elim h

/-- What is there decides whether there are settings in force. -/
theorem settings_sound (h : ∀ name ∈ Settings.overriding, s.lookup name = none)
    (hsound : (s.look (path s i)).Sound) : ∃ t, settings s i = .ok t := by
  obtain ⟨content, hfile, hcontent⟩ := hsound.exists_text
  obtain ⟨t, hresolve⟩ := Settings.resolve_sound h hcontent
  refine ⟨{ t with output := i.output.getD t.output }, ?_⟩
  simp only [settings, hfile, hresolve, bind, Except.bind]
  rfl

theorem settings_unsound (h : ∀ name ∈ Settings.overriding, s.lookup name = none)
    (hthere : s.look (path s i) ≠ .nothing) (hunsound : ¬ (s.look (path s i)).Sound) :
    ∃ e, settings s i = .error e := by
  cases hfound : s.look (path s i) with
  | nothing => exact absurd hfound hthere
  | text content =>
      rw [hfound] at hunsound
      obtain ⟨e, hresolve⟩ := Settings.resolve_unsound h hunsound
      refine ⟨e, ?_⟩
      simp only [settings, hfound, hresolve, bind, Except.bind]
  | unreadable reason =>
      refine ⟨.io reason, ?_⟩
      simp only [settings, hfound, bind, Except.bind]

/-- What a forced `init` is for: the usual settings are in the file, and nothing else is
different. -/
structure Repaired (place : String) (f : Files) (left : Outcome × Files) : Prop where
  code : left.1.code = 0
  rewritten : Files.Rewritten place Settings.standard.save f left.2

/-- If there are settings in force, a forced `init` asks for the file. -/
theorem invocation_init {t : Settings} (hcommand : i.command = .init true)
    (hsettings : settings s i = .ok t) :
    (invocation s i).code = 0 ∧
      (invocation s i).file = some (path s i, Settings.standard.save) := by
  simp [invocation, hsettings, hcommand, execute, init]

section

variable (hparse : parse (lookup "MUSD_CONFIG") arguments = .run i)
  (hplace : path ⟨lookup, f.look, terminal⟩ i = place)
  (hunset : ∀ name ∈ Settings.overriding, lookup name = none)

include hparse hplace hunset

/-- Without settings in force, any command is refused before it does anything. -/
theorem answer_unsound (hthere : f.look place ≠ .nothing) (h : ¬ (f.look place).Sound) :
    (answer lookup terminal f arguments).1.code = 1 ∧
      (answer lookup terminal f arguments).2 = f := by
  subst hplace
  obtain ⟨e, hsettings⟩ :=
    settings_unsound (i := i) (s := ⟨lookup, f.look, terminal⟩) hunset hthere h
  simp only [answer, run, hparse, invocation, hsettings]
  exact ⟨rfl, rfl⟩

/-- With them, a forced `init` writes the file, which can be written because it is there. -/
theorem answer_sound (hcommand : i.command = .init true) (h : (f.look place).Sound) :
    Repaired place f (answer lookup terminal f arguments) := by
  subst hplace
  obtain ⟨t, hsettings⟩ :=
    settings_sound (i := i) (s := ⟨lookup, f.look, terminal⟩) hunset h
  obtain ⟨hcode, hasked⟩ := invocation_init hcommand hsettings
  obtain ⟨content, hfile, -⟩ := h.exists_text
  have hwritable : ∃ g, Files.write _ Settings.standard.save f = .ok () g ∧
      Files.Rewritten _ Settings.standard.save f g := Files.write_of_text hfile
  obtain ⟨g, hwrite, hrewritten⟩ := hwritable
  simp only [answer, run, hparse, carryOut, hasked, hwrite]
  exact ⟨hcode, hrewritten⟩

end

/-- **A forced `init` repairs the file of the settings exactly if settings can be made of it.**
Otherwise it fails and leaves everything as it is: a text of another form, a text with values out
of range, bytes that are no text, or a directory. -/
theorem forced_init_repairs_iff_sound
    (hparse : parse (lookup "MUSD_CONFIG") arguments = .run i) (hcommand : i.command = .init true)
    (hplace : path ⟨lookup, f.look, terminal⟩ i = place)
    (hunset : ∀ name ∈ Settings.overriding, lookup name = none)
    (hthere : f.look place ≠ .nothing) :
    let left := answer lookup terminal f arguments
    (Repaired place f left ↔ (f.look place).Sound) ∧
      (¬ (f.look place).Sound → left.1.code = 1 ∧ left.2 = f) := by
  intro left
  have hunsound := answer_unsound hparse hplace hunset hthere
  refine ⟨⟨fun hrepaired => ?_, answer_sound hparse hplace hunset hcommand⟩, hunsound⟩
  by_contra h
  have hcode := hrepaired.code
  rw [(hunsound h).1] at hcode
  exact absurd hcode (by decide)

/-! ### Two files -/

/-- Settings in the working directory. -/
def keeping (content : String) : Files := Files.empty.addFile (.above 0) "c.json" content.toUTF8

/-- A forced `init` of them. -/
def repairing : List String := ["-c", "c.json", "init", "--force"]

/-- An environment without variables. -/
def unset : String → Option String := fun _ => none

theorem parse_repairing :
    parse none repairing = .run ⟨some "c.json", none, false, .init true⟩ := by decide +kernel

theorem look_keeping (content : String) : (keeping content).look "c.json" = .text content := by
  refine Files.look_eq_text.mpr ⟨.above 0, "c.json", ?_, Std.HashMap.getElem?_insert_self⟩
  have hpath : Path.ofString "c.json" = ⟨["c.json"]⟩ := by decide +kernel
  rw [hpath]
  rfl

theorem keeping_there (content : String) : (keeping content).look "c.json" ≠ .nothing := by
  rw [look_keeping]
  nofun

theorem sound_blank : Settings.Sound "{}" :=
  ⟨.standard, by decide +kernel, by decide +kernel⟩

theorem unsound_malformed : ¬ Settings.Sound "not json" := by
  have hload : Settings.load "not json" = .error (.parse Settings.malformed) := by decide +kernel
  rintro ⟨s, hsettings, -⟩
  rw [hload] at hsettings
  cases hsettings

/-- A file that says nothing is repaired: what it leaves out has the usual value. -/
theorem forced_init_repairs_blank_settings :
    parse none repairing = .run ⟨some "c.json", none, false, .init true⟩ ∧
      (keeping "{}").look "c.json" = .text "{}" ∧ Settings.Sound "{}" ∧
      Repaired "c.json" (keeping "{}") (answer unset false (keeping "{}") repairing) := by
  have hlook := look_keeping "{}"
  have hsound : ((keeping "{}").look "c.json").Sound := by
    rw [hlook]
    exact sound_blank
  have hrepairs :
      (Repaired "c.json" (keeping "{}") (answer unset false (keeping "{}") repairing) ↔
        ((keeping "{}").look "c.json").Sound) ∧ _ :=
    forced_init_repairs_iff_sound parse_repairing rfl rfl (fun _ _ => rfl) (keeping_there "{}")
  exact ⟨parse_repairing, hlook, sound_blank, hrepairs.1.mpr hsound⟩

/-- A file that is no JSON is not: the command fails, and the file is the same. -/
theorem forced_init_keeps_malformed_settings :
    parse none repairing = .run ⟨some "c.json", none, false, .init true⟩ ∧
      (keeping "not json").look "c.json" = .text "not json" ∧
      (answer unset false (keeping "not json") repairing).1.code = 1 ∧
      (answer unset false (keeping "not json") repairing).2.look "c.json" = .text "not json" ∧
      ¬ Repaired "c.json" (keeping "not json")
        (answer unset false (keeping "not json") repairing) := by
  have hlook := look_keeping "not json"
  have hunsound : ¬ ((keeping "not json").look "c.json").Sound := by
    rw [hlook]
    exact unsound_malformed
  have hkept : (answer unset false (keeping "not json") repairing).1.code = 1 ∧
      (answer unset false (keeping "not json") repairing).2 = keeping "not json" :=
    answer_unsound parse_repairing rfl (fun _ _ => rfl) (keeping_there "not json") hunsound
  refine ⟨parse_repairing, hlook, hkept.1, by rw [hkept.2, hlook], fun hrepaired => ?_⟩
  have hcode := hrepaired.code
  rw [hkept.1] at hcode
  exact absurd hcode (by decide)

end CommandLine

end Custody
