/-
A file that is there can be written anew.

A path that leads to a file goes through directories only, so the directories above the file are
all there and none is made.  The file itself is replaced under its name.  Directories stay what
they are, so that every path leads where it led before, and what is found at the end of one is
another text only if this file is there.
-/
import Custody.CommandLine.Files
import Mathlib.Data.List.Basic

namespace Custody.CommandLine

/-! ### Parts of a path -/

namespace Path

variable {before after : List String} {part : String}

/-- What joins the first parts stands at the beginning of what joins all of them. -/
theorem intercalate_append (separator : List Char) : ∀ before after : List (List Char),
    ∃ rest, separator.intercalate (before ++ after) = separator.intercalate before ++ rest
  | [], after => ⟨separator.intercalate after, rfl⟩
  | [first], [] => ⟨[], by simp⟩
  | [first], next :: after => by
      refine ⟨separator ++ separator.intercalate (next :: after), ?_⟩
      simp [List.intercalate_cons_cons]
  | first :: next :: before, after => by
      obtain ⟨rest, hrest⟩ := intercalate_append separator (next :: before) after
      refine ⟨rest, ?_⟩
      simp only [List.cons_append] at hrest
      simp only [List.cons_append, List.intercalate_cons_cons, hrest, List.append_assoc]

/-- A path to a directory above is no longer than the whole path. -/
theorem isTooLong_of_append (h : isTooLong ⟨before ++ after⟩ = false) :
    isTooLong ⟨before⟩ = false := by
  obtain ⟨rest, hrest⟩ := intercalate_append "/".toList (before.map String.toList)
    (after.map String.toList)
  have htext : toString ⟨before ++ after⟩ = toString ⟨before⟩ ++ String.ofList rest := by
    apply String.toList_inj.mp
    rw [String.toList_append, toString, toString, String.toList_intercalate,
      String.toList_intercalate, List.map_append, hrest]
    exact congrArg _ (String.toList_ofList (l := rest)).symm
  simp only [isTooLong, decide_eq_false_iff_not, htext, String.utf8ByteSize_append] at h ⊢
  omega

theorem ne_empty_of_moves (h : stays part = false) : part ≠ "" := by
  rintro rfl
  exact absurd h (by decide)

/-- A path to a name begins where every longer path begins. -/
theorem isAbsolute_append (h : stays part = false) :
    isAbsolute ⟨before ++ part :: after⟩ = isAbsolute ⟨before ++ [part]⟩ := by
  cases before with
  | nil => simp [isAbsolute, ne_empty_of_moves h]
  | cons first before => simp [isAbsolute]

end Path

namespace Files

variable {f : Files} {path : Path} {start place : Place} {parts : List String} {parent : Directory}
  {name text content : String} {bytes old : ByteArray}

@[simp] theorem entry?_within (directory : Directory) :
    f.entry? (.within directory) = some (.directory directory) := rfl

@[simp] theorem entry?_named : f.entry? (.named parent name) = f.entries[(parent, name)]? := rfl

/-! ### Following -/

/-- Where a path begins. -/
def origin (path : Path) : Directory := if path.isAbsolute then .root else .above 0

theorem follow_eq_ok : f.follow path = .ok place ↔
    path.isTooLong = false ∧ path.parts.foldlM f.step (.within (origin path)) = .ok place := by
  unfold follow origin
  cases path.isTooLong with
  | true => simp
  | false => cases path.isAbsolute <;> simp

/-- A part is followed from a directory, to a directory or to a name in this one. -/
theorem step_ok {part : String} {next : Place} (h : f.step place part = .ok next) :
    ∃ directory, f.entry? place = some (.directory directory) ∧
      ((∃ other, next = .within other) ∨
        next = .named directory part ∧ Path.stays part = false) := by
  unfold step at h
  cases hentry : f.entry? place with
  | none => simp [hentry] at h
  | some entry =>
      cases entry with
      | file content => simp [hentry] at h
      | directory directory =>
          refine ⟨directory, rfl, ?_⟩
          simp only [hentry] at h
          split at h
          next => exact .inl ⟨_, (Except.ok.inj h).symm⟩
          next hmoves =>
            split at h
            next => exact .inl ⟨_, (Except.ok.inj h).symm⟩
            next =>
              split at h
              next => cases h
              next => exact .inr ⟨(Except.ok.inj h).symm, Bool.eq_false_iff.mpr hmoves⟩

theorem walk_cons {part : String} : (part :: parts).foldlM f.step start = .ok place ↔
    ∃ mid, f.step start part = .ok mid ∧ parts.foldlM f.step mid = .ok place := by
  rw [List.foldlM_cons]
  cases f.step start part <;> simp [bind, Except.bind]

theorem walk_append {before after : List String} :
    (before ++ after).foldlM f.step start = .ok place ↔
      ∃ mid, before.foldlM f.step start = .ok mid ∧ after.foldlM f.step mid = .ok place := by
  rw [List.foldlM_append]
  cases before.foldlM f.step start <;> simp [bind, Except.bind]

/-- If a path goes on, the parts before lead to a directory. -/
theorem walk_before {before after : List String} {part : String}
    (h : (before ++ part :: after).foldlM f.step start = .ok place) :
    ∃ mid directory, before.foldlM f.step start = .ok mid ∧
      f.entry? mid = some (.directory directory) := by
  obtain ⟨mid, hbefore, hafter⟩ := walk_append.mp h
  obtain ⟨next, hstep, -⟩ := walk_cons.mp hafter
  obtain ⟨directory, hentry, -⟩ := step_ok hstep
  exact ⟨mid, directory, hbefore, hentry⟩

/-- A name at the end of a path is its last part. -/
theorem walk_named {directory : Directory}
    (h : parts.foldlM f.step (.within directory) = .ok (.named parent name)) :
    ∃ above, parts = above ++ [name] ∧ Path.stays name = false := by
  rcases List.eq_nil_or_concat parts with rfl | ⟨above, part, rfl⟩
  · cases h
  rw [List.concat_eq_append] at h ⊢
  obtain ⟨mid, -, hlast⟩ := walk_append.mp h
  obtain ⟨next, hstep, hend⟩ := walk_cons.mp hlast
  obtain rfl : next = .named parent name := Except.ok.inj hend
  obtain ⟨_, -, ⟨other, hother⟩ | ⟨hnamed, hmoves⟩⟩ := step_ok hstep
  · cases hother
  · cases hnamed
    exact ⟨above, rfl, hmoves⟩

/-! ### Directories -/

theorem bind_of_ok {g : Files} {x : Change} {k : Unit → Change} (h : x f = .ok () g) :
    (x >>= k) f = k () g := by
  simp only [bind, EStateM.bind, h]

theorem ofExcept_bind_of_ok {α : Type} {x : Except PathFault α} {a : α} {k : α → Change}
    (h : x = .ok a) : (MonadExcept.ofExcept x >>= k : Change) f = k a f := by
  rw [h]
  rfl

/-- A directory that is there need not be made. -/
theorem makeDirectory_of_entry {directory : Directory} (hfollow : f.follow path = .ok place)
    (hentry : f.entry? place = some (.directory directory)) :
    makeDirectory path f = .ok () f := by
  refine .trans (ofExcept_bind_of_ok hfollow) ?_
  cases place with
  | within _ => rfl
  | named parent name =>
      rw [entry?_named] at hentry
      simp only [hentry]
      rfl

/-- Nor need those that a path goes through. -/
theorem makeDirectories_of_follow :
    ∀ {reversed after : List String} {part : String},
      f.follow ⟨reversed.reverse ++ part :: after⟩ = .ok place →
      makeDirectories reversed f = .ok () f := by
  intro reversed
  induction reversed with
  | nil => exact fun _ => rfl
  | cons last above ih =>
      intro after part h
      have hparts : (last :: above).reverse ++ part :: after =
          above.reverse ++ last :: part :: after := by
        rw [List.reverse_cons, List.append_assoc, List.singleton_append]
      cases hstays : Path.stays last with
      | true =>
          rw [hparts] at h
          exact (congrFun (if_pos hstays) f).trans (ih h)
      | false =>
          obtain ⟨hsize, hwalk⟩ := follow_eq_ok.mp h
          obtain ⟨mid, directory, hmid, hentry⟩ := walk_before hwalk
          -- A path that goes on begins where the shorter one does.
          have horigin : origin ⟨(last :: above).reverse ++ part :: after⟩ =
              origin ⟨(last :: above).reverse⟩ := by
            rw [origin, origin, hparts, Path.isAbsolute_append hstays, List.reverse_cons]
          rw [horigin] at hmid
          have hfollow : f.follow ⟨(last :: above).reverse⟩ = .ok mid :=
            follow_eq_ok.mpr ⟨Path.isTooLong_of_append hsize, hmid⟩
          have hmade := makeDirectory_of_entry hfollow hentry
          refine (congrFun (if_neg (Bool.eq_false_iff.mp hstays)) f).trans ?_
          simp only [hmade]

/-! ### Looking -/

/-- A text is found in the file that its bytes are. -/
theorem ofBytes_eq_text : Found.ofBytes bytes = .text content ↔ bytes = content.toUTF8 := by
  unfold Found.ofBytes String.fromUTF8?
  constructor
  · intro h
    split at h
    next found hfound =>
      split at hfound
      next hvalid =>
        obtain rfl := Found.text.inj h
        obtain rfl := Option.some.inj hfound
        rfl
      next => cases hfound
    next => cases h
  · rintro rfl
    rw [String.toUTF8_eq_toByteArray, dif_pos content.isValidUTF8]
    rfl

/-- A text is found at a path to a file. -/
theorem look_eq_text : f.look text = .text content ↔ ∃ parent name,
    f.follow (.ofString text) = .ok (.named parent name) ∧
      f.entries[(parent, name)]? = some (.file content.toUTF8) := by
  unfold look
  cases hfollow : f.follow (.ofString text) with
  | error fault => simp
  | ok place =>
      simp only [Except.ok.injEq]
      cases place with
      | within directory => simp
      | named parent name =>
          simp only [entry?_named, Place.named.injEq]
          constructor
          · intro h
            refine ⟨parent, name, ⟨rfl, rfl⟩, ?_⟩
            cases hentry : f.entries[(parent, name)]? with
            | none => simp [hentry] at h
            | some entry =>
                cases entry with
                | directory _ => simp [hentry] at h
                | file found =>
                    simp only [hentry] at h
                    rw [ofBytes_eq_text.mp h]
          · rintro ⟨_, _, ⟨rfl, rfl⟩, hentry⟩
            rw [hentry]
            exact ofBytes_eq_text.mpr rfl

/-- What is in a tree in which a file was put. -/
theorem entry?_addFile : entry? (f.addFile parent name bytes) place =
    if place = .named parent name then some (.file bytes) else f.entry? place := by
  cases place with
  | within directory => simp
  | named other n =>
      simp only [entry?_named, addFile, Std.HashMap.getElem?_insert, beq_iff_eq, Prod.mk.injEq,
        Place.named.injEq]
      split
      next h => rw [if_pos ⟨h.1.symm, h.2.symm⟩]
      next h => rw [if_neg fun hsame => h ⟨hsame.1.symm, hsame.2.symm⟩]

/-- A file that takes the place of another one leaves every directory. -/
theorem step_addFile {part : String} (h : f.entries[(parent, name)]? = some (.file old)) :
    (f.addFile parent name bytes).step place part = f.step place part := by
  have hparent : (f.addFile parent name bytes).parent = f.parent := rfl
  rw [step, step, hparent]
  by_cases hplace : place = .named parent name
  · rw [entry?_addFile, if_pos hplace, hplace, entry?_named, h]
  · rw [entry?_addFile, if_neg hplace]

theorem follow_addFile (h : f.entries[(parent, name)]? = some (.file old)) :
    (f.addFile parent name bytes).follow path = f.follow path := by
  have hstep : (f.addFile parent name bytes).step = f.step := by
    funext place part
    exact step_addFile h
  rw [follow, follow, hstep]

/-- One file has another text, and nothing else is different. -/
structure Rewritten (path content : String) (f g : Files) : Prop where
  there : g.look path = .text content
  elsewhere : ∀ other, f.follow (.ofString other) ≠ f.follow (.ofString path) →
    g.look other = f.look other

theorem rewritten_addFile (hfollow : f.follow (.ofString text) = .ok (.named parent name))
    (hfile : f.entries[(parent, name)]? = some (.file old)) :
    Rewritten text content f (f.addFile parent name content.toUTF8) where
  there := by
    rw [look_eq_text]
    refine ⟨parent, name, (follow_addFile hfile).trans hfollow, ?_⟩
    exact entry?_addFile.trans (if_pos rfl)
  elsewhere other hother := by
    rw [look, look, follow_addFile hfile]
    cases hplace : f.follow (.ofString other) with
    | error fault => rfl
    | ok place =>
        have hne : place ≠ .named parent name := by
          rintro rfl
          exact hother (hplace.trans hfollow.symm)
        simp only [entry?_addFile, if_neg hne]

/-! ### Writing -/

/-- The name of a file is where the file is written. -/
theorem target_of_file {above : List String}
    (hfollow : f.follow ⟨above ++ [name]⟩ = .ok (.named parent name))
    (hmoves : Path.stays name = false)
    (hfile : f.entries[(parent, name)]? = some (.file old)) :
    f.target ⟨above ++ [name]⟩ = .ok (parent, name) := by
  have hends : Path.endsSlashed ⟨above ++ [name]⟩ = false := by
    simp [Path.endsSlashed, Path.ne_empty_of_moves hmoves]
  unfold target
  rw [if_neg fun h => Bool.false_ne_true (hends.symm.trans h.1), hfollow]
  simp only [bind, Except.bind, hfile]

/-- **A file that is there can be written**, and only its text is different then. -/
theorem write_of_text {before : String} (h : f.look text = .text before) :
    ∃ g, write text content f = .ok () g ∧ Rewritten text content f g := by
  obtain ⟨parent, name, hfollow, hfile⟩ := look_eq_text.mp h
  obtain ⟨above, hparts, hmoves⟩ := walk_named (follow_eq_ok.mp hfollow).2
  have hpath : Path.ofString text = ⟨above ++ [name]⟩ := congrArg Path.mk hparts
  have habove : (Path.ofString text).directory.parts.reverse = above.reverse := by
    simp [hpath, Path.directory, hmoves]
  have hmade : makeDirectories (Path.ofString text).directory.parts.reverse f = .ok () f := by
    rw [habove]
    rw [hpath, ← List.reverse_reverse above] at hfollow
    exact makeDirectories_of_follow hfollow
  have htarget : f.target (Path.ofString text) = .ok (parent, name) := by
    rw [hpath] at hfollow ⊢
    exact target_of_file hfollow hmoves hfile
  exact ⟨_, (bind_of_ok hmade).trans (ofExcept_bind_of_ok htarget),
    rewritten_addFile hfollow hfile⟩

end Files

end Custody.CommandLine
