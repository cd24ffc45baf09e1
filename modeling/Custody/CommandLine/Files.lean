/-
Files that a command reads and writes.

A command asks only what is found at a path, and asks for at most one file to be written.
A tree that answers such requests without a disk numbers its directories and keeps what is
in each of them by name.  A path is followed part by part, each part from a directory that
exists, so a path may lead nowhere although a shorter path to the same place does.  A file
holds bytes, which need not be a text.

Before a file is written the directories above it are made, the nearest first; only where
one cannot be made because the one above is missing, that one is made before it.  What
has been made stays when a later step is refused.
-/
import Custody.CommandLine.Path
import Std.Data.HashMap

namespace Custody.CommandLine

/-- What is found at a path. -/
inductive Found where
  | nothing
  | text (content : String)
  /-- Something that cannot be read as text. -/
  | unreadable (reason : String)
deriving DecidableEq

/-- What is found in a file of these bytes. -/
def Found.ofBytes (bytes : ByteArray) : Found :=
  match String.fromUTF8? bytes with
  | some content => .text content
  | none => .unreadable "stream did not contain valid UTF-8"

/-- Why a path is not followed, or nothing is written at its end. -/
inductive PathFault where
  /-- A part is not there. -/
  | missing
  /-- Something is there already. -/
  | occupied
  /-- A part that others follow is a file. -/
  | notDirectory
  /-- A directory is where a file is asked for. -/
  | isDirectory
  /-- A part or the whole path has too many bytes. -/
  | longName
deriving DecidableEq

/-- The wording of a fault. -/
def PathFault.message : PathFault → String
  | missing => "No such file or directory (os error 2)"
  | occupied => "File exists (os error 17)"
  | notDirectory => "Not a directory (os error 20)"
  | isDirectory => "Is a directory (os error 21)"
  | longName => "File name too long (os error 36)"

/-! ### Trees -/

/-- A directory. -/
inductive Directory where
  /-- The one that contains itself. -/
  | root
  /-- The working directory, or the one so many levels above it. -/
  | above (levels : Nat)
  /-- One that was made, by the number of those made before it. -/
  | made (number : Nat)
deriving DecidableEq, Hashable

/-- What a directory has under a name. -/
inductive Entry where
  | directory (directory : Directory)
  | file (bytes : ByteArray)

/-- Where a path leads. -/
inductive Place where
  /-- To a directory. -/
  | within (directory : Directory)
  /-- To a name in a directory.  Nothing need be there. -/
  | named (directory : Directory) (name : String)
deriving DecidableEq

/-- Files and directories. -/
structure Files where
  /-- What is in a directory under a name. -/
  entries : Std.HashMap (Directory × String) Entry
  /-- The directory in which each of the numbered ones was made. -/
  parents : Array Directory

namespace Files

/-- The tree without entries.  The root, the working directory and those above it are
always there. -/
def empty : Files := ⟨∅, #[]⟩

/-- What is at a place. -/
def entry? (f : Files) : Place → Option Entry
  | .within directory => some (.directory directory)
  | .named directory name => f.entries[(directory, name)]?

/-- The directory that a directory is in. -/
def parent (f : Files) : Directory → Directory
  | .root => .root
  | .above levels => .above (levels + 1)
  | .made number => f.parents.getD number .root

/-- Most bytes of a name. -/
def maxName : Nat := 255

/-- Where a part leads from a place. -/
def step (f : Files) (place : Place) (part : String) : Except PathFault Place :=
  match f.entry? place with
  | none => .error .missing
  | some (.file _) => .error .notDirectory
  | some (.directory directory) =>
    if Path.stays part then .ok (.within directory)
    else if part = ".." then .ok (.within (f.parent directory))
    else if maxName < part.utf8ByteSize then .error .longName
    else .ok (.named directory part)

/-- Where a path leads. -/
def follow (f : Files) (path : Path) : Except PathFault Place :=
  if path.isTooLong then .error .longName
  else path.parts.foldlM f.step (.within (if path.isAbsolute then .root else .above 0))

/-- What is found at a path. -/
def look (f : Files) (text : String) : Found :=
  match f.follow (Path.ofString text) with
  | .error _ => .nothing
  | .ok place =>
    match f.entry? place with
    | none => .nothing
    | some (.directory _) => .unreadable PathFault.isDirectory.message
    | some (.file bytes) => .ofBytes bytes

/-! ### Writing -/

/-- A change of a tree, which may be refused halfway. -/
abbrev Change := EStateM PathFault Files Unit

/-- Put a new directory into a directory. -/
def addDirectory (f : Files) (parent : Directory) (name : String) : Files :=
  ⟨f.entries.insert (parent, name) (.directory (.made f.parents.size)), f.parents.push parent⟩

/-- Put a file into a directory. -/
def addFile (f : Files) (parent : Directory) (name : String) (bytes : ByteArray) : Files :=
  ⟨f.entries.insert (parent, name) (.file bytes), f.parents⟩

/-- Make a directory at the end of a path; a directory that is there already will do. -/
def makeDirectory (path : Path) : Change := do
  let f ← get
  match ← MonadExcept.ofExcept (f.follow path) with
  | .within _ => pure ()
  | .named parent name =>
    match f.entries[(parent, name)]? with
    | none => set (f.addDirectory parent name)
    | some (.directory _) => pure ()
    | some (.file _) => throw .occupied

/-- Make a directory and what is missing above it.  The parts come last first. -/
def makeDirectories : (reversed : List String) → Change
  | [] => pure ()
  | last :: above =>
    if Path.stays last then makeDirectories above
    else fun f =>
      let path : Path := ⟨(last :: above).reverse⟩
      match makeDirectory path f with
      | .error .missing f => (do makeDirectories above; makeDirectory path : Change) f
      | done => done

/-- The directory and the name of a file at the end of a path.  A name with a slash behind
it is the name of a directory, whether it is there or not. -/
def target (f : Files) (path : Path) : Except PathFault (Directory × String) :=
  if path.endsSlashed ∧ ¬ path.isTooLong then .error .isDirectory
  else do
    match ← f.follow path with
    | .within _ => .error .isDirectory
    | .named parent name =>
      match f.entries[(parent, name)]? with
      | some (.directory _) => .error .isDirectory
      | _ => .ok (parent, name)

/-- Write a file at the end of a path and make the directories above it. -/
def write (text content : String) : Change := do
  let path := Path.ofString text
  makeDirectories path.directory.parts.reverse
  let f ← get
  let (parent, name) ← MonadExcept.ofExcept (f.target path)
  set (f.addFile parent name content.toUTF8)

/-- The tree after a change, refused or not. -/
def after (f : Files) (change : Change) : Files :=
  match change f with
  | .ok _ f => f
  | .error _ f => f

/-- The tree in which these texts have been written to these paths. -/
def ofList (l : List (String × String)) : Files :=
  l.foldl (fun f e => f.after (write e.1 e.2)) empty

end Files

end Custody.CommandLine
