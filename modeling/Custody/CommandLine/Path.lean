/-
Paths of files.

A path is what stands between its slashes.  An empty part, which comes of a slash at an
end or next to another, and one dot stand for the directory that they are met in, and two
dots for the directory above.  Whether any of them leads anywhere is for the disk to say:
below a name that is missing there is nothing, two dots included.  So a path keeps all of
its parts, and with them its text, whose length counts as well.
-/

namespace Custody.CommandLine

/-- A path as its parts. -/
structure Path where
  /-- What stands between the slashes; empty at the front of a path from the root. -/
  parts : List String
deriving DecidableEq

namespace Path

/-- The path that a text is. -/
def ofString (text : String) : Path :=
  ⟨(text.toList.splitOn '/').map String.ofList⟩

/-- The text of a path. -/
def toString (path : Path) : String :=
  "/".intercalate path.parts

instance : ToString Path := ⟨toString⟩

/-- Whether a part leads nowhere else. -/
def stays (part : String) : Bool :=
  part = "" ∨ part = "."

/-- Whether a path is followed from the root and not from the working directory. -/
def isAbsolute (path : Path) : Bool :=
  path.parts.head? = some "" ∧ path.parts ≠ [""]

/-- Whether a path ends in a name with a slash behind it, as names of directories may. -/
def endsSlashed (path : Path) : Bool :=
  path.parts.getLast? = some "" ∧
    (path.parts.reverse.find? (· ≠ "")).any fun last => last ≠ "." ∧ last ≠ ".."

/-- The directory that the last part is in.  Parts that stay do not count here. -/
def directory (path : Path) : Path :=
  ⟨((path.parts.reverse.dropWhile stays).drop 1).reverse⟩

/-- Most bytes of the text of a path. -/
def maxSize : Nat := 4095

/-- Whether the text of a path is too long for a disk. -/
def isTooLong (path : Path) : Bool :=
  maxSize < path.toString.utf8ByteSize

end Path

end Custody.CommandLine
