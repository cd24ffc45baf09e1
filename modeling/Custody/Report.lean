/-
Reports of commands.

A report has a title and labelled values for people and a payload for programs.  As
text the labels are filled up with blanks to the width of the longest one; widths are
measured in bytes and filled in characters.  On a terminal the parts are coloured.
-/
import Custody.Json

namespace Custody

/-! ### Forms of output -/

/-- How a report is written. -/
inductive OutputFormat where
  | text
  | json
  | jsonPretty
deriving DecidableEq

namespace OutputFormat

/-- The name of a form. -/
def name : OutputFormat → String
  | text => "text"
  | json => "json"
  | jsonPretty => "json-pretty"

instance : ToString OutputFormat := ⟨name⟩

/-- The form with exactly this name. -/
def ofName? (s : String) : Option OutputFormat :=
  [text, json, jsonPretty].find? fun f => f.name = s

/-- The form that people mean by a word, in upper or lower case. -/
def ofWord? (word : String) : Option OutputFormat :=
  match String.ofList (word.toList.map Char.toLower) with
  | "text" | "txt" => some text
  | "json" => some json
  | "json-pretty" | "jsonpretty" => some jsonPretty
  | _ => none

end OutputFormat

/-! ### Colours -/

/-- Colours and weight of a piece of text on a terminal. -/
inductive Style where
  | cyan
  | green
  | yellow
  | red
  | bold

/-- The number that switches a style on. -/
def Style.code : Style → String
  | cyan => "36"
  | green => "32"
  | yellow => "33"
  | red => "31"
  | bold => "1"

/-- A piece of text in some styles, if colours are wanted. -/
def paint (colours : Bool) (styles : List Style) (piece : String) : String :=
  if colours then
    String.join (styles.map fun s => "\x1b[" ++ s.code ++ "m") ++ piece ++ "\x1b[0m"
  else piece

/-! ### Reports -/

/-- A title, labelled values and a payload. -/
structure Report where
  title : String
  rows : List (String × String)
  payload : Json

namespace Report

/-- The width of the labels: the most bytes that one of them has. -/
def width (r : Report) : Nat :=
  (r.rows.map fun row => row.1.utf8ByteSize).foldl max 0

/-- A label filled up to a number of characters. -/
def fill (width : Nat) (label : String) : String :=
  label ++ String.ofList (List.replicate (width - label.length) ' ')

/-- The report for people. -/
def lines (r : Report) (colours : Bool) : String :=
  paint colours [.cyan] "→" ++ " " ++ paint colours [.bold] r.title ++ "\n"
    ++ String.join (r.rows.map fun row =>
      "  " ++ fill r.width row.1 ++ "  " ++ paint colours [.green] row.2 ++ "\n")

/-- Write a report. -/
def render (r : Report) (format : OutputFormat) (colours : Bool) : String :=
  match format with
  | .text => r.lines colours
  | .json => r.payload.compact
  | .jsonPretty => r.payload.pretty

end Report

end Custody
