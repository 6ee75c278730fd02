/-!
# `MemStream.Text.Outline` — values as text, on one line or indented

A value that is shown for inspection is first turned into an `Outline`: a word, a record with named
fields, or a tuple. One outline has two layouts, and neither knows what the value meant.

## Contents
- **Shape.** `Outline`, with `Outline.number` and `Outline.flag` for the two kinds of word that occur most.
- **Layouts.** `Outline.oneLine` puts everything on one line; `Outline.lines` gives the indented layout
  line by line and `Outline.indented` joins them.
-/

namespace MemStream.Text

/-- What is to be shown of a value; `oneLine` and `indented` are the two ways to show it. -/
inductive Outline where
  /-- Text that is shown as it is. -/
  | word (text : String)
  /-- Named fields in order; `more` says that further fields are left out. -/
  | record (name : String) (fields : List (String × Outline)) (more : Bool)
  /-- Unnamed parts in order. -/
  | tuple (name : String) (parts : List Outline)

namespace Outline

/-- The `Outline` of a number in decimal. -/
def number (n : Nat) : Outline :=
  .word (toString n)

/-- The `Outline` of a signed number in decimal, with a sign only when it is negative. -/
def signed (z : Int) : Outline :=
  .word (toString z)

/-- The text of a truth value. -/
def flagText (b : Bool) : String :=
  if b then "true" else "false"

/-- The `Outline` of a truth value, by `flagText`. -/
def flag (b : Bool) : Outline :=
  .word (flagText b)

/-! ## Layout on one line -/

/-- Everything on one line: `Name { a: 1, b: 2 }`, `Name { a: 1, .. }` when fields are left out, and
    `Name(1, 2)`. -/
def oneLine : Outline → String
  | .word text => text
  | .record name fields more =>
      let shown := fields.map fun field => field.1 ++ ": " ++ oneLine field.2
      let all := if more then shown ++ [".."] else shown
      name ++ " \x7b " ++ String.intercalate ", " all ++ " \x7d"
  | .tuple name parts =>
      name ++ "(" ++ String.intercalate ", " (parts.map oneLine) ++ ")"
termination_by o => sizeOf o
decreasing_by
  · rename_i h
    have := List.sizeOf_lt_of_mem h
    cases field
    simp_all
    omega
  · rename_i h
    have := List.sizeOf_lt_of_mem h
    simp_all
    omega

/-! ## Indented layout -/

/-- The lines of one part inside a parent: indented by four, its `label` before the first line and a comma after the
    last. -/
def nested (label : String) : List String → List String
  | [] => []
  | [line] => ["    " ++ label ++ line ++ ","]
  | line :: rest =>
      ("    " ++ label ++ line) :: (rest.dropLast.map ("    " ++ ·) ++ ["    " ++ rest.getLastD "" ++ ","])

/-- One part to a line, each level four columns further in, put together by `nested`. -/
def lines : Outline → List String
  | .word text => [text]
  | .record name fields more =>
      let shown := (fields.map fun field => nested (field.1 ++ ": ") (lines field.2)).flatten
      let all := if more then shown ++ ["    .."] else shown
      (name ++ " \x7b") :: (all ++ ["\x7d"])
  | .tuple name parts =>
      (name ++ "(") :: ((parts.map fun part => nested "" (lines part)).flatten ++ [")"])
termination_by o => sizeOf o
decreasing_by
  · rename_i h
    have := List.sizeOf_lt_of_mem h
    cases field
    simp_all
    omega
  · rename_i h
    have := List.sizeOf_lt_of_mem h
    simp_all
    omega

/-- The `lines` as one text. -/
def indented (o : Outline) : String :=
  String.intercalate "\n" o.lines

end Outline

end MemStream.Text
