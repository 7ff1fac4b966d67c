import PipelineSql.Render.Reading

/-!
# Rows of elements

An array is expanded into rows, one for each element, with its position, its JSON, its text and its
number. Computations over elements are subqueries over these rows.
-/

namespace PipelineSql

/-- The rows of an array's elements: `rn` is the position counted from 1, `value` the element as
JSON, `s` its text and `n` its number. -/
def elementTable (d : Dialect) (a : ArraySource) : ElementTable :=
  { doc := a.doc
    path := a.elementsPath
    columns := [⟨"rn", "FOR ORDINALITY"⟩, ⟨valueColumn, d.elementDefinition⟩,
      ⟨"s", "VARCHAR2(4000) PATH '$'"⟩, ⟨"n", "NUMBER PATH '$'"⟩] }

/-- The columns of the rows of elements. -/
def elementNames : List String :=
  ["rn", valueColumn, "s", "n"]

/-- The rows of an array's elements under an alias. -/
def elementRows (d : Dialect) (a : ArraySource) (label : String) : Fragment :=
  (elementTable d a).fragment ++ " " ++ Fragment.ident label

/-- The rows of elements as a source. -/
def elementSource (label : String) : RowSource :=
  ⟨label, .columns elementNames⟩

/-- A subquery over the rows of an array's elements. -/
def overElements (d : Dialect) (a : ArraySource) (label : String) (selected rest : Fragment) :
    Fragment :=
  Fragment.subquery [elementSource label]
    ("SELECT " ++ selected ++ " FROM " ++ elementRows d a label ++ rest)

/-- `JSON_ARRAYAGG` of a value in an order. -/
def arrayOf (value : Fragment) (json : Bool) (order : Fragment) : Fragment :=
  "JSON_ARRAYAGG" ++ Fragment.paren (value.formatted json ++ " ORDER BY " ++ order)

/-- The least or greatest of values that are numbers or text. Numbers order before text, and the
result is text. Each aggregate is followed by `window`. -/
def mixedExtreme (number text : Fragment) (greatest : Bool) (window : Fragment) : Fragment :=
  if greatest then
    let texts := Fragment.cases [((Condition.isNull number).fragment, text)] none
    Fragment.call "COALESCE"
      [Fragment.call "MAX" [texts] ++ window,
        Fragment.call "TO_CHAR" [Fragment.call "MAX" [number] ++ window]]
  else
    Fragment.call "COALESCE"
      [Fragment.call "TO_CHAR" [Fragment.call "MIN" [number] ++ window],
        Fragment.call "MIN" [text] ++ window]

namespace Render

/-- An aggregate of the numbers of an array. -/
def numberAggregate (function : String) (array : Reading) : Render Fragment := do
  let a ← array.source
  let label ← newAlias "elem"
  return overElements (← read).dialect a label
    (Fragment.call function [Fragment.column label "n"]) []

/-- The least or greatest element of an array. -/
def elementExtreme (greatest : Bool) (array : Reading) : Render Fragment := do
  warn (.elementType (if greatest then "$max" else "$min"))
  let a ← array.source
  let label ← newAlias "elem"
  return overElements (← read).dialect a label
    (mixedExtreme (Fragment.column label "n") (Fragment.column label "s") greatest []) []

end Render

end PipelineSql
