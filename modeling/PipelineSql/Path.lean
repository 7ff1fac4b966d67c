/-!
# Paths and names

A dotted name is the list of its segments. Segments that are all digits are array positions, the
others are members. A path is admissible when every segment is an identifier or a position and the
first is an identifier; a table name is one identifier that starts with a letter.
-/

namespace PipelineSql

/-- A dotted path such as `customer.address.city`, as the list of its segments. -/
structure Path where
  segments : List String
deriving DecidableEq, Repr, Inhabited

namespace Path

/-- The path that a dotted text spells; the empty text is one empty segment. -/
def ofString (s : String) : Path :=
  ⟨(s.toList.splitOn '.').map String.ofList⟩

/-- The dotted text of a path. -/
def toString (p : Path) : String :=
  ".".intercalate p.segments

instance : ToString Path := ⟨toString⟩

/-- The first segment. -/
def root (p : Path) : String :=
  p.segments.headD ""

/-- Is `p` the path `base` or below it? -/
def isWithin (p base : Path) : Bool :=
  base.segments.isPrefixOf p.segments

/-- Is one of the two paths the other or above it? -/
def overlaps (p q : Path) : Bool :=
  p.isWithin q || q.isWithin p

/-- The segments of `p` that go on below `base`, if `p` is strictly below. -/
def below? (p base : Path) : Option (List String) :=
  match base.segments.isPrefixOf? p.segments with
  | some (s :: rest) => some (s :: rest)
  | _ => none

end Path

/-- Is the text made of digits only? Also true of the empty text. -/
def isDigits (s : String) : Bool :=
  s.toList.all Char.isDigit

/-- May the character go on an identifier? -/
def isWordChar (c : Char) : Bool :=
  c.isAlphanum || c == '_'

/-- A step of an SQL/JSON path. -/
def jsonStep (segment : String) : String :=
  match segment.toList with
  | [] => ".\"\""
  | c :: _ =>
    if isDigits segment then "[" ++ segment ++ "]"
    else if c.isAlpha then "." ++ segment
    else ".\"" ++ segment ++ "\""

/-- The segments to follow from a value: the empty text addresses the value itself. -/
def steps (segments : List String) : List String :=
  if segments = [""] then [] else segments

/-- The SQL/JSON path of the given steps, such as `$.items[0].sku`. -/
def jsonPath (segments : List String) : String :=
  "$" ++ String.join (segments.map jsonStep)

/-- The SQL/JSON path of a path. -/
def Path.json (p : Path) : String :=
  jsonPath (steps p.segments)

/-- The most characters a path may have. -/
def maxPathLength : Nat := 128

/-- Is the segment an identifier or an array position? -/
def isSegment (s : String) : Bool :=
  match s.toList with
  | [] => false
  | c :: cs => (c.isAlpha || c == '_') && cs.all isWordChar || isDigits s

/-- Is the path admissible as a field name? -/
def Path.isFieldName (p : Path) : Bool :=
  p.segments.all isSegment && !isDigits p.root && p.toString.length ≤ maxPathLength

/-- Is the text admissible as a table name? -/
def isTableName (s : String) : Bool :=
  match s.toList with
  | [] => false
  | c :: cs => c.isAlpha && cs.all isWordChar && cs.length ≤ 127

end PipelineSql
