import PipelineSql.Text.Alphanumeric

/-!
# Variables in text

A variable is written `$NAME` or `${NAME}`. A name without braces goes as far as letters, numbers
and underscores do; one in braces goes to the closing brace, or to the end if there is none. A
dollar sign that starts no variable stands for itself.
-/

namespace PipelineSql

/-- The environment variables by name. -/
abbrev Variables := List (String × String)

/-- A variable that has no value. -/
structure MissingVariable where
  name : String
deriving DecidableEq, Repr

namespace Expand

/-- Where in the text the next character stands. Names are kept last character first. -/
inductive Position where
  | text
  | dollar
  | name (read : List Char)
  | braced (read : List Char)

/-- A character of a name without braces. -/
def isNameChar (c : Char) : Bool :=
  isAlphanumeric c || c = '_'

/-- The value of a variable. -/
def value (vars : Variables) (read : List Char) : Except MissingVariable String :=
  let name := String.ofList read.reverse
  match vars.lookup name with
  | some v => .ok v
  | none => .error ⟨name⟩

/-- The text from a position on, with variables replaced. -/
def chars (vars : Variables) : Position → List Char → Except MissingVariable String
  | .text, [] => return ""
  | .dollar, [] => return "$"
  | .name read, [] | .braced read, [] => value vars read
  | .text, c :: cs => do
    if c = '$' then chars vars .dollar cs
    else return c.toString ++ (← chars vars .text cs)
  | .dollar, c :: cs => do
    if c = '\x7b' then chars vars (.braced []) cs
    else if isNameChar c then chars vars (.name [c]) cs
    else if c = '$' then return "$" ++ (← chars vars .dollar cs)
    else return "$" ++ c.toString ++ (← chars vars .text cs)
  | .name read, c :: cs => do
    if isNameChar c then chars vars (.name (c :: read)) cs
    else
      let v ← value vars read
      if c = '$' then return v ++ (← chars vars .dollar cs)
      else return v ++ c.toString ++ (← chars vars .text cs)
  | .braced read, c :: cs => do
    if c = '\x7d' then
      let v ← value vars read
      return v ++ (← chars vars .text cs)
    else chars vars (.braced (c :: read)) cs

end Expand

/-- The text with variables replaced by their values, which are not expanded again. -/
def expand (vars : Variables) (text : String) : Except MissingVariable String :=
  Expand.chars vars .text text.toList

end PipelineSql
