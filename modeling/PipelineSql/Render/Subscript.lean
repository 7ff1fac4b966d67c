import PipelineSql.Error

/-!
# Array subscripts

Positions in an SQL/JSON path count from the start of an array or back from its last element. A
subscript has at most 31 bits, and no array is that long.
-/

namespace PipelineSql

/-- A position in an array. -/
inductive Subscript where
  | index (n : Nat)
  /-- `last`, or so many before it. -/
  | fromLast (n : Nat)
deriving DecidableEq, Repr

namespace Subscript

/-- The greatest number in a subscript. -/
def greatest : Nat := Nat.pow 2 31 - 1

/-- The text of a subscript. -/
def text : Subscript → String
  | .index n => toString (min n greatest)
  | .fromLast 0 => "last"
  | .fromLast n => s!"last-{min n greatest}"

/-- The position of an index that may be negative. -/
def ofIndex (i : Int) : Subscript :=
  if 0 ≤ i then .index i.natAbs else .fromLast (i.natAbs - 1)

/-- The first and last position that `$slice` takes; none if it takes nothing. -/
def ofSlice (skip : Option Int) (count : Int) : Option (Subscript × Subscript) :=
  let taken := count.natAbs
  match skip with
  | none =>
    if 0 < count then some (.index 0, .index (taken - 1))
    else if count < 0 then some (.fromLast (taken - 1), .fromLast 0)
    else none
  | some s =>
    if count ≤ 0 then none
    else if 0 ≤ s then some (.index s.natAbs, .index (s.natAbs + (taken - 1)))
    else some (.fromLast (s.natAbs - 1), .fromLast (s.natAbs - 1 - (taken - 1)))

end Subscript

end PipelineSql
