/-!
# Shortest decimals

A finite binary64 number is `± significand · 2 ^ exponent`. Its shortest decimal is the one with the
fewest digits among those that round back to it, found by exact arithmetic on natural numbers: scale
the number and the ends of its rounding interval by one power of ten to integers, and take the
largest power of ten that has a multiple in the interval.
-/

namespace PipelineSql

/-- A finite binary64 number taken apart as `± significand · 2 ^ exponent`. -/
structure Binary where
  negative : Bool
  significand : Nat
  exponent : Int
  /-- The number is a power of two whose lower neighbour is half as far as its upper one. -/
  edge : Bool
deriving DecidableEq, Repr

/-- A decimal `± digits · 10 ^ exponent`. -/
structure Decimal where
  negative : Bool
  digits : Nat
  exponent : Int
deriving DecidableEq, Repr

/-- How an exponent of zero or more is written in scientific notation. -/
inductive ExponentSign where
  /-- `1e16` -/
  | bare
  /-- `1e+16` -/
  | plus
deriving DecidableEq, Repr

namespace Binary

/-- The parts of a finite number; infinities and NaN have none. -/
def ofFloat? (x : Float) : Option Binary :=
  let bits := x.toBits.toNat
  let hidden := Nat.pow 2 52
  let negative := bits / Nat.pow 2 63 == 1
  let field : Nat := bits / hidden % 2048
  let fraction : Nat := bits % hidden
  if field = 2047 then none
  else if field = 0 then some ⟨negative, fraction, -1074, false⟩
  else some ⟨negative, fraction + hidden, (field : Int) - 1075, fraction == 0 && 1 < field⟩

/-- The number itself, if it is an integer. -/
def toInt? (b : Binary) : Option Int :=
  let magnitude? : Option Nat :=
    if 0 ≤ b.exponent then some (b.significand * Nat.pow 2 b.exponent.toNat)
    else
      let unit := Nat.pow 2 (-b.exponent).toNat
      if b.significand % unit = 0 then some (b.significand / unit) else none
  magnitude?.map fun n => if b.negative then -(n : Int) else n

end Binary

namespace Decimal

/-- Is `c · step` in the rounding interval from `lo` to `hi`? -/
def inside (lo hi : Nat) (closed : Bool) (step c : Nat) : Bool :=
  if closed then lo ≤ c * step && c * step ≤ hi else lo < c * step && c * step < hi

/-- The multiple of `step` in the interval that is nearest to `v`; a tie goes to the even one. -/
def nearest? (v lo hi : Nat) (closed : Bool) (step : Nat) : Option Nat :=
  let below := v / step
  match inside lo hi closed step below, inside lo hi closed step (below + 1) with
  | true, true =>
    let rest := 2 * (v % step)
    some (if rest < step || rest == step && below % 2 == 0 then below else below + 1)
  | true, false => some below
  | false, true => some (below + 1)
  | false, false => none

/-- The digits and the power of ten of the shortest decimal, searched from `10 ^ j` down. -/
def shortestFrom (v lo hi : Nat) (closed : Bool) : Nat → Nat × Nat
  | 0 => (v, 0)
  | j + 1 =>
    match nearest? v lo hi closed (Nat.pow 10 (j + 1)) with
    | some digits => (digits, j + 1)
    | none => shortestFrom v lo hi closed j

/-- The shortest decimal that rounds to `b`. The interval has its ends if the significand is
even. -/
def ofBinary (b : Binary) : Decimal :=
  if b.significand = 0 then ⟨b.negative, 0, 0⟩
  else
    let exponent := b.exponent - 2
    let scale :=
      if 0 ≤ exponent then Nat.pow 2 exponent.toNat else Nat.pow 5 (-exponent).toNat
    let shift : Int := if 0 ≤ exponent then 0 else exponent
    let v := 4 * b.significand * scale
    let lo := (4 * b.significand - (if b.edge then 1 else 2)) * scale
    let hi := (4 * b.significand + 2) * scale
    let (digits, j) := shortestFrom v lo hi (b.significand % 2 == 0) (Nat.repr hi).length
    ⟨b.negative, digits, j + shift⟩

/-- The shortest decimal of a finite number. -/
def ofFloat? (x : Float) : Option Decimal :=
  (Binary.ofFloat? x).map ofBinary

/-- `n` zeros. -/
def zeros (n : Nat) : String :=
  String.ofList (List.replicate n '0')

/-- The text of a decimal: positional while the point falls at most sixteen places to the right of
the first digit and fewer than five to its left, scientific beyond. -/
def toText (sign : ExponentSign) (d : Decimal) : String :=
  let digits := Nat.repr d.digits
  let point : Int := digits.length + d.exponent
  let body :=
    if d.digits = 0 then "0.0"
    else if 0 ≤ d.exponent ∧ point ≤ 16 then digits ++ zeros d.exponent.toNat ++ ".0"
    else if 0 < point ∧ point ≤ 16 then
      let cs := digits.toList
      String.ofList (cs.take point.toNat) ++ "." ++ String.ofList (cs.drop point.toNat)
    else if -5 < point ∧ point ≤ 0 then "0." ++ zeros (-point).toNat ++ digits
    else
      let fraction :=
        match digits.toList with
        | first :: rest@(_ :: _) => String.ofList (first :: '.' :: rest)
        | cs => String.ofList cs
      let mark := if sign = .plus ∧ 1 ≤ point then "e+" else "e"
      fraction ++ mark ++ toString (point - 1)
  if d.negative then "-" ++ body else body

/-- The binary64 number nearest to a decimal. -/
def toFloat (d : Decimal) : Float :=
  let length : Int := (Nat.repr d.digits).length
  let magnitude : Float :=
    if d.digits = 0 ∨ length + d.exponent < -400 then 0.0
    else if 400 < d.exponent then 1.0 / 0.0
    else Float.ofScientific d.digits (d.exponent < 0) d.exponent.natAbs
  if d.negative then -magnitude else magnitude

end Decimal

end PipelineSql
