import TinyScript.Number.Parts

/-! # Shortest decimals

The fewest decimal digits that read back as a given binary64 value, and of those the nearest to
it; of two that are equally near, the greater.

A value `m · 2 ^ e` is what every real between its two neighbouring midpoints rounds to; the
midpoints themselves round to it exactly when `m` is even. `Interval` holds value and midpoints as
multiples of `2 ^ (e - 2)`. `search` tries ever finer decimal grids, testing on each the two grid
points next to the value.
-/

namespace TinyScript.Number

/-- The decimal `digits · 10 ^ exponent`. -/
structure Decimal where
  digits : Nat
  exponent : Int
  deriving Repr, DecidableEq

/-- A value and the midpoints below and above it, as multiples of `2 ^ unit`. -/
structure Interval where
  value : Nat
  below : Nat
  above : Nat
  closed : Bool
  unit : Int

/-- The reals that round to `m · 2 ^ e`. Below a power of two the values lie twice as dense. -/
def Interval.around (m : Nat) (e : Int) : Interval where
  value := 4 * m
  below := if m = implicitBit ∧ e ≠ -1074 then 4 * m - 1 else 4 * m - 2
  above := 4 * m + 2
  closed := m % 2 == 0
  unit := e - 2

namespace Interval

/-- The factors `(a, b)` with `2 ^ unit = (a / b) · 10 ^ k`. -/
def factors (i : Interval) (k : Int) : Nat × Nat :=
  (Nat.pow 10 (-k).toNat <<< i.unit.toNat, Nat.pow 10 k.toNat <<< (-i.unit).toNat)

/-- The decimal `d · 10 ^ k` rounds to the value. -/
def holds (i : Interval) (k : Int) (d : Nat) : Bool :=
  let (a, b) := i.factors k
  if i.closed then i.below * a ≤ d * b && d * b ≤ i.above * a
  else i.below * a < d * b && d * b < i.above * a

/-- The grid point `d · 10 ^ k` next to the value that rounds to it, the nearer of two and the
upper of two that are equally near. -/
def pick? (i : Interval) (k : Int) : Option Nat :=
  let (a, b) := i.factors k
  let d := i.value * a / b
  match i.holds k d, i.holds k (d + 1) with
  | true, true =>
    if i.value * a - d * b < (d + 1) * b - i.value * a then some d else some (d + 1)
  | true, false => some d
  | false, true => some (d + 1)
  | false, false => none

/-- Tries the grids `10 ^ k`, `10 ^ (k - 1)`, … until one has a point that rounds to the value. -/
def search (i : Interval) : Nat → Int → Decimal
  | 0, k => ⟨i.value * (i.factors k).1 / (i.factors k).2, k⟩
  | n + 1, k =>
    match i.pick? k with
    | some d => ⟨d, k⟩
    | none => search i n (k - 1)

end Interval

/-- A power of ten that is at least `m · 2 ^ e`, and not by much. -/
def decimalScale (m : Nat) (e : Int) : Int := ((m.log2 : Int) + e) * 30103 / 100000 + 2

/-- The shortest decimal that reads back as `m · 2 ^ e`; zero is `0 · 10 ^ 0`. -/
def shortest (m : Nat) (e : Int) : Decimal :=
  if m = 0 then ⟨0, 0⟩ else (Interval.around m e).search 24 (decimalScale m e)

end TinyScript.Number
