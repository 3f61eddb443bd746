/-! # Reading numbers

* `ofDigits`: the value of a run of decimal digits, rounded to nearest, too large ones to infinity;
* `read?`: the written forms of any number: a name, a sign and decimal digits, or the 64 bits.
-/

namespace TinyScript.Number

def isDigit (c : Char) : Bool := '0' ≤ c && c ≤ '9'

def natOfDigits (ds : List Char) : Nat := ds.foldl (fun n d => 10 * n + (d.toNat - '0'.toNat)) 0

def ofDigits (ds : List Char) : Float := Float.ofScientific (natOfDigits ds) false 0

def hexDigit (c : Char) : Nat :=
  if isDigit c then c.toNat - '0'.toNat
  else if 'a' ≤ c ∧ c ≤ 'f' then c.toNat - 'a'.toNat + 10
  else c.toNat - 'A'.toNat + 10

def ofHex (ds : List Char) : Float :=
  Float.ofBits (ds.foldl (fun n d => 16 * n + hexDigit d) 0).toUInt64

/-- Decimal digits with at most one point among them. -/
def ofDecimal? (cs : List Char) : Option Float :=
  let whole := cs.takeWhile isDigit
  match cs.dropWhile isDigit with
  | [] => if whole.isEmpty then none else some (ofDigits whole)
  | '.' :: places =>
    if places.all isDigit then
      some (Float.ofScientific (natOfDigits (whole ++ places)) true places.length)
    else none
  | _ => none

/-- `NaN`, `Infinity`, a decimal, either of these after a minus sign, or `0x` and the bits. -/
def read? (s : String) : Option Float :=
  match s.toList with
  | '0' :: 'x' :: ds => some (ofHex ds)
  | '-' :: cs =>
    if cs = "Infinity".toList then some (-(1.0 / 0.0)) else (ofDecimal? cs).map (-·)
  | cs =>
    if s = "NaN" then some (0.0 / 0.0)
    else if s = "Infinity" then some (1.0 / 0.0)
    else ofDecimal? cs

end TinyScript.Number
