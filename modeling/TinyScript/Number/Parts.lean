/-! # The parts of a number

Script numbers are binary64 values. `parts` reads the value off the bits as a whole number times
a power of two, in which exact arithmetic is possible; `wholePart` is what is left of a number
without its fraction.
-/

namespace TinyScript.Number

/-- A number: not a number, an infinity, or `± mantissa · 2 ^ exponent`. -/
inductive Parts where
  | nan
  | infinite (negative : Bool)
  | finite (negative : Bool) (mantissa : Nat) (exponent : Int)
  deriving Repr, DecidableEq

/-- The place value `2 ^ 52` of the leading bit, which a normal number leaves unwritten. -/
def implicitBit : Nat := 0x10000000000000

def partsOfBits (bits : Nat) : Parts :=
  let negative := bits / 0x8000000000000000 % 2 == 1
  let field : Nat := bits / implicitBit % 2048
  let fraction : Nat := bits % implicitBit
  if field = 2047 then
    if fraction = 0 then .infinite negative else .nan
  else if field = 0 then .finite negative fraction (-1074)
  else .finite negative (implicitBit + fraction) (field - 1075)

def parts (x : Float) : Parts := partsOfBits x.toBits.toNat

/-- A number rounded toward zero. -/
inductive Whole where
  | nan
  | infinite (negative : Bool)
  | int (value : Int)
  deriving Repr, DecidableEq

def truncate (mantissa : Nat) : Int → Nat
  | .ofNat e => mantissa <<< e
  | .negSucc e => mantissa >>> (e + 1)

def Parts.whole : Parts → Whole
  | .nan => .nan
  | .infinite negative => .infinite negative
  | .finite negative mantissa exponent =>
    let size := truncate mantissa exponent
    .int (if negative then -(size : Int) else size)

def wholePart (x : Float) : Whole := (parts x).whole

end TinyScript.Number
