/-! # Shifts of characters

Case mappings move most letters by a fixed distance, either every letter of a run or every second
one.
-/

namespace TinyScript.Text

/-- The characters `first`, `first + stride`, … up to `last`, each moved by `distance`. -/
structure Shift where
  first : Nat
  last : Nat
  stride : Nat
  distance : Int

namespace Shift

def applies (s : Shift) (n : Nat) : Bool :=
  s.first ≤ n && n ≤ s.last && (n - s.first) % s.stride == 0

def moveBy (shifts : List Shift) (n : Nat) : Nat :=
  match shifts.find? (·.applies n) with
  | some s => (n + s.distance).toNat
  | none => n

end Shift

/-- The mapping of one character: its expansion if it has one, else its shifted form. -/
def mapChar (shifts : List Shift) (expansions : List (Nat × List Nat)) (c : Char) : List Char :=
  match expansions.lookup c.toNat with
  | some several => several.map Char.ofNat
  | none => [Char.ofNat (Shift.moveBy shifts c.toNat)]

end TinyScript.Text
