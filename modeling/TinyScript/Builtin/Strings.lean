import TinyScript.Number.Parts
import TinyScript.Text.Casing

/-! # The functions of `String`

Positions count characters; a negative one counts from the end.
-/

namespace TinyScript.Strings

/-- The place that an index names in a text of `length` characters: its fraction is dropped, a
negative index counts from the end, and what lies outside is moved to the nearer end. NaN is the
start. -/
def place (length : Nat) : Number.Whole → Nat
  | .nan => 0
  | .infinite negative => if negative then 0 else length
  | .int (.ofNat i) => min i length
  | .int (.negSucc i) => length - (i + 1)

def sliceChars (cs : List Char) (start stop : Nat) : List Char := (cs.take stop).drop start

def slice (s : String) (start : Float) (stop : Option Float) : String :=
  let cs := s.toList
  let n := cs.length
  let stop := match stop with
    | some stop => place n (Number.wholePart stop)
    | none => n
  String.ofList (sliceChars cs (place n (Number.wholePart start)) stop)

/-- Replaces the first occurrence of `search`; `passed` holds the characters before, last first. -/
def replaceChars (search replacement : List Char) : List Char → List Char → List Char
  | [], passed => if search.isEmpty then passed.reverse ++ replacement else passed.reverse
  | c :: rest, passed =>
    if search.isPrefixOf (c :: rest) then
      passed.reverse ++ replacement ++ (c :: rest).drop search.length
    else replaceChars search replacement rest (c :: passed)

def replaceFirst (s search replacement : String) : String :=
  String.ofList (replaceChars search.toList replacement.toList s.toList [])

end TinyScript.Strings
