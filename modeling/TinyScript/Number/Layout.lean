import TinyScript.Number.Parts
import TinyScript.Number.Shortest

/-! # The text of a number

Every text of a number shows its shortest decimal; a `Layout` settles the rest.

* `shown`: what scripts print;
* `plain`: the same with `inf` for an infinity, used when a token is described;
* `coded`: always with a point or an exponent, used in listings.
-/

namespace TinyScript.Number

/-- The choices that a text of numbers makes. -/
structure Layout where
  infinity : String
  /-- Positional for leading digits of these powers of ten, an exponent for others. -/
  positional : Int → Bool
  pointed : Bool

def digitText (n : Nat) : String := String.ofList (Nat.toDigits 10 n)

def zeros (n : Nat) : String := String.ofList (List.replicate n '0')

namespace Decimal

def leading (d : Decimal) : Int := ((digitText d.digits).length : Int) - 1 + d.exponent

def positional (d : Decimal) : String :=
  let text := digitText d.digits
  match d.exponent with
  | .ofNat k => text ++ zeros k
  | .negSucc k =>
    if text.length ≤ k + 1 then "0." ++ zeros (k + 1 - text.length) ++ text
    else
      let cs := text.toList
      let whole := text.length - (k + 1)
      String.ofList (cs.take whole) ++ "." ++ String.ofList (cs.drop whole)

def scientific (d : Decimal) : String :=
  let exponent := "e" ++ toString d.leading
  match (digitText d.digits).toList with
  | [] => exponent
  | [c] => String.singleton c ++ exponent
  | c :: rest => String.singleton c ++ "." ++ String.ofList rest ++ exponent

def text (layout : Layout) (d : Decimal) : String :=
  if layout.positional d.leading then
    match layout.pointed, d.exponent with
    | true, .ofNat _ => d.positional ++ ".0"
    | _, _ => d.positional
  else d.scientific

end Decimal

def sign (negative : Bool) (text : String) : String := if negative then "-" ++ text else text

def text (layout : Layout) (x : Float) : String :=
  match parts x with
  | .nan => "NaN"
  | .infinite negative => sign negative layout.infinity
  | .finite negative m e => sign negative ((shortest m e).text layout)

/-- What scripts print: `3`, `0.5`, `-0`, `Infinity`; never an exponent. -/
def shown : Layout := ⟨"Infinity", fun _ => true, false⟩

/-- As `shown`, with an infinity written `inf`. -/
def plain : Layout := ⟨"inf", fun _ => true, false⟩

/-- `3.0`, `1e16`, `1.5e-5`, `inf`: positional from `10 ^ -4` up to and without `10 ^ 16`. -/
def coded : Layout := ⟨"inf", fun k => -4 ≤ k && k < 16, true⟩

end TinyScript.Number
