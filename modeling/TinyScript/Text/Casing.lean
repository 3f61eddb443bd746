import TinyScript.Text.Casing.Context
import TinyScript.Text.Casing.Lower
import TinyScript.Text.Casing.Upper

/-! # Upper and lower case of a text

Full case mapping without regard to language: one character may become several, and a capital
sigma at the end of a word becomes the final form.

* `toUpper`, `toLower`: the mapped text;
* `endsWord`: whether the character between two stretches of text ends a word.
-/

namespace TinyScript.Text

def upperChar (c : Char) : List Char :=
  if c.toNat < 0x80 then [c.toUpper] else mapChar upperShifts upperExpansions c

def lowerChar (c : Char) : List Char :=
  if c.toNat < 0x80 then [c.toLower] else mapChar lowerShifts lowerExpansions c

/-- After case-ignorable characters, the next one is cased. -/
def casedNext (cs : List Char) : Bool :=
  match cs.dropWhile isCaseIgnorable with
  | c :: _ => isCased c
  | [] => false

/-- A letter comes before (nearest first) and none comes after. -/
def endsWord (before after : List Char) : Bool := casedNext before && !casedNext after

/-- The lower-case characters of a text, pushed in front of `done` in reverse; `before` holds the
characters already passed, nearest first. -/
def lowerFrom (before : List Char) (done : List Char) : List Char → List Char
  | [] => done
  | c :: after =>
    let mapped :=
      if c = 'Σ' then (if endsWord before after then ['ς'] else ['σ']) else lowerChar c
    lowerFrom (c :: before) (mapped.reverse ++ done) after

def toLower (s : String) : String := String.ofList (lowerFrom [] [] s.toList).reverse

def toUpper (s : String) : String := String.ofList (s.toList.flatMap upperChar)

end TinyScript.Text
