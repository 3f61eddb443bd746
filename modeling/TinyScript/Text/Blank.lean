import TinyScript.Text.Span

/-! # Blank characters

* `isBlank`: the property `White_Space` of the Unicode character database;
* `trim`: a text without its blank ends;
* `splitAtBlank`: a text cut at its first blank character.
-/

namespace TinyScript.Text

/-- Property `White_Space`. -/
def blanks : List Span := [
  ⟨0x9, 0xD⟩, ⟨0x20, 0x20⟩, ⟨0x85, 0x85⟩, ⟨0xA0, 0xA0⟩, ⟨0x1680, 0x1680⟩, ⟨0x2000, 0x200A⟩,
  ⟨0x2028, 0x2029⟩, ⟨0x202F, 0x202F⟩, ⟨0x205F, 0x205F⟩, ⟨0x3000, 0x3000⟩]

def isBlank (c : Char) : Bool := Span.cover blanks c

def trimChars (cs : List Char) : List Char :=
  ((cs.dropWhile isBlank).reverse.dropWhile isBlank).reverse

/-- The text without the blank characters at its two ends. -/
def trim (s : String) : String := String.ofList (trimChars s.toList)

/-- The characters before the first blank one, and those after it if there is one. -/
def splitAtBlank (cs : List Char) : List Char × List Char :=
  (cs.takeWhile (!isBlank ·), (cs.dropWhile (!isBlank ·)).drop 1)

end TinyScript.Text
