/-! # Spans of characters

A property of characters is a list of spans, each an inclusive range of scalar values.
-/

namespace TinyScript.Text

/-- The scalar values from `first` to `last`, both included. -/
structure Span where
  first : Nat
  last : Nat

namespace Span

def contains (s : Span) (c : Char) : Bool := s.first ≤ c.toNat && c.toNat ≤ s.last

def cover (spans : List Span) (c : Char) : Bool := spans.any (·.contains c)

end Span

end TinyScript.Text
