/-! # Positions in source text -/

namespace TinyScript

/-- A place between two characters: line and column count from one, the offset from zero. -/
structure Position where
  line : Nat
  column : Nat
  offset : Nat
  deriving Repr, DecidableEq, Inhabited

namespace Position

def start : Position := ⟨1, 1, 0⟩

def next (p : Position) (c : Char) : Position :=
  if c = '\n' then ⟨p.line + 1, 1, p.offset + 1⟩ else ⟨p.line, p.column + 1, p.offset + 1⟩

def advance (p : Position) (cs : List Char) : Position := cs.foldl next p

@[simp] theorem advance_nil (p : Position) : p.advance [] = p := rfl

@[simp] theorem advance_cons (p : Position) (c : Char) (cs : List Char) :
    p.advance (c :: cs) = (p.next c).advance cs := rfl

theorem advance_append (p : Position) (as bs : List Char) :
    p.advance (as ++ bs) = (p.advance as).advance bs := by
  simp [advance]

@[simp] theorem next_offset (p : Position) (c : Char) : (p.next c).offset = p.offset + 1 := by
  unfold next
  split <;> rfl

theorem advance_offset (p : Position) (cs : List Char) :
    (p.advance cs).offset = p.offset + cs.length := by
  induction cs generalizing p with
  | nil => rfl
  | cons c cs ih => simp [ih]; omega

def text (p : Position) : String := toString p.line ++ ":" ++ toString p.column

end Position

end TinyScript
