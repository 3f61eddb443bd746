import TinyScript.Proofs.Parser.Canonical

/-! # Literals of programs that are read

Every number in a program that a text spells is the value of a run of digits.
-/

namespace TinyScript

/-- A number that is the value of a run of digits. -/
def Literal.Spelled : Literal → Prop
  | .number x => ∃ ds, x = Number.ofDigits ds
  | _ => True

def Node.Spelled : Node → Prop
  | .expr (.literal value) => value.Spelled
  | _ => True

/-- The numbers of a program that a text spells are values of runs of digits. -/
theorem parseProgram_spelled {source : String} {p : Program} (parsed : parseProgram source = .ok p)
    {value : Literal} (member : Node.literal value ∈ p.nodes) : value.Spelled := by
  have canonical := Program.canonical_of_parse parsed _ member
  cases value with
  | number x =>
    obtain ⟨ds, _, rfl⟩ := canonical
    exact ⟨ds, rfl⟩
  | _ => trivial

end TinyScript
