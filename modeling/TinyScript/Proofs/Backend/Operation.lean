import TinyScript.Builtin.Table
import TinyScript.Proofs.Bytecode.Operation

/-! # The operators and functions of both back ends

Stack machines compute with operators and functions of their own.  On scalars their operators are those of
the evaluator, with the same symbols in errors (`Instr.combine_eq`).  Each of their functions of `Math` does
to as many arguments as it wants what the evaluator's function of that name does (`HostFunction.Does`), down
to the argument that it objects to (`HostFunction.standard_math`).
-/

namespace TinyScript

theorem Instr.combine_eq (op : BinaryOp) (a b : Scalar) : combine op a b = op.onScalars a b := by
  cases op <;> cases a <;> cases b <;> rfl

/-- What a function of the evaluator sees of an argument. -/
def Scalar.given (a : Scalar) : Kind × Option Float := (a.kind, a.number?)

namespace HostFunction

/-- A host function answers its arguments as the evaluator's function does, and leaves the clock alone. -/
def Does (host : HostFunction) (f : MathFunction) : Prop :=
  ∀ clock args, args.length = host.arity →
    host.body.run clock args = ((f.call (args.map Scalar.given)).map .number, clock)

theorem unaryMath_does (name : String) (f : Float → Float) :
    (unaryMath ("Math." ++ name) f).Does (.unary name f) := by
  intro clock args length
  obtain ⟨a, rfl⟩ := List.length_eq_one_iff.1 length
  cases a <;> rfl

theorem binaryMath_does (name : String) (f : List Float → Float) :
    (binaryMath ("Math." ++ name) f).Does (.variadic name f) := by
  intro clock args length
  obtain ⟨a, b, rfl⟩ := List.length_eq_two.1 length
  cases a <;> cases b <;> rfl

theorem pow_does : pow.Does (.binary "pow" Float.pow) := by
  intro clock args length
  obtain ⟨a, b, rfl⟩ := List.length_eq_two.1 length
  cases a <;> cases b <;> rfl

/-- Each function of `Math` is there under its name. -/
theorem standard_math : ∀ f ∈ mathFunctions,
    ∃ host, standard.get? f.qualifiedName = some host ∧ host.Does f := by
  simp only [mathFunctions, List.forall_mem_cons, List.not_mem_nil, false_implies, implies_true, and_true]
  exact ⟨⟨_, rfl, pow_does⟩, ⟨_, rfl, unaryMath_does "abs" _⟩, ⟨_, rfl, unaryMath_does "sin" _⟩,
    ⟨_, rfl, unaryMath_does "cos" _⟩, ⟨_, rfl, unaryMath_does "sqrt" _⟩,
    ⟨_, rfl, unaryMath_does "floor" _⟩, ⟨_, rfl, unaryMath_does "ceil" _⟩,
    ⟨_, rfl, unaryMath_does "round" _⟩, ⟨_, rfl, binaryMath_does "max" _⟩,
    ⟨_, rfl, binaryMath_does "min" _⟩⟩

/-- Besides them there is the clock. -/
theorem name_of_standard {name : String} {host : HostFunction} (found : standard.get? name = some host) :
    (∃ f ∈ mathFunctions, f.qualifiedName = name) ∨ name = "Date.now" := by
  have member : name ∈ mathFunctions.map MathFunction.qualifiedName ++ ["Date.now"] :=
    List.mem_map_of_mem (f := Prod.fst) (NameMap.mem_of_get?_ofList found)
  simpa using member

end HostFunction

end TinyScript
