import TinyScript.Bytecode.Operation
import TinyScript.Proofs.NameMap

/-! # What the operators and functions of stack machines object to

An operator fails for the kinds of its operands (`Instr.combine_error`).  A host function may give any
error, and an error that none of them gives is `Unfeigned`; the functions that every machine starts with
object to their arguments and to nothing else (`unfeigned_standard`).
-/

namespace TinyScript

theorem Instr.combine_error {op : BinaryOp} {a b : Scalar} {error : ExecutionError}
    (failed : combine op a b = .error error) : error = mismatch op a b := by
  unfold combine at failed
  repeat' split at failed
  all_goals cases failed
  all_goals rfl

/-- One of the functions gives this error to arguments of its own number. -/
def HostAnswers (functions : NameMap HostFunction) (error : ExecutionError) : Prop :=
  ∃ name function clock args, functions.get? name = some function ∧ args.length = function.arity ∧
    (function.body.run clock args).1 = .error error

/-- No function gives the error, so that it is the machine's own. -/
def Unfeigned (functions : NameMap HostFunction) (error : ExecutionError) : Prop :=
  ¬HostAnswers functions error

namespace HostFunction

variable {function : HostFunction} {name : String} {args : List Scalar} {index : Nat} {clock : Clock}
  {error : ExecutionError}

/-- The function fails only with an objection to an argument. -/
def Objects (function : HostFunction) : Prop :=
  ∀ clock args error, (function.body.run clock args).1 = .error error →
    ∃ name fault, error = .argument name fault

theorem number_error (failed : number name args index = .error error) :
    ∃ name fault, error = .argument name fault := by
  unfold number at failed
  split at failed
  · cases failed
  · cases failed
    exact ⟨_, _, rfl⟩
  · cases failed
    exact ⟨_, _, rfl⟩

theorem objects_unaryMath (name : String) (f : Float → Float) : (unaryMath name f).Objects := by
  intro clock args error failed
  cases read : number name args 0 with
  | error wrong =>
    simp only [unaryMath, HostBody.apply, read, bind, Except.bind] at failed
    cases failed
    exact number_error read
  | ok x =>
    simp only [unaryMath, HostBody.apply, read] at failed
    cases failed

/-- Two numbers are read, and what is made of them is a number. -/
theorem objects_of_two (name : String) (f : Float → Float → Float) :
    (HostFunction.mk 2 (.apply fun args => do
      return .number (f (← number name args 0) (← number name args 1)))).Objects := by
  intro clock args error failed
  cases first : number name args 0 with
  | error wrong =>
    simp only [HostBody.apply, first, bind, Except.bind] at failed
    cases failed
    exact number_error first
  | ok x =>
    cases second : number name args 1 with
    | error wrong =>
      simp only [HostBody.apply, first, second, bind, Except.bind] at failed
      cases failed
      exact number_error second
    | ok y =>
      simp only [HostBody.apply, first, second] at failed
      cases failed

theorem objects_now : (HostFunction.mk 0 .now).Objects := nofun

theorem objects_standard (found : standard.get? name = some function) : function.Objects := by
  have member := NameMap.mem_of_get?_ofList found
  simp only [List.mem_cons, Prod.mk.injEq, List.not_mem_nil, or_false] at member
  rcases member with ⟨_, rfl⟩ | ⟨_, rfl⟩ | ⟨_, rfl⟩ | ⟨_, rfl⟩ | ⟨_, rfl⟩ | ⟨_, rfl⟩ | ⟨_, rfl⟩ |
    ⟨_, rfl⟩ | ⟨_, rfl⟩ | ⟨_, rfl⟩ | ⟨_, rfl⟩
  · exact objects_of_two "Math.pow" Float.pow
  iterate 7 exact objects_unaryMath _ _
  · exact objects_of_two "Math.max" fun x y => Math.max [x, y]
  · exact objects_of_two "Math.min" fun x y => Math.min [x, y]
  · exact objects_now

end HostFunction

/-- What is no objection to an argument is not feigned by the functions that every machine starts with. -/
theorem unfeigned_standard {error : ExecutionError} (other : ∀ name fault, error ≠ .argument name fault) :
    Unfeigned HostFunction.standard error := by
  rintro ⟨_, _, _, _, found, _, failed⟩
  obtain ⟨name, fault, same⟩ := HostFunction.objects_standard found _ _ _ failed
  exact other name fault same

end TinyScript
