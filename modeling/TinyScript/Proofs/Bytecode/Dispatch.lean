import TinyScript.Proofs.Bytecode.Operation
import TinyScript.Proofs.Bytecode.Run

/-! # What one instruction does

Everything that holds of whole runs comes from two inversions.  An instruction that is dispatched has found
its operands, and leaves a stack of a height that depends on nothing but its own (`Config.dispatch_effect`).
One that fails has something wrong with it, and `Config.Objects` lists all that this can be
(`Config.dispatch_objects`).
-/

namespace TinyScript

namespace Instr

/-- The number of operands that an instruction takes or looks at. -/
def needs : Instr → Nat
  | .storeVar _ | .pop | .dup | .jumpIfFalse _ => 1
  | .binary _ => 2
  | .call _ argc => argc
  | _ => 0

/-- The height that an instruction leaves. -/
def after (height : Nat) : Instr → Nat
  | .loadConst _ | .loadVar _ | .dup => height + 1
  | .storeVar _ | .pop | .binary _ | .jumpIfFalse _ => height - 1
  | .call _ argc => height - argc + 1
  | .jump _ | .halt => height

end Instr

namespace Config

variable {functions : NameMap HostFunction} {constants : Array Scalar} {c d : Config} {i : Instr}
  {error : ExecutionError}

/-! ## Operands -/

theorem exists_two_of_le_length {stack : List Scalar} (enough : 2 ≤ stack.length) :
    ∃ right left rest, stack = right :: left :: rest := by
  match stack, enough with
  | right :: left :: rest, _ => exact ⟨right, left, rest, rfl⟩

/-- What takes an operand and succeeds has found one. -/
theorem exists_of_take_eq_ok {α : Type} {next : Scalar × List Scalar → Except ExecutionError α} {a : α}
    (taken : (c.take >>= next) = .ok a) :
    ∃ top rest, c.stack = top :: rest ∧ next (top, rest) = .ok a := by
  unfold Config.take at taken
  split at taken
  · next top rest stack => exact ⟨top, rest, stack, taken⟩
  · cases taken

theorem callHost_ok {body : HostBody} {args rest : List Scalar}
    (called : c.callHost body args rest = .ok d) :
    d.stack.length = rest.length + 1 ∧ d.index = c.index + 1 := by
  unfold callHost at called
  split at called
  · cases called
    exact ⟨rfl, rfl⟩
  · cases called

theorem callHost_error {body : HostBody} {args rest : List Scalar}
    (failed : c.callHost body args rest = .error error) :
    (body.run c.clock args).1 = .error error := by
  unfold callHost at failed
  split at failed
  · cases failed
  · next answer =>
    cases failed
    rw [answer]

/-! ## Success -/

/-- An instruction that is dispatched finds its operands, changes the height of the stack by what is its
own, and leads to the next index or to its target. -/
theorem dispatch_effect (dispatched : c.dispatch functions constants i = .ok (some d)) :
    i.needs ≤ c.stack.length ∧ d.stack.length = i.after c.stack.length ∧
      (d.index = c.index + 1 ∨ i.target? = some d.index) := by
  cases i with
  | loadConst constant =>
    simp only [Config.dispatch] at dispatched
    split at dispatched
    · cases dispatched
      exact ⟨Nat.zero_le _, rfl, .inl rfl⟩
    · cases dispatched
  | loadVar name =>
    simp only [Config.dispatch] at dispatched
    split at dispatched
    · cases dispatched
      exact ⟨Nat.zero_le _, rfl, .inl rfl⟩
    · cases dispatched
  | storeVar name =>
    obtain ⟨top, rest, stack, stored⟩ := exists_of_take_eq_ok dispatched
    cases stored
    exact ⟨by simp [stack, Instr.needs], by simp [stack, Instr.after, advance], .inl rfl⟩
  | binary op =>
    obtain ⟨right, below, stack, combined⟩ := exists_of_take_eq_ok dispatched
    cases below with
    | nil => cases combined
    | cons left rest =>
      rw [dispatch_binary stack] at dispatched
      cases result : Instr.combine op left right with
      | error error => simp [result, Except.map] at dispatched
      | ok value =>
        simp only [result, Except.map, Except.ok.injEq, Option.some.injEq] at dispatched
        cases dispatched
        exact ⟨by simp [stack, Instr.needs], by simp [stack, Instr.after, advance], .inl rfl⟩
  | dup =>
    obtain ⟨top, rest, stack, copied⟩ := exists_of_take_eq_ok dispatched
    cases copied
    exact ⟨by simp [stack, Instr.needs], by simp [stack, Instr.after, advance], .inl rfl⟩
  | pop =>
    obtain ⟨top, rest, stack, dropped⟩ := exists_of_take_eq_ok dispatched
    cases dropped
    exact ⟨by simp [stack, Instr.needs], by simp [stack, Instr.after, advance], .inl rfl⟩
  | call name argc =>
    simp only [Config.dispatch] at dispatched
    split at dispatched
    · cases dispatched
    · next function _ =>
      split at dispatched
      · cases dispatched
      · next same =>
        have same : argc = function.arity := not_not.1 same
        subst same
        split at dispatched
        · cases dispatched
        · next enough =>
          cases answer : c.callHost function.body (c.stack.take function.arity).reverse
              (c.stack.drop function.arity) with
          | error error =>
            rw [answer] at dispatched
            cases dispatched
          | ok e =>
            rw [answer] at dispatched
            cases dispatched
            obtain ⟨height, next⟩ := callHost_ok answer
            refine ⟨Nat.not_lt.1 enough, ?_, .inl next⟩
            rw [height, List.length_drop]
            rfl
  | jump target =>
    cases dispatched
    exact ⟨Nat.zero_le _, rfl, .inr rfl⟩
  | jumpIfFalse target =>
    obtain ⟨top, rest, stack, _⟩ := exists_of_take_eq_ok dispatched
    rw [dispatch_jumpIfFalse stack] at dispatched
    have needed : 1 ≤ c.stack.length := by simp [stack]
    split at dispatched
    · cases dispatched
      exact ⟨needed, by simp [stack, Instr.after, advance], .inl rfl⟩
    · cases dispatched
      exact ⟨needed, by simp [stack, Instr.after], .inr rfl⟩
  | halt => cases dispatched

/-! ## Failure -/

/-- What is wrong with an instruction in a state. -/
inductive Objects (functions : NameMap HostFunction) (constants : Array Scalar) (c : Config) :
    Instr → ExecutionError → Prop where
  | constant {constant : Nat} : constants.size ≤ constant →
      Objects functions constants c (.loadConst constant)
        (.invalidBytecode (.invalidConstant c.index constant constants.size))
  | unbound {name : String} : c.globals.get? name = none →
      Objects functions constants c (.loadVar name) (.undefinedIdentifier name)
  | operands {i : Instr} : c.stack.length < i.needs →
      Objects functions constants c i (.stackUnderflow c.index)
  | kinds (op : BinaryOp) (left right : Scalar) :
      Objects functions constants c (.binary op) (Instr.mismatch op left right)
  | missing {name : String} {argc : Nat} : functions.get? name = none →
      Objects functions constants c (.call name argc) (.functionNotFound name)
  | arity {name : String} {argc : Nat} {function : HostFunction} :
      functions.get? name = some function → argc ≠ function.arity →
      Objects functions constants c (.call name argc) (.arityMismatch name function.arity argc)
  | host {name : String} {argc : Nat} {error : ExecutionError} : HostAnswers functions error →
      Objects functions constants c (.call name argc) error

/-- What takes an operand and then cannot fail has failed because there is none. -/
theorem objects_of_take {α : Type} {next : Scalar × List Scalar → Except ExecutionError α}
    (needs : 0 < i.needs) (failed : (c.take >>= next) = .error error)
    (total : ∀ taken, ∃ a, next taken = .ok a) : c.Objects functions constants i error := by
  unfold Config.take at failed
  split at failed
  · next top rest _ =>
    obtain ⟨a, succeeds⟩ := total (top, rest)
    cases succeeds.symm.trans failed
  · next empty =>
    cases failed
    exact .operands (by rwa [empty])

/-- An operator has too few operands, or operands of the wrong kinds. -/
theorem objects_of_binary {op : BinaryOp}
    (failed : c.dispatch functions constants (.binary op) = .error error) :
    c.Objects functions constants (.binary op) error := by
  by_cases enough : 2 ≤ c.stack.length
  · obtain ⟨right, left, rest, stack⟩ := exists_two_of_le_length enough
    rw [dispatch_binary stack] at failed
    cases result : Instr.combine op left right with
    | ok value => simp [result, Except.map] at failed
    | error wrong =>
      simp only [result, Except.map] at failed
      cases failed
      rw [Instr.combine_error result]
      exact .kinds op left right
  · have short : c.stack.length < 2 := Nat.not_le.1 enough
    cases stack : c.stack with
    | nil =>
      simp only [Config.dispatch, Config.take, stack] at failed
      cases failed
      exact .operands short
    | cons right rest =>
      cases rest with
      | nil =>
        simp only [Config.dispatch, Config.take, stack] at failed
        cases failed
        exact .operands short
      | cons left rest => exact absurd (by simp [stack]) enough

/-- A call is checked for its function, then for the number of its arguments, then for the arguments
themselves; behind that, only the function can object. -/
theorem objects_of_call {name : String} {argc : Nat}
    (failed : c.dispatch functions constants (.call name argc) = .error error) :
    c.Objects functions constants (.call name argc) error := by
  simp only [Config.dispatch] at failed
  split at failed
  · next missing =>
    cases failed
    exact .missing missing
  · next function found =>
    split at failed
    · next mismatch =>
      cases failed
      exact .arity found mismatch
    · next same =>
      have same : argc = function.arity := not_not.1 same
      subst same
      split at failed
      · next short =>
        cases failed
        exact .operands short
      · next enough =>
        cases answer : c.callHost function.body (c.stack.take function.arity).reverse
            (c.stack.drop function.arity) with
        | ok after =>
          rw [answer] at failed
          cases failed
        | error wrong =>
          rw [answer] at failed
          cases failed
          refine .host ⟨name, function, c.clock, _, found, ?_, callHost_error answer⟩
          rw [List.length_reverse, List.length_take]
          exact Nat.min_eq_left (Nat.not_lt.1 enough)

/-- An instruction fails only with something that is wrong with it. -/
theorem dispatch_objects (failed : c.dispatch functions constants i = .error error) :
    c.Objects functions constants i error := by
  cases i with
  | loadConst constant =>
    simp only [Config.dispatch] at failed
    split at failed
    · cases failed
    · next missing =>
      cases failed
      exact .constant (Array.getElem?_eq_none_iff.1 missing)
  | loadVar name =>
    simp only [Config.dispatch] at failed
    split at failed
    · cases failed
    · next unbound =>
      cases failed
      exact .unbound unbound
  | storeVar name => exact objects_of_take Nat.one_pos failed fun _ => ⟨_, rfl⟩
  | binary op => exact objects_of_binary failed
  | dup => exact objects_of_take Nat.one_pos failed fun _ => ⟨_, rfl⟩
  | pop => exact objects_of_take Nat.one_pos failed fun _ => ⟨_, rfl⟩
  | call name argc => exact objects_of_call failed
  | jump target => cases failed
  | jumpIfFalse target =>
    refine objects_of_take Nat.one_pos failed fun taken => ?_
    obtain ⟨value, rest⟩ := taken
    cases holds : value.isTruthy
    · exact ⟨some { c with index := target, stack := rest }, by simp [holds, pure, Except.pure]⟩
    · exact ⟨some (c.advance rest), by simp [holds, pure, Except.pure]⟩
  | halt => cases failed

/-- An instruction that finds its operands does not report a stack that is too short. -/
theorem dispatch_underflow {index : Nat} (unfeigned : Unfeigned functions (.stackUnderflow index))
    (enough : i.needs ≤ c.stack.length) :
    c.dispatch functions constants i ≠ .error (.stackUnderflow index) := by
  intro failed
  cases dispatch_objects failed with
  | operands short => exact absurd short (Nat.not_lt.2 enough)
  | host answers => exact unfeigned answers

end Config

end TinyScript
