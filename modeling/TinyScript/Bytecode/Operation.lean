import TinyScript.Builtin.Math
import TinyScript.Bytecode.Chunk
import TinyScript.Clock
import TinyScript.NameMap

/-! # What stack machines compute with

Stack machines have operators and functions of their own, on scalars only.

* `combine`: the effect of a binary operator;
* `HostFunction`: a function that stack code can call;
* `HostFunction.standard`: those that every machine starts with.
-/

namespace TinyScript

namespace Instr

/-- How errors write an operator. Equality is never in one. -/
def symbol : BinaryOp → String
  | .add => "+"
  | .subtract => "-"
  | .multiply => "*"
  | .divide => "/"
  | .lessThan => "<"
  | .greaterThan => ">"
  | .lessThanEqual => "<="
  | _ => ">="

def mismatch (op : BinaryOp) (a b : Scalar) : ExecutionError :=
  .typeMismatch (symbol op) a.kind b.kind

def arithmetic (op : BinaryOp) (x y : Float) : Float :=
  match op with
  | .subtract => x - y
  | .multiply => x * y
  | _ => x / y

/-- Whether two numbers compare like this. No comparison with a NaN holds. -/
def ordersNumbers (op : BinaryOp) (x y : Float) : Bool :=
  match op with
  | .lessThan => x < y
  | .greaterThan => y < x
  | .lessThanEqual => x ≤ y
  | _ => y ≤ x

def ordersStrings (op : BinaryOp) (x y : String) : Bool :=
  match op with
  | .lessThan => x < y
  | .greaterThan => y < x
  | .lessThanEqual => !(y < x)
  | _ => !(x < y)

def combine (op : BinaryOp) (a b : Scalar) : Except ExecutionError Scalar :=
  match op with
  | .add =>
    match a, b with
    | .number x, .number y => .ok (.number (x + y))
    | .string x, b => .ok (.string (x ++ b.text))
    | a, .string y => .ok (.string (a.text ++ y))
    | a, b => .error (mismatch .add a b)
  | .subtract | .multiply | .divide =>
    match a.number?, b.number? with
    | some x, some y => .ok (.number (arithmetic op x y))
    | _, _ => .error (mismatch op a b)
  | .equal => .ok (.boolean (a.same b))
  | .notEqual => .ok (.boolean (!a.same b))
  | .lessThan | .greaterThan | .lessThanEqual | .greaterThanEqual =>
    match a, b with
    | .number x, .number y => .ok (.boolean (ordersNumbers op x y))
    | .string x, .string y => .ok (.boolean (ordersStrings op x y))
    | a, b => .error (mismatch op a b)

end Instr

/-- What a host function does with its arguments. The clock stands for all else that it can see and
change. -/
structure HostBody where
  run (clock : Clock) (args : List Scalar) : Except ExecutionError Scalar × Clock

namespace HostBody

def apply (f : List Scalar → Except ExecutionError Scalar) : HostBody where
  run clock args := (f args, clock)

def now : HostBody where
  run clock _ := (.ok (.number clock.read.1), clock.read.2)

end HostBody

structure HostFunction where
  arity : Nat
  body : HostBody

namespace HostFunction

def number (function : String) (args : List Scalar) (index : Nat) : Except ExecutionError Float :=
  match args[index]? with
  | some (.number x) => .ok x
  | some other => .error (.argument function (.wrongKind index .number other.kind))
  | none => .error (.argument function (.missing index))

def unaryMath (function : String) (f : Float → Float) : HostFunction where
  arity := 1
  body := .apply fun args => do
    return .number (f (← number function args 0))

def binaryMath (function : String) (f : List Float → Float) : HostFunction where
  arity := 2
  body := .apply fun args => do
    return .number (f [← number function args 0, ← number function args 1])

def pow : HostFunction where
  arity := 2
  body := .apply fun args => do
    return .number (Float.pow (← number "Math.pow" args 0) (← number "Math.pow" args 1))

def standard : NameMap HostFunction := .ofList [
  ("Math.pow", pow),
  ("Math.abs", unaryMath "Math.abs" Float.abs),
  ("Math.sin", unaryMath "Math.sin" Float.sin),
  ("Math.cos", unaryMath "Math.cos" Float.cos),
  ("Math.sqrt", unaryMath "Math.sqrt" Float.sqrt),
  ("Math.floor", unaryMath "Math.floor" Float.floor),
  ("Math.ceil", unaryMath "Math.ceil" Float.ceil),
  ("Math.round", unaryMath "Math.round" Math.round),
  ("Math.max", binaryMath "Math.max" Math.max),
  ("Math.min", binaryMath "Math.min" Math.min),
  ("Date.now", ⟨0, .now⟩)]

end HostFunction

end TinyScript
