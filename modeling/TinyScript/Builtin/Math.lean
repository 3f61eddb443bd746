import TinyScript.Scalar

/-! # The functions of `Math`

Each function takes either its first few arguments or all of them, and all that it takes must be
numbers.
-/

namespace TinyScript

namespace Math

def nan : Float := 0.0 / 0.0

def infinity : Float := 1.0 / 0.0

/-- Halves go toward positive infinity. -/
def round (x : Float) : Float := (x + 0.5).floor

/-- The greatest of the values; NaN if one is a NaN, and `-Infinity` for none. -/
def max (xs : List Float) : Float :=
  xs.foldl (fun acc x => if acc.isNaN || x.isNaN then nan else if acc < x then x else acc)
    (-infinity)

/-- The least of the values; NaN if one is a NaN, and `Infinity` for none. -/
def min (xs : List Float) : Float :=
  xs.foldl (fun acc x => if acc.isNaN || x.isNaN then nan else if x < acc then x else acc) infinity

end Math

inductive Takes where
  | first (count : Nat)
  | all
  deriving Repr, DecidableEq

structure MathFunction where
  name : String
  takes : Takes
  apply : List Float → Float

namespace MathFunction

def unary (name : String) (f : Float → Float) : MathFunction where
  name
  takes := .first 1
  apply
    | x :: _ => f x
    | [] => Math.nan

def binary (name : String) (f : Float → Float → Float) : MathFunction where
  name
  takes := .first 2
  apply
    | x :: y :: _ => f x y
    | _ => Math.nan

def variadic (name : String) (f : List Float → Float) : MathFunction := ⟨name, .all, f⟩

def qualifiedName (f : MathFunction) : String := "Math." ++ f.name

def wants (f : MathFunction) (given : Nat) : Nat :=
  match f.takes with
  | .first count => count
  | .all => given

end MathFunction

/-- The `count` arguments from `index` on as numbers; the first that is missing or none is
reported. Arguments are given by their kind, and by their value if they are numbers. -/
def numbersFrom (args : List (Kind × Option Float)) :
    (count : Nat) → (index : Nat) → Except ArgumentFault (List Float)
  | 0, _ => .ok []
  | count + 1, index =>
    match args[index]? with
    | none => .error (.missing index)
    | some (_, some x) => do return x :: (← numbersFrom args count (index + 1))
    | some (kind, none) => .error (.wrongKind index .number kind)

def MathFunction.call (f : MathFunction) (args : List (Kind × Option Float)) :
    Except ExecutionError Float :=
  match numbersFrom args (f.wants args.length) 0 with
  | .ok xs => .ok (f.apply xs)
  | .error fault => .error (.argument f.qualifiedName fault)

def mathFunctions : List MathFunction := [
  .binary "pow" Float.pow,
  .unary "abs" Float.abs,
  .unary "sin" Float.sin,
  .unary "cos" Float.cos,
  .unary "sqrt" Float.sqrt,
  .unary "floor" Float.floor,
  .unary "ceil" Float.ceil,
  .unary "round" Math.round,
  .variadic "max" Math.max,
  .variadic "min" Math.min]

end TinyScript
