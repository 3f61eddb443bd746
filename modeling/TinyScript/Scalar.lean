import TinyScript.Error

/-! # Scalars

The values that need no heap.

* `isTruthy`: whether a condition holds;
* `same`: strict equality, under which a NaN differs from itself and the two zeros are one;
* `text`: what scripts print; `code`: what listings print;
* `onScalars`: the operators of the tree back end.
-/

namespace TinyScript

inductive Scalar where
  | undefined
  | boolean (value : Bool)
  | number (value : Float)
  | string (text : String)
  deriving Repr, DecidableEq, Inhabited

namespace Scalar

def ofLiteral : Literal → Scalar
  | .number value => number value
  | .string text => string text
  | .boolean value => boolean value

def kind : Scalar → Kind
  | undefined => .undefined
  | boolean _ => .boolean
  | number _ => .number
  | string _ => .string

/-- Everything but `undefined`, `false`, the zeros, NaN and the empty string. -/
def isTruthy : Scalar → Bool
  | undefined => false
  | boolean value => value
  | number value => value != 0.0 && !value.isNaN
  | string text => !text.isEmpty

def number? : Scalar → Option Float
  | number value => some value
  | _ => none

/-- Same kind and equal value. -/
def same : Scalar → Scalar → Bool
  | undefined, undefined => true
  | boolean a, boolean b => a == b
  | number a, number b => a == b
  | string a, string b => a == b
  | _, _ => false

def boolText (b : Bool) : String := if b then "true" else "false"

def text : Scalar → String
  | undefined => "undefined"
  | boolean value => boolText value
  | number value => Number.text Number.shown value
  | string text => text

def code : Scalar → String
  | undefined => "Undefined"
  | boolean value => "Boolean(" ++ boolText value ++ ")"
  | number value => "Number(" ++ Number.text Number.coded value ++ ")"
  | string text => "String(" ++ Text.quoted text ++ ")"

end Scalar

namespace BinaryOp

def onNumbers (op : BinaryOp) (a b : Float) : Scalar :=
  match op with
  | .add => .number (a + b)
  | .subtract => .number (a - b)
  | .multiply => .number (a * b)
  | .divide => .number (a / b)
  | .equal => .boolean (a == b)
  | .notEqual => .boolean (!(a == b))
  | .lessThan => .boolean (a < b)
  | .greaterThan => .boolean (b < a)
  | .lessThanEqual => .boolean (a ≤ b)
  | .greaterThanEqual => .boolean (b ≤ a)

/-- Whether a comparison of two strings holds, by code points; `none` for other operators. -/
def onStrings? (op : BinaryOp) (a b : String) : Option Bool :=
  match op with
  | .lessThan => some (a < b)
  | .greaterThan => some (b < a)
  | .lessThanEqual => some (!(b < a))
  | .greaterThanEqual => some (!(a < b))
  | _ => none

/-- An operator on two scalars: `+` joins texts if either is a string; arithmetic and comparisons
want two numbers, comparisons also two strings; everything can be tested for equality. -/
def onScalars (op : BinaryOp) (a b : Scalar) : Except ExecutionError Scalar :=
  match op with
  | .equal => .ok (.boolean (a.same b))
  | .notEqual => .ok (.boolean (!a.same b))
  | _ =>
    match a, b with
    | .number x, .number y => .ok (op.onNumbers x y)
    | .string x, .string y =>
      match op.onStrings? x y with
      | some holds => .ok (.boolean holds)
      | none =>
        if op = .add then .ok (.string (x ++ y)) else .error (.typeMismatch op.symbol .string .string)
    | .string x, b =>
      if op = .add then .ok (.string (x ++ b.text)) else .error (.typeMismatch op.symbol .string b.kind)
    | a, .string y =>
      if op = .add then .ok (.string (a.text ++ y)) else .error (.typeMismatch op.symbol a.kind .string)
    | a, b => .error (.typeMismatch op.symbol a.kind b.kind)

end BinaryOp

end TinyScript
