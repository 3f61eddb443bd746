import TinyScript.Builtin.Table
import TinyScript.Scope
import TinyScript.Value.Display

/-! # States of the evaluator

Programs are evaluated by a machine that keeps what is still to be done in a list of frames, so the
depth of a script's calls is not bounded by anything but `callLimit`.

* `Control`: what the machine is about to do;
* `Frame`: what is to be done with the next value;
* `Machine`: a state.
-/

namespace TinyScript

/-- The number of function calls that may be active at once. -/
def callLimit : Nat := 10000

structure Loop where
  test : Option Expr
  update : Option Expr
  body : List Stmt

inductive Target where
  | function (code : Function)
  | builtin (library operation : String)

/-- What is to be done with the value of an expression or statement. -/
inductive Frame where
  | leftOperand (op : BinaryOp) (right : Expr)
  | rightOperand (op : BinaryOp) (left : Value)
  /-- Store the value, combined with the old one first if there is an operator. -/
  | assign (target : String) (combine : Option (BinaryOp × Value))
  | property (name : String)
  | element (done : List Value) (rest : List Expr)
  | field (done : NameMap Value) (key : String) (rest : List (String × Expr))
  /-- Call the value; `display` is how messages name it. -/
  | callee (display : String) (args : List Expr)
  | method (property display : String) (args : List Expr)
  | argument (target : Target) (done : List Value) (rest : List Expr)
  | mapping (code : Function) (done : List Value) (rest : List Value)
  | returnTo (locals : Option Scope)
  | declare (name : String)
  | branch (consequent : List Stmt) (alternate : Option (List Stmt))
  | sequence (rest : List Stmt)
  /-- A test of a `while`; `last` is the value of the last repetition. -/
  | whileTest (test : Expr) (body : List Stmt) (last : Value)
  | whileBody (test : Expr) (body : List Stmt)
  | forInit (loop : Loop)
  | forTest (loop : Loop) (last : Value)
  | forBody (loop : Loop)
  | forUpdate (loop : Loop) (last : Value)
  | giveBack

/-- What the machine is about to do. -/
inductive Control where
  | eval (e : Expr)
  | exec (s : Stmt)
  | give (value : Value)
  /-- Leave the innermost function with a value. -/
  | leave (value : Value)
  /-- Leave everything with an error, one frame after the other. -/
  | raise (error : ExecutionError)
  | halted (result : Except ExecutionError Value)

structure Machine where
  control : Control
  /-- What is to be done next, topmost first. -/
  frames : List Frame
  locals : Option Scope
  /-- The number of active calls. -/
  depth : Nat
  global : Scope
  world : World

namespace Machine

def env (m : Machine) : Env :=
  match m.locals with
  | some scope => [scope, m.global]
  | none => [m.global]

def lookup? (m : Machine) (name : String) : Option Value := m.env.lookup? m.world.heap name

def result? (m : Machine) : Option (Except ExecutionError Value) :=
  match m.control with
  | .halted result => some result
  | _ => none

end Machine

end TinyScript
