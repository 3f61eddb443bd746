import TinyScript.Evaluator.Step
import TinyScript.Parser

/-! # The interpreter

An `Interpreter` keeps the global scope and the heap from one program to the next.

* `run`, `eval`: run a program, or the program that a text spells;
* `global?`: the value of a global name;
* `display`: the text of a value;
* `collectGarbage`: free what no global name reaches.

A program may run forever, so `run` is told how many steps the caller is willing to wait for, and
answers `none` if they are not enough.
-/

namespace TinyScript

structure Interpreter where
  table : BuiltinTable
  global : Scope
  world : World
  /-- The number of active calls. -/
  depth : Nat := 0
  /-- The number of function declarations in the programs run so far. -/
  sites : Nat := 0

namespace Interpreter

def bindLibraries : List String → Scope → World → Scope × World
  | [], global, world => (global, world)
  | name :: names, global, world =>
    let (global, heap) := global.define world.heap name (.library name)
    bindLibraries names global { world with heap }

def withTable (table : BuiltinTable) : Interpreter :=
  let (global, world) := bindLibraries table.names .empty {}
  { table, global, world }

def new : Interpreter := withTable .standard

def start (i : Interpreter) (p : Program) : Machine :=
  Machine.enter ⟨.give .undefined, [], none, i.depth, i.global, i.world⟩ p

/-- Runs a program for at most `patience` steps. -/
def run (i : Interpreter) (patience : Nat) (p : Program) :
    Option (Except ExecutionError Value × Interpreter) :=
  let (p, sites) := Stmt.numberAll i.sites p
  match Machine.run i.table patience (i.start p) with
  | ⟨.halted result, _, _, depth, global, world⟩ =>
    some (result, { i with global, world, depth, sites })
  | _ => none

def eval (i : Interpreter) (patience : Nat) (source : String) :
    Option (Except ScriptError Value × Interpreter) :=
  match parseProgram source with
  | .error e => some (.error (.ofParse e), i)
  | .ok p =>
    match i.run patience p with
    | some (result, i) => some (result.mapError .execution, i)
    | none => none

def global? (i : Interpreter) (name : String) : Option Value :=
  Env.lookup? [i.global] i.world.heap name

def display (i : Interpreter) (value : Value) : String := i.world.heap.display value

def elements? (i : Interpreter) : Value → Option (Array Value)
  | .array handle => i.world.heap.elements? handle
  | _ => none

/-- Frees what no global name reaches. -/
def collectGarbage (i : Interpreter) : Heap.Stats × Interpreter :=
  let (stats, heap) := Env.collect [i.global] i.world.heap
  (stats, { i with world := { i.world with heap } })

def liveObjects (i : Interpreter) : Nat := i.world.heap.liveCount

end Interpreter

end TinyScript
