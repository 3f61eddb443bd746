import TinyScript.Builtin.Math
import TinyScript.Builtin.Strings
import TinyScript.Clock
import TinyScript.Value

/-! # Builtin operations

A `BuiltinTable` maps `Library.operation` to what it does. An operation sees its arguments and the
`World`, and replies with a value, or with a request to call a function.

* `argument`, `numberAt`, `stringAt`, `arrayAt`, `functionAt`: checked access to the arguments;
* `BuiltinTable.standard`: the libraries `Array`, `Date`, `Math` and `String`.
-/

namespace TinyScript

/-- What operations can reach beside their arguments. -/
structure World where
  heap : Heap Object := .empty
  clock : Clock := default
  /-- A value that a host keeps for itself; it keeps nothing alive. -/
  stash : Value := .undefined

/-- What an operation answers. -/
inductive Reply where
  | value (result : Value)
  | call (code : Function) (args : List Value)
  | map (code : Function) (elements : List Value)

/-- An operation is given the name under which errors refer to it. -/
abbrev Builtin := String → List Value → World → Except ExecutionError Reply × World

namespace Builtin

/-! ## Arguments -/

def fail {α : Type} (name : String) (fault : ArgumentFault) : Except ExecutionError α :=
  .error (.argument name fault)

def argument (name : String) (args : List Value) (index : Nat) : Except ExecutionError Value :=
  match args[index]? with
  | some value => .ok value
  | none => fail name (.missing index)

def numberAt (name : String) (args : List Value) (index : Nat) : Except ExecutionError Float := do
  match ← argument name args index with
  | .scalar (.number x) => return x
  | other => fail name (.wrongKind index .number other.kind)

def optionalNumberAt (name : String) (args : List Value) (index : Nat) :
    Except ExecutionError (Option Float) :=
  match args[index]? with
  | none | some (.scalar .undefined) => .ok none
  | some _ => (numberAt name args index).map some

def stringAt (name : String) (args : List Value) (index : Nat) : Except ExecutionError String := do
  match ← argument name args index with
  | .scalar (.string s) => return s
  | other => fail name (.wrongKind index .string other.kind)

def arrayAt (name : String) (args : List Value) (index : Nat) : Except ExecutionError Handle := do
  match ← argument name args index with
  | .array handle => return handle
  | other => fail name (.wrongKind index .array other.kind)

def functionAt (name : String) (args : List Value) (index : Nat) :
    Except ExecutionError Function := do
  match ← argument name args index with
  | .function code => return code
  | other => fail name (.wrongKind index .function other.kind)

/-! ## Operations -/

def ofArguments (f : String → List Value → Except ExecutionError Value) : Builtin :=
  fun name args world => ((f name args).map .value, world)

def ofHeap (f : String → List Value → Heap Object → Except ExecutionError Reply) : Builtin :=
  fun name args world => (f name args world.heap, world)

def ofMath (f : MathFunction) : Builtin := ofArguments fun _ args => do
  return .number (← f.call (args.map fun a => (a.kind, a.number?)))

def elementsOf (name : String) (args : List Value) (h : Heap Object) :
    Except ExecutionError (Handle × Array Value) := do
  let handle ← arrayAt name args 0
  match h.elements? handle with
  | some elements => return (handle, elements)
  | none => fail name .freedArray

def modifyElements (f : Array Value → Array Value) : Object → Object
  | .array elements => .array (f elements)
  | other => other

/-- Checks an array argument and changes its elements in place; the reply is read off the elements
before the change. -/
def changeArray (reply : Handle → Array Value → Value)
    (change : List Value → Array Value → Array Value) : Builtin := fun name args world =>
  match elementsOf name args world.heap with
  | .error e => (.error e, world)
  | .ok (handle, elements) =>
    let answer := reply handle elements
    (.ok (.value answer),
      { world with heap := world.heap.update handle (modifyElements (change args)) })

def arrayPush : Builtin := changeArray (fun handle _ => .array handle)
  (fun args elements => args.tail.foldl (·.push ·) elements)

def arrayPop : Builtin := changeArray (fun _ elements => elements.back?.getD .undefined)
  (fun _ elements => elements.pop)

def arrayMap : Builtin := ofHeap fun name args h => do
  let _ ← arrayAt name args 0
  let code ← functionAt name args 1
  let (_, elements) ← elementsOf name args h
  return .map code elements.toList

def arrayLength : Builtin := ofHeap fun name args h => do
  let (_, elements) ← elementsOf name args h
  return .value (.number elements.size.toFloat)

def stringSlice : Builtin := ofArguments fun name args => do
  let s ← stringAt name args 0
  let start ← numberAt name args 1
  let stop ← optionalNumberAt name args 2
  return .string (Strings.slice s start stop)

def stringReplace : Builtin := ofArguments fun name args => do
  let s ← stringAt name args 0
  let search ← stringAt name args 1
  let replacement ← stringAt name args 2
  return .string (Strings.replaceFirst s search replacement)

def stringLength : Builtin := ofArguments fun name args => do
  return .number (← stringAt name args 0).length.toFloat

def stringMap (f : String → String) : Builtin := ofArguments fun name args => do
  return .string (f (← stringAt name args 0))

def dateNow : Builtin := fun _ _ world =>
  let (millis, clock) := world.clock.read
  (.ok (.value (.number millis)), { world with clock })

end Builtin

abbrev BuiltinTable := NameMap (NameMap Builtin)

namespace BuiltinTable

def find? (table : BuiltinTable) (library operation : String) : Option Builtin :=
  (table.get? library).bind (·.get? operation)

def add (table : BuiltinTable) (library operation : String) (builtin : Builtin) : BuiltinTable :=
  table.insert library (((table.get? library).getD .empty).insert operation builtin)

def operations (table : BuiltinTable) (library : String) : List String :=
  ((table.get? library).map (·.names)).getD []

def standard : BuiltinTable := .ofList [
  ("Math", .ofList (mathFunctions.map fun f => (f.name, Builtin.ofMath f))),
  ("Array", .ofList [
    ("push", Builtin.arrayPush),
    ("pop", Builtin.arrayPop),
    ("map", Builtin.arrayMap),
    ("length", Builtin.arrayLength)]),
  ("String", .ofList [
    ("slice", Builtin.stringSlice),
    ("replace", Builtin.stringReplace),
    ("length", Builtin.stringLength),
    ("toUpperCase", Builtin.stringMap Text.toUpper),
    ("toLowerCase", Builtin.stringMap Text.toLower)]),
  ("Date", .ofList [("now", Builtin.dateNow)])]

end BuiltinTable

end TinyScript
