import TinyScript.Bytecode.Operation

/-! # The stack machine

A `Vm` runs chunks on an operand stack, over variables that stay from one run to the next and a
table of host functions.

* `dispatch`: the effect of one instruction;
* `runFor`: at most a number of instructions;
* `Vm.run`: a whole run, within the step limit of the machine if it has one.

A machine without a step limit may run forever, so `Vm.run` is told how many instructions the caller
is willing to wait for, and answers `none` if they are not enough.
-/

namespace TinyScript

structure Config where
  index : Nat
  /-- The operands, top first. -/
  stack : List Scalar
  globals : NameMap Scalar
  clock : Clock

namespace Config

def advance (c : Config) (stack : List Scalar) : Config :=
  { c with index := c.index + 1, stack }

def take (c : Config) : Except ExecutionError (Scalar × List Scalar) :=
  match c.stack with
  | top :: rest => .ok (top, rest)
  | [] => .error (.stackUnderflow c.index)

def callHost (c : Config) (body : HostBody) (args rest : List Scalar) :
    Except ExecutionError Config :=
  match body.run c.clock args with
  | (.ok value, clock) => .ok { c.advance (value :: rest) with clock }
  | (.error e, _) => .error e

/-- The effect of one instruction; `none` if it ends the run. -/
def dispatch (functions : NameMap HostFunction) (constants : Array Scalar) (c : Config) :
    Instr → Except ExecutionError (Option Config)
  | .loadConst constant =>
    match constants[constant]? with
    | some value => .ok (some (c.advance (value :: c.stack)))
    | none =>
      .error (.invalidBytecode (.invalidConstant c.index constant constants.size))
  | .loadVar name =>
    match c.globals.get? name with
    | some value => .ok (some (c.advance (value :: c.stack)))
    | none => .error (.undefinedIdentifier name)
  | .storeVar name => do
    let (value, rest) ← c.take
    return some { c.advance rest with globals := c.globals.insert name value }
  | .binary op => do
    let (right, rest) ← c.take
    match rest with
    | left :: rest => return some (c.advance ((← Instr.combine op left right) :: rest))
    | [] => throw (.stackUnderflow c.index)
  | .dup => do
    let (top, rest) ← c.take
    return some (c.advance (top :: top :: rest))
  | .pop => do
    let (_, rest) ← c.take
    return some (c.advance rest)
  | .call name argc =>
    match functions.get? name with
    | none => .error (.functionNotFound name)
    | some function =>
      if argc ≠ function.arity then .error (.arityMismatch name function.arity argc)
      else if c.stack.length < function.arity then .error (.stackUnderflow c.index)
      else do
        return some (← c.callHost function.body (c.stack.take function.arity).reverse
          (c.stack.drop function.arity))
  | .jump target => .ok (some { c with index := target })
  | .jumpIfFalse target => do
    let (value, rest) ← c.take
    if value.isTruthy then return some (c.advance rest)
    else return some { c with index := target, stack := rest }
  | .halt => .ok none

/-- The machine as an instruction leaves it that fails: the operands that it took are gone, and a host
function may have seen to the clock. -/
def abandon (functions : NameMap HostFunction) (c : Config) : Instr → Config
  | .storeVar _ | .pop | .jumpIfFalse _ => { c with stack := c.stack.drop 1 }
  | .binary _ => { c with stack := c.stack.drop 2 }
  | .call name argc =>
    match functions.get? name with
    | some function =>
      if argc = function.arity ∧ function.arity ≤ c.stack.length then
        { c with
          stack := c.stack.drop function.arity
          clock := (function.body.run c.clock (c.stack.take function.arity).reverse).2 }
      else c
    | none => c
  | _ => c

def result (c : Config) : Scalar := c.stack.headD .undefined

end Config

/-- How far a bounded run came. -/
inductive Progress where
  | finished (last : Config)
  | failed (error : ExecutionError) (last : Config)
  | cut (last : Config)

def Chunk.runFor (chunk : Chunk) (functions : NameMap HostFunction) : Nat → Config → Progress
  | steps, c =>
    match chunk.code[c.index]? with
    | none => .finished c
    | some i =>
      match steps with
      | 0 => .cut c
      | steps + 1 =>
        match c.dispatch functions chunk.constants i with
        | .error e => .failed e (c.abandon functions i)
        | .ok none => .finished c
        | .ok (some c) => chunk.runFor functions steps c

structure Vm where
  globals : NameMap Scalar := .empty
  functions : NameMap HostFunction := HostFunction.standard
  stepLimit : Option Nat := none
  clock : Clock := default
  /-- What the last run left on the operand stack. The next one begins by clearing it. -/
  operands : List Scalar := []

namespace Vm

def new (stepLimit : Option Nat) : Vm := { stepLimit }

def register (vm : Vm) (name : String) (function : HostFunction) : Vm :=
  { vm with functions := vm.functions.insert name function }

def after (vm : Vm) (last : Config) : Vm :=
  { vm with globals := last.globals, clock := last.clock, operands := last.stack }

/-- The machine at the beginning of a run: the operands of earlier runs are gone. -/
def start (vm : Vm) : Config := ⟨0, [], vm.globals, vm.clock⟩

/-- Runs a chunk that has been found valid, for at most `patience` instructions. -/
def execute (vm : Vm) (patience : Nat) (chunk : Chunk) :
    Option (Except ExecutionError Scalar × Vm) :=
  let steps := match vm.stepLimit with
    | some limit => min limit patience
    | none => patience
  match chunk.runFor vm.functions steps vm.start with
  | .finished last => some (.ok last.result, vm.after last)
  | .failed e last => some (.error e, vm.after last)
  | .cut last =>
    match vm.stepLimit with
    | some limit =>
      if limit ≤ patience then some (.error (.stepLimitExceeded limit), vm.after last) else none
    | none => none

/-- Runs a chunk: its value is the top of the stack at the end, or `undefined`. A chunk that is not
valid does not run at all. -/
def run (vm : Vm) (patience : Nat) (chunk : Chunk) : Option (Except ExecutionError Scalar × Vm) :=
  match chunk.validate with
  | .error e => some (.error (.invalidBytecode e), vm)
  | .ok () => vm.execute patience chunk

end Vm

end TinyScript
