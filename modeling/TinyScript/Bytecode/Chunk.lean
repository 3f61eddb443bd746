import TinyScript.Scalar

/-! # Stack code

A `Chunk` is a sequence of instructions with the pool of constants that they load. Jumps name the
index of an instruction.

* `emit`, `addConstant`, `patchJump`: how chunks are built by hand;
* `validate`: every jump stays inside the code and every constant is in the pool;
* `listing`: a chunk as text, one line a constant or instruction.
-/

namespace TinyScript

inductive Instr where
  | loadConst (index : Nat)
  | loadVar (name : String)
  | storeVar (name : String)
  /-- Pop the right operand and then the left one, push the result. -/
  | binary (op : BinaryOp)
  | dup
  | pop
  | call (name : String) (argc : Nat)
  | jump (target : Nat)
  | jumpIfFalse (target : Nat)
  | halt
  deriving Repr, DecidableEq

namespace Instr

def target? : Instr → Option Nat
  | jump target => some target
  | jumpIfFalse target => some target
  | _ => none

def retarget? (target : Nat) : Instr → Option Instr
  | jump _ => some (jump target)
  | jumpIfFalse _ => some (jumpIfFalse target)
  | _ => none

def mnemonic : BinaryOp → String
  | .add => "ADD"
  | .subtract => "SUB"
  | .multiply => "MUL"
  | .divide => "DIV"
  | .equal => "EQUAL"
  | .notEqual => "NOT_EQUAL"
  | .lessThan => "LESS"
  | .greaterThan => "GREATER"
  | .lessThanEqual => "LESS_EQUAL"
  | .greaterThanEqual => "GREATER_EQUAL"

def text : Instr → String
  | loadConst index => "LOAD_CONST " ++ toString index
  | loadVar name => "LOAD_VAR " ++ name
  | storeVar name => "STORE_VAR " ++ name
  | binary op => mnemonic op
  | dup => "DUP"
  | pop => "POP"
  | call name argc => "CALL_FUNCTION " ++ name ++ " " ++ toString argc
  | jump target => "JUMP " ++ toString target
  | jumpIfFalse target => "JUMP_IF_FALSE " ++ toString target
  | halt => "HALT"

end Instr

structure Chunk where
  code : Array Instr := #[]
  constants : Array Scalar := #[]
  deriving DecidableEq, Inhabited

namespace Chunk

def empty : Chunk := {}

def emit (c : Chunk) (i : Instr) : Nat × Chunk := (c.code.size, { c with code := c.code.push i })

/-- The index of a constant in a pool, which grows if no constant in it equals the value. -/
def pooled (constants : Array Scalar) (value : Scalar) : Nat × Array Scalar :=
  match constants.findIdx? (·.same value) with
  | some index => (index, constants)
  | none => (constants.size, constants.push value)

def addConstant (c : Chunk) (value : Scalar) : Nat × Chunk :=
  let (index, constants) := pooled c.constants value
  (index, { c with constants })

/-- Gives the jump at an index another target; `none` if there is no jump. -/
def patchJump (c : Chunk) (index target : Nat) : Option Chunk := do
  let i ← (← c.code[index]?).retarget? target
  return { c with code := c.code.setIfInBounds index i }

def fault? (c : Chunk) (index : Nat) (i : Instr) : Option CompileError :=
  match i with
  | .jump target | .jumpIfFalse target =>
    if target < c.code.size then none
    else some (.invalidJumpTarget index target c.code.size)
  | .loadConst constant =>
    if constant < c.constants.size then none
    else some (.invalidConstant index constant c.constants.size)
  | _ => none

def faultFrom? (c : Chunk) : Nat → List Instr → Option CompileError
  | _, [] => none
  | index, i :: rest =>
    match c.fault? index i with
    | some error => some error
    | none => c.faultFrom? (index + 1) rest

/-- Every jump stays inside the code and every constant is in the pool. -/
def validate (c : Chunk) : Except CompileError Unit :=
  match c.faultFrom? 0 c.code.toList with
  | some error => .error error
  | none => .ok ()

def column (width n : Nat) : String :=
  let digits := toString n
  String.ofList (List.replicate (width - digits.length) ' ') ++ digits

def constantLine (index : Nat) (value : Scalar) : String :=
  "const " ++ column 4 index ++ "  " ++ value.code ++ "\n"

def instrLine (index : Nat) (i : Instr) : String :=
  column 10 index ++ "  " ++ i.text ++ "\n"

def listing (c : Chunk) : String :=
  String.join (c.constants.toList.mapIdx constantLine) ++
    String.join (c.code.toList.mapIdx instrLine)

end Chunk

end TinyScript
