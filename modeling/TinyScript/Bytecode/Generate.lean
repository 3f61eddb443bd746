import TinyScript.Bytecode.Chunk

/-! # Stack code of a program

Programs without functions, `return`, property reads, arrays and objects have stack code. It is written
instruction by instruction on a chunk. Where a jump leads forward, its target is put in when the code has
come to it.

* `Expr.emit`: code that pushes the value of an expression;
* `Stmt.emit`: code of a statement;
* `Program.generate`: the chunk of a program, which ends in `halt`.

The value of a last expression statement is left on the stack as the result of the program; every
other statement leaves the stack as it found it.
-/

namespace TinyScript

/-- A computation that writes on a chunk and may meet a node without stack code. -/
abbrev Emitter := StateT Chunk (Except CompileError)

namespace Emitter

def place (i : Instr) : Emitter Nat := fun c => .ok (c.emit i)

def write (i : Instr) : Emitter Unit := discard (place i)

def constant (value : Scalar) : Emitter Nat := fun c => .ok (c.addConstant value)

def here : Emitter Nat := fun c => .ok (c.code.size, c)

/-- Aims the jump at an index at the next instruction. -/
def patchToHere (jump : Nat) : Emitter Unit := fun c =>
  .ok ((), (c.patchJump jump c.code.size).getD c)

def unsupported {α : Type} (kind : String) : Emitter α := fun _ => .error (.unsupportedNode kind)

end Emitter

open Emitter (place write here patchToHere unsupported)

mutual

def Expr.emit : Expr → Emitter Unit
  | .literal value => do
    let index ← Emitter.constant (.ofLiteral value)
    write (.loadConst index)
  | .identifier name => write (.loadVar name)
  | .binary op left right => do
    left.emit
    right.emit
    write (.binary op)
  | .assign op target value => do
    match op.binary? with
    | some op =>
      write (.loadVar target)
      value.emit
      write (.binary op)
    | none => value.emit
    write .dup
    write (.storeVar target)
  | .call (.computed target) _ => unsupported target.kind
  | .call (.function name) arguments => do
    Expr.emitAll arguments
    write (.call name arguments.length)
  | .call (.method receiver property) arguments => do
    Expr.emitAll arguments
    write (.call (Callee.method receiver property).displayName arguments.length)
  | .member receiver property => unsupported (Expr.member receiver property).kind
  | .array elements => unsupported (Expr.array elements).kind
  | .object fields => unsupported (Expr.object fields).kind

def Expr.emitAll : List Expr → Emitter Unit
  | [] => return
  | e :: rest => do
    e.emit
    Expr.emitAll rest

end

mutual

/-- Writes code of a statement. An expression statement leaves its value if `keep` is set. -/
def Stmt.emit (keep : Bool) : Stmt → Emitter Unit
  | .declare _ name init => do
    init.emit
    write (.storeVar name)
  | .expression value => do
    value.emit
    unless keep do write .pop
  | .ifElse test consequent none => do
    test.emit
    let otherwise ← place (.jumpIfFalse 0)
    Stmt.emitAll consequent
    patchToHere otherwise
  | .ifElse test consequent (some alternate) => do
    test.emit
    let otherwise ← place (.jumpIfFalse 0)
    Stmt.emitAll consequent
    let behind ← place (.jump 0)
    patchToHere otherwise
    Stmt.emitAll alternate
    patchToHere behind
  | .whileLoop test body => do
    let again ← here
    test.emit
    let exit ← place (.jumpIfFalse 0)
    Stmt.emitAll body
    write (.jump again)
    patchToHere exit
  | .forLoop init test update body => do
    Stmt.emitClause init
    let again ← here
    let exit? ← test.mapM fun test => do
      test.emit
      place (.jumpIfFalse 0)
    Stmt.emitAll body
    update.forM fun update => do
      update.emit
      write .pop
    write (.jump again)
    exit?.forM patchToHere
  | .function name params body site => unsupported (Stmt.function name params body site).kind
  | .ret argument => unsupported (Stmt.ret argument).kind

def Stmt.emitAll : List Stmt → Emitter Unit
  | [] => return
  | s :: rest => do
    s.emit false
    Stmt.emitAll rest

def Stmt.emitClause : Option Stmt → Emitter Unit
  | none => return
  | some s => s.emit false

end

def Program.emit : Program → Emitter Unit
  | [] => return
  | [last] => last.emit true
  | s :: rest => do
    s.emit false
    Program.emit rest

def Program.generate (p : Program) : Except CompileError Chunk := do
  let (_, chunk) ← (do p.emit; write .halt).run .empty
  chunk.validate
  return chunk

end TinyScript
