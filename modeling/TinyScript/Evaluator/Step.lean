import TinyScript.Evaluator.Machine

/-! # Steps of the evaluator

`step` takes a machine to its next state; a machine that has halted stays as it is. `run` takes a
number of steps.

Evaluation goes from left to right. A callee is looked up before its arguments are evaluated, and an
assignment with an operator reads the old value before the new one is evaluated. Blocks have no
scope of their own, a function's scope lies directly inside the global one, and a block is worth
the value of its last statement.
-/

namespace TinyScript

namespace Machine

/-! ## Moves -/

def fail (m : Machine) (error : ExecutionError) : Machine := { m with control := .raise error }

def give (m : Machine) (value : Value) : Machine := { m with control := .give value }

def giveResult (m : Machine) : Except ExecutionError Value → Machine
  | .ok value => m.give value
  | .error error => m.fail error

def evalFor (m : Machine) (frame : Frame) (e : Expr) : Machine :=
  { m with control := .eval e, frames := frame :: m.frames }

def enter (m : Machine) : List Stmt → Machine
  | [] => m.give .undefined
  | [s] => { m with control := .exec s }
  | s :: rest => { m with control := .exec s, frames := .sequence rest :: m.frames }

def enterFor (m : Machine) (frame : Frame) (block : List Stmt) : Machine :=
  { m with frames := frame :: m.frames }.enter block

def define (m : Machine) (name : String) (value : Value) : Machine :=
  match m with
  | ⟨control, frames, some scope, depth, global, world⟩ =>
    let (scope, heap) := scope.define world.heap name value
    ⟨control, frames, some scope, depth, global, { world with heap }⟩
  | ⟨control, frames, none, depth, global, world⟩ =>
    let (global, heap) := global.define world.heap name value
    ⟨control, frames, none, depth, global, { world with heap }⟩

def allocate (m : Machine) (object : Object) : Handle × Machine :=
  let (handle, heap) := m.world.heap.allocate object
  (handle, { m with world := { m.world with heap } })

def assign (m : Machine) (name : String) (value : Value) : Machine :=
  match m.env.cell? m.world.heap name with
  | none => m.fail (.undefinedIdentifier name)
  | some cell =>
    { m with
      control := .give value
      world := { m.world with heap := m.world.heap.update cell fun _ => .binding value } }

/-! ## Calls -/

/-- Calls a function: its parameters are bound in a new scope, the missing ones to `undefined`. -/
def call (m : Machine) (code : Function) (args : List Value) : Machine :=
  if m.depth ≥ callLimit then m.fail (.callDepthExceeded callLimit)
  else
    let (scope, heap) := Scope.defineAll .empty m.world.heap code.params args
    { m with
      frames := .returnTo m.locals :: m.frames
      locals := some scope
      depth := m.depth + 1
      world := { m.world with heap } }.enter code.body

def giveArray (m : Machine) (reversed : List Value) : Machine :=
  let (handle, m) := m.allocate (.array reversed.reverse.toArray)
  m.give (.array handle)

/-- Calls a function with the next element and its index, or makes an array of the results. -/
def mapNext (m : Machine) (code : Function) (done : List Value) : List Value → Machine
  | [] => m.giveArray done
  | element :: rest =>
    { m with frames := .mapping code done rest :: m.frames }.call code
      [element, .number done.length.toFloat]

def reply (m : Machine) : Reply → Machine
  | .value result => m.give result
  | .call code args => m.call code args
  | .map code elements => m.mapNext code [] elements

def callBuiltin (table : BuiltinTable) (m : Machine) (library operation : String)
    (args : List Value) : Machine :=
  match table.find? library operation with
  | none => m.fail (.unknownBuiltin library operation)
  | some builtin =>
    match m with
    | ⟨control, frames, locals, depth, global, world⟩ =>
      match builtin (library ++ "." ++ operation) args world with
      | (.ok answer, world) => (Machine.mk control frames locals depth global world).reply answer
      | (.error error, world) => (Machine.mk control frames locals depth global world).fail error

def argumentNext (table : BuiltinTable) (m : Machine) (target : Target) (done : List Value) :
    List Expr → Machine
  | e :: rest => m.evalFor (.argument target done rest) e
  | [] =>
    match target with
    | .function code => m.call code done.reverse
    | .builtin library operation => m.callBuiltin table library operation done.reverse

def callValue (table : BuiltinTable) (m : Machine) (value : Value) (display : String)
    (args : List Expr) : Machine :=
  match value with
  | .function code => m.argumentNext table (.function code) [] args
  | _ => m.fail (.notCallable display)

def callMethod (table : BuiltinTable) (m : Machine) (receiver : Value)
    (property display : String) (args : List Expr) : Machine :=
  match receiver with
  | .library library =>
    match table.find? library property with
    | some _ => m.argumentNext table (.builtin library property) [] args
    | none => m.fail (.unknownBuiltin library property)
  | _ =>
    match readProperty m.world.heap receiver property with
    | .ok value => m.callValue table value display args
    | .error error => m.fail error

/-! ## Expressions -/

def evalCall (table : BuiltinTable) (m : Machine) (callee : Callee) (args : List Expr) : Machine :=
  match callee with
  | .function name =>
    match m.lookup? name with
    | some value => m.callValue table value name args
    | none => m.fail (.functionNotFound name)
  | .method receiver property =>
    match m.lookup? receiver with
    | some value => m.callMethod table value property callee.displayName args
    | none => m.fail (.undefinedIdentifier receiver)
  | .computed (.member receiver property) =>
    m.evalFor (.method property callee.displayName args) receiver
  | .computed target => m.evalFor (.callee callee.displayName args) target

def elementNext (m : Machine) (done : List Value) : List Expr → Machine
  | e :: rest => m.evalFor (.element done rest) e
  | [] => m.giveArray done

def fieldNext (m : Machine) (done : NameMap Value) : List (String × Expr) → Machine
  | (key, e) :: rest => m.evalFor (.field done key rest) e
  | [] =>
    let (handle, m) := m.allocate (.record done)
    m.give (.object handle)

def evalStep (table : BuiltinTable) (m : Machine) : Expr → Machine
  | .literal value => m.give (.scalar (.ofLiteral value))
  | .identifier name =>
    match m.lookup? name with
    | some value => m.give value
    | none => m.fail (.undefinedIdentifier name)
  | .binary op left right => m.evalFor (.leftOperand op right) left
  | .assign op target value =>
    match op.binary? with
    | none => m.evalFor (.assign target none) value
    | some op =>
      match m.lookup? target with
      | some old => m.evalFor (.assign target (some (op, old))) value
      | none => m.fail (.undefinedIdentifier target)
  | .call callee args => m.evalCall table callee args
  | .member receiver property => m.evalFor (.property property) receiver
  | .array elements => m.elementNext [] elements
  | .object fields => m.fieldNext .empty fields

/-! ## Statements -/

/-- Begins the next repetition of a `for`; `last` is the value of the repetition before. -/
def loopNext (m : Machine) (loop : Loop) (last : Value) : Machine :=
  match loop.test with
  | some test => m.evalFor (.forTest loop last) test
  | none => m.enterFor (.forBody loop) loop.body

def execStep (m : Machine) : Stmt → Machine
  | .declare _ name init => m.evalFor (.declare name) init
  | .function name params body site =>
    (m.define name (.function ⟨name, params, body, site.getD 0⟩)).give .undefined
  | .ifElse test consequent alternate => m.evalFor (.branch consequent alternate) test
  | .forLoop none test update body => m.loopNext ⟨test, update, body⟩ .undefined
  | .forLoop (some init) test update body =>
    { m with control := .exec init, frames := .forInit ⟨test, update, body⟩ :: m.frames }
  | .whileLoop test body => m.evalFor (.whileTest test body .undefined) test
  | .ret none => { m with control := .leave .undefined }
  | .ret (some argument) => m.evalFor .giveBack argument
  | .expression value => { m with control := .eval value }

/-! ## Frames -/

def enterAfter (m : Machine) (value : Value) : List Stmt → Machine
  | [] => m.give value
  | rest => m.enter rest

def resume (table : BuiltinTable) (m : Machine) (frame : Frame) (value : Value) : Machine :=
  match frame with
  | .leftOperand op right => m.evalFor (.rightOperand op value) right
  | .rightOperand op left => m.giveResult (op.onValues m.world.heap left value)
  | .assign target none => m.assign target value
  | .assign target (some (op, old)) =>
    match op.onValues m.world.heap old value with
    | .ok value => m.assign target value
    | .error error => m.fail error
  | .property name => m.giveResult (readProperty m.world.heap value name)
  | .element done rest => m.elementNext (value :: done) rest
  | .field done key rest => m.fieldNext (done.insert key value) rest
  | .callee display args => m.callValue table value display args
  | .method property display args => m.callMethod table value property display args
  | .argument target done rest => m.argumentNext table target (value :: done) rest
  | .mapping code done rest => m.mapNext code (value :: done) rest
  | .returnTo locals => { m with control := .give .undefined, locals, depth := m.depth - 1 }
  | .declare name => (m.define name value).give .undefined
  | .branch consequent alternate =>
    if value.isTruthy then m.enter consequent
    else
      match alternate with
      | some alternate => m.enter alternate
      | none => m.give .undefined
  | .sequence rest => m.enterAfter value rest
  | .whileTest test body last =>
    if value.isTruthy then m.enterFor (.whileBody test body) body else m.give last
  | .whileBody test body => m.evalFor (.whileTest test body value) test
  | .forInit loop => m.loopNext loop .undefined
  | .forTest loop last =>
    if value.isTruthy then m.enterFor (.forBody loop) loop.body else m.give last
  | .forBody loop =>
    match loop.update with
    | some update => m.evalFor (.forUpdate loop value) update
    | none => m.loopNext loop value
  | .forUpdate loop last => m.loopNext loop last
  | .giveBack => { m with control := .leave value }

/-- Lets a return pass through a frame that has been taken off: it stops at the call that it
leaves. -/
def unwind (m : Machine) (frame : Frame) (value : Value) : Machine :=
  match frame with
  | .returnTo locals => { m with control := .give value, locals, depth := m.depth - 1 }
  | .forInit loop => m.loopNext loop .undefined
  | _ => m

/-- Lets an error pass through a frame that has been taken off: a call that it leaves is not active
any more. -/
def abandon (m : Machine) (frame : Frame) : Machine :=
  match frame with
  | .returnTo locals => { m with locals, depth := m.depth - 1 }
  | _ => m

/-! ## Steps -/

def step (table : BuiltinTable) (m : Machine) : Machine :=
  match m.control with
  | .eval e => m.evalStep table e
  | .exec s => m.execStep s
  | .give value =>
    match m.frames with
    | frame :: frames => { m with frames }.resume table frame value
    | [] => { m with control := .halted (.ok value) }
  | .leave value =>
    match m.frames with
    | frame :: frames => { m with frames }.unwind frame value
    | [] => { m with control := .halted (.ok value) }
  | .raise error =>
    match m.frames with
    | frame :: frames => { m with frames }.abandon frame
    | [] => { m with control := .halted (.error error) }
  | .halted _ => m

/-- The state after at most `n` steps. -/
def run (table : BuiltinTable) : Nat → Machine → Machine
  | 0, m => m
  | n + 1, m =>
    match m.control with
    | .halted _ => m
    | _ => run table n (m.step table)

end Machine

end TinyScript
