import TinyScript.Bytecode.Generate
import TinyScript.Bytecode.Vm
import TinyScript.Modules
import TinyScript.Program.Outline

/-! # Sessions

A `Session` runs scripts one after the other on one of two back ends, each of which keeps its own
variables, and loads modules.

* `execute`: run a source text; what it prints on the way is returned beside the result;
* `executeFile`: run a script file;
* `loadModule`: load a module and show its exports;
* `collectGarbage`: collect the heap of the tree back end.
-/

namespace TinyScript

inductive Backend where
  | tree
  | bytecode
  deriving Repr, DecidableEq

namespace Backend

def name : Backend → String
  | tree => "tree"
  | bytecode => "bytecode"

def ofName? (name : String) : Option Backend :=
  [tree, bytecode].find? (·.name == name)

def ofAnyCase? (name : String) : Option Backend := ofName? (name.map Char.toLower)

end Backend

structure Settings where
  backend : Backend := .tree
  printTokens : Bool := false
  printTree : Bool := false
  printCode : Bool := false
  collectAfterRun : Bool := true
  stepLimit : Option Nat := none

inductive Failure where
  | script (error : ScriptError)
  | module (error : ModuleError)
  | unreadable (path : String) (error : FileError)

def Failure.message : Failure → String
  | script error => error.message
  | module error => error.message
  | unreadable path error => "cannot read " ++ path ++ ": " ++ error.message

structure Shown where
  text : String
  isUndefined : Bool
  deriving Repr, DecidableEq

def Scalar.isUndefined : Scalar → Bool
  | .undefined => true
  | _ => false

def Value.isUndefined : Value → Bool
  | .scalar value => value.isUndefined
  | _ => false

structure Execution where
  printed : String := ""
  result : Except Failure Shown

structure Session where
  settings : Settings
  interpreter : Interpreter
  vm : Vm
  modules : Modules
  clock : Clock

namespace Session

def new (settings : Settings) : Session where
  settings
  interpreter := .new
  vm := .new settings.stepLimit
  modules := .empty
  clock := default

def setClock (s : Session) (clock : Clock) : Session :=
  { s with
    clock
    interpreter := { s.interpreter with world := { s.interpreter.world with clock } }
    vm := { s.vm with clock } }

def setBackend (s : Session) (backend : Backend) : Session :=
  { s with settings := { s.settings with backend } }

def setCollectAfterRun (s : Session) (collectAfterRun : Bool) : Session :=
  { s with settings := { s.settings with collectAfterRun } }

/-- Limits the runs of the stack machine, which starts afresh without variables. -/
def setStepLimit (s : Session) (stepLimit : Option Nat) : Session :=
  { s with
    settings := { s.settings with stepLimit }
    vm := { Vm.new stepLimit with clock := s.clock } }

def collectGarbage (s : Session) : Heap.Stats × Session :=
  let (stats, interpreter) := s.interpreter.collectGarbage
  (stats, { s with interpreter })

def tidy (s : Session) : Session :=
  if s.settings.collectAfterRun then s.collectGarbage.2 else s

/-- Runs a program on the tree back end. Its value is shown before garbage is collected, because a
value that is bound to no name is garbage. -/
def runTree (s : Session) (patience : Nat) (p : Program) :
    Option (Except Failure Shown × Session) :=
  match s.interpreter.run patience p with
  | none => none
  | some (.ok value, interpreter) =>
    some (.ok ⟨interpreter.display value, value.isUndefined⟩, { s with interpreter }.tidy)
  | some (.error e, interpreter) =>
    some (.error (.script (.execution e)), { s with interpreter }.tidy)

def runChunk (s : Session) (patience : Nat) (chunk : Chunk) :
    Option (Except Failure Shown × Session) :=
  match s.vm.run patience chunk with
  | none => none
  | some (.ok value, vm) => some (.ok ⟨value.text, value.isUndefined⟩, { s with vm })
  | some (.error e, vm) => some (.error (.script (.execution e)), { s with vm })

def runProgram (s : Session) (patience : Nat) (printed : String) (p : Program) :
    Option (Execution × Session) :=
  match s.settings.backend with
  | .tree =>
    match s.runTree patience p with
    | none => none
    | some (result, s) => some (⟨printed, result⟩, s)
  | .bytecode =>
    match p.generate with
    | .error e => some (⟨printed, .error (.script (.compile e))⟩, s)
    | .ok chunk =>
      let printed := if s.settings.printCode then printed ++ chunk.listing else printed
      match s.runChunk patience chunk with
      | none => none
      | some (result, s) => some (⟨printed, result⟩, s)

def tokenListing (s : Session) (source : String) : Except LexError String :=
  if s.settings.printTokens then do
    return String.join ((← tokenize source).map fun token => token.code ++ "\n")
  else .ok ""

/-- Runs a source text, for at most `patience` steps. -/
def execute (s : Session) (patience : Nat) (source : String) : Option (Execution × Session) :=
  match s.tokenListing source with
  | .error e => some (⟨"", .error (.script (.lex e))⟩, s)
  | .ok tokens =>
    match parseProgram source with
    | .error e => some (⟨tokens, .error (.script (.ofParse e))⟩, s)
    | .ok p =>
      let tree := if s.settings.printTree then (Program.outline p).text ++ "\n" else ""
      s.runProgram patience (tokens ++ tree) p

def executeFile (s : Session) (patience : Nat) (view : FileView) (path : String) :
    Option (Execution × Session) :=
  match view.readText path with
  | .error e => some (⟨"", .error (.unreadable path e)⟩, s)
  | .ok source => s.execute patience source

def loadModule (s : Session) (patience : Nat) (view : FileView) (path : String) :
    Option (Except Failure Shown × Session) :=
  match s.modules.load patience s.clock view path with
  | none => none
  | some (.ok module, modules) =>
    some (.ok ⟨module.text, module.exports.isUndefined⟩, { s with modules })
  | some (.error e, modules) => some (.error (.module e), { s with modules })

end Session

end TinyScript
