import TinyScript.Session
import TinyScript.Shell.Reader

/-! # The shell

Reads lines and has a session run them.

* `Emission`: what is written, and where to;
* `Runtime`: what is asked of the session, which is `Session.runtime`;
* `perform`: what an action does;
* `run`: a whole dialogue.
-/

namespace TinyScript

def version : String := "0.60.1"

/-- A text written to one of the two outputs. -/
inductive Emission where
  | out (text : String)
  | err (text : String)
  deriving Repr, DecidableEq

namespace Emission

def line (text : String) : Emission := out (text ++ "\n")

def failure (f : Failure) : Emission := err ("apple: " ++ f.message ++ "\n")

def ofExecution (e : Execution) : List Emission :=
  let printed := if e.printed.isEmpty then [] else [out e.printed]
  match e.result with
  | .ok shown => if shown.isUndefined then printed else printed ++ [line shown.text]
  | .error f => printed ++ [failure f]

end Emission

/-- What a shell asks of the session that it reads lines for. -/
structure Runtime (m : Type → Type) where
  backend : m Backend
  setBackend (backend : Backend) : m Unit
  execute (source : String) : m Execution
  loadModule (path : String) : m (Except Failure Shown)
  collectGarbage : m Heap.Stats

/-- A session runs scripts and modules for at most `patience` steps each. -/
def Session.runtime (patience : Nat) (view : FileView) : Runtime (StateT Session Option) where
  backend := return (← get).settings.backend
  setBackend backend := modify (·.setBackend backend)
  execute source s := s.execute patience source
  loadModule path s := s.loadModule patience view path
  collectGarbage := modifyGet Session.collectGarbage

namespace Shell

variable {m : Type → Type} [Monad m]

def greeting (backend : Backend) : List Emission := [
  .line ("Apple v" ++ version ++ " (" ++ backend.name ++ " backend)"),
  .line "Type .help for commands or 'exit' to quit."]

def farewell : Emission := .line "Exiting Apple..."

def help : List Emission := [
  .line "REPL Commands:",
  .line "  .help              - Show this help message",
  .line "  .gc                - Collect garbage and show statistics",
  .line "  .backend [NAME]    - Show or switch backend (tree, bytecode)",
  .line "  .load PATH         - Load a module and print its exports",
  .line "  .editor            - Enter multi-line mode; 'done' runs the buffer",
  .line "  .clear             - Clear the screen",
  .line "  exit               - Exit the REPL"]

def showBackend (backend : Backend) : Emission := .line ("backend: " ++ backend.name)

def backendCommand (r : Runtime m) (argument : String) : m (List Emission) := do
  if argument.isEmpty then return [showBackend (← r.backend)]
  match Backend.ofAnyCase? argument with
  | some backend =>
    r.setBackend backend
    return [showBackend backend]
  | none => return [.line ("Unknown backend: " ++ argument ++ " (expected tree or bytecode)")]

def loadCommand (r : Runtime m) (path : String) : m (List Emission) := do
  if path.isEmpty then return [.line "Usage: .load PATH"]
  match ← r.loadModule path with
  | .ok shown => return [.line shown.text]
  | .error f => return [.failure f]

def collectCommand (r : Runtime m) : m (List Emission) := do
  let stats ← r.collectGarbage
  return [.line ("marked " ++ toString stats.marked ++ ", freed " ++ toString stats.freed ++
    ", live " ++ toString stats.live)]

def command (r : Runtime m) (text : String) : m (List Emission) :=
  let argument := commandArgument text
  match commandName text with
  | ".help" => return help
  | ".gc" => collectCommand r
  | ".backend" => backendCommand r argument
  | ".load" => loadCommand r argument
  | ".editor" => return [.line "Entering editor mode. Type 'done' to run."]
  | ".clear" => return [.out "\x1b[2J\x1b[1;1H"]
  | _ => return [.line ("Unknown command: " ++ text), .line "Type .help for available commands"]

def perform (r : Runtime m) : Action → m (List Emission)
  | .wait => return []
  | .evaluate source => return Emission.ofExecution (← r.execute source)
  | .nothingToRun => return [.line "No code to execute."]
  | .command text => command r text
  | .exit => return [farewell]

def dialogue (r : Runtime m) : Reader → List String → m (List Emission)
  | _, [] => return [.line "", farewell]
  | reader, line :: rest => do
    let (action, reader) := reader.receive line
    let written ← perform r action
    if action = .exit then return written
    return written ++ (← dialogue r reader rest)

def run (r : Runtime m) (input : List String) : m (List Emission) := do
  return greeting (← r.backend) ++ (← dialogue r {} input)

end Shell

end TinyScript
