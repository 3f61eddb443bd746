import TinyScript.Files
import TinyScript.Interpreter

/-! # Modules

A module is a script file that is run once, in an interpreter of its own; its exports are the value
of the program. Modules are kept by the canonical name of their file, and a module that has been
loaded is never read again.
-/

namespace TinyScript

inductive ModuleError where
  | notFound (path : String)
  | unreadable (path : String) (error : FileError)
  | script (path : String) (error : ScriptError)

def ModuleError.message : ModuleError → String
  | notFound path => "module not found: " ++ path
  | unreadable path error => "cannot read module " ++ path ++ ": " ++ error.message
  | script path error => "module " ++ path ++ " failed: " ++ error.message

structure Module where
  /-- The canonical name of its file. -/
  path : String
  interpreter : Interpreter
  exports : Value

def Module.text (m : Module) : String := m.interpreter.display m.exports

/-- The modules loaded so far, by canonical name. -/
abbrev Modules := NameMap Module

namespace Modules

/-- The canonical name of a requested file; a file that does not exist is told from one that
cannot be reached. -/
def canonical (view : FileView) (path : String) : Except ModuleError String :=
  match view.canonical path with
  | .ok name => .ok name
  | .error .notFound => .error (.notFound path)
  | .error error => .error (.unreadable path error)

def run (patience : Nat) (clock : Clock) (view : FileView) (path : String) :
    Option (Except ModuleError Module) :=
  match view.readText path with
  | .error error => some (.error (.unreadable path error))
  | .ok source =>
    let fresh := Interpreter.new
    match { fresh with world := { fresh.world with clock } }.eval patience source with
    | none => none
    | some (.error error, _) => some (.error (.script path error))
    | some (.ok exports, interpreter) => some (.ok ⟨path, interpreter, exports⟩)

/-- Loads a module, or finds it among those loaded before. -/
def load (modules : Modules) (patience : Nat) (clock : Clock) (view : FileView) (path : String) :
    Option (Except ModuleError Module × Modules) :=
  match canonical view path with
  | .error error => some (.error error, modules)
  | .ok name =>
    match modules.get? name with
    | some module => some (.ok module, modules)
    | none =>
      match run patience clock view name with
      | none => none
      | some (.error error) => some (.error error, modules)
      | some (.ok module) => some (.ok module, modules.insert name module)

def isLoaded (modules : Modules) (view : FileView) (path : String) : Bool :=
  match view.canonical path with
  | .ok name => modules.contains name
  | .error _ => false

end Modules

end TinyScript
