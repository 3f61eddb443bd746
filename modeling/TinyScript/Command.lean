import TinyScript.Options
import TinyScript.Shell

/-! # The command

What the program does with its arguments: show its version, run a script, evaluate a text, or hold a
dialogue.

* `Command.Plan`: which of these;
* `Command.outcome`: what is written, and whether it went well.
-/

namespace TinyScript.Command

def versionBanner : String :=
  "Your current Apple version: " ++ version ++
    "\nCopyright the Apple authors 2025, under the Mozilla Public License v2.0."

inductive Plan where
  | showVersion
  | runScript (path : String)
  | evaluate (source : String) (dialogue : Bool)
  | dialogue

def plan (o : Options) : Plan :=
  if o.version then .showVersion
  else
    match o.scriptPath, o.eval with
    | some path, _ => .runScript path
    | none, some source => .evaluate source o.repl
    | none, none => .dialogue

structure Outcome where
  written : List Emission
  succeeded : Bool

def Outcome.ofExecution (e : Execution) : Outcome where
  written := Emission.ofExecution e
  succeeded := e.result.isOk

/-- Runs the program with the given options, in a session that is new. -/
def outcome (o : Options) (clock : Clock) (patience : Nat) (view : FileView)
    (input : List String) : Option Outcome :=
  let s := (Session.new o.settings).setClock clock
  match plan o with
  | .showVersion => some ⟨[.line versionBanner], true⟩
  | .runScript path =>
    match s.executeFile patience view path with
    | none => none
    | some (e, _) => some (.ofExecution e)
  | .evaluate source dialogue =>
    match s.execute patience source with
    | none => none
    | some (e, s) =>
      if e.result.isOk && dialogue then
        ((Shell.run (Session.runtime patience view) input).run' s).map fun written =>
          ⟨Emission.ofExecution e ++ written, true⟩
      else some (.ofExecution e)
  | .dialogue =>
    ((Shell.run (Session.runtime patience view) input).run' s).map fun written => ⟨written, true⟩

def Outcome.out (o : Outcome) : String :=
  String.join (o.written.map fun
    | .out text => text
    | .err _ => "")

def Outcome.err (o : Outcome) : String :=
  String.join (o.written.map fun
    | .out _ => ""
    | .err text => text)

end TinyScript.Command
