import Std.Time.DateTime.Timestamp
import TinyScript.Command

/-! # The program

The outer layer: it reads the arguments, the clock, files and lines, and writes what the library
answers.
-/

namespace TinyScript.Main

/-- Steps to wait for: more than any run can take. -/
def patience : Nat := 0x4000000000000000

def readClock : IO Clock := do
  let now ← Std.Time.Timestamp.now
  return { times := now.toMillisecondsSinceUnixEpoch.toInt.toNat }

def fileError : IO.Error → FileError
  | .noFileOrDirectory .. => .notFound
  | .inappropriateType _ 20 _ => .notADirectory
  | .inappropriateType _ 21 _ => .isADirectory
  | other => .other (toString other)

def attempt {α : Type} (action : IO α) : IO (Except FileError α) := do
  try return .ok (← action)
  catch e => return .error (fileError e)

def viewOf (path : String) : IO FileView := do
  let canonical ← attempt (do return (← IO.FS.realPath path).toString)
  let content ← attempt (do return ← IO.FS.readBinFile path)
  return ⟨fun _ => canonical, fun _ => content⟩

def viewFor : Shell.Action → IO FileView
  | .command text => viewOf (Shell.commandArgument text)
  | _ => return ⟨fun _ => .error .notFound, fun _ => .error .notFound⟩

def write : Emission → IO Unit
  | .out text => do
    let stdout ← IO.getStdout
    stdout.putStr text
    stdout.flush
  | .err text => do (← IO.getStderr).putStr text

def prompt : Shell.Mode → String
  | .prompt => "> "
  | .continuation => "... "
  | .editor => "| "

def nextLine (mode : Shell.Mode) : IO (Option String) := do
  let stdin ← IO.getStdin
  if ← stdin.isTty then write (.out (prompt mode))
  let line ← stdin.getLine
  return if line.isEmpty then none else some ((Shell.lines line).headD "")

partial def dialogue (s : Session) (r : Shell.Reader) : IO Unit := do
  match ← nextLine r.mode with
  | none =>
    write (.line "")
    write Shell.farewell
  | some line =>
    let (action, r) := r.receive line
    let runtime := Session.runtime patience (← viewFor action)
    match Shell.perform runtime action (s.setClock (← readClock)) with
    | none => return
    | some (written, s) =>
      written.forM write
      unless action = .exit do dialogue s r

def finish : Option (Execution × Session) → IO (Option (Bool × Session))
  | none => return none
  | some (e, s) => do
    (Emission.ofExecution e).forM write
    return some (e.result.isOk, s)

def run (o : Options) : IO UInt32 := do
  let s := (Session.new o.settings).setClock (← readClock)
  match Command.plan o with
  | .showVersion =>
    write (.line Command.versionBanner)
    return 0
  | .runScript path =>
    match ← finish (s.executeFile patience (← viewOf path) path) with
    | some (true, _) => return 0
    | _ => return 1
  | .evaluate source thenDialogue =>
    match ← finish (s.execute patience source) with
    | some (true, s) =>
      if thenDialogue then
        (Shell.greeting s.settings.backend).forM write
        dialogue s {}
      return 0
    | _ => return 1
  | .dialogue =>
    (Shell.greeting s.settings.backend).forM write
    dialogue s {}
    return 0

def usage : String :=
  "Usage: apple [OPTIONS] [SCRIPT]\n\nOptions:\n" ++
  "  -f, --file <PATH>         Script to run\n" ++
  "  -e, --eval <CODE>         Evaluate source text\n" ++
  "  -r, --repl                Start the interactive shell (after --eval, if given)\n" ++
  "      --backend <BACKEND>   tree (default) or bytecode\n" ++
  "      --print-tokens        Print the token stream before parsing\n" ++
  "      --print-ast           Print the tree before execution\n" ++
  "      --print-bytecode      Print compiled bytecode (bytecode backend)\n" ++
  "      --no-gc               Do not collect garbage after each execution\n" ++
  "      --step-limit <N>      Stop bytecode runs after N instructions\n" ++
  "      --log-level <FILTER>  Log filter\n" ++
  "  -v, --version             Print the language version and exit\n" ++
  "  -h, --help                Print help\n"

end TinyScript.Main

open TinyScript in
def main (args : List String) : IO UInt32 := do
  match Options.parse args with
  | .ok o => Main.run o
  | .error .displayHelp =>
    Main.write (.out Main.usage)
    return 0
  | .error _ =>
    Main.write (.err Main.usage)
    return 2
