import TinyScript.Shell.Complete
import TinyScript.Text.Blank

/-! # Reading lines in the shell

A `Reader` collects lines into texts that can be run. It knows nothing of what running them does.

* `receive`: what to do after one more line;
* `lines`: the lines of a text;
* `commandName`, `commandArgument`: the parts of a command.
-/

namespace TinyScript.Shell

/-- What a line is read as. -/
inductive Mode where
  | prompt
  | continuation
  | editor
  deriving Repr, DecidableEq

structure Reader where
  mode : Mode := .prompt
  buffer : String := ""
  deriving Repr, DecidableEq

inductive Action where
  | wait
  | evaluate (source : String)
  | nothingToRun
  | command (text : String)
  | exit
  deriving Repr, DecidableEq

def commandName (command : String) : String :=
  String.ofList (Text.splitAtBlank command.toList).1

def commandArgument (command : String) : String :=
  String.ofList (Text.trimChars (Text.splitAtBlank command.toList).2)

def isExit (text : String) : Bool := text = "exit" || text = ".exit" || text = "quit"

namespace Reader

def afterCommand (r : Reader) (command : String) : Reader :=
  if commandName command = ".editor" then ⟨.editor, ""⟩ else r

/-- Adds source text, which is evaluated once it is complete. -/
def extend (source : String) : Action × Reader :=
  if isComplete source then (.evaluate source, {}) else (.wait, ⟨.continuation, source⟩)

def receive (r : Reader) (line : String) : Action × Reader :=
  let text := Text.trim line
  match r.mode with
  | .editor =>
    if text = "done" then
      if (Text.trim r.buffer).isEmpty then (.nothingToRun, {}) else (.evaluate r.buffer, {})
    else (.wait, ⟨.editor, r.buffer ++ line ++ "\n"⟩)
  | .prompt =>
    if isExit text then (.exit, r)
    else if text.startsWith "." then (.command text, r.afterCommand text)
    else extend (r.buffer ++ line)
  | .continuation => extend (r.buffer ++ "\n" ++ line)

end Reader

/-- Cuts at line feeds. -/
def cutLines (cs : List Char) (line : List Char) : List String :=
  match cs with
  | [] => if line.isEmpty then [] else [String.ofList line.reverse]
  | '\n' :: rest =>
    let line := match line with
      | '\r' :: line => line
      | line => line
    String.ofList line.reverse :: cutLines rest []
  | c :: rest => cutLines rest (c :: line)

/-- The lines of a text; the end of a line is a line feed, or a carriage return and a line feed. -/
def lines (text : String) : List String := cutLines text.toList []

end TinyScript.Shell
