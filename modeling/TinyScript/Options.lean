import TinyScript.Session

/-! # Command-line options

Arguments are read from left to right. An option takes its value from the same word (`--eval=1`,
`-e1`) or from the next one, unless that begins with a dash; short options can be joined in one
word; after `--` every word is a script name.

* `Options`: what the arguments ask for;
* `Options.parse`: reads them;
* `UsageError`: why they cannot be read.

A value in a word of its own is checked only when the next option or script name, or the end, has
been reached, so an unknown option right after it is reported first.
-/

namespace TinyScript

inductive UsageError where
  | unknownArgument
  | invalidValue
  | valueValidation
  | argumentConflict
  | tooManyValues
  | displayHelp
  deriving Repr, DecidableEq

/-- What the arguments ask for. -/
structure Options where
  script : Option String := none
  file : Option String := none
  eval : Option String := none
  repl : Bool := false
  backend : Backend := .tree
  printTokens : Bool := false
  printTree : Bool := false
  printCode : Bool := false
  noCollect : Bool := false
  stepLimit : Option Nat := none
  logLevel : Option String := none
  version : Bool := false

namespace Options

def scriptPath (o : Options) : Option String := o.file <|> o.script

def settings (o : Options) : Settings where
  backend := o.backend
  printTokens := o.printTokens
  printTree := o.printTree
  printCode := o.printCode
  collectAfterRun := !o.noCollect
  stepLimit := o.stepLimit

inductive Key where
  | script | file | eval | repl | backend | printTokens | printTree | printCode | noCollect
  | stepLimit | logLevel | version | help
  deriving Repr, DecidableEq

namespace Key

def takesValue : Key → Bool
  | script | file | eval | backend | stepLimit | logLevel => true
  | _ => false

def ofLong? (name : String) : Option Key :=
  match name with
  | "file" => some file
  | "eval" => some eval
  | "repl" => some repl
  | "backend" => some backend
  | "print-tokens" => some printTokens
  | "print-ast" => some printTree
  | "print-bytecode" => some printCode
  | "no-gc" => some noCollect
  | "step-limit" => some stepLimit
  | "log-level" => some logLevel
  | "version" => some version
  | "help" => some help
  | _ => none

def ofShort? (c : Char) : Option Key :=
  match c with
  | 'f' => some file
  | 'e' => some eval
  | 'r' => some repl
  | 'v' => some version
  | 'h' => some help
  | _ => none

end Key

/-- A whole number below `2 ^ 64`, with or without a plus sign. -/
def readLimit? (s : String) : Option Nat :=
  let digits := match s.toList with
    | '+' :: rest => rest
    | cs => cs
  if digits.isEmpty || !digits.all Number.isDigit then none
  else
    let n := Number.natOfDigits digits
    if n < UInt64.size then some n else none

def readPath (s : String) : Except UsageError String :=
  if s.isEmpty then .error .invalidValue else .ok s

def set (o : Options) (key : Key) (value : String) : Except UsageError Options :=
  match key with
  | .script => do return { o with script := some (← readPath value) }
  | .file => do return { o with file := some (← readPath value) }
  | .eval => .ok { o with eval := some value }
  | .backend =>
    match Backend.ofName? value with
    | some backend => .ok { o with backend }
    | none => .error .invalidValue
  | .stepLimit =>
    match readLimit? value with
    | some limit => .ok { o with stepLimit := some limit }
    | none => .error .valueValidation
  | .logLevel => .ok { o with logLevel := some value }
  | .repl => .ok { o with repl := true }
  | .printTokens => .ok { o with printTokens := true }
  | .printTree => .ok { o with printTree := true }
  | .printCode => .ok { o with printCode := true }
  | .noCollect => .ok { o with noCollect := true }
  | .version => .ok { o with version := true }
  | .help => .error .displayHelp

/-- How far the arguments have been read. -/
structure Reading where
  options : Options := {}
  seen : List Key := []
  /-- A key whose value is yet to come or to be checked. -/
  pending : Option (Key × Option String) := none
  scriptNamed : Bool := false
  /-- Only script names follow. -/
  trailing : Bool := false

namespace Reading

def record (r : Reading) (key : Key) (value : String) : Except UsageError Reading :=
  if r.seen.contains key then .error .argumentConflict
  else do return { r with options := ← r.options.set key value, seen := key :: r.seen }

/-- Settles the pending key. -/
def settle (r : Reading) : Except UsageError Reading :=
  match r.pending with
  | none => .ok r
  | some (_, none) => .error .invalidValue
  | some (key, some value) => { r with pending := none }.record key value

def react (r : Reading) (key : Key) (value : String) : Except UsageError Reading := do
  (← r.settle).record key value

def meet (r : Reading) (key : Key) (attached : Option String) : Except UsageError Reading :=
  match attached with
  | some value => r.react key value
  | none => do return { ← r.settle with pending := some (key, none) }

/-- `--name` or `--name=value` -/
def long (r : Reading) (word : List Char) : Except UsageError Reading :=
  let name := String.ofList (word.takeWhile (· ≠ '='))
  let attached := match word.dropWhile (· ≠ '=') with
    | _ :: value => some (String.ofList value)
    | [] => none
  match Key.ofLong? name with
  | none => .error .unknownArgument
  | some key =>
    if key.takesValue then r.meet key attached
    else if attached.isSome then .error .tooManyValues
    else r.react key ""

/-- The letters after one dash; the first that takes a value takes the rest of the word. -/
def short (r : Reading) : List Char → Except UsageError Reading
  | [] => .ok r
  | c :: rest =>
    match Key.ofShort? c with
    | none => .error .unknownArgument
    | some key =>
      if key.takesValue then
        match rest with
        | [] => r.meet key none
        | '=' :: value => r.meet key (some (String.ofList value))
        | value => r.meet key (some (String.ofList value))
      else
        match r.react key "" with
        | .error e => .error e
        | .ok r => r.short rest

/-- A word that is no option: the value that is being waited for, or a script name. -/
def plain (r : Reading) (word : String) : Except UsageError Reading :=
  match r.trailing, r.pending with
  | false, some (key, none) => .ok { r with pending := some (key, some word) }
  | _, _ =>
    if r.scriptNamed then .error .unknownArgument
    else do return { ← r.settle with pending := some (.script, some word), scriptNamed := true }

def word (r : Reading) (word : String) : Except UsageError Reading :=
  if r.trailing then r.plain word
  else
    match word.toList with
    | ['-', '-'] => .ok { r with trailing := true }
    | '-' :: '-' :: rest => r.long rest
    | '-' :: c :: rest => r.short (c :: rest)
    | _ => r.plain word

/-- Ends the reading. A script cannot be named in both ways. -/
def finish (r : Reading) : Except UsageError Options := do
  let r ← r.settle
  if r.seen.contains .script && r.seen.contains .file then throw .argumentConflict
  return r.options

end Reading

def parse (args : List String) : Except UsageError Options := do
  (← args.foldlM Reading.word {}).finish

end Options

end TinyScript
