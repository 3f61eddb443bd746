import TinyScript.Lexer

/-! # Parsers over a stream of tokens

A parser reads tokens off a `Stream`, looking at most one ahead.

* `peek`, `next`: look at the next token, take it;
* `check`, `eat`, `expect`: is it this punctuator, take it if it is, take it or fail;
* `iterate`: repeat a step for as long as it finds something;
* `commaSeparated`, `bracketed`: lists of items.

Errors name the start of the token that the stream delivered last, whether it was taken or only
looked at; `Source.scanned` keeps it.
-/

namespace TinyScript

inductive Expected where
  | punctuator (mark : Punctuator)
  | keyword (word : Keyword)
  | identifier
  | expression
  | propertyName
  | endOfExpression
  | closingInterpolation
  deriving Repr, DecidableEq

def Expected.describe : Expected → String
  | punctuator mark => "'" ++ mark.spelling ++ "'"
  | keyword word => "'" ++ word.spelling ++ "'"
  | identifier => "identifier"
  | expression => "expression"
  | propertyName => "property name"
  | endOfExpression => "end of expression"
  | closingInterpolation => "'\x7d' closing template substitution"

/-- Why a source text is no program. -/
inductive ParseError where
  | unexpectedToken (wanted : Expected) (found : Token) (position : Position)
  | nestingTooDeep (limit : Nat) (position : Position)
  | lex (error : LexError)
  deriving Repr, DecidableEq

namespace ParseError

def position : ParseError → Position
  | unexpectedToken _ _ position => position
  | nestingTooDeep _ position => position
  | lex error => error.position

def message : ParseError → String
  | unexpectedToken wanted found position =>
    "expected " ++ wanted.describe ++ ", got " ++ found.describe ++ " at " ++ position.text
  | nestingTooDeep limit position =>
    "expressions nested deeper than " ++ toString limit ++ " levels at " ++ position.text
  | lex error => error.message

end ParseError

/-- The state of a parser. -/
structure Source where
  rest : Stream
  /-- Start of the token delivered last. -/
  scanned : Position
  /-- At least the number of lexemes that are left, and so of the repetitions that can succeed. -/
  bound : Nat
  /-- How many nested productions are under way. -/
  depth : Nat

/-- An error, and the counter of nested productions that the parser is left with. -/
structure ParseFailure where
  error : ParseError
  depth : Nat

abbrev Parser := StateT Source (Except ParseFailure)

namespace Parser

abbrev Result (α : Type) := Except ParseFailure (α × Source)

def Result.answer {α : Type} : Result α → Except ParseError α
  | .ok (a, _) => .ok a
  | .error failure => .error failure.error

def parse {α : Type} (p : Parser α) (tokens : Stream) : Except ParseError α :=
  Result.answer (p ⟨tokens, .start, tokens.length + 1, 0⟩)

/-! ## Single tokens -/

def peek : Parser Token := fun s =>
  match s.rest with
  | .lexeme first _ => .ok (first.token, { s with scanned := first.start })
  | .done stop => .ok (.eof, { s with scanned := stop })
  | .failed e => .error ⟨.lex e, s.depth⟩

/-- Takes the next token; there is no end to the `eof` tokens. -/
def next : Parser Token := fun s =>
  match s.rest with
  | .lexeme first rest => .ok (first.token, { s with rest, scanned := first.start })
  | .done stop => .ok (.eof, { s with scanned := stop })
  | .failed e => .error ⟨.lex e, s.depth⟩

def unexpected {α : Type} (wanted : Expected) (found : Token) : Parser α := fun s =>
  .error ⟨.unexpectedToken wanted found s.scanned, s.depth⟩

def check (mark : Punctuator) : Parser Bool := do
  match ← peek with
  | .punctuator found => pure (found = mark)
  | _ => pure false

def checkKeyword (word : Keyword) : Parser Bool := do
  match ← peek with
  | .keyword found => pure (found = word)
  | _ => pure false

def checkEnd : Parser Bool := do
  match ← peek with
  | .eof => pure true
  | _ => pure false

def eat (mark : Punctuator) : Parser Bool := do
  if ← check mark then
    let _ ← next
    pure true
  else pure false

def expect (mark : Punctuator) : Parser Unit := do
  match ← next with
  | .punctuator found =>
    if found = mark then pure () else unexpected (.punctuator mark) (.punctuator found)
  | other => unexpected (.punctuator mark) other

def expectKeyword (word : Keyword) : Parser Unit := do
  match ← next with
  | .keyword found => if found = word then pure () else unexpected (.keyword word) (.keyword found)
  | other => unexpected (.keyword word) other

def expectIdentifier : Parser String := do
  match ← next with
  | .identifier name => pure name
  | other => unexpected .identifier other

/-! ## Repetition -/

/-- Repeats a step at most `n` times, until it finds nothing more. -/
def iterateUpTo {α : Type} (step : α → Parser (Option α)) : Nat → α → Parser α
  | 0, a => pure a
  | n + 1, a => do
    match ← step a with
    | some b => iterateUpTo step n b
    | none => pure a

/-- Repeats a step until it finds nothing more. A step that finds something takes a token, so there
are at most as many repetitions as tokens. -/
def iterate {α : Type} (step : α → Parser (Option α)) (a : α) : Parser α := fun s =>
  iterateUpTo step s.bound a s

/-- Items until `stop` holds. -/
def manyUntil {α : Type} (stop : Parser Bool) (item : Parser α) : Parser (List α) := do
  let items ← iterate (fun read => do
    if ← stop then pure none else pure (some ((← item) :: read))) []
  pure items.reverse

def commaSeparated {α : Type} (item : Parser α) : Parser (List α) := do
  let items ← iterate (fun read => do
    if ← eat .comma then pure (some ((← item) :: read)) else pure none) [← item]
  pure items.reverse

/-- Items with commas between them up to a closing mark, which is taken; a comma may come before
it. -/
def bracketed {α : Type} (close : Punctuator) (item : Parser α) : Parser (List α) := do
  let (items, _) ← iterate (fun (read, more) => do
    if !more then pure none
    else if ← check close then pure none
    else
      let found ← item
      pure (some (found :: read, ← eat .comma))) ([], true)
  expect close
  pure items.reverse

end Parser

end TinyScript
