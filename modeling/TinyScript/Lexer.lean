import TinyScript.Number.Reading
import TinyScript.Position
import TinyScript.Text.Blank
import TinyScript.Token

/-! # Reading tokens

A `Lexer` stands at a place in a source text and reads one token at a time.

* `scan` reads the next token: it passes blanks and comments, then takes the longest run that
  forms a number or a name, a whole string, a segment of a template, or a punctuator;
* `next` and `peek` put one token of lookahead on top of `scan`;
* `Stream` is all that a lexer will ever deliver: located tokens up to the end of the text or to
  the first error;
* `tokenize` lists the tokens of a text.

An interpolation inside a template is ordinary source text up to the brace that closes it, so the
lexer keeps, for each interpolation still open, the number of plain braces open inside it.
-/

namespace TinyScript

inductive LexError where
  | unterminatedString (start : Position)
  | unterminatedComment (start : Position)
  /-- The text segment of a template has no end. -/
  | unterminatedTemplate (start : Position)
  | unexpectedCharacter (found : Char) (start : Position)
  deriving Repr, DecidableEq

namespace LexError

def position : LexError → Position
  | unterminatedString start => start
  | unterminatedComment start => start
  | unterminatedTemplate start => start
  | unexpectedCharacter _ start => start

def message : LexError → String
  | unterminatedString start => "unterminated string literal starting at " ++ start.text
  | unterminatedComment start => "unterminated block comment starting at " ++ start.text
  | unterminatedTemplate start => "unterminated template literal starting at " ++ start.text
  | unexpectedCharacter found start =>
    "unexpected character '" ++ String.singleton found ++ "' at " ++ start.text

end LexError

/-- The text still to be read, and where it begins. -/
structure Cursor where
  rest : List Char
  position : Position

namespace Cursor

def skip : Nat → Cursor → Cursor
  | 0, c => c
  | _ + 1, ⟨[], p⟩ => ⟨[], p⟩
  | n + 1, ⟨c :: rest, p⟩ => skip n ⟨rest, p.next c⟩

end Cursor

namespace Lexer

/-! ## Characters -/

abbrev doubleQuote : Char := '\x22'

abbrev singleQuote : Char := '\x27'

abbrev backTick : Char := '\x60'

abbrev backslash : Char := '\x5c'

def isNameStart (c : Char) : Bool :=
  ('a' ≤ c && c ≤ 'z') || ('A' ≤ c && c ≤ 'Z') || c = '_' || c = '$'

def isNamePart (c : Char) : Bool := isNameStart c || Number.isDigit c

def unescape (c : Char) : Char :=
  match c with
  | 'n' => '\n'
  | 't' => '\t'
  | 'r' => '\r'
  | '0' => '\x00'
  | other => other

/-! ## Blanks and comments -/

/-- Where in a gap between tokens a character stands. -/
inductive Gap where
  | blank
  | line
  | block (start : Position)

/-- Passes blanks and comments. A block comment without an end is reported by its start. -/
def skipGap : Gap → List Char → Position → Option Position × Cursor
  | .blank, [], p => (none, ⟨[], p⟩)
  | .blank, '/' :: '/' :: rest, p => skipGap .line rest ((p.next '/').next '/')
  | .blank, '/' :: '*' :: rest, p => skipGap (.block p) rest ((p.next '/').next '*')
  | .blank, c :: rest, p =>
    if Text.isBlank c then skipGap .blank rest (p.next c) else (none, ⟨c :: rest, p⟩)
  | .line, [], p => (none, ⟨[], p⟩)
  | .line, c :: rest, p =>
    if c = '\n' then skipGap .blank rest (p.next c) else skipGap .line rest (p.next c)
  | .block start, [], p => (some start, ⟨[], p⟩)
  | .block _, '*' :: '/' :: rest, p => skipGap .blank rest ((p.next '*').next '/')
  | .block start, c :: rest, p => skipGap (.block start) rest (p.next c)

/-! ## Strings and templates -/

/-- Reads up to the closing quote; `read` holds the characters so far, last first. -/
def scanString (quote : Char) : List Char → Position → List Char → Option String × Cursor
  | [], p, _ => (none, ⟨[], p⟩)
  | c :: rest, p, read =>
    if c = quote then (some (String.ofList read.reverse), ⟨rest, p.next c⟩)
    else if c = backslash then
      match rest with
      | [] => (none, ⟨[], p.next c⟩)
      | e :: rest => scanString quote rest ((p.next c).next e) (unescape e :: read)
    else scanString quote rest (p.next c) (c :: read)

/-- How a text segment of a template ends. -/
inductive Segment where
  | closed (text : String)
  | opened (text : String)
  | unterminated

def scanSegment : List Char → Position → List Char → Segment × Cursor
  | [], p, _ => (.unterminated, ⟨[], p⟩)
  | '$' :: '{' :: rest, p, read =>
    (.opened (String.ofList read.reverse), ⟨rest, (p.next '$').next '{'⟩)
  | c :: rest, p, read =>
    if c = backTick then (.closed (String.ofList read.reverse), ⟨rest, p.next c⟩)
    else if c = backslash then
      match rest with
      | [] => (.unterminated, ⟨[], p.next c⟩)
      | e :: rest => scanSegment rest ((p.next c).next e) (unescape e :: read)
    else scanSegment rest (p.next c) (c :: read)

end Lexer

/-! ## The lexer -/

/-- A place in a source text, with what is needed to read on from there. -/
structure Lexer where
  cursor : Cursor
  /-- Start of the token read last. -/
  start : Position
  /-- For each open interpolation, innermost first, the plain braces open inside it. -/
  interpolations : List Nat
  /-- Start of the template segment read last. -/
  segment : Position
  ahead : Option Token

namespace Lexer

def ofSource (source : String) : Lexer :=
  ⟨⟨source.toList, .start⟩, .start, [], .start, none⟩

def offset (l : Lexer) : Nat := l.cursor.position.offset

def word (name : String) : Token :=
  match Keyword.ofWord? name with
  | some k => .keyword k
  | none => .identifier name

/-- Reads a run of characters of one class; its first character is known to belong to it. -/
def scanRun (l : Lexer) (belongs : Char → Bool) (token : List Char → Token) :
    Except LexError Token × Lexer :=
  let run := l.cursor.rest.takeWhile belongs
  (.ok (token run), { l with cursor := l.cursor.skip run.length })

def scanTemplate (l : Lexer) (after : Cursor) : Except LexError Token × Lexer :=
  let l := { l with segment := l.start }
  match scanSegment after.rest after.position [] with
  | (.closed text, cursor) => (.ok (.templateEnd text), { l with cursor })
  | (.opened text, cursor) =>
    (.ok (.templateStart text), { l with cursor, interpolations := 0 :: l.interpolations })
  | (.unterminated, cursor) => (.error (.unterminatedTemplate l.start), { l with cursor })

def scanPunctuator (l : Lexer) (c : Char) (after : Cursor) : Except LexError Token × Lexer :=
  match after.rest.head?.bind (Punctuator.ofPair? c) with
  | some mark => (.ok (.punctuator mark), { l with cursor := after.skip 1 })
  | none =>
    match Punctuator.ofChar? c with
    | some mark => (.ok (.punctuator mark), { l with cursor := after })
    | none => (.error (.unexpectedCharacter c l.start), { l with cursor := after })

def scanToken (l : Lexer) : Except LexError Token × Lexer :=
  match l.cursor.rest with
  | [] =>
    if l.interpolations.isEmpty then (.ok .eof, l)
    else (.error (.unterminatedTemplate l.segment), l)
  | c :: rest =>
    let after : Cursor := ⟨rest, l.cursor.position.next c⟩
    if Number.isDigit c then l.scanRun Number.isDigit (fun ds => .number (Number.ofDigits ds))
    else if isNameStart c then l.scanRun isNamePart (fun cs => word (String.ofList cs))
    else if c = doubleQuote ∨ c = singleQuote then
      match scanString c after.rest after.position [] with
      | (some text, cursor) => (.ok (.string text), { l with cursor })
      | (none, cursor) => (.error (.unterminatedString l.start), { l with cursor })
    else if c = backTick then l.scanTemplate after
    else if c = '{' then
      let interpolations := match l.interpolations with
        | [] => []
        | open_ :: outer => (open_ + 1) :: outer
      (.ok (.punctuator .leftBrace), { l with cursor := after, interpolations })
    else if c = '}' then
      match l.interpolations with
      | [] => (.ok (.punctuator .rightBrace), { l with cursor := after })
      | 0 :: outer => { l with interpolations := outer }.scanTemplate after
      | (open_ + 1) :: outer =>
        (.ok (.punctuator .rightBrace),
          { l with cursor := after, interpolations := open_ :: outer })
    else l.scanPunctuator c after

/-- Reads the next token after blanks and comments. At the end of the text it reads `eof`, again
and again, unless an interpolation is still open. -/
def scan (l : Lexer) : Except LexError Token × Lexer :=
  match skipGap .blank l.cursor.rest l.cursor.position with
  | (some start, cursor) => (.error (.unterminatedComment start), { l with cursor })
  | (none, cursor) => { l with cursor, start := cursor.position }.scanToken

def next (l : Lexer) : Except LexError Token × Lexer :=
  match l.ahead with
  | some token => (.ok token, { l with ahead := none })
  | none => l.scan

def peek (l : Lexer) : Except LexError Token × Lexer :=
  match l.ahead with
  | some token => (.ok token, l)
  | none =>
    match l.scan with
    | (.ok token, l) => (.ok token, { l with ahead := some token })
    | (.error e, l) => (.error e, l)

end Lexer

/-! ## Streams -/

structure Lexeme where
  token : Token
  start : Position
  stop : Nat
  deriving DecidableEq

/-- What a lexer delivers until it reaches the end of the text or fails. -/
inductive Stream where
  | lexeme (first : Lexeme) (rest : Stream)
  | done (stop : Position)
  | failed (error : LexError)

namespace Stream

def length : Stream → Nat
  | lexeme _ rest => rest.length + 1
  | done _ => 0
  | failed _ => 0

def lexemes : Stream → List Lexeme × Option LexError
  | lexeme first rest =>
    let (others, error) := rest.lexemes
    (first :: others, error)
  | done stop => ([⟨.eof, stop, stop.offset⟩], none)
  | failed error => ([], some error)

end Stream

namespace Lexer

/-- The stream of at most `n` further tokens. -/
def streamUpTo : Nat → Lexer → Stream
  | 0, l => .done l.cursor.position
  | n + 1, l =>
    match l.scan with
    | (.error e, _) => .failed e
    | (.ok .eof, l) => .done l.start
    | (.ok token, l) => .lexeme ⟨token, l.start, l.offset⟩ (streamUpTo n l)

end Lexer

/-- All tokens of a source text. Each has at least one character, so their number is bounded by
the length of the text. -/
def Stream.ofSource (source : String) : Stream :=
  (Lexer.ofSource source).streamUpTo (source.length + 1)

def tokenize (source : String) : Except LexError (List Token) :=
  match (Stream.ofSource source).lexemes with
  | (lexemes, none) => .ok (lexemes.map (·.token))
  | (_, some e) => .error e

end TinyScript
