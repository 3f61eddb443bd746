import TinyScript.Number.Layout
import TinyScript.Text.Quoted

/-! # Tokens

The words of the language: keywords, punctuators, names, numbers, strings and the text segments of
templates.

* `spelling`: how a keyword or punctuator is written;
* `describe`: how messages name a token;
* `code`: how a token stream is listed.
-/

namespace TinyScript

inductive Keyword where
  | letK | constK | functionK | returnK | ifK | elseK | forK | whileK | trueK | falseK
  deriving Repr, DecidableEq

namespace Keyword

def all : List Keyword :=
  [letK, constK, functionK, returnK, ifK, elseK, forK, whileK, trueK, falseK]

def spelling : Keyword → String
  | letK => "let"
  | constK => "const"
  | functionK => "function"
  | returnK => "return"
  | ifK => "if"
  | elseK => "else"
  | forK => "for"
  | whileK => "while"
  | trueK => "true"
  | falseK => "false"

def name : Keyword → String
  | letK => "Let"
  | constK => "Const"
  | functionK => "Function"
  | returnK => "Return"
  | ifK => "If"
  | elseK => "Else"
  | forK => "For"
  | whileK => "While"
  | trueK => "True"
  | falseK => "False"

def ofWord? (word : String) : Option Keyword := all.find? (·.spelling == word)

theorem ofWord?_spelling (k : Keyword) : ofWord? k.spelling = some k := by
  cases k <;> decide

end Keyword

inductive Punctuator where
  | leftParen | rightParen | leftBrace | rightBrace | leftBracket | rightBracket
  | semicolon | comma | dot | colon | assign
  | plus | minus | star | slash
  | equal | notEqual | less | lessEqual | greater | greaterEqual
  | andAnd | orOr | plusAssign | minusAssign
  deriving Repr, DecidableEq

namespace Punctuator

def spelling : Punctuator → String
  | leftParen => "("
  | rightParen => ")"
  | leftBrace => "\x7b"
  | rightBrace => "\x7d"
  | leftBracket => "["
  | rightBracket => "]"
  | semicolon => ";"
  | comma => ","
  | dot => "."
  | colon => ":"
  | assign => "="
  | plus => "+"
  | minus => "-"
  | star => "*"
  | slash => "/"
  | equal => "=="
  | notEqual => "!="
  | less => "<"
  | lessEqual => "<="
  | greater => ">"
  | greaterEqual => ">="
  | andAnd => "&&"
  | orOr => "||"
  | plusAssign => "+="
  | minusAssign => "-="

def name : Punctuator → String
  | leftParen => "LParen"
  | rightParen => "RParen"
  | leftBrace => "LBrace"
  | rightBrace => "RBrace"
  | leftBracket => "LBracket"
  | rightBracket => "RBracket"
  | semicolon => "Semicolon"
  | comma => "Comma"
  | dot => "Dot"
  | colon => "Colon"
  | assign => "Assign"
  | plus => "Plus"
  | minus => "Minus"
  | star => "Star"
  | slash => "Slash"
  | equal => "EqEq"
  | notEqual => "NotEq"
  | less => "Lt"
  | lessEqual => "LtEq"
  | greater => "Gt"
  | greaterEqual => "GtEq"
  | andAnd => "AndAnd"
  | orOr => "OrOr"
  | plusAssign => "PlusEq"
  | minusAssign => "MinusEq"

def ofPair? (first second : Char) : Option Punctuator :=
  match first, second with
  | '=', '=' => some equal
  | '!', '=' => some notEqual
  | '>', '=' => some greaterEqual
  | '<', '=' => some lessEqual
  | '&', '&' => some andAnd
  | '|', '|' => some orOr
  | '+', '=' => some plusAssign
  | '-', '=' => some minusAssign
  | _, _ => none

def ofChar? (c : Char) : Option Punctuator :=
  match c with
  | '(' => some leftParen
  | ')' => some rightParen
  | '{' => some leftBrace
  | '}' => some rightBrace
  | '[' => some leftBracket
  | ']' => some rightBracket
  | ';' => some semicolon
  | ',' => some comma
  | '.' => some dot
  | ':' => some colon
  | '=' => some assign
  | '+' => some plus
  | '-' => some minus
  | '*' => some star
  | '/' => some slash
  | '<' => some less
  | '>' => some greater
  | _ => none

end Punctuator

inductive Token where
  | identifier (name : String)
  | number (value : Float)
  | string (text : String)
  | templateStart (text : String)
  | templateEnd (text : String)
  | keyword (word : Keyword)
  | punctuator (mark : Punctuator)
  | eof
  deriving Repr, BEq, DecidableEq, Inhabited

namespace Token

/-- How messages name a token. -/
def describe : Token → String
  | identifier name => "identifier '" ++ name ++ "'"
  | number value => "number " ++ Number.text Number.plain value
  | string text => "string " ++ Text.quoted text
  | templateStart _ | templateEnd _ => "template literal"
  | keyword word => "'" ++ word.spelling ++ "'"
  | punctuator mark => "'" ++ mark.spelling ++ "'"
  | eof => "end of input"

/-- How a listing of tokens shows one. -/
def code : Token → String
  | identifier name => "Identifier(" ++ Text.quoted name ++ ")"
  | number value => "Number(" ++ Number.text Number.coded value ++ ")"
  | string text => "String(" ++ Text.quoted text ++ ")"
  | templateStart text => "TemplateStart(" ++ Text.quoted text ++ ")"
  | templateEnd text => "TemplateEnd(" ++ Text.quoted text ++ ")"
  | keyword word => "Keyword(" ++ word.name ++ ")"
  | punctuator mark => "Punctuator(" ++ mark.name ++ ")"
  | eof => "EOF"

end Token

end TinyScript
