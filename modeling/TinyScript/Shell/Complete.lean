/-! # Complete input

Whether a text can be run, or further lines are needed: brackets are closed, and no string, template
or block comment is open. Brackets in strings and comments do not count.
-/

namespace TinyScript.Shell

/-- Where a character stands. -/
inductive Region where
  | code
  | quoted (quote : Char)
  | lineComment
  | blockComment

def isQuote (c : Char) : Bool := c = '\x22' || c = '\x27' || c = '\x60'

def bracketDepth (c : Char) : Int :=
  match c with
  | '{' | '[' | '(' => 1
  | '}' | ']' | ')' => -1
  | _ => 0

/-- Whether the text is complete, given where it begins and how many brackets are open. The number of
open brackets is kept in 32 bits and wraps around. -/
def completeFrom : Region → Int32 → List Char → Bool
  | .code, depth, [] => depth ≤ 0
  | .code, depth, '/' :: '/' :: rest => completeFrom .lineComment depth rest
  | .code, depth, '/' :: '*' :: rest => completeFrom .blockComment depth rest
  | .code, depth, c :: rest =>
    if isQuote c then completeFrom (.quoted c) depth rest
    else completeFrom .code (depth + .ofInt (bracketDepth c)) rest
  | .quoted _, _, [] => false
  | .quoted quote, depth, c :: rest =>
    if c = '\x5c' then
      match rest with
      | [] => false
      | _ :: rest => completeFrom (.quoted quote) depth rest
    else if c = quote then completeFrom .code depth rest
    else completeFrom (.quoted quote) depth rest
  | .lineComment, depth, [] => depth ≤ 0
  | .lineComment, depth, c :: rest =>
    if c = '\n' then completeFrom .code depth rest else completeFrom .lineComment depth rest
  | .blockComment, _, [] => false
  | .blockComment, depth, '*' :: '/' :: rest => completeFrom .code depth rest
  | .blockComment, depth, _ :: rest => completeFrom .blockComment depth rest

def isComplete (input : String) : Bool := completeFrom .code 0 input.toList

end TinyScript.Shell
