import TinyScript.Parser.Basic
import TinyScript.Program

/-! # The grammar

Programs are read by recursive descent. Three productions nest: a block, the right-hand side of an
assignment and a primary expression. Each of them is one level deeper than what it occurs in, and the
parser counts the levels up to `nestingLimit`.

* `expressionWith`, `statementWith`, …: one production, given those that it uses;
* `nested`: a production one level deeper;
* `readExpression`, `readStatement`: the productions, which re-enter each other through `nested` only,
  recursing on a number that the counter never lets run out;
* `parseProgram`: the program that a source text spells.

Operators are combined from left to right without precedence: `1 + 2 * 3` is `(1 + 2) * 3`.
-/

namespace TinyScript

/-- The deepest nesting that is accepted. -/
def nestingLimit : Nat := 256

namespace Parser

def tooDeep {α : Type} : Parser α := fun s =>
  .error ⟨.nestingTooDeep nestingLimit s.scanned, s.depth⟩

/-- A production one level deeper, after which the counter is set back, however the production ended. -/
def nested {α : Type} (production : Parser α) : Parser α := fun s =>
  if s.depth < nestingLimit then
    match production { s with depth := s.depth + 1 } with
    | .ok (a, s) => .ok (a, { s with depth := s.depth - 1 })
    | .error failure => .error { failure with depth := failure.depth - 1 }
  else tooDeep s

/-! ## Expressions -/

def binaryOp? : Punctuator → Option BinaryOp
  | .plus => some .add
  | .minus => some .subtract
  | .star => some .multiply
  | .slash => some .divide
  | .equal => some .equal
  | .notEqual => some .notEqual
  | .less => some .lessThan
  | .greater => some .greaterThan
  | .lessEqual => some .lessThanEqual
  | .greaterEqual => some .greaterThanEqual
  | _ => none

def assignOp? : Punctuator → Option AssignOp
  | .assign => some .assign
  | .plusAssign => some .addAssign
  | .minusAssign => some .subtractAssign
  | _ => none

def peekOperator {α : Type} (operator? : Punctuator → Option α) : Parser (Option α) := do
  match ← peek with
  | .punctuator mark => pure (operator? mark)
  | _ => pure none

def arguments (inner : Parser Expr) : Parser (List Expr) := do
  expect .leftParen
  let args ← if ← check .rightParen then pure [] else commaSeparated inner
  expect .rightParen
  pure args

def field (inner : Parser Expr) : Parser (String × Expr) := do
  let key ← match ← next with
    | .identifier name => pure name
    | .string text => pure text
    | other => unexpected .propertyName other
  expect .colon
  pure (key, ← inner)

def concatenate (left right : Expr) : Expr := .binary .add left right

/-- The rest of a template whose first segment ended in an interpolation: the segments and the
interpolated expressions joined by `+`. -/
def template (inner : Parser Expr) (head : String) : Parser Expr := do
  let (whole, _) ← iterate (fun (read, more) => do
    if !more then pure none
    else
      let read := concatenate read (← inner)
      match ← next with
      | .templateStart text => pure (some (concatenate read (.literal (.string text)), true))
      | .templateEnd text => pure (some (concatenate read (.literal (.string text)), false))
      | other => unexpected .closingInterpolation other) (.literal (.string head), true)
  pure whole

/-- An expression without operators, calls and property reads. -/
def atom (inner : Parser Expr) : Parser Expr := do
  match ← next with
  | .number value => pure (.literal (.number value))
  | .string text => pure (.literal (.string text))
  | .keyword .trueK => pure (.literal (.boolean true))
  | .keyword .falseK => pure (.literal (.boolean false))
  | .identifier name => pure (.identifier name)
  | .punctuator .leftParen => do
    let value ← inner
    expect .rightParen
    pure value
  | .punctuator .leftBracket => Expr.array <$> bracketed .rightBracket inner
  | .punctuator .leftBrace => Expr.object <$> bracketed .rightBrace (field inner)
  | .templateEnd text => pure (.literal (.string text))
  | .templateStart text => template inner text
  | other => unexpected .expression other

/-- One call or property read after an expression, if there is one. -/
def suffix (inner : Parser Expr) (base : Expr) : Parser (Option Expr) := do
  if ← check .leftParen then pure (some (.call (.ofExpr base) (← arguments inner)))
  else if ← eat .dot then pure (some (.member base (← expectIdentifier)))
  else pure none

def primaryWith (inner : Parser Expr) : Parser Expr := do
  iterate (suffix inner) (← atom inner)

/-- Operands joined by binary operators, from left to right. -/
def chain (primary : Parser Expr) : Parser Expr := do
  iterate (fun left => do
    match ← peekOperator binaryOp? with
    | some op =>
      let _ ← next
      pure (some (.binary op left (← primary)))
    | none => pure none) (← primary)

def expressionWith (primary right : Parser Expr) : Parser Expr := do
  let left ← chain primary
  match ← peekOperator assignOp? with
  | none => pure left
  | some op =>
    let mark ← next
    match left with
    | .identifier target => pure (.assign op target (← right))
    | _ => unexpected .endOfExpression mark

/-- An expression, with at most so many expressions in one another. -/
def readExpression : Nat → Parser Expr
  | 0 => tooDeep
  | n + 1 => expressionWith (nested (primaryWith (readExpression n))) (nested (readExpression n))

/-! ## Statements -/

def declaration (expr : Parser Expr) : Parser Stmt := do
  let kind := match ← next with
    | .keyword .constK => DeclKind.constD
    | _ => DeclKind.letD
  let name ← expectIdentifier
  expect .assign
  let init ← expr
  expect .semicolon
  pure (.declare kind name init)

def functionDeclaration (block : Parser (List Stmt)) : Parser Stmt := do
  expectKeyword .functionK
  let name ← expectIdentifier
  expect .leftParen
  let params ← if ← check .rightParen then pure [] else commaSeparated expectIdentifier
  expect .rightParen
  pure (.function name params (← block) none)

def condition (expr : Parser Expr) : Parser Expr := do
  expect .leftParen
  let test ← expr
  expect .rightParen
  pure test

def ifStatement (expr : Parser Expr) (block : Parser (List Stmt)) : Parser Stmt := do
  expectKeyword .ifK
  let test ← condition expr
  let consequent ← block
  if ← checkKeyword .elseK then
    let _ ← next
    pure (.ifElse test consequent (some (← block)))
  else pure (.ifElse test consequent none)

/-- The first clause of a `for`, with the semicolon that ends it. -/
def forInit (expr : Parser Expr) : Parser (Option Stmt) := do
  if ← eat .semicolon then pure none
  else
    match ← peek with
    | .keyword .letK | .keyword .constK => some <$> declaration expr
    | _ =>
      let value ← expr
      expect .semicolon
      pure (some (.expression value))

def forClause (expr : Parser Expr) (close : Punctuator) : Parser (Option Expr) := do
  let clause ← if ← check close then pure none else some <$> expr
  expect close
  pure clause

def forStatement (expr : Parser Expr) (block : Parser (List Stmt)) : Parser Stmt := do
  expectKeyword .forK
  expect .leftParen
  let init ← forInit expr
  let test ← forClause expr .semicolon
  let update ← forClause expr .rightParen
  pure (.forLoop init test update (← block))

def whileStatement (expr : Parser Expr) (block : Parser (List Stmt)) : Parser Stmt := do
  expectKeyword .whileK
  let test ← condition expr
  pure (.whileLoop test (← block))

def returnStatement (expr : Parser Expr) : Parser Stmt := do
  expectKeyword .returnK
  let argument ← match ← peek with
    | .punctuator .semicolon | .punctuator .rightBrace | .eof => pure none
    | _ => some <$> expr
  let _ ← eat .semicolon
  pure (.ret argument)

def expressionStatement (expr : Parser Expr) : Parser Stmt := do
  let value ← expr
  let _ ← eat .semicolon
  pure (.expression value)

def statementWith (expr : Parser Expr) (block : Parser (List Stmt)) : Parser Stmt := do
  match ← peek with
  | .keyword .letK | .keyword .constK => declaration expr
  | .keyword .functionK => functionDeclaration block
  | .keyword .ifK => ifStatement expr block
  | .keyword .forK => forStatement expr block
  | .keyword .whileK => whileStatement expr block
  | .keyword .returnK => returnStatement expr
  | _ => expressionStatement expr

def blockWith (statement : Parser Stmt) : Parser (List Stmt) := do
  expect .leftBrace
  let body ← manyUntil (do if ← check .rightBrace then pure true else checkEnd) statement
  expect .rightBrace
  pure body

/-- A statement, with at most so many statements in one another. -/
def readStatement : Nat → Parser Stmt
  | 0 => tooDeep
  | n + 1 => statementWith (readExpression (n + 1)) (nested (blockWith (readStatement n)))

def readProgram : Parser Program := manyUntil checkEnd (readStatement (nestingLimit + 1))

end Parser

def Stream.parse (tokens : Stream) : Except ParseError Program := Parser.readProgram.parse tokens

def parseProgram (source : String) : Except ParseError Program := (Stream.ofSource source).parse

end TinyScript
