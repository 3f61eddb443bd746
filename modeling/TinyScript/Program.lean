/-! # Programs

The tree of a script: expressions, statements and programs.

All binary operators share one level of precedence, and a call names its callee in one of three
ways, so that `name(…)` and `object.property(…)` can be told from a call of a computed value.

* `kind`: the name of a node's kind in messages;
* `Callee.ofExpr`: the callee that an expression in front of an argument list denotes;
* `Callee.displayName`: how messages name a callee.
-/

namespace TinyScript

inductive BinaryOp where
  | add | subtract | multiply | divide
  | equal | notEqual | lessThan | greaterThan | lessThanEqual | greaterThanEqual
  deriving Repr, DecidableEq

namespace BinaryOp

def all : List BinaryOp :=
  [add, subtract, multiply, divide, equal, notEqual, lessThan, greaterThan, lessThanEqual,
    greaterThanEqual]

def symbol : BinaryOp → String
  | add => "+"
  | subtract => "-"
  | multiply => "*"
  | divide => "/"
  | equal => "=="
  | notEqual => "!="
  | lessThan => "<"
  | greaterThan => ">"
  | lessThanEqual => "<="
  | greaterThanEqual => ">="

def name : BinaryOp → String
  | add => "Add"
  | subtract => "Subtract"
  | multiply => "Multiply"
  | divide => "Divide"
  | equal => "Equal"
  | notEqual => "NotEqual"
  | lessThan => "LessThan"
  | greaterThan => "GreaterThan"
  | lessThanEqual => "LessThanEqual"
  | greaterThanEqual => "GreaterThanEqual"

def ofSymbol? (symbol : String) : Option BinaryOp := all.find? (·.symbol == symbol)

end BinaryOp

inductive AssignOp where
  | assign | addAssign | subtractAssign
  deriving Repr, DecidableEq

namespace AssignOp

def binary? : AssignOp → Option BinaryOp
  | assign => none
  | addAssign => some .add
  | subtractAssign => some .subtract

def name : AssignOp → String
  | assign => "Assign"
  | addAssign => "AddAssign"
  | subtractAssign => "SubtractAssign"

def symbol : AssignOp → String
  | assign => "="
  | addAssign => "+="
  | subtractAssign => "-="

end AssignOp

inductive Literal where
  | number (value : Float)
  | string (text : String)
  | boolean (value : Bool)
  deriving Repr

mutual

inductive Expr where
  | literal (value : Literal)
  | identifier (name : String)
  | binary (op : BinaryOp) (left right : Expr)
  | assign (op : AssignOp) (target : String) (value : Expr)
  | call (callee : Callee) (arguments : List Expr)
  | member (object : Expr) (property : String)
  | array (elements : List Expr)
  | object (fields : List (String × Expr))

inductive Callee where
  | function (name : String)
  | method (object property : String)
  /-- Anything else in front of an argument list. -/
  | computed (target : Expr)

end

inductive DeclKind where
  | letD | constD
  deriving Repr, DecidableEq

inductive Stmt where
  | declare (kind : DeclKind) (name : String) (init : Expr)
  /-- A function declaration. Its `site` tells it from every other declaration once the program has
  been loaded. -/
  | function (name : String) (params : List String) (body : List Stmt) (site : Option Nat)
  | ifElse (test : Expr) (consequent : List Stmt) (alternate : Option (List Stmt))
  /-- The three clauses are optional; a missing test always holds. -/
  | forLoop (init : Option Stmt) (test update : Option Expr) (body : List Stmt)
  | whileLoop (test : Expr) (body : List Stmt)
  | ret (argument : Option Expr)
  | expression (value : Expr)

abbrev Program := List Stmt

/-! ## Kinds and names -/

def Expr.kind : Expr → String
  | literal _ => "Literal"
  | identifier _ => "Identifier"
  | binary .. => "BinaryExpression"
  | assign .. => "AssignmentExpression"
  | call .. => "CallExpression"
  | member .. => "MemberExpression"
  | array _ => "ArrayExpression"
  | object _ => "ObjectExpression"

def Stmt.kind : Stmt → String
  | declare .. => "VariableDeclaration"
  | function .. => "FunctionDeclaration"
  | ifElse .. => "IfStatement"
  | forLoop .. => "ForStatement"
  | whileLoop .. => "WhileStatement"
  | ret _ => "ReturnStatement"
  | expression _ => "ExpressionStatement"

/-- The callee that an expression in front of an argument list denotes. -/
def Callee.ofExpr : Expr → Callee
  | .identifier name => .function name
  | .member (.identifier object) property => .method object property
  | other => .computed other

mutual

def Callee.displayName : Callee → String
  | .function name => name
  | .method object property => object ++ "." ++ property
  | .computed target => target.describe

def Expr.describe : Expr → String
  | .identifier name => name
  | .member object property => object.describe ++ "." ++ property
  | .call callee _ => callee.displayName ++ "(...)"
  | other => "<" ++ other.kind ++ ">"

end

/-! ## Sites of function declarations -/

mutual

/-- Gives the function declarations of a statement the sites `n`, `n + 1`, … in source order, and
returns the first site not given. -/
def Stmt.number (n : Nat) : Stmt → Stmt × Nat
  | .function name params body _ =>
    let (body, m) := Stmt.numberAll (n + 1) body
    (.function name params body (some n), m)
  | .ifElse test consequent alternate =>
    let (consequent, m) := Stmt.numberAll n consequent
    let (alternate, m) := Stmt.numberBranch m alternate
    (.ifElse test consequent alternate, m)
  | .forLoop init test update body =>
    let (init, m) := Stmt.numberClause n init
    let (body, m) := Stmt.numberAll m body
    (.forLoop init test update body, m)
  | .whileLoop test body =>
    let (body, m) := Stmt.numberAll n body
    (.whileLoop test body, m)
  | other => (other, n)

def Stmt.numberAll (n : Nat) : List Stmt → List Stmt × Nat
  | [] => ([], n)
  | s :: rest =>
    let (s, m) := s.number n
    let (rest, m) := Stmt.numberAll m rest
    (s :: rest, m)

def Stmt.numberBranch (n : Nat) : Option (List Stmt) → Option (List Stmt) × Nat
  | none => (none, n)
  | some block =>
    let (block, m) := Stmt.numberAll n block
    (some block, m)

def Stmt.numberClause (n : Nat) : Option Stmt → Option Stmt × Nat
  | none => (none, n)
  | some s =>
    let (s, m) := s.number n
    (some s, m)

end

end TinyScript
