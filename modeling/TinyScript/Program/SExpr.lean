import TinyScript.Number.Layout
import TinyScript.Program
import TinyScript.Text.Quoted

/-! # Programs as S-expressions

A compact text of a program tree: every node is a list in parentheses that begins with the name of
its form, parts are separated by one space, and a missing optional part is `-`.
-/

namespace TinyScript

def sexpr (parts : List String) : String := "(" ++ String.intercalate " " parts ++ ")"

def Literal.sexpr : Literal → String
  | .number value => TinyScript.sexpr ["num", Number.text Number.shown value]
  | .string text => TinyScript.sexpr ["str", Text.plainQuoted text]
  | .boolean value => TinyScript.sexpr ["bool", if value then "true" else "false"]

mutual

def Expr.sexpr : Expr → String
  | .literal value => value.sexpr
  | .identifier name => TinyScript.sexpr ["id", name]
  | .binary op left right => TinyScript.sexpr [op.symbol, left.sexpr, right.sexpr]
  | .assign op target value => TinyScript.sexpr ["set" ++ op.symbol, target, value.sexpr]
  | .call callee arguments =>
    TinyScript.sexpr ("call" :: callee.sexpr :: Expr.sexprs arguments)
  | .member object property => TinyScript.sexpr [".", object.sexpr, property]
  | .array elements => TinyScript.sexpr ("array" :: Expr.sexprs elements)
  | .object fields => TinyScript.sexpr ("object" :: Expr.fieldSexprs fields)

def Callee.sexpr : Callee → String
  | .function name => TinyScript.sexpr ["fn", name]
  | .method object property => TinyScript.sexpr ["method", object, property]
  | .computed target =>
    TinyScript.sexpr ["callee", Text.plainQuoted target.describe, target.sexpr]

def Expr.sexprs : List Expr → List String
  | [] => []
  | e :: rest => e.sexpr :: Expr.sexprs rest

def Expr.fieldSexprs : List (String × Expr) → List String
  | [] => []
  | (key, value) :: rest =>
    TinyScript.sexpr [Text.plainQuoted key, value.sexpr] :: Expr.fieldSexprs rest

end

def Expr.sexpr? : Option Expr → String
  | none => "-"
  | some e => e.sexpr

mutual

def Stmt.sexpr : Stmt → String
  | .declare .letD name init => TinyScript.sexpr ["let", name, init.sexpr]
  | .declare .constD name init => TinyScript.sexpr ["const", name, init.sexpr]
  | .function name params body _ =>
    TinyScript.sexpr ["function", name, TinyScript.sexpr params,
      TinyScript.sexpr ("block" :: Stmt.sexprs body)]
  | .ifElse test consequent alternate =>
    TinyScript.sexpr ["if", test.sexpr, TinyScript.sexpr ("block" :: Stmt.sexprs consequent),
      Stmt.branchSexpr alternate]
  | .forLoop init test update body =>
    TinyScript.sexpr ["for", Stmt.clauseSexpr init, Expr.sexpr? test, Expr.sexpr? update,
      TinyScript.sexpr ("block" :: Stmt.sexprs body)]
  | .whileLoop test body =>
    TinyScript.sexpr ["while", test.sexpr, TinyScript.sexpr ("block" :: Stmt.sexprs body)]
  | .ret none => TinyScript.sexpr ["return"]
  | .ret (some value) => TinyScript.sexpr ["return", value.sexpr]
  | .expression value => TinyScript.sexpr ["expr", value.sexpr]

def Stmt.sexprs : List Stmt → List String
  | [] => []
  | s :: rest => s.sexpr :: Stmt.sexprs rest

def Stmt.branchSexpr : Option (List Stmt) → String
  | none => "-"
  | some block => TinyScript.sexpr ("block" :: Stmt.sexprs block)

def Stmt.clauseSexpr : Option Stmt → String
  | none => "-"
  | some s => s.sexpr

end

end TinyScript
