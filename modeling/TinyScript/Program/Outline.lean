import TinyScript.Number.Layout
import TinyScript.Program
import TinyScript.Text.Quoted

/-! # Programs as indented outlines

The long text of a program tree: one part a line, four spaces of indentation a level, and a comma
after every part.

* `Outline`: a tree of named parts;
* `Outline.text`: its lines;
* `Program.outline`: the outline of a program.
-/

namespace TinyScript

/-- A tree of named parts. -/
inductive Outline where
  | leaf (text : String)
  | tuple (name : String) (part : Outline)
  | record (name : String) (fields : List (String × Outline))
  | list (items : List Outline)

namespace Outline

mutual

/-- The text of an outline whose further lines begin with `indent`. -/
def textAt (indent : String) : Outline → String
  | leaf text => text
  | tuple name part =>
    name ++ "(\n" ++ indent ++ "    " ++ part.textAt (indent ++ "    ") ++ ",\n" ++ indent ++ ")"
  | record name fields =>
    name ++ " \x7b\n" ++ fieldsAt (indent ++ "    ") fields ++ indent ++ "\x7d"
  | list [] => "[]"
  | list (first :: rest) =>
    "[\n" ++ itemsAt (indent ++ "    ") (first :: rest) ++ indent ++ "]"

def fieldsAt (indent : String) : List (String × Outline) → String
  | [] => ""
  | (name, part) :: rest =>
    indent ++ name ++ ": " ++ part.textAt indent ++ ",\n" ++ fieldsAt indent rest

def itemsAt (indent : String) : List Outline → String
  | [] => ""
  | part :: rest => indent ++ part.textAt indent ++ ",\n" ++ itemsAt indent rest

end

def text (o : Outline) : String := o.textAt ""

def ofString (s : String) : Outline := leaf (Text.quoted s)

def ofOption : Option Outline → Outline
  | none => leaf "None"
  | some part => tuple "Some" part

end Outline

def Literal.outline : Literal → Outline
  | .number value => .tuple "Number" (.leaf (Number.text Number.coded value))
  | .string text => .tuple "String" (.ofString text)
  | .boolean value => .tuple "Boolean" (.leaf (if value then "true" else "false"))

mutual

def Expr.outline : Expr → Outline
  | .literal value => .tuple "Literal" value.outline
  | .identifier name => .tuple "Identifier" (.ofString name)
  | .binary op left right =>
    .record "BinaryExpression"
      [("operator", .leaf op.name), ("left", left.outline), ("right", right.outline)]
  | .assign op target value =>
    .record "AssignmentExpression"
      [("operator", .leaf op.name), ("target", .ofString target), ("value", value.outline)]
  | .call callee arguments =>
    .record "CallExpression"
      [("callee", callee.outline), ("arguments", .list (Expr.outlines arguments))]
  | .member object property =>
    .record "MemberExpression" [("object", object.outline), ("property", .ofString property)]
  | .array elements => .record "ArrayExpression" [("elements", .list (Expr.outlines elements))]
  | .object fields =>
    .record "ObjectExpression" [("properties", .list (Expr.fieldOutlines fields))]

def Callee.outline : Callee → Outline
  | .function name => .tuple "Identifier" (.ofString name)
  | .method object property =>
    .record "Member" [("object", .ofString object), ("property", .ofString property)]
  | .computed target => .tuple "Expression" target.outline

def Expr.outlines : List Expr → List Outline
  | [] => []
  | e :: rest => e.outline :: Expr.outlines rest

def Expr.fieldOutlines : List (String × Expr) → List Outline
  | [] => []
  | (key, value) :: rest =>
    .record "Property" [("key", .ofString key), ("value", value.outline)] ::
      Expr.fieldOutlines rest

end

def DeclKind.outline : DeclKind → Outline
  | .letD => .leaf "Let"
  | .constD => .leaf "Const"

mutual

def Stmt.outline : Stmt → Outline
  | .declare kind name init =>
    .record "VariableDeclaration"
      [("kind", kind.outline), ("name", .ofString name), ("init", init.outline)]
  | .function name params body _ =>
    .tuple "FunctionDeclaration" (.record "FunctionDeclaration"
      [("name", .ofString name), ("params", .list (params.map .ofString)),
        ("body", .list (Stmt.outlines body))])
  | .ifElse test consequent alternate =>
    .record "IfStatement"
      [("test", test.outline), ("consequent", .list (Stmt.outlines consequent)),
        ("alternate", Stmt.branchOutline alternate)]
  | .forLoop init test update body =>
    .record "ForStatement"
      [("init", Stmt.clauseOutline init), ("test", .ofOption (test.map (·.outline))),
        ("update", .ofOption (update.map (·.outline))), ("body", .list (Stmt.outlines body))]
  | .whileLoop test body =>
    .record "WhileStatement" [("test", test.outline), ("body", .list (Stmt.outlines body))]
  | .ret argument =>
    .record "ReturnStatement" [("argument", .ofOption (argument.map (·.outline)))]
  | .expression value => .record "ExpressionStatement" [("expression", value.outline)]

def Stmt.outlines : List Stmt → List Outline
  | [] => []
  | s :: rest => s.outline :: Stmt.outlines rest

def Stmt.branchOutline : Option (List Stmt) → Outline
  | none => .ofOption none
  | some block => .ofOption (some (.list (Stmt.outlines block)))

def Stmt.clauseOutline : Option Stmt → Outline
  | none => .ofOption none
  | some s => .ofOption (some s.outline)

end

def Program.outline (p : Program) : Outline := .record "Program" [("body", .list (Stmt.outlines p))]

end TinyScript
