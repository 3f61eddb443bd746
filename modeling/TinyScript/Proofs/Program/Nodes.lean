import TinyScript.Program

/-! # The nodes of a program

`Program.nodes` lists every expression and statement of a program, at any depth and also in code that
never runs, so that "occurs nowhere in the program" is a statement about the members of a list.
-/

namespace TinyScript

mutual

/-- An expression and all expressions inside it. -/
def Expr.nodes : Expr → List Expr
  | .literal value => [.literal value]
  | .identifier name => [.identifier name]
  | .binary op left right => .binary op left right :: (left.nodes ++ right.nodes)
  | .assign op target value => .assign op target value :: value.nodes
  | .call callee arguments => .call callee arguments :: (callee.nodes ++ Expr.nodesAll arguments)
  | .member object property => .member object property :: object.nodes
  | .array elements => .array elements :: Expr.nodesAll elements
  | .object fields => .object fields :: Expr.nodesOfFields fields

def Callee.nodes : Callee → List Expr
  | .function _ => []
  | .method _ _ => []
  | .computed target => target.nodes

def Expr.nodesAll : List Expr → List Expr
  | [] => []
  | e :: rest => e.nodes ++ Expr.nodesAll rest

def Expr.nodesOfFields : List (String × Expr) → List Expr
  | [] => []
  | (_, e) :: rest => e.nodes ++ Expr.nodesOfFields rest

end

/-- The expressions in a clause that may be missing. -/
def Expr.nodesOfClause : Option Expr → List Expr
  | none => []
  | some e => e.nodes

theorem Expr.self_mem_nodes (e : Expr) : e ∈ e.nodes := by
  cases e <;> simp [Expr.nodes]

/-- An expression or a statement. -/
inductive Node where
  | expr (e : Expr)
  | stmt (s : Stmt)

abbrev Node.literal (value : Literal) : Node := .expr (.literal value)

mutual

/-- A statement and everything inside it. -/
def Stmt.nodes : Stmt → List Node
  | .declare kind name init => .stmt (.declare kind name init) :: init.nodes.map .expr
  | .function name params body site =>
    .stmt (.function name params body site) :: Stmt.nodesAll body
  | .ifElse test consequent alternate =>
    .stmt (.ifElse test consequent alternate) :: (test.nodes.map .expr ++
      (Stmt.nodesAll consequent ++ Stmt.nodesOfBranch alternate))
  | .forLoop init test update body =>
    .stmt (.forLoop init test update body) :: (Stmt.nodesOfClause init ++
      ((Expr.nodesOfClause test).map .expr ++ ((Expr.nodesOfClause update).map .expr ++
        Stmt.nodesAll body)))
  | .whileLoop test body =>
    .stmt (.whileLoop test body) :: (test.nodes.map .expr ++ Stmt.nodesAll body)
  | .ret argument => .stmt (.ret argument) :: (Expr.nodesOfClause argument).map .expr
  | .expression value => .stmt (.expression value) :: value.nodes.map .expr

def Stmt.nodesAll : List Stmt → List Node
  | [] => []
  | s :: rest => s.nodes ++ Stmt.nodesAll rest

def Stmt.nodesOfBranch : Option (List Stmt) → List Node
  | none => []
  | some block => Stmt.nodesAll block

def Stmt.nodesOfClause : Option Stmt → List Node
  | none => []
  | some s => s.nodes

end

attribute [simp] Expr.nodes Callee.nodes Expr.nodesAll Expr.nodesOfFields Stmt.nodes Stmt.nodesAll
  Stmt.nodesOfBranch Stmt.nodesOfClause

/-- Every expression and statement of a program. -/
def Program.nodes (p : Program) : List Node := Stmt.nodesAll p

/-! ## Properties of all nodes -/

/-- An expression all of whose nodes have a property. -/
def Expr.All (P : Node → Prop) (e : Expr) : Prop := ∀ n ∈ e.nodes, P (.expr n)

/-- A statement all of whose nodes have a property. -/
def Stmt.All (P : Node → Prop) (s : Stmt) : Prop := ∀ n ∈ s.nodes, P n

section

variable {P : Node → Prop}

theorem Expr.all_nodesAll {es : List Expr} :
    (∀ n ∈ Expr.nodesAll es, P (.expr n)) ↔ ∀ e ∈ es, e.All P := by
  induction es with
  | nil => simp [Expr.nodesAll]
  | cons e rest ih => simp [Expr.nodesAll, Expr.All, or_imp, forall_and, ih]

theorem Expr.all_nodesOfFields {fields : List (String × Expr)} :
    (∀ n ∈ Expr.nodesOfFields fields, P (.expr n)) ↔ ∀ f ∈ fields, f.2.All P := by
  induction fields with
  | nil => simp [Expr.nodesOfFields]
  | cons f rest ih => simp [Expr.nodesOfFields, Expr.All, or_imp, forall_and, ih]

theorem Expr.all_nodesOfClause {clause : Option Expr} :
    (∀ n ∈ Expr.nodesOfClause clause, P (.expr n)) ↔ ∀ e, clause = some e → e.All P := by
  cases clause with
  | none => simp [Expr.nodesOfClause]
  | some e => simp [Expr.nodesOfClause, Expr.All]

theorem Stmt.all_nodesAll {block : List Stmt} :
    (∀ n ∈ Stmt.nodesAll block, P n) ↔ ∀ s ∈ block, s.All P := by
  induction block with
  | nil => simp [Stmt.nodesAll]
  | cons s rest ih => simp [Stmt.nodesAll, Stmt.All, or_imp, forall_and, ih]

theorem Stmt.all_nodesOfBranch {branch : Option (List Stmt)} :
    (∀ n ∈ Stmt.nodesOfBranch branch, P n) ↔ ∀ b, branch = some b → ∀ s ∈ b, s.All P := by
  cases branch with
  | none => simp [Stmt.nodesOfBranch]
  | some b => simp [Stmt.nodesOfBranch, Stmt.all_nodesAll]

theorem Stmt.all_nodesOfClause {clause : Option Stmt} :
    (∀ n ∈ Stmt.nodesOfClause clause, P n) ↔ ∀ s, clause = some s → s.All P := by
  cases clause with
  | none => simp [Stmt.nodesOfClause]
  | some s => simp [Stmt.nodesOfClause, Stmt.All]

theorem Expr.all_binary {op : BinaryOp} {left right : Expr} :
    (Expr.binary op left right).All P ↔
      P (.expr (.binary op left right)) ∧ left.All P ∧ right.All P := by
  simp [Expr.All, Expr.nodes, or_imp, forall_and]

theorem Expr.all_assign {op : AssignOp} {target : String} {value : Expr} :
    (Expr.assign op target value).All P ↔ P (.expr (.assign op target value)) ∧ value.All P := by
  simp [Expr.All, Expr.nodes]

theorem Expr.all_call {callee : Callee} {args : List Expr} :
    (Expr.call callee args).All P ↔ P (.expr (.call callee args)) ∧
      (∀ n ∈ callee.nodes, P (.expr n)) ∧ ∀ e ∈ args, e.All P := by
  rw [← Expr.all_nodesAll]
  simp [Expr.All, Expr.nodes, or_imp, forall_and]

theorem Expr.all_member {base : Expr} {name : String} :
    (Expr.member base name).All P ↔ P (.expr (.member base name)) ∧ base.All P := by
  simp [Expr.All, Expr.nodes]

theorem Expr.all_array {elements : List Expr} :
    (Expr.array elements).All P ↔ P (.expr (.array elements)) ∧ ∀ e ∈ elements, e.All P := by
  rw [← Expr.all_nodesAll]
  simp [Expr.All, Expr.nodes]

theorem Expr.all_object {fields : List (String × Expr)} :
    (Expr.object fields).All P ↔ P (.expr (.object fields)) ∧ ∀ f ∈ fields, f.2.All P := by
  rw [← Expr.all_nodesOfFields]
  simp [Expr.All, Expr.nodes]

theorem Stmt.all_declare {kind : DeclKind} {name : String} {init : Expr} :
    (Stmt.declare kind name init).All P ↔ P (.stmt (.declare kind name init)) ∧ init.All P := by
  simp [Stmt.All, Stmt.nodes, Expr.All]

theorem Stmt.all_function {name : String} {params : List String} {body : List Stmt}
    {site : Option Nat} : (Stmt.function name params body site).All P ↔
      P (.stmt (.function name params body site)) ∧ ∀ s ∈ body, s.All P := by
  rw [← Stmt.all_nodesAll]
  simp [Stmt.All, Stmt.nodes]

theorem Stmt.all_ifElse {test : Expr} {consequent : List Stmt} {alternate : Option (List Stmt)} :
    (Stmt.ifElse test consequent alternate).All P ↔ P (.stmt (.ifElse test consequent alternate)) ∧
      test.All P ∧ (∀ s ∈ consequent, s.All P) ∧
      ∀ b, alternate = some b → ∀ s ∈ b, s.All P := by
  rw [← Stmt.all_nodesAll, ← Stmt.all_nodesOfBranch]
  simp [Stmt.All, Stmt.nodes, Expr.All, or_imp, forall_and]

theorem Stmt.all_forLoop {init : Option Stmt} {test update : Option Expr} {body : List Stmt} :
    (Stmt.forLoop init test update body).All P ↔ P (.stmt (.forLoop init test update body)) ∧
      (∀ s, init = some s → s.All P) ∧ (∀ e, test = some e → e.All P) ∧
      (∀ e, update = some e → e.All P) ∧ ∀ s ∈ body, s.All P := by
  rw [← Stmt.all_nodesOfClause, ← Expr.all_nodesOfClause, ← Expr.all_nodesOfClause,
    ← Stmt.all_nodesAll]
  simp [Stmt.All, Stmt.nodes, or_imp, forall_and]

theorem Stmt.all_whileLoop {test : Expr} {body : List Stmt} :
    (Stmt.whileLoop test body).All P ↔ P (.stmt (.whileLoop test body)) ∧ test.All P ∧
      ∀ s ∈ body, s.All P := by
  rw [← Stmt.all_nodesAll]
  simp [Stmt.All, Stmt.nodes, Expr.All, or_imp, forall_and]

theorem Stmt.all_ret {argument : Option Expr} :
    (Stmt.ret argument).All P ↔ P (.stmt (.ret argument)) ∧
      ∀ e, argument = some e → e.All P := by
  rw [← Expr.all_nodesOfClause]
  simp [Stmt.All, Stmt.nodes]

theorem Stmt.all_expression {value : Expr} :
    (Stmt.expression value).All P ↔ P (.stmt (.expression value)) ∧ value.All P := by
  simp [Stmt.All, Stmt.nodes, Expr.All]

end

end TinyScript
