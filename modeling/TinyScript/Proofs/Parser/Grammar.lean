import TinyScript.Proofs.Parser.Nesting
import TinyScript.Proofs.Parser.Yields
import TinyScript.Proofs.Program.Nodes

/-! # What the grammar yields

A property of single nodes that every production establishes for the node it makes holds of every node
of every program that is read (`Parser.Establishes.readProgram`).  The property may be established from
one of the tokens that the node is made of.
-/

namespace TinyScript

/-- A first clause of a `for` that is a declaration or an expression, all of whose nodes have a
property. -/
def Stmt.ClauseAll (P : Node → Prop) (clause : Option Stmt) : Prop :=
  ∀ s, clause = some s → s.All P ∧
    ((∃ kind name e, s = .declare kind name e) ∨ ∃ e, s = .expression e)

namespace Parser

/-- A property of nodes that holds of every node as it is made, given that it holds of the parts and
that the tokens are `ok`. -/
structure Establishes (ok : Token → Prop) (P : Node → Prop) : Prop where
  number : ∀ x, ok (.number x) → P (.literal (.number x))
  string : ∀ text, P (.literal (.string text))
  boolean : ∀ b, P (.literal (.boolean b))
  identifier : ∀ name, ok (.identifier name) → P (.expr (.identifier name))
  binary : ∀ op left right, P (.expr (.binary op left right))
  assign : ∀ op target value, P (.expr (.identifier target)) → P (.expr (.assign op target value))
  call : ∀ base args, base.All P → P (.expr (.call (.ofExpr base) args))
  member : ∀ base name, ok (.identifier name) → P (.expr (.member base name))
  array : ∀ elements, P (.expr (.array elements))
  object : ∀ fields, P (.expr (.object fields))
  declare : ∀ kind name init, ok (.identifier name) → P (.stmt (.declare kind name init))
  function : ∀ name params body, ok (.identifier name) → (∀ x ∈ params, ok (.identifier x)) →
    P (.stmt (.function name params body none))
  ifElse : ∀ test consequent alternate, P (.stmt (.ifElse test consequent alternate))
  forLoop : ∀ init test update body,
    (∀ s, init = some s → (∃ kind name e, s = .declare kind name e) ∨ ∃ e, s = .expression e) →
    P (.stmt (.forLoop init test update body))
  whileLoop : ∀ test body, P (.stmt (.whileLoop test body))
  ret : ∀ argument, P (.stmt (.ret argument))
  expression : ∀ e, P (.stmt (.expression e))

namespace Establishes

variable {ok : Token → Prop} {P : Node → Prop} (holds : Establishes ok P)

theorem literal_all {value : Literal} (here : P (.literal value)) : (Expr.literal value).All P := by
  intro n member
  rw [List.mem_singleton.1 member]
  exact here

theorem ofExpr_nodes {base n : Expr} (member : n ∈ (Callee.ofExpr base).nodes) : n ∈ base.nodes := by
  unfold Callee.ofExpr at member
  split at member
  · cases member
  · cases member
  · exact member

theorem tooDeep {α : Type} {post : α → Prop} : Yields ok post tooDeep := by
  intro s a s' tokens done
  cases done

theorem nested {α : Type} {post : α → Prop} {p : Parser α} (deeper : Yields ok post p) :
    Yields ok post (nested p) := by
  intro s a s' tokens done
  obtain ⟨inner, before, rfl⟩ := nested_eq_ok done
  exact deeper (s.atDepth (s.depth + 1)) a inner tokens before

theorem peekOperator {α : Type} (operator? : Punctuator → Option α) :
    Yields ok (fun _ => True) (peekOperator operator?) := by
  refine .bind .peek fun token _ => ?_
  cases token <;> exact .pure trivial

theorem arguments {inner : Parser Expr} (deeper : Yields ok (·.All P) inner) :
    Yields ok (fun args => ∀ e ∈ args, e.All P) (arguments inner) := by
  refine .bind (.expect .leftParen) fun _ _ => .bind (.check .rightParen) fun closed _ => ?_
  have closing (args : List Expr) (all : ∀ e ∈ args, e.All P) :
      Yields ok (fun args => ∀ e ∈ args, e.All P) (do expect .rightParen; pure args) :=
    .bind (.expect .rightParen) fun _ _ => .pure all
  cases closed with
  | true => exact closing [] (by simp)
  | false => exact .bind (.commaSeparated deeper) closing

theorem field {inner : Parser Expr} (deeper : Yields ok (·.All P) inner) :
    Yields ok (fun f : String × Expr => f.2.All P) (field inner) := by
  refine .bind .next fun token _ => ?_
  have value (key : String) : Yields ok (fun f : String × Expr => f.2.All P) (do
      expect .colon
      pure (key, ← inner)) :=
    .bind (.expect .colon) fun _ _ => .bind deeper fun _ all => .pure all
  cases token with
  | identifier name => exact value name
  | string text => exact value text
  | _ => exact .bind (.unexpected _ _) fun (_ : String) (impossible : False) => impossible.elim

include holds

/-! ## Expressions -/

theorem template {inner : Parser Expr} (deeper : Yields ok (·.All P) inner) (head : String) :
    Yields ok (·.All P) (template inner head) := by
  refine .bind (.iterate (fun (state : Expr × Bool) (all : state.1.All P) => ?_)
    (literal_all (holds.string head))) fun state all => .pure all
  obtain ⟨read, more⟩ := state
  cases more with
  | false => exact .none
  | true =>
    refine .bind deeper fun e inside => .bind .next fun token _ => ?_
    have joined (text : String) :
        (concatenate (concatenate read e) (.literal (.string text))).All P :=
      Expr.all_binary.2 ⟨holds.binary _ _ _,
        Expr.all_binary.2 ⟨holds.binary _ _ _, all, inside⟩, literal_all (holds.string text)⟩
    cases token with
    | templateStart text => exact .some (joined text)
    | templateEnd text => exact .some (joined text)
    | _ => exact .unexpected _ _

theorem atom {inner : Parser Expr} (deeper : Yields ok (·.All P) inner) :
    Yields ok (·.All P) (atom inner) := by
  refine .bind .next fun token delivered => ?_
  cases token with
  | number x => exact .pure (literal_all (holds.number x (delivered.resolve_right (by simp))))
  | string text => exact .pure (literal_all (holds.string text))
  | keyword word =>
    cases word with
    | trueK => exact .pure (literal_all (holds.boolean true))
    | falseK => exact .pure (literal_all (holds.boolean false))
    | _ => exact .unexpected _ _
  | identifier name =>
    refine .pure fun n member => ?_
    rw [List.mem_singleton.1 member]
    exact holds.identifier name (delivered.resolve_right (by simp))
  | punctuator mark =>
    cases mark with
    | leftParen =>
      exact .bind deeper fun _ all => .bind (.expect .rightParen) fun _ _ => .pure all
    | leftBracket =>
      exact .map (.mono (.bracketed .rightBracket deeper) fun elements all =>
        Expr.all_array.2 ⟨holds.array elements, all⟩)
    | leftBrace =>
      exact .map (.mono (.bracketed .rightBrace (field deeper)) fun fields all =>
        Expr.all_object.2 ⟨holds.object fields, all⟩)
    | _ => exact .unexpected _ _
  | templateEnd text => exact .pure (literal_all (holds.string text))
  | templateStart text => exact holds.template deeper text
  | _ => exact .unexpected _ _

theorem suffix {inner : Parser Expr} (deeper : Yields ok (·.All P) inner) {base : Expr}
    (all : base.All P) : Yields ok (fun e => ∀ e', e = some e' → e'.All P) (suffix inner base) := by
  refine .bind (.check .leftParen) fun called _ => ?_
  cases called with
  | true =>
    refine .bind (arguments deeper) fun args inside => .some (Expr.all_call.2 ⟨?_, ?_, inside⟩)
    · exact holds.call base args all
    · exact fun n member => all n (ofExpr_nodes member)
  | false =>
    refine .bind (.eat .dot) fun read _ => ?_
    cases read with
    | true =>
      exact .bind .expectIdentifier fun name named =>
        .some (Expr.all_member.2 ⟨holds.member base name named, all⟩)
    | false => exact .none

theorem primaryWith {inner : Parser Expr} (deeper : Yields ok (·.All P) inner) :
    Yields ok (·.All P) (primaryWith inner) :=
  .bind (holds.atom deeper) fun _ all => .iterate (fun _ inside => holds.suffix deeper inside) all

theorem chain {primary : Parser Expr} (operand : Yields ok (·.All P) primary) :
    Yields ok (·.All P) (chain primary) := by
  refine .bind operand fun _ first => .iterate (fun (left : Expr) (all : left.All P) => ?_) first
  refine .bind (peekOperator binaryOp?) fun op _ => ?_
  cases op with
  | some op =>
    exact .bind .next fun _ _ => .bind operand fun right inside =>
      .some (Expr.all_binary.2 ⟨holds.binary op left right, all, inside⟩)
  | none => exact .none

theorem expressionWith {primary right : Parser Expr} (operand : Yields ok (·.All P) primary)
    (deeper : Yields ok (·.All P) right) : Yields ok (·.All P) (expressionWith primary right) := by
  refine .bind (holds.chain operand) fun left all => ?_
  refine .bind (peekOperator assignOp?) fun op _ => ?_
  cases op with
  | none => exact .pure all
  | some op =>
    refine .bind .next fun mark _ => ?_
    cases left with
    | identifier target =>
      have named : P (.expr (.identifier target)) := all _ (Expr.self_mem_nodes _)
      exact .bind deeper fun value inside =>
        .pure (Expr.all_assign.2 ⟨holds.assign op target value named, inside⟩)
    | _ => exact .unexpected _ _

theorem readExpression (n : Nat) : Yields ok (·.All P) (readExpression n) := by
  induction n with
  | zero => exact tooDeep
  | succ n ih => exact holds.expressionWith (nested (holds.primaryWith ih)) (nested ih)

/-! ## Statements -/

theorem declaration {expr : Parser Expr} (value : Yields ok (·.All P) expr) :
    Yields ok (fun s => s.All P ∧ ∃ kind name e, s = .declare kind name e) (declaration expr) := by
  refine .bind .next fun token _ => ?_
  refine .bind .expectIdentifier fun name named => .bind (.expect .assign) fun _ _ => ?_
  refine .bind value fun init all => .bind (.expect .semicolon) fun _ _ => .pure ?_
  exact ⟨Stmt.all_declare.2 ⟨holds.declare _ name init named, all⟩, _, name, init, rfl⟩

theorem functionDeclaration {block : Parser (List Stmt)}
    (body : Yields ok (fun b => ∀ s ∈ b, s.All P) block) :
    Yields ok (·.All P) (functionDeclaration block) := by
  refine .bind (.expectKeyword .functionK) fun _ _ => .bind .expectIdentifier fun name named => ?_
  refine .bind (.expect .leftParen) fun _ _ => .bind (.check .rightParen) fun closed _ => ?_
  have finish (params : List String) (params_ok : ∀ x ∈ params, ok (.identifier x)) :
      Yields ok (fun s : Stmt => s.All P) (do
        expect .rightParen
        pure (Stmt.function name params (← block) none)) :=
    .bind (.expect .rightParen) fun _ _ => .bind body fun body all =>
      .pure (Stmt.all_function.2 ⟨holds.function name params body named params_ok, all⟩)
  cases closed with
  | true => exact finish [] (by simp)
  | false => exact .bind (.commaSeparated .expectIdentifier) finish

omit holds in
theorem condition {expr : Parser Expr} (value : Yields ok (·.All P) expr) :
    Yields ok (·.All P) (condition expr) :=
  .bind (.expect .leftParen) fun _ _ => .bind value fun _ all =>
    .bind (.expect .rightParen) fun _ _ => .pure all

theorem ifStatement {expr : Parser Expr} {block : Parser (List Stmt)}
    (value : Yields ok (·.All P) expr) (body : Yields ok (fun b => ∀ s ∈ b, s.All P) block) :
    Yields ok (·.All P) (ifStatement expr block) := by
  refine .bind (.expectKeyword .ifK) fun _ _ => .bind (condition value) fun test first => ?_
  refine .bind body fun consequent second => .bind (.checkKeyword .elseK) fun more _ => ?_
  cases more with
  | true =>
    refine .bind .next fun _ _ => .bind body fun alternate third => .pure ?_
    refine Stmt.all_ifElse.2 ⟨holds.ifElse _ _ _, first, second, fun other eq => ?_⟩
    cases eq
    exact third
  | false => exact .pure (Stmt.all_ifElse.2 ⟨holds.ifElse _ _ _, first, second, by simp⟩)

theorem forInit {expr : Parser Expr} (value : Yields ok (·.All P) expr) :
    Yields ok (Stmt.ClauseAll P) (forInit expr) := by
  refine .bind (.eat .semicolon) fun missing _ => ?_
  have declared : Yields ok (Stmt.ClauseAll P) (some <$> Parser.declaration expr) := by
    refine .map (.mono (holds.declaration value) fun s declares s' eq => ?_)
    cases eq
    exact ⟨declares.1, .inl declares.2⟩
  have evaluated : Yields ok (Stmt.ClauseAll P) (do
      let value ← expr
      expect .semicolon
      pure (some (Stmt.expression value))) := by
    refine .bind value fun e all => .bind (.expect .semicolon) fun _ _ => .pure fun s eq => ?_
    cases eq
    exact ⟨Stmt.all_expression.2 ⟨holds.expression e, all⟩, .inr ⟨e, rfl⟩⟩
  cases missing with
  | true =>
    refine .pure fun s eq => ?_
    cases eq
  | false =>
    refine .bind .peek fun token _ => ?_
    cases token with
    | keyword word =>
      cases word with
      | letK => exact declared
      | constK => exact declared
      | _ => exact evaluated
    | _ => exact evaluated

omit holds in
theorem forClause {expr : Parser Expr} (value : Yields ok (·.All P) expr) (close : Punctuator) :
    Yields ok (fun clause => ∀ e : Expr, clause = some e → e.All P) (forClause expr close) := by
  refine .bind (.check close) fun missing _ => ?_
  have closing (clause : Option Expr) (all : ∀ e : Expr, clause = some e → e.All P) :
      Yields ok (fun clause => ∀ e : Expr, clause = some e → e.All P) (do
        expect close
        pure clause) :=
    .bind (.expect close) fun _ _ => .pure all
  cases missing with
  | true => exact closing none (by simp)
  | false =>
    refine .bind (.map (.mono value fun e all e' eq => ?_)) closing
    cases eq
    exact all

theorem forStatement {expr : Parser Expr} {block : Parser (List Stmt)}
    (value : Yields ok (·.All P) expr) (body : Yields ok (fun b => ∀ s ∈ b, s.All P) block) :
    Yields ok (·.All P) (forStatement expr block) := by
  refine .bind (.expectKeyword .forK) fun _ _ => .bind (.expect .leftParen) fun _ _ => ?_
  refine .bind (holds.forInit value) fun init first => ?_
  refine .bind (forClause value .semicolon) fun test second => ?_
  refine .bind (forClause value .rightParen) fun update third => ?_
  refine .bind body fun repeated fourth => .pure (Stmt.all_forLoop.2 ⟨?_, ?_, second, third, fourth⟩)
  · exact holds.forLoop init test update repeated fun s eq => (first s eq).2
  · exact fun s eq => (first s eq).1

theorem whileStatement {expr : Parser Expr} {block : Parser (List Stmt)}
    (value : Yields ok (·.All P) expr) (body : Yields ok (fun b => ∀ s ∈ b, s.All P) block) :
    Yields ok (·.All P) (whileStatement expr block) := by
  refine .bind (.expectKeyword .whileK) fun _ _ => .bind (condition value) fun test first => ?_
  exact .bind body fun repeated second =>
    .pure (Stmt.all_whileLoop.2 ⟨holds.whileLoop test repeated, first, second⟩)

theorem returnStatement {expr : Parser Expr} (value : Yields ok (·.All P) expr) :
    Yields ok (·.All P) (returnStatement expr) := by
  have closing (argument : Option Expr) (all : ∀ e : Expr, argument = some e → e.All P) :
      Yields ok (fun s : Stmt => s.All P) (do
        let _ ← eat .semicolon
        pure (Stmt.ret argument)) :=
    .bind (.eat .semicolon) fun _ _ => .pure (Stmt.all_ret.2 ⟨holds.ret argument, all⟩)
  have valued : Yields ok (fun s : Stmt => s.All P) (do
      let argument ← some <$> expr
      let _ ← eat .semicolon
      pure (Stmt.ret argument)) := by
    refine .bind (.map (.mono value fun e all e' eq => ?_)) closing
    cases eq
    exact all
  refine .bind (.expectKeyword .returnK) fun _ _ => .bind .peek fun token _ => ?_
  cases token with
  | punctuator mark =>
    cases mark with
    | semicolon => exact closing none (by simp)
    | rightBrace => exact closing none (by simp)
    | _ => exact valued
  | eof => exact closing none (by simp)
  | _ => exact valued

theorem expressionStatement {expr : Parser Expr} (value : Yields ok (·.All P) expr) :
    Yields ok (·.All P) (expressionStatement expr) :=
  .bind value fun e all => .bind (.eat .semicolon) fun _ _ =>
    .pure (Stmt.all_expression.2 ⟨holds.expression e, all⟩)

theorem statementWith {expr : Parser Expr} {block : Parser (List Stmt)}
    (value : Yields ok (·.All P) expr) (body : Yields ok (fun b => ∀ s ∈ b, s.All P) block) :
    Yields ok (·.All P) (statementWith expr block) := by
  have declared : Yields ok (·.All P) (Parser.declaration expr) :=
    .mono (holds.declaration value) fun _ declares => declares.1
  refine .bind .peek fun token _ => ?_
  cases token with
  | keyword word =>
    cases word with
    | letK => exact declared
    | constK => exact declared
    | functionK => exact holds.functionDeclaration body
    | ifK => exact holds.ifStatement value body
    | forK => exact holds.forStatement value body
    | whileK => exact holds.whileStatement value body
    | returnK => exact holds.returnStatement value
    | _ => exact holds.expressionStatement value
  | _ => exact holds.expressionStatement value

omit holds in
theorem blockWith {statement : Parser Stmt} (each : Yields ok (·.All P) statement) :
    Yields ok (fun b => ∀ s ∈ b, s.All P) (blockWith statement) := by
  refine .bind (.expect .leftBrace) fun _ _ => .bind (.manyUntil ?_ each) fun body all => ?_
  · refine .bind (.check .rightBrace) fun closed _ => ?_
    cases closed with
    | true => exact .pure trivial
    | false => exact .checkEnd
  · exact .bind (.expect .rightBrace) fun _ _ => .pure all

theorem readStatement (n : Nat) : Yields ok (·.All P) (readStatement n) := by
  induction n with
  | zero => exact tooDeep
  | succ n ih => exact holds.statementWith (holds.readExpression (n + 1)) (nested (blockWith ih))

theorem readProgram : Yields ok (fun p => ∀ s ∈ p, s.All P) readProgram :=
  .manyUntil .checkEnd (holds.readStatement _)

end Establishes

end Parser

end TinyScript
