import TinyScript.Proofs.Parser.Nesting

/-! # The counter of nested productions

While a parser runs, its counter tells how many nested productions are under way.  What it does can be told
without the counter, from the number of levels that are left.

* `Parser.expression`, `Parser.statement`, `Parser.program`: the grammar by recursion on the levels left;
* `Parser.Same d e p q`: at depth `d` the parser `p` does what `q` does at depth `e`, and both leave the
  counter as it was, whether they succeed or fail.  Each combinator has a rule;
* `Parser.Solves expr stmt`: two parsers that satisfy the equations of the grammar up to the limit, without a
  bound on the re-entries;
* `Parser.Solves.same_expression`, `Parser.Solves.same_statement`: there is one solution, at each depth the
  grammar with the levels that are left there, and `Parser.solves_read` says that it is what runs.
-/

namespace TinyScript

/-! ## Counters -/

namespace Parser

variable {α β : Type}

/-- The same result with another depth. -/
def Result.atDepth (depth : Nat) : Result α → Result α
  | .ok (a, s) => .ok (a, s.atDepth depth)
  | .error failure => .error { failure with depth }

theorem Result.answer_atDepth (result : Result α) (depth : Nat) :
    (result.atDepth depth).answer = result.answer := by
  cases result <;> rfl

theorem Result.atDepth_atDepth (result : Result α) (first second : Nat) :
    (result.atDepth first).atDepth second = result.atDepth second := by
  cases result <;> rfl

theorem Result.leave_atDepth (result : Result α) (depth : Nat) :
    (result.atDepth (depth + 1)).leave = result.atDepth depth := by
  cases result <;> rfl

/-- At depth `d` the first parser does what the second one does at depth `e`, and both leave the counter as
it was. -/
def Same (d e : Nat) (p q : Parser α) : Prop :=
  ∀ s : Source, ∃ result : Result α,
    p (s.atDepth d) = result.atDepth d ∧ q (s.atDepth e) = result.atDepth e

/-! ## The grammar by the levels left -/

/-- An expression with a number of levels left. -/
def expression : Nat → Parser Expr
  | 0 => expressionWith tooDeep tooDeep
  | levels + 1 => expressionWith (primaryWith (expression levels)) (expression levels)

/-- A statement with a number of levels left. -/
def statement : Nat → Parser Stmt
  | 0 => statementWith (expression 0) tooDeep
  | levels + 1 => statementWith (expression (levels + 1)) (blockWith (statement levels))

/-- A program with a number of levels left. -/
def programWithin (levels : Nat) : Parser Program := manyUntil checkEnd (statement levels)

def program : Parser Program := programWithin nestingLimit

/-! ## Rules -/

namespace Same

variable {d e : Nat}

theorem pure (a : α) : Same d e (pure a) (pure a) := fun s => ⟨.ok (a, s), rfl, rfl⟩

theorem bind {p q : Parser α} {f g : α → Parser β} (first : Same d e p q)
    (rest : ∀ a, Same d e (f a) (g a)) : Same d e (p >>= f) (q >>= g) := by
  intro s
  obtain ⟨result, left, right⟩ := first s
  cases result with
  | error failure =>
    refine ⟨.error failure, ?_, ?_⟩
    · simp only [Bind.bind, StateT.bind, Except.bind, left, Result.atDepth]
    · simp only [Bind.bind, StateT.bind, Except.bind, right, Result.atDepth]
  | ok pair =>
    obtain ⟨a, s'⟩ := pair
    obtain ⟨result', left', right'⟩ := rest a s'
    refine ⟨result', ?_, ?_⟩
    · simp only [Bind.bind, StateT.bind, Except.bind, left, Result.atDepth, left']
    · simp only [Bind.bind, StateT.bind, Except.bind, right, Result.atDepth, right']

theorem map {p q : Parser α} (f : α → β) (same : Same d e p q) : Same d e (f <$> p) (f <$> q) := by
  rw [map_eq_pure_bind, map_eq_pure_bind]
  exact bind same fun a => pure (f a)

theorem peek : Same d e peek peek := by
  intro s
  refine ⟨Parser.peek s, ?_⟩
  obtain ⟨rest, scanned, bound, depth⟩ := s
  cases rest <;> exact ⟨rfl, rfl⟩

theorem next : Same d e next next := by
  intro s
  refine ⟨Parser.next s, ?_⟩
  obtain ⟨rest, scanned, bound, depth⟩ := s
  cases rest <;> exact ⟨rfl, rfl⟩

theorem unexpected (wanted : Expected) (found : Token) :
    Same d e (unexpected wanted found : Parser α) (unexpected wanted found) :=
  fun s => ⟨Parser.unexpected wanted found s, rfl, rfl⟩

theorem tooDeep : Same d e (tooDeep : Parser α) tooDeep := fun s => ⟨Parser.tooDeep s, rfl, rfl⟩

/-- A production that is one level deeper does there what the other one does. -/
theorem nested {p q : Parser α} (room : d < nestingLimit) (deeper : Same (d + 1) e p q) :
    Same d e (nested p) q := by
  intro s
  obtain ⟨result, left, right⟩ := deeper s
  refine ⟨result, ?_, right⟩
  calc Parser.nested p (s.atDepth d)
      = Result.leave (p (s.atDepth (d + 1))) := nested_of_lt (s := s.atDepth d) room
    _ = Result.leave (result.atDepth (d + 1)) := by rw [left]
    _ = result.atDepth d := result.leave_atDepth d

/-- At the limit a nested production is refused. -/
theorem nested_limit {p : Parser α} (full : nestingLimit ≤ d) : Same d e (Parser.nested p) Parser.tooDeep :=
  fun s => ⟨Parser.tooDeep s, nested_of_limit full, rfl⟩

theorem iterateUpTo {step step' : α → Parser (Option α)} (steps : ∀ a, Same d e (step a) (step' a)) (n : Nat)
    (a : α) : Same d e (iterateUpTo step n a) (iterateUpTo step' n a) := by
  induction n generalizing a with
  | zero => exact pure a
  | succ n ih =>
    refine bind (steps a) fun next => ?_
    cases next with
    | none => exact pure a
    | some b => exact ih b

theorem iterate {step step' : α → Parser (Option α)} (steps : ∀ a, Same d e (step a) (step' a)) (a : α) :
    Same d e (iterate step a) (iterate step' a) :=
  fun s => iterateUpTo steps s.bound a s

/-! ### Tokens and lists -/

theorem check (mark : Punctuator) : Same d e (check mark) (check mark) := by
  refine bind peek fun token => ?_
  cases token <;> exact pure _

theorem checkKeyword (word : Keyword) : Same d e (checkKeyword word) (checkKeyword word) := by
  refine bind peek fun token => ?_
  cases token <;> exact pure _

theorem checkEnd : Same d e checkEnd checkEnd := by
  refine bind peek fun token => ?_
  cases token <;> exact pure _

theorem peekOperator (operator? : Punctuator → Option α) :
    Same d e (peekOperator operator?) (peekOperator operator?) := by
  refine bind peek fun token => ?_
  cases token <;> exact pure _

theorem eat (mark : Punctuator) : Same d e (eat mark) (eat mark) := by
  refine bind (check mark) fun found => ?_
  cases found with
  | true => exact bind next fun _ => pure true
  | false => exact pure false

theorem expect (mark : Punctuator) : Same d e (expect mark) (expect mark) := by
  refine bind next fun token => ?_
  cases token with
  | punctuator found =>
    by_cases same : found = mark
    · simp only [same, if_true]
      exact pure ()
    · simp only [same, if_false]
      exact unexpected _ _
  | _ => exact unexpected _ _

theorem expectKeyword (word : Keyword) : Same d e (expectKeyword word) (expectKeyword word) := by
  refine bind next fun token => ?_
  cases token with
  | keyword found =>
    by_cases same : found = word
    · simp only [same, if_true]
      exact pure ()
    · simp only [same, if_false]
      exact unexpected _ _
  | _ => exact unexpected _ _

theorem expectIdentifier : Same d e expectIdentifier expectIdentifier := by
  refine bind next fun token => ?_
  cases token with
  | identifier name => exact pure name
  | _ => exact unexpected _ _

section

variable {item item' : Parser α} (each : Same d e item item')

include each

theorem manyUntil {stop : Parser Bool} (stops : Same d e stop stop) :
    Same d e (manyUntil stop item) (manyUntil stop item') := by
  refine bind (iterate (fun read => bind stops fun stopped => ?_) []) fun _ => pure _
  cases stopped with
  | true => exact pure none
  | false => exact bind each fun _ => pure _

theorem commaSeparated : Same d e (commaSeparated item) (commaSeparated item') := by
  refine bind each fun first => bind (iterate (fun read => bind (eat .comma) fun more => ?_) _) fun _ => pure _
  cases more with
  | true => exact bind each fun _ => pure _
  | false => exact pure none

theorem bracketed (close : Punctuator) : Same d e (bracketed close item) (bracketed close item') := by
  refine bind (iterate (fun state => ?_) _) fun _ => bind (expect close) fun _ => pure _
  obtain ⟨read, more⟩ := state
  cases more with
  | false => exact pure none
  | true =>
    refine bind (check close) fun closed => ?_
    cases closed with
    | true => exact pure none
    | false => exact bind each fun _ => bind (eat .comma) fun _ => pure _

end

/-! ### Expressions -/

section

variable {inner inner' : Parser Expr} (deeper : Same d e inner inner')

include deeper

theorem arguments : Same d e (arguments inner) (arguments inner') := by
  have closing (args : List Expr) : Same d e (do Parser.expect .rightParen; Pure.pure args)
      (do Parser.expect .rightParen; Pure.pure args) :=
    bind (expect .rightParen) fun _ => pure args
  refine bind (expect .leftParen) fun _ => bind (check .rightParen) fun closed => ?_
  cases closed with
  | true => exact closing []
  | false => exact bind (commaSeparated deeper) closing

theorem field : Same d e (field inner) (field inner') := by
  have value (key : String) : Same d e
      (do Parser.expect .colon; Pure.pure (key, ← inner) : Parser (String × Expr))
      (do Parser.expect .colon; Pure.pure (key, ← inner')) :=
    bind (expect .colon) fun _ => bind deeper fun _ => pure _
  refine bind next fun token => ?_
  cases token with
  | identifier name => exact value name
  | string text => exact value text
  | _ => exact bind (unexpected _ _) value

theorem template (head : String) : Same d e (template inner head) (template inner' head) := by
  refine bind (iterate (fun state => ?_) _) fun _ => pure _
  obtain ⟨read, more⟩ := state
  cases more with
  | false => exact pure none
  | true =>
    refine bind deeper fun value => bind next fun token => ?_
    cases token with
    | templateStart text => exact pure _
    | templateEnd text => exact pure _
    | _ => exact unexpected _ _

theorem atom : Same d e (atom inner) (atom inner') := by
  refine bind next fun token => ?_
  cases token with
  | keyword word => cases word <;> first | exact pure _ | exact unexpected _ _
  | punctuator mark =>
    cases mark with
    | leftParen => exact bind deeper fun value => bind (expect .rightParen) fun _ => pure value
    | leftBracket => exact map _ (bracketed deeper .rightBracket)
    | leftBrace => exact map _ (bracketed (field deeper) .rightBrace)
    | _ => exact unexpected _ _
  | templateStart text => exact template deeper text
  | eof => exact unexpected _ _
  | number | string | identifier | templateEnd => exact pure _

theorem suffix (base : Expr) : Same d e (suffix inner base) (suffix inner' base) := by
  refine bind (check .leftParen) fun called => ?_
  cases called with
  | true => exact bind (arguments deeper) fun _ => pure _
  | false =>
    refine bind (eat .dot) fun read => ?_
    cases read with
    | true => exact bind expectIdentifier fun _ => pure _
    | false => exact pure none

theorem primaryWith : Same d e (primaryWith inner) (primaryWith inner') :=
  bind (atom deeper) fun base => iterate (suffix deeper) base

end

theorem chain {primary primary' : Parser Expr} (operand : Same d e primary primary') :
    Same d e (chain primary) (chain primary') := by
  refine bind operand fun first => iterate (fun left => bind (peekOperator binaryOp?) fun op => ?_) first
  cases op with
  | some op => exact bind next fun _ => bind operand fun _ => pure _
  | none => exact pure none

theorem expressionWith {primary primary' right right' : Parser Expr} (operand : Same d e primary primary')
    (deeper : Same d e right right') :
    Same d e (expressionWith primary right) (expressionWith primary' right') := by
  refine bind (chain operand) fun left => bind (peekOperator assignOp?) fun op => ?_
  cases op with
  | none => exact pure left
  | some op =>
    refine bind next fun mark => ?_
    cases left with
    | identifier target => exact bind deeper fun _ => pure _
    | _ => exact unexpected _ _

/-! ### Statements -/

section

variable {expr expr' : Parser Expr} (value : Same d e expr expr')

include value

theorem declaration : Same d e (declaration expr) (declaration expr') :=
  bind next fun _ => bind expectIdentifier fun _ => bind (expect .assign) fun _ =>
    bind value fun _ => bind (expect .semicolon) fun _ => pure _

theorem condition : Same d e (condition expr) (condition expr') :=
  bind (expect .leftParen) fun _ => bind value fun _ => bind (expect .rightParen) fun _ => pure _

theorem forInit : Same d e (forInit expr) (forInit expr') := by
  refine bind (eat .semicolon) fun missing => ?_
  cases missing with
  | true => exact pure none
  | false =>
    have declared : Same d e (some <$> Parser.declaration expr) (some <$> Parser.declaration expr') :=
      map _ (declaration value)
    have evaluated : Same d e
        (do let value ← expr; Parser.expect .semicolon; Pure.pure (some (Stmt.expression value)))
        (do let value ← expr'; Parser.expect .semicolon; Pure.pure (some (Stmt.expression value))) :=
      bind value fun _ => bind (expect .semicolon) fun _ => pure _
    refine bind peek fun token => ?_
    cases token with
    | keyword word => cases word <;> first | exact declared | exact evaluated
    | _ => exact evaluated

theorem forClause (close : Punctuator) : Same d e (forClause expr close) (forClause expr' close) := by
  have closing (clause : Option Expr) : Same d e (do Parser.expect close; Pure.pure clause)
      (do Parser.expect close; Pure.pure clause) :=
    bind (expect close) fun _ => pure clause
  refine bind (check close) fun missing => ?_
  cases missing with
  | true => exact closing none
  | false => exact bind (map some value) closing

theorem returnStatement : Same d e (returnStatement expr) (returnStatement expr') := by
  have closing (argument : Option Expr) : Same d e
      (do let _ ← Parser.eat .semicolon; Pure.pure (Stmt.ret argument))
      (do let _ ← Parser.eat .semicolon; Pure.pure (Stmt.ret argument)) :=
    bind (eat .semicolon) fun _ => pure _
  have valued := bind (map some value) closing
  refine bind (expectKeyword .returnK) fun _ => bind peek fun token => ?_
  cases token with
  | punctuator mark => cases mark <;> first | exact closing none | exact valued
  | eof => exact closing none
  | _ => exact valued

theorem expressionStatement : Same d e (expressionStatement expr) (expressionStatement expr') :=
  bind value fun _ => bind (eat .semicolon) fun _ => pure _

variable {block block' : Parser (List Stmt)} (body : Same d e block block')

include body

omit value in
theorem functionDeclaration : Same d e (functionDeclaration block) (functionDeclaration block') := by
  refine bind (expectKeyword .functionK) fun _ => bind expectIdentifier fun name => ?_
  refine bind (expect .leftParen) fun _ => bind (check .rightParen) fun closed => ?_
  have finish (params : List String) : Same d e
      (do Parser.expect .rightParen; Pure.pure (Stmt.function name params (← block) none))
      (do Parser.expect .rightParen; Pure.pure (Stmt.function name params (← block') none)) :=
    bind (expect .rightParen) fun _ => bind body fun _ => pure _
  cases closed with
  | true => exact finish []
  | false => exact bind (commaSeparated expectIdentifier) finish

theorem ifStatement : Same d e (ifStatement expr block) (ifStatement expr' block') := by
  refine bind (expectKeyword .ifK) fun _ => bind (condition value) fun test => bind body fun consequent => ?_
  refine bind (checkKeyword .elseK) fun more => ?_
  cases more with
  | true => exact bind next fun _ => bind body fun _ => pure _
  | false => exact pure _

theorem forStatement : Same d e (forStatement expr block) (forStatement expr' block') :=
  bind (expectKeyword .forK) fun _ => bind (expect .leftParen) fun _ => bind (forInit value) fun _ =>
    bind (forClause value .semicolon) fun _ => bind (forClause value .rightParen) fun _ =>
      bind body fun _ => pure _

theorem whileStatement : Same d e (whileStatement expr block) (whileStatement expr' block') :=
  bind (expectKeyword .whileK) fun _ => bind (condition value) fun _ => bind body fun _ => pure _

theorem statementWith : Same d e (statementWith expr block) (statementWith expr' block') := by
  refine bind peek fun token => ?_
  cases token with
  | keyword word =>
    cases word with
    | letK => exact declaration value
    | constK => exact declaration value
    | functionK => exact functionDeclaration body
    | ifK => exact ifStatement value body
    | forK => exact forStatement value body
    | whileK => exact whileStatement value body
    | returnK => exact returnStatement value
    | _ => exact expressionStatement value
  | _ => exact expressionStatement value

end

theorem blockWith {inner inner' : Parser Stmt} (each : Same d e inner inner') :
    Same d e (blockWith inner) (blockWith inner') := by
  have stops : Same d e (do if ← Parser.check .rightBrace then Pure.pure true else Parser.checkEnd)
      (do if ← Parser.check .rightBrace then Pure.pure true else Parser.checkEnd) := by
    refine bind (check .rightBrace) fun closed => ?_
    cases closed with
    | true => exact pure true
    | false => exact checkEnd
  exact bind (expect .leftBrace) fun _ => bind (manyUntil each stops) fun _ =>
    bind (expect .rightBrace) fun _ => pure _

/-! ### Levels -/

/-- The counter and the levels left tell the same of an expression, if they do one level deeper. -/
theorem expressionOf {inner : Parser Expr}
    (deeper : d < nestingLimit → Same (d + 1) e inner (expression (nestingLimit - (d + 1)))) :
    Same d e (Parser.expressionWith (Parser.nested (Parser.primaryWith inner)) (Parser.nested inner))
      (expression (nestingLimit - d)) := by
  rcases Nat.lt_or_ge d nestingLimit with room | full
  · have levels : nestingLimit - d = nestingLimit - (d + 1) + 1 := by omega
    rw [levels, expression]
    exact expressionWith (nested room (primaryWith (deeper room))) (nested room (deeper room))
  · rw [Nat.sub_eq_zero_of_le full, expression]
    exact expressionWith (nested_limit full) (nested_limit full)

theorem statementOf {expr : Parser Expr} {inner : Parser Stmt}
    (value : Same d e expr (expression (nestingLimit - d)))
    (deeper : d < nestingLimit → Same (d + 1) e inner (statement (nestingLimit - (d + 1)))) :
    Same d e (Parser.statementWith expr (Parser.nested (Parser.blockWith inner)))
      (statement (nestingLimit - d)) := by
  rcases Nat.lt_or_ge d nestingLimit with room | full
  · have levels : nestingLimit - d = nestingLimit - (d + 1) + 1 := by omega
    rw [levels] at value ⊢
    rw [statement]
    exact statementWith value (nested room (blockWith (deeper room)))
  · rw [Nat.sub_eq_zero_of_le full] at value ⊢
    rw [statement]
    exact statementWith value (nested_limit full)

/-- The recursion is never at its end before the counter is. -/
theorem readExpression {n : Nat} (enough : nestingLimit ≤ d + n) :
    Same d e (readExpression (n + 1)) (expression (nestingLimit - d)) := by
  induction n generalizing d with
  | zero => exact expressionOf fun room => absurd room (Nat.not_lt.2 enough)
  | succ n ih => exact expressionOf fun _ => ih (by omega)

theorem readStatement {n : Nat} (enough : nestingLimit ≤ d + n) :
    Same d e (readStatement (n + 1)) (statement (nestingLimit - d)) := by
  induction n generalizing d with
  | zero => exact statementOf (readExpression enough) fun room => absurd room (Nat.not_lt.2 enough)
  | succ n ih => exact statementOf (readExpression enough) fun _ => ih (by omega)

theorem readProgram : Same d e readProgram (programWithin (nestingLimit - d)) :=
  manyUntil (readStatement (Nat.le_add_left _ _)) checkEnd

theorem congr {p p' q : Parser α} (same : Same d e p q) (eq : ∀ s, s.depth = d → p' s = p s) :
    Same d e p' q := by
  intro s
  obtain ⟨result, left, right⟩ := same s
  exact ⟨result, (eq _ rfl).trans left, right⟩

/-- Two parsers that do the same as a third one agree. -/
theorem agree {p p' q : Parser α} (same : Same d e p q) (same' : Same d e p' q) {s : Source}
    (depth : s.depth = d) : p s = p' s := by
  obtain ⟨result, left, right⟩ := same s
  obtain ⟨result', left', right'⟩ := same' s
  have there : result.atDepth e = result'.atDepth e := right.symm.trans right'
  have here : result.atDepth d = result'.atDepth d := by
    rw [← result.atDepth_atDepth e d, there, result'.atDepth_atDepth]
  subst depth
  exact left.trans (here.trans left'.symm)

end Same

/-! ## The equations of the grammar -/

/-- Expressions and statements by the equations of the grammar: a production re-enters another as deep as
itself, or one level deeper through `nested`.  Nothing is asked of them beyond the limit. -/
structure Solves (expr : Parser Expr) (stmt : Parser Stmt) : Prop where
  expression : ∀ s : Source, s.depth ≤ nestingLimit →
    expr s = expressionWith (nested (primaryWith expr)) (nested expr) s
  statement : ∀ s : Source, s.depth ≤ nestingLimit →
    stmt s = statementWith expr (nested (blockWith stmt)) s

namespace Solves

variable {expr : Parser Expr} {stmt : Parser Stmt} (solves : Solves expr stmt) {e : Nat}

include solves

theorem same_expression {d : Nat} (shallow : d ≤ nestingLimit) :
    Same d e expr (Parser.expression (nestingLimit - d)) :=
  (Same.expressionOf fun room => same_expression room).congr fun s depth =>
    solves.expression s (depth ▸ shallow)
termination_by nestingLimit - d

theorem same_statement {d : Nat} (shallow : d ≤ nestingLimit) :
    Same d e stmt (Parser.statement (nestingLimit - d)) :=
  (Same.statementOf (solves.same_expression shallow) fun room => same_statement room).congr
    fun s depth => solves.statement s (depth ▸ shallow)
termination_by nestingLimit - d

/-- What the productions do up to the limit is settled by their equations up to the limit. -/
theorem unique {expr' : Parser Expr} {stmt' : Parser Stmt} (solves' : Solves expr' stmt') {s : Source}
    (shallow : s.depth ≤ nestingLimit) : expr s = expr' s ∧ stmt s = stmt' s :=
  ⟨(solves.same_expression shallow).agree (e := 0) (solves'.same_expression shallow) rfl,
    (solves.same_statement shallow).agree (e := 0) (solves'.same_statement shallow) rfl⟩

end Solves

/-- The productions that run solve the equations, with as many re-entries as there are levels or more. -/
theorem solves_read {n : Nat} (enough : nestingLimit ≤ n) :
    Solves (readExpression (n + 1)) (readStatement (n + 1)) := by
  constructor <;> intro s _
  · exact (Same.readExpression (Nat.le_add_left_of_le enough)).agree (e := 0)
      (Same.expressionOf fun _ => .readExpression (by omega)) rfl
  · exact (Same.readStatement (by omega)).agree (e := 0)
      (Same.statementOf (.readExpression (by omega)) fun _ => .readStatement (by omega)) rfl

/-- What a new parser makes of a stream, it makes of it with all levels left. -/
theorem parse_readProgram (tokens : Stream) : readProgram.parse tokens = program.parse tokens := by
  obtain ⟨result, counted, levels⟩ := Same.readProgram (d := 0) (e := 0) ⟨tokens, .start, tokens.length + 1, 0⟩
  exact congrArg Result.answer (counted.trans levels.symm)

end Parser

theorem Stream.parse_eq (s : Stream) : s.parse = Parser.program.parse s := Parser.parse_readProgram s

end TinyScript
