import TinyScript.Proofs.Parser.Levels
import TinyScript.Proofs.Parser.Reading

/-! # Reading expressions back

`Expr.Read e` says that the productions for expressions read `e` back from its tokens, each from where
it is reached: a primary goes on with suffixes and a chain with operators, so both are stated as the start
of a repetition, and a whole expression takes all of its tokens.  There is one lemma for each kind of
expression, and `Expr.read` puts them together for canonical expressions.
-/

namespace TinyScript

open TinyScript.Parser

/-! ## Levels -/

theorem enclosed_pos {parentheses : Bool} {levels : Nat} (positive : 0 < levels) :
    0 < enclosed parentheses levels := by
  unfold enclosed
  split <;> omega

theorem Expr.levels_pos : ∀ e : Expr, 0 < e.levels
  | .literal _ | .identifier _ | .assign .. | .array _ | .object _ => by simp [Expr.levels]
  | .binary _ left _ => by
    rw [Expr.levels]
    exact Nat.lt_of_lt_of_le (enclosed_pos left.levels_pos) (Nat.le_max_left ..)
  | .call _ _ => by
    rw [Expr.levels]
    exact Nat.lt_of_lt_of_le (Nat.succ_pos _) (Nat.le_max_right ..)
  | .member base _ => by
    rw [Expr.levels]
    exact enclosed_pos base.levels_pos

theorem Expr.levelsAll_le {es : List Expr} {levels : Nat} :
    Expr.levelsAll es ≤ levels ↔ ∀ e ∈ es, e.levels ≤ levels := by
  induction es with
  | nil => simp [Expr.levelsAll]
  | cons e es ih => rw [Expr.levelsAll, Nat.max_le, ih, List.forall_mem_cons]

theorem Expr.levelsOfFields_le {fields : List (String × Expr)} {levels : Nat} :
    Expr.levelsOfFields fields ≤ levels ↔ ∀ f ∈ fields, f.2.levels ≤ levels := by
  induction fields with
  | nil => simp [Expr.levelsOfFields]
  | cons f fields ih => rw [Expr.levelsOfFields, Nat.max_le, ih, List.forall_mem_cons]

/-! ## Tokens -/

theorem Expr.tokensAll_eq (es : List Expr) : Expr.tokensAll es = es.map Expr.tokens := by
  induction es with
  | nil => rfl
  | cons e es ih => rw [Expr.tokensAll, ih, List.map_cons]

/-- The tokens of a field of an object. -/
def fieldTokens (f : String × Expr) : List Token := .string f.1 :: .punctuator .colon :: f.2.tokens

theorem Expr.tokensOfFields_eq (fields : List (String × Expr)) :
    Expr.tokensOfFields fields = fields.map fieldTokens := by
  induction fields with
  | nil => rfl
  | cons f fields ih => rw [Expr.tokensOfFields, ih, List.map_cons, fieldTokens]

/-- The token begins an expression. -/
def Token.opensExpr : Token → Bool
  | .number _ | .string _ | .identifier _ => true
  | .keyword word => word = .trueK ∨ word = .falseK
  | .punctuator mark => mark = .leftParen ∨ mark = .leftBracket ∨ mark = .leftBrace
  | _ => false

theorem opens_parenthesized {needed : Bool} {ts : List Token}
    (opens : ∃ t us, ts = t :: us ∧ t.opensExpr = true) :
    ∃ t us, parenthesized needed ts = t :: us ∧ t.opensExpr = true := by
  unfold parenthesized
  split
  · exact ⟨_, _, rfl, rfl⟩
  · exact opens

theorem opens_append {ts us : List Token} (opens : ∃ t vs, ts = t :: vs ∧ t.opensExpr = true) :
    ∃ t vs, ts ++ us = t :: vs ∧ t.opensExpr = true := by
  obtain ⟨t, vs, rfl, opening⟩ := opens
  exact ⟨t, vs ++ us, rfl, opening⟩

theorem Expr.opens : ∀ e : Expr, ∃ t ts, e.tokens = t :: ts ∧ t.opensExpr = true
  | .literal (.number _) | .literal (.string _) | .literal (.boolean true) | .literal (.boolean false)
  | .identifier _ | .assign .. | .array _ | .object _ | .call (.function _) _ | .call (.method _ _) _ =>
    ⟨_, _, rfl, rfl⟩
  | .binary _ left _ => opens_append (opens_parenthesized left.opens)
  | .call (.computed target) _ => opens_append (opens_parenthesized target.opens)
  | .member base _ => opens_append (opens_parenthesized base.opens)

theorem Expr.opens_upcoming (e : Expr) (ts : List Token) :
    (upcoming (e.tokens ++ ts)).opensExpr = true := by
  obtain ⟨t, us, starts, opening⟩ := e.opens
  rwa [starts]

theorem Token.isMark_of_opensExpr {t : Token} (opens : t.opensExpr = true) {mark : Punctuator}
    (apart : (Token.punctuator mark).opensExpr = false) : t.isMark mark = false := by
  cases t with
  | punctuator found =>
    refine decide_eq_false ?_
    rintro rfl
    rw [opens] at apart
    cases apart
  | _ => rfl

theorem Expr.opens_apart (e : Expr) {mark : Punctuator}
    (apart : (Token.punctuator mark).opensExpr = false) :
    ∃ t ts, e.tokens = t :: ts ∧ t.isMark mark = false := by
  obtain ⟨t, ts, starts, opens⟩ := e.opens
  exact ⟨t, ts, starts, Token.isMark_of_opensExpr opens apart⟩

/-- The mark comes after an expression. -/
def Punctuator.closes : Punctuator → Bool
  | .rightParen | .rightBracket | .rightBrace | .semicolon | .comma => true
  | _ => false

/-! ## Expressions -/

namespace Parser

/-- A primary expression with a number of levels left. -/
def primaryAt : Nat → Parser Expr
  | 0 => tooDeep
  | levels + 1 => primaryWith (expression levels)

/-- The right-hand side of an assignment with a number of levels left. -/
def valueAt : Nat → Parser Expr
  | 0 => tooDeep
  | levels + 1 => expression levels

theorem expression_eq (levels : Nat) :
    expression levels = expressionWith (primaryAt levels) (valueAt levels) := by
  cases levels <;> rfl

/-- One operator and its right operand, if there is one. -/
def link (operand : Parser Expr) (left : Expr) : Parser (Option Expr) := do
  match ← peekOperator binaryOp? with
  | some op =>
    let _ ← next
    pure (some (.binary op left (← operand)))
  | none => pure none

theorem chain_eq (operand : Parser Expr) : chain operand = operand >>= iterate (link operand) := rfl

/-- No call and no property read comes next. -/
structure EndsPrimary (ts : List Token) : Prop where
  call : (upcoming ts).isMark .leftParen = false
  member : (upcoming ts).isMark .dot = false

/-- No operator comes next, either. -/
structure EndsExpr (ts : List Token) : Prop extends EndsPrimary ts where
  binary : (upcoming ts).operator binaryOp? = none
  assign : (upcoming ts).operator assignOp? = none

/-- The marks that come behind an expression end it. -/
theorem endsExpr_mark (mark : Punctuator) (closes : mark.closes = true) (ts : List Token) :
    EndsExpr (.punctuator mark :: ts) := by
  cases mark with
  | rightParen | rightBracket | rightBrace | semicolon | comma => exact ⟨⟨rfl, rfl⟩, rfl, rfl⟩
  | _ => cases closes

theorem endsPrimary_binary (op : BinaryOp) (ts : List Token) :
    EndsPrimary (.punctuator op.mark :: ts) := by
  cases op <;> exact ⟨rfl, rfl⟩

theorem endsPrimary_assign (op : AssignOp) (ts : List Token) :
    EndsPrimary (.punctuator op.mark :: ts) := by
  cases op <;> exact ⟨rfl, rfl⟩

theorem binaryOp?_mark (op : BinaryOp) : binaryOp? op.mark = some op := by
  cases op <;> rfl

theorem assignOp?_mark (op : AssignOp) : assignOp? op.mark = some op := by
  cases op <;> rfl

theorem binaryOp?_assign (op : AssignOp) : binaryOp? op.mark = none := by
  cases op <;> rfl

theorem starts_chain {operand : Parser Expr} {e : Expr} {ts us : List Token} {fits : Prop}
    (reads : Reads operand ts e us fits) : Starts (chain operand) (link operand) ts e us fits := by
  rw [chain_eq]
  exact .init reads

theorem link_binary {operand : Parser Expr} {op : BinaryOp} {left right : Expr} {ts us : List Token}
    {fits : Prop} (reads : Reads operand ts right us fits) :
    Reads (link operand left) (.punctuator op.mark :: ts) (some (.binary op left right)) us fits := by
  have operator := Reads.peekOperator binaryOp? (.punctuator op.mark :: ts)
  rw [upcoming_cons, Token.operator, binaryOp?_mark] at operator
  exact .step operator (.step (.next _ _) (.finish reads (.pure _)))

theorem link_none {operand : Parser Expr} {left : Expr} {ts : List Token}
    (ends : (upcoming ts).operator binaryOp? = none) : Reads (link operand left) ts none ts True := by
  have operator := Reads.peekOperator binaryOp? ts
  rw [ends] at operator
  exact .step operator (.pure none)

theorem suffix_none {inner : Parser Expr} {base : Expr} {ts : List Token} (ends : EndsPrimary ts) :
    Reads (suffix inner base) ts none ts True :=
  .step (.check_other ends.call) (.step (.eat_other ends.member) (.pure none))

theorem suffix_member (inner : Parser Expr) (base : Expr) (property : String) (ts : List Token) :
    Reads (suffix inner base) (.punctuator .dot :: .identifier property :: ts)
      (some (.member base property)) ts True :=
  .step (.check_other rfl) (.step (.eat .dot _) (.step (.expectIdentifier property ts) (.pure _)))

theorem reads_primaryAt {e : Expr} {ts rest : List Token} {needed : Nat} (positive : 0 < needed)
    (starts : ∀ levels, Starts (primaryWith (expression levels)) (suffix (expression levels)) ts e rest
      (needed ≤ levels + 1)) (ends : EndsPrimary rest) (levels : Nat) :
    Reads (primaryAt levels) ts e rest (needed ≤ levels) := by
  cases levels with
  | zero => exact .tooDeep (Nat.not_le_of_gt positive)
  | succ levels => exact (starts levels).stop (suffix_none ends)

theorem reads_expression {e : Expr} {ts rest : List Token} {fits : Prop} {levels : Nat}
    (starts : Starts (chain (primaryAt levels)) (link (primaryAt levels)) ts e rest fits)
    (ends : EndsExpr rest) : Reads (expression levels) ts e rest fits := by
  have operator := Reads.peekOperator assignOp? rest
  rw [ends.assign] at operator
  rw [expression_eq]
  exact .finish (starts.stop (link_none ends.binary)) (.step operator (.pure e))

end Parser

/-- The expression that stands in front of the arguments. -/
def Callee.base : Callee → Expr
  | .function name => .identifier name
  | .method object property => .member (.identifier object) property
  | .computed target => target

theorem Callee.tokens_eq (callee : Callee) :
    callee.tokens = parenthesized callee.base.isOperation callee.base.tokens := by
  cases callee <;> rfl

theorem Callee.levels_eq (callee : Callee) :
    callee.levels = enclosed callee.base.isOperation callee.base.levels := by
  cases callee <;> rfl

theorem Callee.ofExpr_base {callee : Callee} (canonical : callee.Canonical) :
    Callee.ofExpr callee.base = callee := by
  cases callee with
  | function | method => rfl
  | computed target =>
    cases target with
    | identifier => exact False.elim canonical
    | member object property =>
      cases object with
      | identifier => exact False.elim canonical
      | _ => rfl
    | _ => rfl

/-- The productions read the expression back from its tokens, if there are as many levels as it needs. -/
structure Expr.Read (e : Expr) : Prop where
  primary : e.isOperation = false → ∀ levels rest,
    Starts (primaryWith (expression levels)) (suffix (expression levels)) (e.tokens ++ rest) e rest
      (e.levels ≤ levels + 1)
  chain : e.isAssignment = false → ∀ levels {rest}, EndsPrimary rest →
    Starts (chain (primaryAt levels)) (link (primaryAt levels)) (e.tokens ++ rest) e rest
      (e.levels ≤ levels)
  whole : ∀ levels {rest}, EndsExpr rest →
    Reads (expression levels) (e.tokens ++ rest) e rest (e.levels ≤ levels)

namespace Expr.Read

variable {e : Expr}

theorem of_primary (primary : ∀ levels rest,
      Starts (primaryWith (expression levels)) (suffix (expression levels)) (e.tokens ++ rest) e rest
        (e.levels ≤ levels + 1)) : e.Read := by
  have chain (levels : Nat) {rest : List Token} (ends : EndsPrimary rest) :
      Starts (Parser.chain (primaryAt levels)) (link (primaryAt levels)) (e.tokens ++ rest) e rest
        (e.levels ≤ levels) :=
    starts_chain (reads_primaryAt e.levels_pos (primary · rest) ends levels)
  exact ⟨fun _ => primary, fun _ => chain,
    fun levels _ ends => reads_expression (chain levels ends.toEndsPrimary) ends⟩

/-- A receiver or something that is called. -/
theorem base (read : e.Read) (levels : Nat) (rest : List Token) :
    Starts (primaryWith (expression levels)) (suffix (expression levels))
      (parenthesized e.isOperation e.tokens ++ rest) e rest
      (enclosed e.isOperation e.levels ≤ levels + 1) := by
  cases operation : e.isOperation with
  | false => exact read.primary operation levels rest
  | true =>
    have inside := read.whole levels (endsExpr_mark .rightParen rfl rest)
    have atom : Reads (atom (expression levels)) (parenthesized true e.tokens ++ rest) e rest
        (enclosed true e.levels ≤ levels + 1) := by
      simp only [parenthesized, enclosed, if_true, List.cons_append, List.append_assoc,
        List.nil_append, Nat.add_le_add_iff_right]
      exact .step (.next _ _) (.finish inside (.step (.expect .rightParen rest) (.pure e)))
    exact .init atom

/-- The right operand of an operator. -/
theorem operand (read : e.Read) (levels : Nat) {rest : List Token} (ends : EndsPrimary rest) :
    Reads (primaryAt levels) (parenthesized e.isOperation e.tokens ++ rest) e rest
      (enclosed e.isOperation e.levels ≤ levels) :=
  reads_primaryAt (enclosed_pos e.levels_pos) (read.base · rest) ends levels

/-- The left operand of an operator: a chain goes on where it ends. -/
theorem left (read : e.Read) (levels : Nat) {rest : List Token} (ends : EndsPrimary rest) :
    Starts (Parser.chain (primaryAt levels)) (link (primaryAt levels))
      (parenthesized e.isAssignment e.tokens ++ rest) e rest
      (enclosed e.isAssignment e.levels ≤ levels) := by
  cases assignment : e.isAssignment with
  | false => exact read.chain assignment levels ends
  | true =>
    have operation : e.isOperation = true := by
      cases e with
      | assign => rfl
      | _ => cases assignment
    have operand := read.operand levels ends
    rw [operation] at operand
    exact starts_chain operand

/-- The right-hand side of an assignment. -/
theorem value (read : e.Read) (levels : Nat) {rest : List Token} (ends : EndsExpr rest) :
    Reads (valueAt levels) (e.tokens ++ rest) e rest (e.levels + 1 ≤ levels) := by
  cases levels with
  | zero => exact .tooDeep (Nat.not_succ_le_zero _)
  | succ levels => exact (read.whole levels ends).congr Nat.succ_le_succ_iff.symm

/-! One lemma for each kind of expression. -/

theorem literal (value : Literal) : (Expr.literal value).Read := by
  refine .of_primary fun levels rest => .init ?_
  have reads : Reads (atom (expression levels)) (value.token :: rest) (.literal value) rest True := by
    refine .step (.next _ rest) ?_
    cases value with
    | boolean b => cases b <;> exact .pure _
    | _ => exact .pure _
  exact reads.congr (by simp [Expr.levels])

theorem identifier (name : String) : (Expr.identifier name).Read := by
  refine .of_primary fun levels rest => .init ?_
  have reads : Reads (atom (expression levels)) (.identifier name :: rest) (.identifier name) rest True :=
    .step (.next _ rest) (.pure _)
  exact reads.congr (by simp [Expr.levels])

theorem binary (op : BinaryOp) {left right : Expr} (first : left.Read) (second : right.Read) :
    (Expr.binary op left right).Read := by
  have chain (levels : Nat) {rest : List Token} (ends : EndsPrimary rest) :
      Starts (Parser.chain (primaryAt levels)) (link (primaryAt levels))
        ((Expr.binary op left right).tokens ++ rest) (.binary op left right) rest
        ((Expr.binary op left right).levels ≤ levels) := by
    rw [Expr.tokens, List.append_assoc, List.cons_append, Expr.levels]
    refine .congr (.more (first.left levels (endsPrimary_binary op _))
      (link_binary (second.operand levels ends)) ?_) Nat.max_le.symm
    exact length_lt_append _ _ _
  exact ⟨(fun simple => nomatch simple), fun _ => chain,
    fun levels _ ends => reads_expression (chain levels ends.toEndsPrimary) ends⟩

theorem assign (op : AssignOp) (target : String) {value : Expr} (read : value.Read) :
    (Expr.assign op target value).Read := by
  refine ⟨(fun simple => nomatch simple), (fun simple => nomatch simple), fun levels rest ends => ?_⟩
  have chain := (identifier target).chain rfl levels (endsPrimary_assign op (value.tokens ++ rest))
  have name := chain.stop (link_none (binaryOp?_assign op))
  have operator := Reads.peekOperator assignOp? (.punctuator op.mark :: (value.tokens ++ rest))
  rw [upcoming_cons, Token.operator, assignOp?_mark] at operator
  rw [expression_eq]
  refine .congr (.bind name (.step operator (.step (.next _ _)
    (.finish (read.value levels ends) (.pure _))))) ?_
  rw [Expr.levels, Expr.levels]
  omega

theorem member {object : Expr} (read : object.Read) (property : String) :
    (Expr.member object property).Read := by
  refine .of_primary fun levels rest => ?_
  rw [Expr.tokens, Expr.levels, List.append_assoc]
  refine .congr (.more (read.base levels _) (suffix_member _ _ property rest) ?_) (by simp)
  exact length_lt_append _ [_] rest

theorem suffix_call {arguments : List Expr} (read : ∀ e ∈ arguments, e.Read) (levels : Nat) (base : Expr)
    (rest : List Token) :
    Reads (suffix (expression levels) base)
      (.punctuator .leftParen :: (withCommas (Expr.tokensAll arguments) ++ .punctuator .rightParen :: rest))
      (some (.call (.ofExpr base) arguments)) rest (Expr.levelsAll arguments ≤ levels) := by
  refine .step (.check_mark .leftParen _) (.finish ?_ (.pure _))
  rw [Expr.tokensAll_eq]
  refine .congr (.parenthesized (fun e _ => e.opens_apart rfl)
    (fun e member ts => (read e member).whole levels) (endsExpr_mark .comma rfl)
    (endsExpr_mark .rightParen rfl) (.pure arguments)) ?_
  rw [and_true, Expr.levelsAll_le]

theorem call {callee : Callee} (canonical : callee.Canonical) (base : callee.base.Read)
    {arguments : List Expr} (read : ∀ e ∈ arguments, e.Read) : (Expr.call callee arguments).Read := by
  refine .of_primary fun levels rest => ?_
  have suffix := suffix_call read levels callee.base rest
  rw [Callee.ofExpr_base canonical] at suffix
  rw [Expr.tokens, Expr.levels, callee.tokens_eq, callee.levels_eq, List.append_assoc]
  simp only [List.cons_append, List.append_assoc, List.nil_append]
  refine .congr (.more (base.base levels _) suffix ?_) (by omega)
  rw [List.append_cons, ← List.cons_append]
  exact length_lt_append _ _ rest

theorem array {elements : List Expr} (read : ∀ e ∈ elements, e.Read) : (Expr.array elements).Read := by
  refine .of_primary fun levels rest => .init ?_
  rw [Expr.tokens, Expr.tokensAll_eq, Expr.levels]
  simp only [List.cons_append, List.append_assoc, List.nil_append, Nat.add_le_add_iff_right]
  refine .step (.next _ _) (.map _ ?_)
  refine .congr (.bracketed (fun e _ => e.opens_apart rfl)
    (fun e member ts => (read e member).whole levels) (endsExpr_mark .comma rfl)
    (endsExpr_mark .rightBracket rfl rest) (by simp)) ?_
  exact Expr.levelsAll_le.symm

theorem object {fields : List (String × Expr)} (read : ∀ f ∈ fields, f.2.Read) :
    (Expr.object fields).Read := by
  refine .of_primary fun levels rest => .init ?_
  have each (f : String × Expr) (member : f ∈ fields) (ts : List Token) (ends : EndsExpr ts) :
      Reads (field (expression levels)) (fieldTokens f ++ ts) f ts (f.2.levels ≤ levels) :=
    .step (.next _ _) (.step (.pure f.1) (.step (.expect .colon _)
      (.finish ((read f member).whole levels ends) (.pure f))))
  rw [Expr.tokens, Expr.tokensOfFields_eq, Expr.levels]
  simp only [List.cons_append, List.append_assoc, List.nil_append, Nat.add_le_add_iff_right]
  refine .step (.next _ _) (.map _ ?_)
  refine .congr (.bracketed (fun f _ => ⟨_, _, rfl, rfl⟩) each (endsExpr_mark .comma rfl)
    (endsExpr_mark .rightBrace rfl rest) (by simp)) ?_
  exact Expr.levelsOfFields_le.symm

end Expr.Read

mutual

/-- Canonical expressions are read back. -/
theorem Expr.read (e : Expr) (canonical : e.All Node.Canonical) : e.Read := by
  cases e with
  | literal value => exact .literal value
  | identifier name => exact .identifier name
  | binary op left right =>
    obtain ⟨_, first, second⟩ := Expr.all_binary.1 canonical
    exact .binary op (left.read first) (right.read second)
  | assign op target value =>
    obtain ⟨_, inside⟩ := Expr.all_assign.1 canonical
    exact .assign op target (value.read inside)
  | call callee arguments =>
    obtain ⟨here, inside, all⟩ := Expr.all_call.1 canonical
    exact .call here (callee.read_base inside) (Expr.read_all arguments all)
  | member object property =>
    obtain ⟨_, inside⟩ := Expr.all_member.1 canonical
    exact .member (object.read inside) property
  | array elements =>
    obtain ⟨_, all⟩ := Expr.all_array.1 canonical
    exact .array (Expr.read_all elements all)
  | object fields =>
    obtain ⟨_, all⟩ := Expr.all_object.1 canonical
    exact .object (Expr.read_fields fields all)

theorem Callee.read_base (callee : Callee) (inside : ∀ n ∈ callee.nodes, (Node.expr n).Canonical) :
    callee.base.Read := by
  cases callee with
  | function name => exact .identifier name
  | method object property => exact .member (.identifier object) property
  | computed target => exact target.read inside

theorem Expr.read_all (es : List Expr) (canonical : ∀ e ∈ es, e.All Node.Canonical) :
    ∀ e ∈ es, e.Read := by
  cases es with
  | nil => simp
  | cons e rest =>
    rw [List.forall_mem_cons] at canonical ⊢
    exact ⟨e.read canonical.1, Expr.read_all rest canonical.2⟩

theorem Expr.read_fields (fields : List (String × Expr))
    (canonical : ∀ f ∈ fields, f.2.All Node.Canonical) : ∀ f ∈ fields, f.2.Read := by
  match fields with
  | [] => simp
  | (key, e) :: rest =>
    rw [List.forall_mem_cons] at canonical ⊢
    exact ⟨e.read canonical.1, Expr.read_fields rest canonical.2⟩

end

end TinyScript
