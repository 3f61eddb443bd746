import TinyScript.Parser
import TinyScript.Proofs.Program.Nodes

/-! # How programs are written

`Program.tokens` lists the tokens of a program as it is written down in full: a semicolon after every
declaration, `return` and expression, braces around blocks, keys of objects as strings, and parentheses
around binary expressions and assignments where they are operands, callees or receivers, but for a binary
expression on the left of an operator.  `Program.levels` is the deepest nesting of that text: an atom with
its suffixes, a block and the right-hand side of an assignment are one level each.

A text is a writing of a list of tokens (`Written`) if it spells them one after the other, with blanks
before, between and after them, and none of them runs on into what comes behind.  Every canonical program
can be written (`Program.exists_writing`).
-/

namespace TinyScript

/-! ## Tokens -/

def BinaryOp.mark : BinaryOp → Punctuator
  | .add => .plus
  | .subtract => .minus
  | .multiply => .star
  | .divide => .slash
  | .equal => .equal
  | .notEqual => .notEqual
  | .lessThan => .less
  | .greaterThan => .greater
  | .lessThanEqual => .lessEqual
  | .greaterThanEqual => .greaterEqual

def AssignOp.mark : AssignOp → Punctuator
  | .assign => .assign
  | .addAssign => .plusAssign
  | .subtractAssign => .minusAssign

def DeclKind.keyword : DeclKind → Keyword
  | .letD => .letK
  | .constD => .constK

def Literal.token : Literal → Token
  | .number value => .number value
  | .string text => .string text
  | .boolean true => .keyword .trueK
  | .boolean false => .keyword .falseK

def Expr.isAssignment : Expr → Bool
  | .assign .. => true
  | _ => false

/-- A binary expression or an assignment. -/
def Expr.isOperation : Expr → Bool
  | .binary .. | .assign .. => true
  | _ => false

/-- Tokens in parentheses, if there have to be any. -/
def parenthesized (needed : Bool) (ts : List Token) : List Token :=
  if needed then .punctuator .leftParen :: (ts ++ [.punctuator .rightParen]) else ts

/-- Lists of tokens with commas between them. -/
def withCommas : List (List Token) → List Token
  | [] => []
  | first :: rest => first ++ rest.flatMap (.punctuator .comma :: ·)

mutual

@[simp] def Expr.tokens : Expr → List Token
  | .literal value => [value.token]
  | .identifier name => [.identifier name]
  | .binary op left right => parenthesized left.isAssignment left.tokens ++
      .punctuator op.mark :: parenthesized right.isOperation right.tokens
  | .assign op target value => .identifier target :: .punctuator op.mark :: value.tokens
  | .call callee arguments => callee.tokens ++
      .punctuator .leftParen :: (withCommas (Expr.tokensAll arguments) ++ [.punctuator .rightParen])
  | .member object property => parenthesized object.isOperation object.tokens ++
      [.punctuator .dot, .identifier property]
  | .array elements => .punctuator .leftBracket ::
      (withCommas (Expr.tokensAll elements) ++ [.punctuator .rightBracket])
  | .object fields => .punctuator .leftBrace ::
      (withCommas (Expr.tokensOfFields fields) ++ [.punctuator .rightBrace])

@[simp] def Callee.tokens : Callee → List Token
  | .function name => [.identifier name]
  | .method object property => [.identifier object, .punctuator .dot, .identifier property]
  | .computed target => parenthesized target.isOperation target.tokens

@[simp] def Expr.tokensAll : List Expr → List (List Token)
  | [] => []
  | e :: rest => e.tokens :: Expr.tokensAll rest

@[simp] def Expr.tokensOfFields : List (String × Expr) → List (List Token)
  | [] => []
  | (key, e) :: rest =>
    (.string key :: .punctuator .colon :: e.tokens) :: Expr.tokensOfFields rest

end

/-- The tokens of a clause that may be missing. -/
@[simp] def Expr.tokensOfClause : Option Expr → List Token
  | none => []
  | some e => e.tokens

/-- Tokens in braces. -/
def inBraces (ts : List Token) : List Token :=
  .punctuator .leftBrace :: (ts ++ [.punctuator .rightBrace])

mutual

@[simp] def Stmt.tokens : Stmt → List Token
  | .declare kind name init => .keyword kind.keyword :: .identifier name :: .punctuator .assign ::
      (init.tokens ++ [.punctuator .semicolon])
  | .function name params body _ => .keyword .functionK :: .identifier name ::
      .punctuator .leftParen :: (withCommas (params.map fun x => [.identifier x]) ++
        .punctuator .rightParen :: inBraces (Stmt.tokensAll body))
  | .ifElse test consequent alternate => .keyword .ifK :: .punctuator .leftParen ::
      (test.tokens ++ .punctuator .rightParen :: (inBraces (Stmt.tokensAll consequent) ++
        Stmt.tokensOfBranch alternate))
  | .forLoop init test update body => .keyword .forK :: .punctuator .leftParen ::
      (Stmt.tokensOfClause init ++ (Expr.tokensOfClause test ++ .punctuator .semicolon ::
        (Expr.tokensOfClause update ++ .punctuator .rightParen :: inBraces (Stmt.tokensAll body))))
  | .whileLoop test body => .keyword .whileK :: .punctuator .leftParen ::
      (test.tokens ++ .punctuator .rightParen :: inBraces (Stmt.tokensAll body))
  | .ret argument => .keyword .returnK :: (Expr.tokensOfClause argument ++ [.punctuator .semicolon])
  | .expression value => value.tokens ++ [.punctuator .semicolon]

@[simp] def Stmt.tokensAll : List Stmt → List Token
  | [] => []
  | s :: rest => s.tokens ++ Stmt.tokensAll rest

@[simp] def Stmt.tokensOfBranch : Option (List Stmt) → List Token
  | none => []
  | some block => .keyword .elseK :: inBraces (Stmt.tokensAll block)

/-- The first clause of a loop, with the semicolon that ends it. -/
@[simp] def Stmt.tokensOfClause : Option Stmt → List Token
  | none => [.punctuator .semicolon]
  | some s => s.tokens

end

/-- The tokens of a program. -/
def Program.tokens (p : Program) : List Token := Stmt.tokensAll p

/-! ## Levels -/

/-- One level more for what stands in parentheses. -/
def enclosed (parentheses : Bool) (levels : Nat) : Nat := if parentheses then levels + 1 else levels

mutual

/-- The deepest nesting in an expression. -/
@[simp] def Expr.levels : Expr → Nat
  | .literal _ | .identifier _ => 1
  | .binary _ left right =>
    max (enclosed left.isAssignment left.levels) (enclosed right.isOperation right.levels)
  | .assign _ _ value => value.levels + 1
  | .call callee arguments => max callee.levels (Expr.levelsAll arguments + 1)
  | .member object _ => enclosed object.isOperation object.levels
  | .array elements => Expr.levelsAll elements + 1
  | .object fields => Expr.levelsOfFields fields + 1

@[simp] def Callee.levels : Callee → Nat
  | .function _ | .method _ _ => 1
  | .computed target => enclosed target.isOperation target.levels

@[simp] def Expr.levelsAll : List Expr → Nat
  | [] => 0
  | e :: rest => max e.levels (Expr.levelsAll rest)

@[simp] def Expr.levelsOfFields : List (String × Expr) → Nat
  | [] => 0
  | (_, e) :: rest => max e.levels (Expr.levelsOfFields rest)

end

@[simp] def Expr.levelsOfClause : Option Expr → Nat
  | none => 0
  | some e => e.levels

mutual

/-- The deepest nesting in a statement. -/
@[simp] def Stmt.levels : Stmt → Nat
  | .declare _ _ init => init.levels
  | .function _ _ body _ => Stmt.levelsAll body + 1
  | .ifElse test consequent alternate =>
    max test.levels (max (Stmt.levelsAll consequent + 1) (Stmt.levelsOfBranch alternate))
  | .forLoop init test update body => max (Stmt.levelsOfClause init)
      (max (Expr.levelsOfClause test) (max (Expr.levelsOfClause update) (Stmt.levelsAll body + 1)))
  | .whileLoop test body => max test.levels (Stmt.levelsAll body + 1)
  | .ret argument => Expr.levelsOfClause argument
  | .expression value => value.levels

@[simp] def Stmt.levelsAll : List Stmt → Nat
  | [] => 0
  | s :: rest => max s.levels (Stmt.levelsAll rest)

@[simp] def Stmt.levelsOfBranch : Option (List Stmt) → Nat
  | none => 0
  | some block => Stmt.levelsAll block + 1

@[simp] def Stmt.levelsOfClause : Option Stmt → Nat
  | none => 0
  | some s => s.levels

end

/-- The deepest nesting in a program. -/
def Program.levels (p : Program) : Nat := Stmt.levelsAll p

/-! ## Canonical programs -/

/-- A name or a keyword. -/
def IsWord (own : List Char) : Prop :=
  ∃ c cs, own = c :: cs ∧ Lexer.isNameStart c = true ∧ ∀ d ∈ cs, Lexer.isNamePart d = true

def IsName (name : String) : Prop := IsWord name.toList ∧ Keyword.ofWord? name = none

/-- A run of decimal digits. -/
def IsDigits (ds : List Char) : Prop := ds ≠ [] ∧ ∀ d ∈ ds, Number.isDigit d = true

/-- A callee that is written as it is called: an expression is neither a name nor a property of one. -/
def Callee.Canonical : Callee → Prop
  | .function name => IsName name
  | .method object property => IsName object ∧ IsName property
  | .computed (.identifier _) | .computed (.member (.identifier _) _) => False
  | .computed _ => True

/-- What can be written down and read back at a node.  Functions have no site before the program has been
loaded. -/
def Node.Canonical : Node → Prop
  | .expr (.literal (.number value)) => ∃ ds, IsDigits ds ∧ Number.ofDigits ds = value
  | .expr (.identifier name) => IsName name
  | .expr (.assign _ target _) => IsName target
  | .expr (.call callee _) => callee.Canonical
  | .expr (.member _ property) => IsName property
  | .stmt (.declare _ name _) => IsName name
  | .stmt (.function name params _ site) => IsName name ∧ (∀ x ∈ params, IsName x) ∧ site = none
  | .stmt (.forLoop (some init) _ _ _) =>
    (∃ kind name e, init = .declare kind name e) ∨ ∃ e, init = .expression e
  | _ => True

def Program.Canonical (p : Program) : Prop := ∀ n ∈ p.nodes, n.Canonical

/-! ## Texts -/

/-- A character of a string, with a backslash before it if it needs one. -/
def escaped (c : Char) : List Char :=
  if c = Lexer.doubleQuote ∨ c = Lexer.backslash then [Lexer.backslash, c] else [c]

/-- The ways to spell a token. -/
inductive Token.Spells : Token → List Char → Prop where
  | identifier {name : String} : IsName name → Spells (.identifier name) name.toList
  | number {ds : List Char} : IsDigits ds → Spells (.number (Number.ofDigits ds)) ds
  | string (text : String) : Spells (.string text)
      (Lexer.doubleQuote :: (text.toList.flatMap escaped ++ [Lexer.doubleQuote]))
  | keyword (word : Keyword) : Spells (.keyword word) word.spelling.toList
  | punctuator (mark : Punctuator) : Spells (.punctuator mark) mark.spelling.toList

/-- The character makes another punctuator, or a comment, of the one in front of it. -/
def Punctuator.joins (mark : Punctuator) (c : Char) : Bool :=
  match mark.spelling.toList with
  | [d] => (Punctuator.ofPair? d c).isSome || d == '/' && (c == '/' || c == '*')
  | _ => false

/-- A character that would go on with a token. -/
def Token.runsOn (c : Char) : Token → Bool
  | .identifier _ | .keyword _ => Lexer.isNamePart c
  | .number _ => Number.isDigit c
  | .punctuator mark => mark.joins c
  | _ => false

def IsBlank (gap : List Char) : Prop := ∀ c ∈ gap, Text.isBlank c = true

/-- The text spells the tokens, with blanks around them. -/
inductive Written : List Token → List Char → Prop where
  | nil {gap : List Char} : IsBlank gap → Written [] gap
  | cons {t : Token} {ts : List Token} {gap own rest : List Char} : IsBlank gap → t.Spells own →
      (∀ c, rest.head? = some c → t.runsOn c = false) → Written ts rest →
      Written (t :: ts) (gap ++ (own ++ rest))

/-- The text is a way to write the program down. -/
def Program.WrittenAs (p : Program) (text : String) : Prop := Written p.tokens text.toList

/-! ## Canonical programs can be written -/

def Token.Spellable (t : Token) : Prop := ∃ own, t.Spells own

theorem IsName.spellable {name : String} (isName : IsName name) : (Token.identifier name).Spellable :=
  ⟨_, .identifier isName⟩

theorem spellable_punctuator (mark : Punctuator) : (Token.punctuator mark).Spellable :=
  ⟨_, .punctuator mark⟩

theorem spellable_keyword (word : Keyword) : (Token.keyword word).Spellable := ⟨_, .keyword word⟩

theorem spellable_string (text : String) : (Token.string text).Spellable := ⟨_, .string text⟩

theorem Literal.spellable {value : Literal} (canonical : (Node.literal value).Canonical) :
    value.token.Spellable := by
  cases value with
  | number x =>
    obtain ⟨ds, digits, rfl⟩ := canonical
    exact ⟨ds, .number digits⟩
  | string text => exact spellable_string text
  | boolean b => cases b <;> exact spellable_keyword _

theorem spellable_parenthesized {needed : Bool} {ts : List Token} (all : ∀ t ∈ ts, t.Spellable) :
    ∀ t ∈ parenthesized needed ts, t.Spellable := by
  unfold parenthesized
  split
  · simpa [or_imp, forall_and, spellable_punctuator] using all
  · exact all

theorem spellable_withCommas {tss : List (List Token)} (all : ∀ ts ∈ tss, ∀ t ∈ ts, t.Spellable) :
    ∀ t ∈ withCommas tss, t.Spellable := by
  cases tss with
  | nil => simp [withCommas]
  | cons first rest =>
    rw [List.forall_mem_cons] at all
    rw [withCommas, List.forall_mem_append]
    refine ⟨all.1, fun t member => ?_⟩
    obtain ⟨ts, inside, here⟩ := List.mem_flatMap.1 member
    rcases List.mem_cons.1 here with rfl | here
    · exact spellable_punctuator .comma
    · exact all.2 ts inside t here

mutual

theorem Expr.spellable (e : Expr) (canonical : e.All Node.Canonical) : ∀ t ∈ e.tokens, t.Spellable := by
  cases e with
  | literal value =>
    have here := canonical _ (Expr.self_mem_nodes _)
    simpa [Expr.tokens] using Literal.spellable here
  | identifier name =>
    have here : IsName name := canonical _ (Expr.self_mem_nodes _)
    simpa [Expr.tokens] using here.spellable
  | binary op left right =>
    obtain ⟨_, first, second⟩ := Expr.all_binary.1 canonical
    rw [Expr.tokens, List.forall_mem_append, List.forall_mem_cons]
    exact ⟨spellable_parenthesized (left.spellable first), spellable_punctuator _,
      spellable_parenthesized (right.spellable second)⟩
  | assign op target value =>
    obtain ⟨here, inside⟩ := Expr.all_assign.1 canonical
    rw [Expr.tokens, List.forall_mem_cons, List.forall_mem_cons]
    exact ⟨IsName.spellable here, spellable_punctuator _, value.spellable inside⟩
  | call callee arguments =>
    obtain ⟨here, inside, all⟩ := Expr.all_call.1 canonical
    rw [Expr.tokens, List.forall_mem_append, List.forall_mem_cons, List.forall_mem_append]
    exact ⟨callee.spellable here inside, spellable_punctuator _,
      spellable_withCommas (Expr.spellable_all all), by simpa using spellable_punctuator _⟩
  | member object property =>
    obtain ⟨here, inside⟩ := Expr.all_member.1 canonical
    rw [Expr.tokens, List.forall_mem_append]
    refine ⟨spellable_parenthesized (object.spellable inside), ?_⟩
    simpa using ⟨spellable_punctuator _, IsName.spellable here⟩
  | array elements =>
    obtain ⟨_, all⟩ := Expr.all_array.1 canonical
    rw [Expr.tokens, List.forall_mem_cons, List.forall_mem_append]
    exact ⟨spellable_punctuator _, spellable_withCommas (Expr.spellable_all all),
      by simpa using spellable_punctuator _⟩
  | object fields =>
    obtain ⟨_, all⟩ := Expr.all_object.1 canonical
    rw [Expr.tokens, List.forall_mem_cons, List.forall_mem_append]
    exact ⟨spellable_punctuator _, spellable_withCommas (Expr.spellable_fields all),
      by simpa using spellable_punctuator _⟩

theorem Callee.spellable (callee : Callee) (canonical : callee.Canonical)
    (inside : ∀ n ∈ callee.nodes, (Node.expr n).Canonical) : ∀ t ∈ callee.tokens, t.Spellable := by
  cases callee with
  | function name => simpa [Callee.tokens] using IsName.spellable canonical
  | method object property =>
    simpa [Callee.tokens] using
      ⟨IsName.spellable canonical.1, spellable_punctuator _, IsName.spellable canonical.2⟩
  | computed target => exact spellable_parenthesized (target.spellable inside)

theorem Expr.spellable_all {es : List Expr} (canonical : ∀ e ∈ es, e.All Node.Canonical) :
    ∀ ts ∈ Expr.tokensAll es, ∀ t ∈ ts, t.Spellable := by
  cases es with
  | nil => simp [Expr.tokensAll]
  | cons e rest =>
    rw [List.forall_mem_cons] at canonical
    rw [Expr.tokensAll, List.forall_mem_cons]
    exact ⟨e.spellable canonical.1, Expr.spellable_all canonical.2⟩

theorem Expr.spellable_fields {fields : List (String × Expr)}
    (canonical : ∀ f ∈ fields, f.2.All Node.Canonical) :
    ∀ ts ∈ Expr.tokensOfFields fields, ∀ t ∈ ts, t.Spellable := by
  match fields with
  | [] => simp [Expr.tokensOfFields]
  | (key, e) :: rest =>
    rw [List.forall_mem_cons] at canonical
    rw [Expr.tokensOfFields, List.forall_mem_cons, List.forall_mem_cons, List.forall_mem_cons]
    exact ⟨⟨spellable_string key, spellable_punctuator _, e.spellable canonical.1⟩,
      Expr.spellable_fields canonical.2⟩

end

theorem Expr.spellable_clause {clause : Option Expr}
    (canonical : ∀ e, clause = some e → e.All Node.Canonical) :
    ∀ t ∈ Expr.tokensOfClause clause, t.Spellable := by
  cases clause with
  | none => simp [Expr.tokensOfClause]
  | some e => exact e.spellable (canonical e rfl)

theorem spellable_inBraces {ts : List Token} (all : ∀ t ∈ ts, t.Spellable) :
    ∀ t ∈ inBraces ts, t.Spellable := by
  simpa [inBraces, or_imp, forall_and, spellable_punctuator] using all

mutual

theorem Stmt.spellable (s : Stmt) (canonical : s.All Node.Canonical) : ∀ t ∈ s.tokens, t.Spellable := by
  cases s with
  | declare kind name init =>
    obtain ⟨here, inside⟩ := Stmt.all_declare.1 canonical
    simp only [Stmt.tokens, List.forall_mem_cons, List.forall_mem_append]
    exact ⟨spellable_keyword _, IsName.spellable here, spellable_punctuator _, init.spellable inside,
      by simpa using spellable_punctuator _⟩
  | function name params body site =>
    obtain ⟨⟨isName, areNames, _⟩, inside⟩ := Stmt.all_function.1 canonical
    have parameters : ∀ ts ∈ params.map fun x => [Token.identifier x], ∀ t ∈ ts, t.Spellable := by
      intro ts member
      obtain ⟨x, param, rfl⟩ := List.mem_map.1 member
      simpa using (areNames x param).spellable
    simp only [Stmt.tokens, List.forall_mem_cons, List.forall_mem_append]
    exact ⟨spellable_keyword _, isName.spellable, spellable_punctuator _,
      spellable_withCommas parameters, spellable_punctuator _,
      spellable_inBraces (Stmt.spellable_all body inside)⟩
  | ifElse test consequent alternate =>
    obtain ⟨_, first, block, branch⟩ := Stmt.all_ifElse.1 canonical
    simp only [Stmt.tokens, List.forall_mem_cons, List.forall_mem_append]
    exact ⟨spellable_keyword _, spellable_punctuator _, test.spellable first, spellable_punctuator _,
      spellable_inBraces (Stmt.spellable_all consequent block),
      Stmt.spellable_branch alternate branch⟩
  | forLoop init test update body =>
    obtain ⟨_, first, second, third, block⟩ := Stmt.all_forLoop.1 canonical
    simp only [Stmt.tokens, List.forall_mem_cons, List.forall_mem_append]
    exact ⟨spellable_keyword _, spellable_punctuator _, Stmt.spellable_clause init first,
      Expr.spellable_clause second, spellable_punctuator _, Expr.spellable_clause third,
      spellable_punctuator _, spellable_inBraces (Stmt.spellable_all body block)⟩
  | whileLoop test body =>
    obtain ⟨_, first, block⟩ := Stmt.all_whileLoop.1 canonical
    simp only [Stmt.tokens, List.forall_mem_cons, List.forall_mem_append]
    exact ⟨spellable_keyword _, spellable_punctuator _, test.spellable first, spellable_punctuator _,
      spellable_inBraces (Stmt.spellable_all body block)⟩
  | ret argument =>
    obtain ⟨_, inside⟩ := Stmt.all_ret.1 canonical
    simp only [Stmt.tokens, List.forall_mem_cons, List.forall_mem_append]
    exact ⟨spellable_keyword _, Expr.spellable_clause inside, by simpa using spellable_punctuator _⟩
  | expression value =>
    obtain ⟨_, inside⟩ := Stmt.all_expression.1 canonical
    simp only [Stmt.tokens, List.forall_mem_append]
    exact ⟨value.spellable inside, by simpa using spellable_punctuator _⟩

theorem Stmt.spellable_all (block : List Stmt) (canonical : ∀ s ∈ block, s.All Node.Canonical) :
    ∀ t ∈ Stmt.tokensAll block, t.Spellable := by
  cases block with
  | nil => simp [Stmt.tokensAll]
  | cons s rest =>
    rw [List.forall_mem_cons] at canonical
    rw [Stmt.tokensAll, List.forall_mem_append]
    exact ⟨s.spellable canonical.1, Stmt.spellable_all rest canonical.2⟩

theorem Stmt.spellable_branch (branch : Option (List Stmt))
    (canonical : ∀ block, branch = some block → ∀ s ∈ block, s.All Node.Canonical) :
    ∀ t ∈ Stmt.tokensOfBranch branch, t.Spellable := by
  cases branch with
  | none => simp [Stmt.tokensOfBranch]
  | some block =>
    rw [Stmt.tokensOfBranch, List.forall_mem_cons]
    exact ⟨spellable_keyword _, spellable_inBraces (Stmt.spellable_all block (canonical block rfl))⟩

theorem Stmt.spellable_clause (clause : Option Stmt)
    (canonical : ∀ s, clause = some s → s.All Node.Canonical) :
    ∀ t ∈ Stmt.tokensOfClause clause, t.Spellable := by
  cases clause with
  | none => simpa [Stmt.tokensOfClause] using spellable_punctuator _
  | some s => exact s.spellable (canonical s rfl)

end

/-- A blank goes on with no token. -/
theorem Token.runsOn_space (t : Token) : t.runsOn ' ' = false := by
  cases t with
  | punctuator mark => cases mark <;> rfl
  | _ => rfl

theorem Written.exists_of_spellable {ts : List Token} (all : ∀ t ∈ ts, t.Spellable) :
    ∃ text, Written ts text ∧ ∀ c, text.head? = some c → c = ' ' := by
  induction ts with
  | nil => exact ⟨[], .nil (by simp [IsBlank]), by simp⟩
  | cons t ts ih =>
    rw [List.forall_mem_cons] at all
    obtain ⟨own, spells⟩ := all.1
    obtain ⟨rest, written, blank⟩ := ih all.2
    refine ⟨[' '] ++ (own ++ rest), .cons (by simp [IsBlank]; decide) spells (fun c first => ?_) written,
      by simp⟩
    rw [blank c first]
    exact t.runsOn_space

theorem Program.exists_writing {p : Program} (canonical : p.Canonical) :
    ∃ text, p.WrittenAs text := by
  have all := Stmt.spellable_all p (Stmt.all_nodesAll.1 canonical)
  obtain ⟨text, written, _⟩ := Written.exists_of_spellable all
  exact ⟨String.ofList text, by rwa [Program.WrittenAs, String.toList_ofList]⟩

example : Program.WrittenAs [.expression (.call (.function "f") [.literal (.string "\x22")])]
    "f (\x22\x5c\x22\x22);" := by
  have f : IsName "f" := ⟨⟨'f', [], rfl, rfl, by simp⟩, by decide⟩
  have none : IsBlank [] := by simp [IsBlank]
  have one : IsBlank [' '] := by simp [IsBlank]; decide
  refine .cons none (.identifier f) ?_ (.cons one (.punctuator .leftParen) ?_
    (.cons none (.string "\x22") ?_ (.cons none (.punctuator .rightParen) ?_
      (.cons none (.punctuator .semicolon) ?_ (.nil none)))))
  all_goals simp
  all_goals decide

end TinyScript
