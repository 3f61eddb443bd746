import TinyScript.Proofs.Parser.Expressions

/-! # Reading programs back

A writing of a canonical program is read back as that program, if nothing in it is nested beyond
`nestingLimit` levels, and refused for its nesting otherwise (`parseProgram_written`).
-/

namespace TinyScript

open TinyScript.Parser

/-! ## Tokens and levels -/

theorem Stmt.levelsAll_le {block : List Stmt} {levels : Nat} :
    Stmt.levelsAll block ≤ levels ↔ ∀ s ∈ block, s.levels ≤ levels := by
  induction block with
  | nil => simp [Stmt.levelsAll]
  | cons s block ih => rw [Stmt.levelsAll, Nat.max_le, ih, List.forall_mem_cons]

theorem Stmt.tokensAll_eq (block : List Stmt) : Stmt.tokensAll block = block.flatMap Stmt.tokens := by
  induction block with
  | nil => rfl
  | cons s block ih => rw [Stmt.tokensAll, ih, List.flatMap_cons]

/-- The token begins a statement. -/
def Token.opensStmt : Token → Bool
  | .keyword word => word ≠ .elseK
  | t => t.opensExpr

theorem Token.opensStmt_of_opensExpr {t : Token} (opens : t.opensExpr = true) : t.opensStmt = true := by
  cases t with
  | keyword word =>
    cases word with
    | elseK => cases opens
    | _ => rfl
  | _ => exact opens

theorem Stmt.opens (s : Stmt) : ∃ t ts, s.tokens = t :: ts ∧ t.opensStmt = true := by
  cases s with
  | declare kind => cases kind <;> exact ⟨_, _, rfl, rfl⟩
  | expression value =>
    obtain ⟨t, ts, starts, opens⟩ := value.opens
    exact ⟨t, ts ++ [.punctuator .semicolon], by rw [Stmt.tokens, starts, List.cons_append],
      Token.opensStmt_of_opensExpr opens⟩
  | _ => exact ⟨_, _, rfl, rfl⟩

/-! ## Statements -/

/-- A first clause of a loop that can be read back. -/
def Stmt.ClauseRead (clause : Option Stmt) : Prop :=
  ∀ s, clause = some s → (∃ kind name e, s = .declare kind name e ∧ e.Read) ∨
    ∃ e, s = .expression e ∧ e.Read

namespace Parser

/-- A block with a number of levels left. -/
def blockAt : Nat → Parser (List Stmt)
  | 0 => tooDeep
  | levels + 1 => blockWith (statement levels)

theorem statement_eq (levels : Nat) :
    statement levels = statementWith (expression levels) (blockAt levels) := by
  cases levels <;> rfl

/-- No `else` comes next. -/
def EndsStmt (ts : List Token) : Prop := (upcoming ts).isKeyword .elseK = false

theorem endsStmt_of_opens {t : Token} (opens : t.opensStmt = true) (ts : List Token) :
    EndsStmt (t :: ts) := by
  cases t with
  | keyword word => simpa [EndsStmt, Token.isKeyword, Token.opensStmt] using opens
  | _ => rfl

theorem isMark_of_opensStmt {t : Token} (opens : t.opensStmt = true) : t.isMark .rightBrace = false := by
  cases t with
  | punctuator mark => exact Token.isMark_of_opensExpr (t := .punctuator mark) opens rfl
  | _ => rfl

theorem checkEnd_of_opens {t : Token} (opens : t.opensStmt = true) (ts : List Token) :
    Reads checkEnd (t :: ts) false (t :: ts) True := by
  have here := Reads.checkEnd (t :: ts)
  cases t with
  | eof => cases opens
  | _ => exact here

section

variable {e : Expr} (levels : Nat) (rest : List Token)

theorem reads_declaration (read : e.Read) (kind : DeclKind) (name : String) :
    Reads (declaration (expression levels)) (.keyword kind.keyword :: .identifier name ::
      .punctuator .assign :: (e.tokens ++ .punctuator .semicolon :: rest)) (.declare kind name e) rest
      (e.levels ≤ levels) := by
  refine .step (.next _ _) (.step (.expectIdentifier name _) (.step (.expect .assign _) ?_))
  refine .finish (read.whole levels (endsExpr_mark .semicolon rfl rest)) ?_
  refine .step (.expect .semicolon rest) ?_
  cases kind <;> exact .pure _

theorem reads_condition (read : e.Read) :
    Reads (condition (expression levels))
      (.punctuator .leftParen :: (e.tokens ++ .punctuator .rightParen :: rest)) e rest
      (e.levels ≤ levels) :=
  .step (.expect .leftParen _) (.finish (read.whole levels (endsExpr_mark .rightParen rfl rest))
    (.step (.expect .rightParen rest) (.pure e)))

theorem reads_forClause {clause : Option Expr} (read : ∀ e, clause = some e → e.Read) {close : Punctuator}
    (closes : close.closes = true) (apart : (Token.punctuator close).opensExpr = false) :
    Reads (forClause (expression levels) close) (Expr.tokensOfClause clause ++ .punctuator close :: rest)
      clause rest (Expr.levelsOfClause clause ≤ levels) := by
  cases clause with
  | none =>
    refine .congr (.step (.check_mark close rest) (.step (.pure none)
      (.step (.expect close rest) (.pure none)))) ?_
    simp [Expr.levelsOfClause]
  | some e =>
    have value := ((read e rfl).whole levels (endsExpr_mark close closes rest)).map some
    have other := Token.isMark_of_opensExpr (e.opens_upcoming (.punctuator close :: rest)) apart
    exact .step (.check_other other) (.finish value (.step (.expect close rest) (.pure (some e))))

theorem reads_expressionStatement (read : e.Read) :
    Reads (expressionStatement (expression levels)) (e.tokens ++ .punctuator .semicolon :: rest)
      (.expression e) rest (e.levels ≤ levels) :=
  .finish (read.whole levels (endsExpr_mark .semicolon rfl rest)) (.step (.eat .semicolon rest) (.pure _))

theorem reads_returnStatement {argument : Option Expr} (read : ∀ e, argument = some e → e.Read) :
    Reads (returnStatement (expression levels))
      (.keyword .returnK :: (Expr.tokensOfClause argument ++ .punctuator .semicolon :: rest))
      (.ret argument) rest (Expr.levelsOfClause argument ≤ levels) := by
  refine .step (.expectKeyword .returnK _) (.step (.peek _) ?_)
  cases argument with
  | none =>
    refine .congr (.step (.pure none) (.step (.eat .semicolon rest) (.pure _))) ?_
    simp [Expr.levelsOfClause]
  | some e =>
    have value := ((read e rfl).whole levels (endsExpr_mark .semicolon rfl rest)).map some
    have opens := e.opens_upcoming (.punctuator .semicolon :: rest)
    rw [Expr.tokensOfClause]
    generalize upcoming (e.tokens ++ .punctuator .semicolon :: rest) = t at opens ⊢
    split
    · cases opens
    · cases opens
    · cases opens
    · exact .finish value (.step (.eat .semicolon rest) (.pure _))

theorem reads_forInit {init : Option Stmt} (read : Stmt.ClauseRead init) :
    Reads (forInit (expression levels)) (Stmt.tokensOfClause init ++ rest) init rest
      (Stmt.levelsOfClause init ≤ levels) := by
  cases init with
  | none =>
    refine .congr (.step (.eat .semicolon rest) (.pure none)) ?_
    simp [Stmt.levelsOfClause]
  | some s =>
    rcases read s rfl with ⟨kind, name, e, rfl, inside⟩ | ⟨e, rfl, inside⟩
    · have declared := (reads_declaration levels rest inside kind name).map some
      rw [Stmt.tokensOfClause, Stmt.tokens, Stmt.levelsOfClause, Stmt.levels]
      simp only [List.cons_append, List.append_assoc]
      refine .step (.eat_other rfl) (.step (.peek _) ?_)
      cases kind <;> exact declared
    · have valued := inside.whole levels (endsExpr_mark .semicolon rfl rest)
      have opens := e.opens_upcoming (.punctuator .semicolon :: rest)
      rw [Stmt.tokensOfClause, Stmt.tokens, Stmt.levelsOfClause, Stmt.levels, List.append_assoc,
        List.singleton_append]
      refine .step (.eat_other (Token.isMark_of_opensExpr opens rfl)) (.step (.peek _) ?_)
      generalize upcoming (e.tokens ++ .punctuator .semicolon :: rest) = t at opens ⊢
      split
      · cases opens
      · cases opens
      · exact .finish valued (.step (.expect .semicolon rest) (.pure _))

end

end Parser

/-- The production reads the statement back from its tokens, if there are as many levels as it needs. -/
def Stmt.Read (s : Stmt) : Prop := ∀ levels {rest}, EndsStmt rest →
  Reads (statement levels) (s.tokens ++ rest) s rest (s.levels ≤ levels)

theorem Stmt.reads_block {block : List Stmt} (read : ∀ s ∈ block, s.Read) (levels : Nat)
    (rest : List Token) :
    Reads (blockAt levels) (inBraces (Stmt.tokensAll block) ++ rest) block rest
      (Stmt.levelsAll block + 1 ≤ levels) := by
  cases levels with
  | zero => exact .tooDeep (Nat.not_succ_le_zero _)
  | succ levels =>
    simp only [inBraces, List.cons_append, List.append_assoc, List.nil_append, Nat.add_le_add_iff_right,
      Stmt.tokensAll_eq, Stmt.levelsAll_le]
    have stop {t : Token} (opens : t.opensStmt = true) (ts : List Token) :
        Reads (do if ← check .rightBrace then pure true else checkEnd) (t :: ts) false (t :: ts) True :=
      .step (.check_other (isMark_of_opensStmt opens)) (checkEnd_of_opens opens ts)
    refine .step (.expect .leftBrace _) (.finish (.manyUntil (fun s _ => s.opens)
      (fun s member ts => read s member levels)
      (fun t ts opens => ⟨endsStmt_of_opens opens ts, stop opens ts⟩) rfl
      (.step (.check_mark .rightBrace rest) (.pure true))) ?_)
    exact .step (.expect .rightBrace rest) (.pure block)

namespace Stmt.Read

theorem declare (kind : DeclKind) (name : String) {init : Expr} (read : init.Read) :
    (Stmt.declare kind name init).Read := by
  intro levels rest _
  have reads := reads_declaration levels rest read kind name
  rw [statement_eq, Stmt.tokens, Stmt.levels]
  simp only [List.cons_append, List.append_assoc]
  cases kind <;> exact .step (.peek _) reads

theorem function (name : String) (params : List String) {body : List Stmt} (read : ∀ s ∈ body, s.Read) :
    (Stmt.function name params body none).Read := by
  intro levels rest _
  rw [statement_eq, Stmt.tokens, Stmt.levels]
  simp only [List.cons_append, List.append_assoc]
  refine .step (.peek _) (.step (.expectKeyword .functionK _) (.step (.expectIdentifier name _) ?_))
  refine .congr (.parenthesized (fun x _ => ⟨_, _, rfl, rfl⟩)
    (fun x _ ts (_ : EndsExpr ts) => .expectIdentifier x ts) (endsExpr_mark .comma rfl)
    (endsExpr_mark .rightParen rfl) (.finish (Stmt.reads_block read levels rest) (.pure _))) ?_
  simp

theorem ifElse {test : Expr} (first : test.Read) {consequent : List Stmt}
    (block : ∀ s ∈ consequent, s.Read) {alternate : Option (List Stmt)}
    (other : ∀ b, alternate = some b → ∀ s ∈ b, s.Read) :
    (Stmt.ifElse test consequent alternate).Read := by
  intro levels rest ends
  have branch : Reads (do
      if ← checkKeyword .elseK then
        let _ ← next
        pure (Stmt.ifElse test consequent (some (← blockAt levels)))
      else pure (.ifElse test consequent none)) (Stmt.tokensOfBranch alternate ++ rest)
      (.ifElse test consequent alternate) rest (Stmt.levelsOfBranch alternate ≤ levels) := by
    have keyword := Reads.checkKeyword .elseK (Stmt.tokensOfBranch alternate ++ rest)
    cases alternate with
    | none =>
      rw [Stmt.tokensOfBranch, List.nil_append, ends] at keyword
      exact .congr (.step keyword (.pure _)) (by simp [Stmt.levelsOfBranch])
    | some b =>
      have block := Stmt.reads_block (other b rfl) levels rest
      exact .step keyword (.step (.next _ _) (.finish block (.pure _)))
  rw [statement_eq, Stmt.tokens, Stmt.levels]
  simp only [List.cons_append, List.append_assoc]
  refine .step (.peek _) (.step (.expectKeyword .ifK _) ?_)
  refine .congr (.bind (reads_condition levels _ first)
    (.bind (Stmt.reads_block block levels _) branch)) ?_
  simp only [Nat.max_le]

theorem forLoop {init : Option Stmt} (first : Stmt.ClauseRead init) {test update : Option Expr}
    (second : ∀ e, test = some e → e.Read) (third : ∀ e, update = some e → e.Read) {body : List Stmt}
    (block : ∀ s ∈ body, s.Read) :
    (Stmt.forLoop init test update body).Read := by
  intro levels rest _
  rw [statement_eq, Stmt.tokens, Stmt.levels]
  simp only [List.cons_append, List.append_assoc]
  refine .step (.peek _) (.step (.expectKeyword .forK _) (.step (.expect .leftParen _) ?_))
  refine .congr (.bind (reads_forInit levels _ first)
    (.bind (reads_forClause levels _ second rfl rfl) (.bind (reads_forClause levels _ third rfl rfl)
      (.finish (Stmt.reads_block block levels rest) (.pure _))))) ?_
  simp only [Nat.max_le]

theorem whileLoop {test : Expr} (first : test.Read) {body : List Stmt} (block : ∀ s ∈ body, s.Read) :
    (Stmt.whileLoop test body).Read := by
  intro levels rest _
  rw [statement_eq, Stmt.tokens, Stmt.levels]
  simp only [List.cons_append, List.append_assoc]
  refine .step (.peek _) (.step (.expectKeyword .whileK _) ?_)
  exact .congr (.bind (reads_condition levels _ first)
    (.finish (Stmt.reads_block block levels rest) (.pure _))) Nat.max_le.symm

theorem ret {argument : Option Expr} (read : ∀ e, argument = some e → e.Read) :
    (Stmt.ret argument).Read := by
  intro levels rest _
  rw [statement_eq, Stmt.tokens, Stmt.levels]
  simp only [List.cons_append, List.append_assoc]
  exact .step (.peek _) (reads_returnStatement levels rest read)

theorem expression {value : Expr} (read : value.Read) : (Stmt.expression value).Read := by
  intro levels rest _
  have reads := reads_expressionStatement levels rest read
  have opens := value.opens_upcoming (.punctuator .semicolon :: rest)
  rw [statement_eq, Stmt.tokens, Stmt.levels, List.append_assoc, List.singleton_append]
  refine .step (.peek _) ?_
  generalize upcoming (value.tokens ++ .punctuator .semicolon :: rest) = t at opens ⊢
  split
  iterate 7 cases opens
  exact reads

end Stmt.Read

mutual

/-- Canonical statements are read back. -/
theorem Stmt.read (s : Stmt) (canonical : s.All Node.Canonical) : s.Read := by
  cases s with
  | declare kind name init =>
    obtain ⟨_, inside⟩ := Stmt.all_declare.1 canonical
    exact .declare kind name (init.read inside)
  | function name params body site =>
    obtain ⟨⟨_, _, rfl⟩, inside⟩ := Stmt.all_function.1 canonical
    exact .function name params (Stmt.read_all body inside)
  | ifElse test consequent alternate =>
    obtain ⟨_, first, block, branch⟩ := Stmt.all_ifElse.1 canonical
    exact .ifElse (test.read first) (Stmt.read_all consequent block) (Stmt.read_branch alternate branch)
  | forLoop init test update body =>
    obtain ⟨here, first, second, third, block⟩ := Stmt.all_forLoop.1 canonical
    refine .forLoop ?_ (fun e eq => e.read (second e eq)) (fun e eq => e.read (third e eq))
      (Stmt.read_all body block)
    rintro s rfl
    rcases here with ⟨kind, name, e, rfl⟩ | ⟨e, rfl⟩
    · exact .inl ⟨kind, name, e, rfl, e.read (Stmt.all_declare.1 (first _ rfl)).2⟩
    · exact .inr ⟨e, rfl, e.read (Stmt.all_expression.1 (first _ rfl)).2⟩
  | whileLoop test body =>
    obtain ⟨_, first, block⟩ := Stmt.all_whileLoop.1 canonical
    exact .whileLoop (test.read first) (Stmt.read_all body block)
  | ret argument =>
    obtain ⟨_, inside⟩ := Stmt.all_ret.1 canonical
    exact .ret fun e eq => e.read (inside e eq)
  | expression value =>
    obtain ⟨_, inside⟩ := Stmt.all_expression.1 canonical
    exact .expression (value.read inside)
termination_by sizeOf s

theorem Stmt.read_all (block : List Stmt) (canonical : ∀ s ∈ block, s.All Node.Canonical) :
    ∀ s ∈ block, s.Read := by
  cases block with
  | nil => simp
  | cons s rest =>
    rw [List.forall_mem_cons] at canonical ⊢
    exact ⟨s.read canonical.1, Stmt.read_all rest canonical.2⟩
termination_by sizeOf block

theorem Stmt.read_branch (branch : Option (List Stmt))
    (canonical : ∀ b, branch = some b → ∀ s ∈ b, s.All Node.Canonical) :
    ∀ b, branch = some b → ∀ s ∈ b, s.Read := by
  rintro b rfl
  exact Stmt.read_all b (canonical b rfl)
termination_by sizeOf branch

end

/-! ## Programs -/

theorem Program.reads {p : Program} (canonical : p.Canonical) :
    Reads program p.tokens p [] (p.levels ≤ nestingLimit) := by
  have read := Stmt.read_all p (Stmt.all_nodesAll.1 canonical)
  have reads : Reads program (p.flatMap Stmt.tokens ++ []) p [] (∀ s ∈ p, s.levels ≤ nestingLimit) :=
    .manyUntil (fun s _ => s.opens) (fun s member ts => read s member nestingLimit)
      (fun t ts opens => ⟨endsStmt_of_opens opens ts, checkEnd_of_opens opens ts⟩) rfl (.checkEnd [])
  rw [List.append_nil, ← Stmt.tokensAll_eq] at reads
  exact reads.congr Stmt.levelsAll_le.symm

/-- A canonical program can be written down, and whatever writes it down is read back as that program if
nothing in it is nested beyond the limit; otherwise it is refused for its nesting. -/
theorem parseProgram_written {p : Program} (canonical : p.Canonical) :
    (∃ text, p.WrittenAs text) ∧ ∀ text, p.WrittenAs text →
      (p.levels ≤ nestingLimit → parseProgram text = .ok p) ∧
      (nestingLimit < p.levels →
        ∃ position, parseProgram text = .error (.nestingTooDeep nestingLimit position)) := by
  refine ⟨Program.exists_writing canonical, fun text written => ?_⟩
  have stream := Stream.holds_of_written written
  have source : (Stream.ofSource text).source.Holds p.tokens :=
    ⟨stream, Nat.lt_succ_of_le (Nat.le_of_eq stream.length_eq.symm)⟩
  rcases Program.reads canonical _ source with ⟨fits, s', read, _⟩ | ⟨unfit, position, depth, failed⟩
  · refine ⟨fun _ => ?_, fun deep => absurd fits (Nat.not_le_of_gt deep)⟩
    rw [parseProgram, Stream.parse_eq, Parser.parse, read]
    rfl
  · refine ⟨fun fits => absurd fits unfit, fun _ => ⟨position, ?_⟩⟩
    rw [parseProgram, Stream.parse_eq, Parser.parse, failed]
    rfl

/-- Sums inside each other: `(x + (x + …).y).y`. -/
def Expr.nest : Nat → Expr
  | 0 => .literal (.string "\x22")
  | n + 1 => .member (.binary .add (.identifier "x") (nest n)) "y"

theorem Expr.levels_nest (n : Nat) : (Expr.nest n).levels = n + 1 := by
  induction n with
  | zero => rfl
  | succ n ih =>
    have sum : (Expr.binary .add (.identifier "x") (Expr.nest n)).isOperation = true := rfl
    have inner : (Expr.nest n).isOperation = false := by cases n <;> rfl
    simp [Expr.nest, Expr.levels, Expr.isAssignment, enclosed, sum, inner, ih]

theorem Expr.all_nest (n : Nat) : (Expr.nest n).All Node.Canonical := by
  have x : IsName "x" := ⟨⟨'x', [], rfl, rfl, by simp⟩, by decide⟩
  have y : IsName "y" := ⟨⟨'y', [], rfl, rfl, by simp⟩, by decide⟩
  induction n with
  | zero => simp [Expr.nest, Expr.All, Expr.nodes, Node.Canonical]
  | succ n ih =>
    refine Expr.all_member.2 ⟨y, Expr.all_binary.2 ⟨trivial, ?_, ih⟩⟩
    simpa [Expr.All, Expr.nodes, Node.Canonical] using x

theorem canonical_nest (n : Nat) : Program.Canonical [.expression (.nest n)] :=
  Stmt.all_nodesAll.2 (by simpa using Stmt.all_expression.2 ⟨trivial, Expr.all_nest n⟩)

/-- There can be as many levels as the limit says, and not one more. -/
theorem parseProgram_written_of_nest :
    (∃ text, Program.WrittenAs [.expression (.nest 255)] text ∧
      parseProgram text = .ok [.expression (.nest 255)]) ∧
    ∃ text position, Program.WrittenAs [.expression (.nest 256)] text ∧
      parseProgram text = .error (.nestingTooDeep 256 position) := by
  have levels (n : Nat) : Program.levels [.expression (.nest n)] = n + 1 := by
    simp [Program.levels, Stmt.levelsAll, Stmt.levels, Expr.levels_nest]
  obtain ⟨⟨text, written⟩, reads⟩ := parseProgram_written (canonical_nest 255)
  obtain ⟨⟨text', written'⟩, reads'⟩ := parseProgram_written (canonical_nest 256)
  obtain ⟨position, failed⟩ := (reads' text' written').2 (by rw [levels]; decide)
  exact ⟨⟨text, written, (reads text written).1 (by rw [levels]; decide)⟩,
    text', position, written', failed⟩

end TinyScript
