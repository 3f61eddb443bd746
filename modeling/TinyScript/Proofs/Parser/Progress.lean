import TinyScript.Proofs.Lexer.Progress
import TinyScript.Proofs.Parser.Levels
import TinyScript.Proofs.Parser.Rejection

/-! # Reading comes to an end

The loops of the grammar are repetitions, each of which takes a token, and its productions re-enter each
other only one level deeper.

* `Parser.Progressive p`: the parser `p` is put together from single looks at the stream, from such loops and
  from nested productions; `Parser.Progressive.readProgram` says so of the grammar as a whole;
* `Parser.Progressive.run_withBound`: how many repetitions are allowed does not matter, if there are more
  than tokens, so that no loop of such a parser is ever cut short;
* `Parser.Progressive.restores`: such a parser leaves the counter as it was, whether it succeeds or fails.

With what is known about the lexer, this makes the front end come to an end on every text
(`front_end_ends`).
-/

namespace TinyScript

namespace Parser

variable {α β : Type}

/-! ## Loops -/

/-- Each repetition that finds something takes a token. -/
def Takes (step : α → Parser (Option α)) : Prop :=
  ∀ a b s s', s.Enough → step a s = .ok (some b, s') → s'.rest.length < s.rest.length

/-- Put together from single looks at the stream and from repetitions, each of which takes a token. -/
inductive Progressive : {α : Type} → Parser α → Prop where
  | pure {α : Type} (a : α) : Progressive (pure a)
  | bind {α β : Type} {p : Parser α} {f : α → Parser β} : Progressive p → (∀ a, Progressive (f a)) →
      Progressive (p >>= f)
  | peek : Progressive peek
  | next : Progressive next
  | unexpected {α : Type} (wanted : Expected) (found : Token) :
      Progressive (unexpected wanted found : Parser α)
  | tooDeep {α : Type} : Progressive (tooDeep : Parser α)
  | nested {α : Type} {p : Parser α} : Progressive p → Progressive (nested p)
  | iterate {α : Type} {step : α → Parser (Option α)} : (∀ a, Progressive (step a)) → Takes step →
      ∀ a, Progressive (iterate step a)

theorem Heeds.takes {step : α → Parser (Option α)}
    (heeds : ∀ a, Heeds (fun next => next.isSome = true) (step a)) : Takes step := by
  intro a b s s' enough found
  have outcome := heeds a s enough
  rw [found] at outcome
  obtain ⟨_, _, shorter, _⟩ := outcome
  exact shorter rfl

end Parser

/-- The source with another bound for repetitions. -/
def Source.withBound (s : Source) (n : Nat) : Source := { s with bound := n }

/-- The tokens that are left are a last part of those of the other source, or at least no more. -/
structure Source.Within (s' s : Source) : Prop where
  rest : s'.rest.length ≤ s.rest.length
  bound : s'.bound = s.bound

namespace Source.Within

variable {s s' s'' : Source}

theorem refl (s : Source) : s.Within s := ⟨Nat.le_refl _, rfl⟩

theorem trans (second : s''.Within s') (first : s'.Within s) : s''.Within s :=
  ⟨Nat.le_trans second.rest first.rest, second.bound.trans first.bound⟩

theorem enough (within : s'.Within s) (enough : s.Enough) : s'.Enough := by
  have less : s.rest.length < s.bound := enough
  rw [Enough, within.bound]
  exact Nat.lt_of_le_of_lt within.rest less

end Source.Within

namespace Parser

variable {α : Type}

theorem within_iterateUpTo {step : α → Parser (Option α)}
    (each : ∀ a s s' found, step a s = .ok (found, s') → s'.Within s) (n : Nat) {a b : α} {s s' : Source}
    (done : iterateUpTo step n a s = .ok (b, s')) : s'.Within s := by
  induction n generalizing a s with
  | zero =>
    cases done
    exact .refl _
  | succ n ih =>
    obtain ⟨found, middle, stepped, rest⟩ := Heeds.bind_eq_ok done
    have first := each a s middle found stepped
    cases found with
    | none =>
      cases rest
      exact first
    | some next => exact (ih rest).trans first

theorem Progressive.within {p : Parser α} (progressive : Progressive p) {s s' : Source} {a : α}
    (done : p s = .ok (a, s')) : s'.Within s := by
  induction progressive generalizing s s' with
  | pure b =>
    cases done
    exact .refl _
  | bind _ _ first rest =>
    obtain ⟨b, middle, before, after⟩ := Heeds.bind_eq_ok done
    exact (rest b after).trans (first before)
  | peek =>
    unfold Parser.peek at done
    split at done <;> cases done <;> exact ⟨Nat.le_refl _, rfl⟩
  | next =>
    unfold Parser.next at done
    split at done
    · next here =>
      cases done
      exact ⟨by rw [here]; exact Nat.le_succ _, rfl⟩
    · cases done
      exact ⟨Nat.le_refl _, rfl⟩
    · cases done
  | unexpected => cases done
  | tooDeep => cases done
  | nested _ deeper =>
    obtain ⟨inner, before, rfl⟩ := nested_eq_ok done
    exact ⟨(deeper before).rest, (deeper before).bound⟩
  | iterate _ _ _ each => exact within_iterateUpTo (fun b _ _ _ => each b) _ done

/-- What a parser does with another bound. -/
def rebound (n : Nat) (result : Result α) : Result α :=
  result.map fun r => (r.1, r.2.withBound n)

theorem answer_rebound (n : Nat) (result : Result α) : Result.answer (rebound n result) = result.answer := by
  cases result <;> rfl

theorem leave_rebound (n : Nat) (result : Result α) :
    Result.leave (rebound n result) = rebound n result.leave := by
  cases result <;> rfl

/-- A loop whose steps take a token stops by itself: two bounds above the number of tokens make no
difference. -/
theorem iterateUpTo_withBound {step : α → Parser (Option α)} (takes : Takes step)
    (each : ∀ a, Progressive (step a)) {bound : Nat}
    (same : ∀ a s, s.Enough → s.rest.length < bound →
      step a (s.withBound bound) = rebound bound (step a s)) {m n : Nat} {a : α} {s : Source}
    (enough : s.Enough) (more : s.rest.length < bound) (first : s.rest.length < m)
    (second : s.rest.length < n) :
    iterateUpTo step m a (s.withBound bound) = rebound bound (iterateUpTo step n a s) := by
  induction n generalizing m a s with
  | zero => omega
  | succ n ih =>
    obtain ⟨m, rfl⟩ := Nat.exists_eq_succ_of_ne_zero (Nat.ne_of_gt (Nat.zero_lt_of_lt first))
    have stepped := same a s enough more
    rw [iterateUpTo, iterateUpTo]
    cases result : step a s with
    | error e =>
      rw [result] at stepped
      rw [Heeds.bind_of_error result, Heeds.bind_of_error stepped]
      rfl
    | ok pair =>
      obtain ⟨found, s'⟩ := pair
      rw [result] at stepped
      rw [Heeds.bind_of_ok result, Heeds.bind_of_ok stepped]
      cases found with
      | none => rfl
      | some next =>
        -- The next repetition has a token less to take, and one repetition less.
        have shorter := takes a next s s' enough result
        have within := (each a).within result
        have fewer (k : Nat) (more : s.rest.length < k + 1) : s'.rest.length < k := by omega
        exact ih (within.enough enough) (Nat.lt_of_le_of_lt within.rest more) (fewer m first) (fewer n second)

theorem Progressive.run_withBound {p : Parser α} (progressive : Progressive p) {s : Source} {bound : Nat}
    (enough : s.Enough) (more : s.rest.length < bound) :
    p (s.withBound bound) = rebound bound (p s) := by
  induction progressive generalizing s with
  | pure a => rfl
  | @bind α β p f progressive _ first rest =>
    have before := first enough more
    cases result : p s with
    | error e =>
      rw [result] at before
      rw [Heeds.bind_of_error result, Heeds.bind_of_error before]
      rfl
    | ok pair =>
      rw [result] at before
      rw [Heeds.bind_of_ok result, Heeds.bind_of_ok before]
      have within := progressive.within result
      exact rest pair.1 (within.enough enough) (Nat.lt_of_le_of_lt within.rest more)
  | peek =>
    obtain ⟨stream, scanned, old⟩ := s
    cases stream <;> rfl
  | next =>
    obtain ⟨stream, scanned, old⟩ := s
    cases stream <;> rfl
  | unexpected => rfl
  | tooDeep => rfl
  | @nested α p progressive deeper =>
    have inside := deeper (s := s.atDepth (s.depth + 1)) enough more
    rcases Nat.lt_or_ge s.depth nestingLimit with room | full
    · calc Parser.nested p (s.withBound bound)
          = Result.leave (p ((s.atDepth (s.depth + 1)).withBound bound)) :=
            nested_of_lt (s := s.withBound bound) room
        _ = Result.leave (rebound bound (p (s.atDepth (s.depth + 1)))) := by rw [inside]
        _ = rebound bound (Parser.nested p s) := by rw [leave_rebound, nested_of_lt room]
    · rw [nested_of_limit full]
      exact nested_of_limit (s := s.withBound bound) full
  | iterate progressive takes a each =>
    exact iterateUpTo_withBound takes progressive (fun b s => each b) enough more more enough

/-! ## The counter -/

/-- The counter that a result leaves. -/
def Result.depth : Result α → Nat
  | .ok (_, s) => s.depth
  | .error failure => failure.depth

theorem Result.depth_leave (result : Result α) : result.leave.depth = result.depth - 1 := by
  cases result <;> rfl

/-- The counter is at the end what it was before, whether the parser succeeds or fails. -/
def Restores (p : Parser α) : Prop := ∀ s, Result.depth (p s) = s.depth

theorem Restores.bind {β : Type} {p : Parser α} {f : α → Parser β} (first : Restores p)
    (rest : ∀ a, Restores (f a)) : Restores (p >>= f) := by
  intro s
  have before := first s
  cases result : p s with
  | error failure =>
    rw [result] at before
    rw [Heeds.bind_of_error result]
    exact before
  | ok pair =>
    rw [result] at before
    rw [Heeds.bind_of_ok result]
    exact (rest pair.1 pair.2).trans before

/-- A nested production is counted while it runs. -/
theorem Restores.nested {p : Parser α} (deeper : Restores p) : Restores (nested p) := by
  intro s
  rcases Nat.lt_or_ge s.depth nestingLimit with room | full
  · rw [nested_of_lt room, Result.depth_leave, deeper (s.atDepth (s.depth + 1))]
    rfl
  · rw [nested_of_limit full]
    rfl

theorem Restores.iterateUpTo {step : α → Parser (Option α)} (each : ∀ a, Restores (step a)) (n : Nat) (a : α) :
    Restores (iterateUpTo step n a) := by
  induction n generalizing a with
  | zero => exact fun _ => rfl
  | succ n ih =>
    refine (each a).bind fun found => ?_
    cases found with
    | none => exact fun _ => rfl
    | some next => exact ih next

theorem Progressive.restores {p : Parser α} (progressive : Progressive p) : Restores p := by
  induction progressive with
  | pure a => exact fun _ => rfl
  | bind _ _ first rest => exact first.bind rest
  | peek =>
    rintro ⟨stream, scanned, bound, depth⟩
    cases stream <;> rfl
  | next =>
    rintro ⟨stream, scanned, bound, depth⟩
    cases stream <;> rfl
  | unexpected => exact fun _ => rfl
  | tooDeep => exact fun _ => rfl
  | nested _ deeper => exact deeper.nested
  | iterate _ _ a each => exact fun s => Restores.iterateUpTo each s.bound a s

end Parser

/-! ## The grammar -/

namespace Parser.Progressive

variable {α : Type}

theorem map {β : Type} {p : Parser α} (f : α → β) (progressive : Progressive p) : Progressive (f <$> p) := by
  rw [map_eq_pure_bind]
  exact .bind progressive fun a => .pure (f a)

theorem check (mark : Punctuator) : Progressive (check mark) := by
  refine .bind .peek fun token => ?_
  cases token <;> exact .pure _

theorem checkKeyword (word : Keyword) : Progressive (checkKeyword word) := by
  refine .bind .peek fun token => ?_
  cases token <;> exact .pure _

theorem checkEnd : Progressive checkEnd := by
  refine .bind .peek fun token => ?_
  cases token <;> exact .pure _

theorem peekOperator (operator? : Punctuator → Option α) : Progressive (peekOperator operator?) := by
  refine .bind .peek fun token => ?_
  cases token <;> exact .pure _

theorem eat (mark : Punctuator) : Progressive (eat mark) := by
  refine .bind (.check mark) fun found => ?_
  cases found with
  | true => exact .bind .next fun _ => .pure true
  | false => exact .pure false

theorem expect (mark : Punctuator) : Progressive (expect mark) := by
  refine .bind .next fun token => ?_
  cases token with
  | punctuator found =>
    simp only
    split
    · exact .pure ()
    · exact .unexpected _ _
  | _ => exact .unexpected _ _

theorem expectKeyword (word : Keyword) : Progressive (expectKeyword word) := by
  refine .bind .next fun token => ?_
  cases token with
  | keyword found =>
    simp only
    split
    · exact .pure ()
    · exact .unexpected _ _
  | _ => exact .unexpected _ _

theorem expectIdentifier : Progressive expectIdentifier := by
  refine .bind .next fun token => ?_
  cases token with
  | identifier name => exact .pure name
  | _ => exact .unexpected _ _

/-! ### Lists -/

section

variable {item : Parser α} (each : Progressive item) (heeds : Heeds (fun _ => True) item)

include each heeds

theorem manyUntil {stop : Parser Bool} (stops : Progressive stop)
    (looks : Heeds (fun _ => False) stop) : Progressive (manyUntil stop item) := by
  refine .bind (.iterate (fun read => ?_) (Heeds.takes (Heeds.until_step heeds looks)) []) fun _ => .pure _
  refine .bind stops fun stopped => ?_
  cases stopped with
  | true => exact .pure none
  | false => exact .bind each fun _ => .pure _

theorem commaSeparated : Progressive (commaSeparated item) := by
  refine .bind each fun first => ?_
  refine .bind (.iterate (fun read => ?_) (Heeds.takes (Heeds.comma_step heeds)) [first]) fun _ => .pure _
  refine .bind (.eat .comma) fun more => ?_
  cases more with
  | true => exact .bind each fun _ => .pure _
  | false => exact .pure none

theorem bracketed (close : Punctuator) : Progressive (bracketed close item) := by
  refine .bind (.iterate (fun state => ?_) (Heeds.takes (Heeds.bracket_step heeds close)) ([], true))
    fun _ => .bind (.expect close) fun _ => .pure _
  obtain ⟨read, more⟩ := state
  cases more with
  | false => exact .pure none
  | true =>
    refine .bind (.check close) fun closed => ?_
    cases closed with
    | true => exact .pure none
    | false => exact .bind each fun _ => .bind (.eat .comma) fun _ => .pure _

end

/-! ### Expressions -/

section

variable {inner : Parser Expr} (deeper : Progressive inner) (heeds : Heeds (fun _ => True) inner)

include deeper

theorem field : Progressive (field inner) := by
  have value (key : String) : Progressive (do
      Parser.expect .colon
      Pure.pure (key, ← inner) : Parser (String × Expr)) :=
    .bind (.expect .colon) fun _ => .bind deeper fun _ => .pure _
  refine .bind .next fun token => ?_
  cases token with
  | identifier name => exact value name
  | string text => exact value text
  | _ => exact .bind (.unexpected _ _) value

include heeds

theorem arguments : Progressive (arguments inner) := by
  have closing (args : List Expr) :
      Progressive (do Parser.expect .rightParen; Pure.pure args : Parser (List Expr)) :=
    .bind (.expect .rightParen) fun _ => .pure args
  refine .bind (.expect .leftParen) fun _ => .bind (.check .rightParen) fun closed => ?_
  cases closed with
  | true => exact closing []
  | false => exact .bind (.commaSeparated deeper heeds) closing

theorem template (head : String) : Progressive (template inner head) := by
  refine .bind (.iterate (fun state => ?_) (Heeds.takes (Heeds.template_step heeds)) _) fun _ => .pure _
  obtain ⟨read, more⟩ := state
  cases more with
  | false => exact .pure none
  | true =>
    refine .bind deeper fun e => .bind .next fun token => ?_
    cases token with
    | templateStart text => exact .pure _
    | templateEnd text => exact .pure _
    | _ => exact .unexpected _ _

theorem atom : Progressive (atom inner) := by
  refine .bind .next fun token => ?_
  cases token with
  | keyword word => cases word <;> first | exact .pure _ | exact .unexpected _ _
  | punctuator mark =>
    cases mark with
    | leftParen => exact .bind deeper fun value => .bind (.expect .rightParen) fun _ => .pure value
    | leftBracket => exact .map _ (.bracketed deeper heeds .rightBracket)
    | leftBrace => exact .map _ (.bracketed (.field deeper) (Heeds.field heeds) .rightBrace)
    | _ => exact .unexpected _ _
  | templateStart text => exact .template deeper heeds text
  | eof => exact .unexpected _ _
  | number | string | identifier | templateEnd => exact .pure _

theorem suffix (base : Expr) : Progressive (suffix inner base) := by
  refine .bind (.check .leftParen) fun called => ?_
  cases called with
  | true => exact .bind (.arguments deeper heeds) fun _ => .pure _
  | false =>
    refine .bind (.eat .dot) fun read => ?_
    cases read with
    | true => exact .bind .expectIdentifier fun _ => .pure _
    | false => exact .pure none

theorem primaryWith : Progressive (primaryWith inner) :=
  .bind (.atom deeper heeds) fun base =>
    .iterate (.suffix deeper heeds) (Heeds.takes (Heeds.suffix heeds)) base

end

theorem chain {primary : Parser Expr} (operand : Progressive primary)
    (heeds : Heeds (fun _ => True) primary) : Progressive (chain primary) := by
  refine .bind operand fun first => .iterate (fun left => ?_) (Heeds.takes (Heeds.chain_step heeds)) first
  refine .bind (.peekOperator binaryOp?) fun op => ?_
  cases op with
  | some op => exact .bind .next fun _ => .bind operand fun _ => .pure _
  | none => exact .pure none

theorem expressionWith {primary right : Parser Expr} (operand : Progressive primary)
    (heeds : Heeds (fun _ => True) primary) (deeper : Progressive right) :
    Progressive (expressionWith primary right) := by
  refine .bind (.chain operand heeds) fun left => .bind (.peekOperator assignOp?) fun op => ?_
  cases op with
  | none => exact .pure left
  | some op =>
    refine .bind .next fun mark => ?_
    cases left with
    | identifier target => exact .bind deeper fun _ => .pure _
    | _ => exact .unexpected _ _

theorem readExpression (n : Nat) : Progressive (readExpression n) := by
  induction n with
  | zero => exact .tooDeep
  | succ n ih =>
    have heeds := Heeds.readExpression n
    exact .expressionWith (.nested (.primaryWith ih heeds)) (Heeds.primaryWith heeds).nested (.nested ih)

/-! ### Statements -/

section

variable {expr : Parser Expr} (value : Progressive expr)

include value

theorem declaration : Progressive (declaration expr) :=
  .bind .next fun _ => .bind .expectIdentifier fun _ => .bind (.expect .assign) fun _ =>
    .bind value fun _ => .bind (.expect .semicolon) fun _ => .pure _

theorem condition : Progressive (condition expr) :=
  .bind (.expect .leftParen) fun _ => .bind value fun _ => .bind (.expect .rightParen) fun _ => .pure _

theorem forInit : Progressive (forInit expr) := by
  refine .bind (.eat .semicolon) fun missing => ?_
  cases missing with
  | true => exact .pure none
  | false =>
    have declared : Progressive (some <$> Parser.declaration expr) := .map _ (.declaration value)
    have evaluated : Progressive (do
        let value ← expr
        Parser.expect .semicolon
        Pure.pure (some (Stmt.expression value)) : Parser (Option Stmt)) :=
      .bind value fun _ => .bind (.expect .semicolon) fun _ => .pure _
    refine .bind .peek fun token => ?_
    cases token with
    | keyword word => cases word <;> first | exact declared | exact evaluated
    | _ => exact evaluated

theorem forClause (close : Punctuator) : Progressive (forClause expr close) := by
  have closing (clause : Option Expr) :
      Progressive (do Parser.expect close; Pure.pure clause : Parser (Option Expr)) :=
    .bind (.expect close) fun _ => .pure clause
  refine .bind (.check close) fun missing => ?_
  cases missing with
  | true => exact closing none
  | false => exact .bind (.map some value) closing

theorem returnStatement : Progressive (returnStatement expr) := by
  have closing (argument : Option Expr) : Progressive (do
      let _ ← Parser.eat .semicolon
      Pure.pure (Stmt.ret argument) : Parser Stmt) :=
    .bind (.eat .semicolon) fun _ => .pure _
  have valued : Progressive (do
      let argument ← some <$> expr
      let _ ← Parser.eat .semicolon
      Pure.pure (Stmt.ret argument) : Parser Stmt) :=
    .bind (.map some value) closing
  refine .bind (.expectKeyword .returnK) fun _ => .bind .peek fun token => ?_
  cases token with
  | punctuator mark => cases mark <;> first | exact closing none | exact valued
  | eof => exact closing none
  | _ => exact valued

theorem expressionStatement : Progressive (expressionStatement expr) :=
  .bind value fun _ => .bind (.eat .semicolon) fun _ => .pure _

variable {block : Parser (List Stmt)} (body : Progressive block)

include body

omit value in
theorem functionDeclaration : Progressive (functionDeclaration block) := by
  refine .bind (.expectKeyword .functionK) fun _ => .bind .expectIdentifier fun name => ?_
  refine .bind (.expect .leftParen) fun _ => .bind (.check .rightParen) fun closed => ?_
  have finish (params : List String) : Progressive (do
      Parser.expect .rightParen
      Pure.pure (Stmt.function name params (← block) none) : Parser Stmt) :=
    .bind (.expect .rightParen) fun _ => .bind body fun _ => .pure _
  cases closed with
  | true => exact finish []
  | false => exact .bind (.commaSeparated .expectIdentifier Heeds.expectIdentifier) finish

theorem ifStatement : Progressive (ifStatement expr block) := by
  refine .bind (.expectKeyword .ifK) fun _ => .bind (.condition value) fun test => ?_
  refine .bind body fun consequent => .bind (.checkKeyword .elseK) fun more => ?_
  cases more with
  | true => exact .bind .next fun _ => .bind body fun _ => .pure _
  | false => exact .pure _

theorem forStatement : Progressive (forStatement expr block) :=
  .bind (.expectKeyword .forK) fun _ => .bind (.expect .leftParen) fun _ =>
    .bind (.forInit value) fun _ => .bind (.forClause value .semicolon) fun _ =>
      .bind (.forClause value .rightParen) fun _ => .bind body fun _ => .pure _

theorem whileStatement : Progressive (whileStatement expr block) :=
  .bind (.expectKeyword .whileK) fun _ => .bind (.condition value) fun _ => .bind body fun _ => .pure _

theorem statementWith : Progressive (statementWith expr block) := by
  refine .bind .peek fun token => ?_
  cases token with
  | keyword word =>
    cases word with
    | letK => exact .declaration value
    | constK => exact .declaration value
    | functionK => exact .functionDeclaration body
    | ifK => exact .ifStatement value body
    | forK => exact .forStatement value body
    | whileK => exact .whileStatement value body
    | returnK => exact .returnStatement value
    | _ => exact .expressionStatement value
  | _ => exact .expressionStatement value

end

theorem blockWith {statement : Parser Stmt} (each : Progressive statement)
    (heeds : Heeds (fun _ => True) statement) : Progressive (blockWith statement) := by
  have stops : Progressive (do
      if ← Parser.check .rightBrace then Pure.pure true else Parser.checkEnd) := by
    refine .bind (.check .rightBrace) fun closed => ?_
    cases closed with
    | true => exact .pure true
    | false => exact .checkEnd
  refine .bind (.expect .leftBrace) fun _ => ?_
  exact .bind (.manyUntil each heeds stops Heeds.blockEnd) fun _ => .bind (.expect .rightBrace) fun _ => .pure _

theorem readStatement (n : Nat) : Progressive (readStatement n) := by
  induction n with
  | zero => exact .tooDeep
  | succ n ih =>
    exact .statementWith (.readExpression (n + 1)) (.nested (.blockWith ih (Heeds.readStatement n)))

theorem readProgram : Progressive readProgram :=
  .manyUntil (.readStatement _) (Heeds.readStatement _) .checkEnd Heeds.checkEnd

end Parser.Progressive

/-! ## The front end -/

/-- The front end comes to an end on every text.  However the lexer has been used, it stands within the
text, and before its end a scan moves it on, to a token or to an error; at the end every scan gives one
answer, which is the end of the input or, with an interpolation open, that the template has none.  The
grammar is put together from loops each of whose repetitions takes a token, so that any bound above the
number of tokens gives the same outcome, and from productions that re-enter each other one level deeper.
Their equations, which ask nothing of the productions beyond the limit, have exactly one solution up to it;
that is what runs, and each re-entry sets the counter back, whether it succeeds or fails. -/
theorem front_end_ends (source : String) :
    (∀ calls, let l := (Lexer.ofSource source).after calls
      l.offset ≤ source.length ∧
      (l.offset < source.length → l.offset < l.scan.2.offset ∧ l.scan.2.offset ≤ source.length) ∧
      (l.offset = source.length →
        l.scan.1 = (if l.interpolations = [] then .ok .eof else .error (.unterminatedTemplate l.segment)) ∧
        ∀ more, (l.after more).scan.1 = l.scan.1)) ∧
    Parser.Progressive Parser.readProgram ∧
    (∀ bound, (Stream.ofSource source).length < bound →
      Parser.Result.answer (Parser.readProgram ⟨.ofSource source, .start, bound, 0⟩) = parseProgram source) ∧
    ∃ expr stmt, Parser.Solves expr stmt ∧ Parser.readProgram = Parser.manyUntil Parser.checkEnd stmt ∧
      (∀ expr' stmt', Parser.Solves expr' stmt' →
        ∀ s : Source, s.depth ≤ nestingLimit → expr' s = expr s ∧ stmt' s = stmt s) ∧
      Parser.Restores (Parser.nested (Parser.primaryWith expr)) ∧ Parser.Restores (Parser.nested expr) ∧
      Parser.Restores (Parser.nested (Parser.blockWith stmt)) ∧ Parser.Restores Parser.readProgram := by
  refine ⟨fun calls => ?_, .readProgram, fun bound more => ?_, ?_⟩
  · intro l
    have stands : l.Stands source := (Lexer.Stands.ofSource source).after calls
    have here := stands.offset_add
    have further := stands.scan.offset_add
    refine ⟨by omega, fun before => ?_, fun atEnd => ?_⟩
    · have nonempty : l.cursor.rest ≠ [] := List.length_pos_iff.1 (by omega)
      have less := Lexer.scan_lt nonempty
      omega
    · have nothing : l.cursor.rest = [] := List.length_eq_zero_iff.1 (by omega)
      have answer : l.scan.1 = l.endAnswer := l.scan_after_end nothing []
      refine ⟨?_, fun more => (Lexer.scan_after_end nothing more).trans answer.symm⟩
      rw [answer, Lexer.endAnswer]
      simp only [List.isEmpty_iff]
  · have same := Parser.Progressive.readProgram.run_withBound (Stream.ofSource source).enough_source more
    exact (congrArg Parser.Result.answer same).trans (Parser.answer_rebound bound _)
  · let expr := Parser.readExpression (nestingLimit + 1)
    let stmt := Parser.readStatement (nestingLimit + 1)
    have solves : Parser.Solves expr stmt := Parser.solves_read (Nat.le_refl _)
    have heedsExpr : Parser.Heeds (fun _ => True) expr := .readExpression _
    have heedsStmt : Parser.Heeds (fun _ => True) stmt := .readStatement _
    have value : Parser.Progressive expr := .readExpression _
    have body : Parser.Progressive stmt := .readStatement _
    exact ⟨expr, stmt, solves, rfl, fun expr' stmt' solves' s => solves'.unique solves,
      (value.primaryWith heedsExpr).restores.nested, value.restores.nested,
      (body.blockWith heedsStmt).restores.nested, Parser.Progressive.readProgram.restores⟩

end TinyScript
