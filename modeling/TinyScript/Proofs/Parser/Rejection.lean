import Mathlib.Data.Nat.Basic
import TinyScript.Proofs.Parser.Levels
import TinyScript.Proofs.Lexer.Scan
import TinyScript.Proofs.Parser.Lookahead
import TinyScript.Session

/-! # The parser reads what the lexer delivers

Every production of the grammar asks its stream for tokens as `Parser.Heeds` says.  So a text with a
program has tokens, an error of the lexer is reported as it is, and a token that is rejected is the last
one that the lexer has been asked for (`parser_reads_tokens`).
-/

namespace TinyScript

namespace Parser.Heeds

/-! ## Expressions -/

theorem tooDeep {α : Type} {takes : α → Prop} : Heeds takes tooDeep :=
  fun _ _ => trivial

/-- A nested production asks for what the production asks for one level deeper. -/
theorem nested {α : Type} {takes : α → Prop} {p : Parser α} (deeper : Heeds takes p) :
    Heeds takes (nested p) := by
  intro s enough
  rcases Nat.lt_or_ge s.depth nestingLimit with room | full
  · have outcome := deeper (s.atDepth (s.depth + 1)) enough
    have inside {n : Nat} {t : Source} (alike : s.Alike n t) :
        (s.atDepth (s.depth + 1)).Alike n (t.atDepth (t.depth + 1)) :=
      ⟨alike.rest, alike.scanned, congrArg (· + 1) alike.depth, alike.enough⟩
    have other {n : Nat} {t : Source} (alike : s.Alike n t) : t.depth < nestingLimit := alike.depth ▸ room
    cases result : p (s.atDepth (s.depth + 1)) with
    | ok pair =>
      rw [result] at outcome
      rw [nested_of_ok room result]
      obtain ⟨n, moved, further, same⟩ := outcome
      refine ⟨n, ?_, further, fun t alike => nested_of_ok (other alike) (same _ (inside alike))⟩
      rw [moved]
      rfl
    | error failure =>
      rw [result] at outcome
      rw [nested_of_error room result]
      obtain ⟨error, depth⟩ := failure
      cases error with
      | unexpectedToken wanted found position =>
        obtain ⟨k, here, same⟩ := outcome
        exact ⟨k, here, fun t alike => nested_of_error (other alike) (same _ (inside alike))⟩
      | lex e => exact outcome
      | nestingTooDeep limit position => trivial
  · rw [nested_of_limit full]
    trivial

theorem peekOperator {α : Type} (operator? : Punctuator → Option α) :
    Heeds (fun _ => False) (peekOperator operator?) := by
  apply bind peek
  intro token
  cases token <;> exact pure id

section

variable {inner : Parser Expr} (deeper : Heeds (fun _ => True) inner)

include deeper

theorem arguments : Heeds (fun _ => True) (arguments inner) := by
  apply bind_taken (expect .leftParen)
  intro _
  apply bind (check .rightParen)
  intro closed
  have closing (args : List Expr) :
      Heeds (fun _ => False) (do Parser.expect .rightParen; Pure.pure args : Parser (List Expr)) :=
    bind (expect .rightParen) fun _ => pure id
  cases closed with
  | true => exact closing []
  | false => exact bind (commaSeparated deeper) closing

theorem field : Heeds (fun _ => True) (field inner) := by
  apply next_bind
  intro token
  have value (key : String) : Heeds (fun _ => False) (do
      Parser.expect .colon
      Pure.pure (key, ← inner) : Parser (String × Expr)) :=
    bind (expect .colon) fun _ => bind deeper fun _ => pure id
  cases token with
  | identifier name => exact .accept (by simp) (value name)
  | string text => exact .accept (by simp) (value text)
  | _ => exact .reject _

/-- A further part of a template, if there is one. -/
theorem template_step (state : Expr × Bool) : Heeds (fun next => next.isSome = true) (do
    if !state.2 then Pure.pure none
    else
      let read := concatenate state.1 (← inner)
      match ← Parser.next with
      | .templateStart text => Pure.pure (some (concatenate read (.literal (.string text)), true))
      | .templateEnd text => Pure.pure (some (concatenate read (.literal (.string text)), false))
      | other => unexpected .closingInterpolation other) := by
  obtain ⟨read, more⟩ := state
  cases more with
  | false => exact pure (by simp)
  | true =>
    apply bind_taken deeper
    intro e
    apply next_bind
    intro token
    cases token with
    | templateStart text => exact .pass (pure id)
    | templateEnd text => exact .pass (pure id)
    | _ => exact .reject _

theorem template (head : String) : Heeds (fun _ => False) (template inner head) :=
  bind (iterate (template_step deeper) _) fun _ => pure id

theorem atom : Heeds (fun _ => True) (atom inner) := by
  apply next_bind
  intro token
  cases token with
  | number x => exact .accept (by simp) (pure id)
  | string text => exact .accept (by simp) (pure id)
  | keyword word =>
    cases word with
    | trueK => exact .accept (by simp) (pure id)
    | falseK => exact .accept (by simp) (pure id)
    | _ => exact .reject _
  | identifier name => exact .accept (by simp) (pure id)
  | punctuator mark =>
    cases mark with
    | leftParen =>
      exact .accept (by simp) (bind deeper fun _ => bind (expect .rightParen) fun _ => pure id)
    | leftBracket => exact .accept (by simp) (map (bracketed deeper .rightBracket))
    | leftBrace => exact .accept (by simp) (map (bracketed (field deeper) .rightBrace))
    | _ => exact .reject _
  | templateEnd text => exact .accept (by simp) (pure id)
  | templateStart text => exact .accept (by simp) (template deeper text)
  | eof => exact .reject _

theorem suffix (base : Expr) : Heeds (fun e => e.isSome = true) (suffix inner base) := by
  apply bind (check .leftParen)
  intro called
  cases called with
  | true => exact bind_taken (arguments deeper) fun _ => pure id
  | false =>
    apply bind (eat .dot)
    intro read
    cases read with
    | true => exact bind_taken expectIdentifier fun _ => pure id
    | false => exact pure (by simp)

theorem primaryWith : Heeds (fun _ => True) (primaryWith inner) :=
  bind_taken (atom deeper) fun base => iterate (suffix deeper) base

end

/-- One operator and its right operand, if there is one. -/
theorem chain_step {primary : Parser Expr} (operand : Heeds (fun _ => True) primary) (left : Expr) :
    Heeds (fun next => next.isSome = true) (do
      match ← Parser.peekOperator binaryOp? with
      | some op =>
        let _ ← Parser.next
        Pure.pure (some (.binary op left (← primary)))
      | none => Pure.pure none : Parser (Option Expr)) := by
  apply bind (peekOperator binaryOp?)
  intro op
  cases op with
  | some op => exact skip (bind_taken operand fun _ => pure id)
  | none => exact pure (by simp)

theorem chain {primary : Parser Expr} (operand : Heeds (fun _ => True) primary) :
    Heeds (fun _ => True) (chain primary) :=
  bind_taken operand fun first => iterate (chain_step operand) first

theorem expressionWith {primary right : Parser Expr} (operand : Heeds (fun _ => True) primary)
    (deeper : Heeds (fun _ => True) right) : Heeds (fun _ => True) (expressionWith primary right) := by
  apply bind_taken (chain operand)
  intro left
  apply bind (peekOperator assignOp?)
  intro op
  cases op with
  | none => exact pure id
  | some op =>
    apply next_bind
    intro mark
    cases left with
    | identifier target => exact .pass (bind deeper fun _ => pure id)
    | _ => exact .reject _

theorem expressionAt (levels : Nat) : Heeds (fun _ => True) (expression levels) := by
  induction levels with
  | zero => exact expressionWith tooDeep tooDeep
  | succ levels ih => exact expressionWith (primaryWith ih) ih

theorem readExpression (n : Nat) : Heeds (fun _ => True) (readExpression n) := by
  induction n with
  | zero => exact tooDeep
  | succ n ih => exact expressionWith (primaryWith ih).nested ih.nested

/-! ## Statements -/

section

variable {expr : Parser Expr} (value : Heeds (fun _ => True) expr)

include value

theorem declaration : Heeds (fun _ => True) (declaration expr) := by
  apply next_bind
  intro token
  apply Answers.pass
  apply bind_taken expectIdentifier
  intro name
  exact bind (expect .assign) fun _ => bind value fun _ => bind (expect .semicolon) fun _ => pure id

theorem condition : Heeds (fun _ => True) (condition expr) :=
  bind_taken (expect .leftParen) fun _ => bind value fun _ => bind (expect .rightParen) fun _ => pure id

theorem forInit : Heeds (fun _ => False) (forInit expr) := by
  apply bind (eat .semicolon)
  intro missing
  cases missing with
  | true => exact pure id
  | false =>
    have declared : Heeds (fun _ => False) (some <$> Parser.declaration expr) := map (declaration value)
    have evaluated : Heeds (fun _ => False) (do
        let value ← expr
        Parser.expect .semicolon
        Pure.pure (some (Stmt.expression value)) : Parser (Option Stmt)) :=
      bind value fun _ => bind (expect .semicolon) fun _ => pure id
    apply bind peek
    intro token
    cases token with
    | keyword word =>
      cases word with
      | letK => exact declared
      | constK => exact declared
      | _ => exact evaluated
    | _ => exact evaluated

theorem forClause (close : Punctuator) : Heeds (fun _ => False) (forClause expr close) := by
  apply bind (check close)
  intro missing
  have closing (clause : Option Expr) :
      Heeds (fun _ => False) (do Parser.expect close; Pure.pure clause : Parser (Option Expr)) :=
    bind (expect close) fun _ => pure id
  cases missing with
  | true => exact closing none
  | false => exact bind (map value) closing

theorem returnStatement : Heeds (fun _ => True) (returnStatement expr) := by
  have closing (argument : Option Expr) : Heeds (fun _ => False) (do
      let _ ← Parser.eat .semicolon
      Pure.pure (Stmt.ret argument) : Parser Stmt) :=
    bind (eat .semicolon) fun _ => pure id
  have valued : Heeds (fun _ => False) (do
      let argument ← some <$> expr
      let _ ← Parser.eat .semicolon
      Pure.pure (Stmt.ret argument) : Parser Stmt) :=
    bind (map value) closing
  apply bind_taken (expectKeyword .returnK)
  intro _
  apply bind peek
  intro token
  cases token with
  | punctuator mark =>
    cases mark with
    | semicolon => exact closing none
    | rightBrace => exact closing none
    | _ => exact valued
  | eof => exact closing none
  | _ => exact valued

theorem expressionStatement : Heeds (fun _ => True) (expressionStatement expr) :=
  bind_taken value fun _ => bind (eat .semicolon) fun _ => pure id

end

section

variable {block : Parser (List Stmt)} (body : Heeds (fun _ => True) block)

include body

theorem functionDeclaration : Heeds (fun _ => True) (functionDeclaration block) := by
  apply bind_taken (expectKeyword .functionK)
  intro _
  apply bind expectIdentifier
  intro name
  apply bind (expect .leftParen)
  intro _
  apply bind (check .rightParen)
  intro closed
  have finish (params : List String) : Heeds (fun _ => False) (do
      Parser.expect .rightParen
      Pure.pure (Stmt.function name params (← block) none) : Parser Stmt) :=
    bind (expect .rightParen) fun _ => bind body fun _ => pure id
  cases closed with
  | true => exact finish []
  | false => exact bind (commaSeparated expectIdentifier) finish

variable {expr : Parser Expr} (value : Heeds (fun _ => True) expr)

include value

theorem ifStatement : Heeds (fun _ => True) (ifStatement expr block) := by
  apply bind_taken (expectKeyword .ifK)
  intro _
  apply bind (condition value)
  intro test
  apply bind body
  intro consequent
  apply bind (checkKeyword .elseK)
  intro more
  cases more with
  | true => exact skip (bind body fun _ => pure id)
  | false => exact pure id

theorem forStatement : Heeds (fun _ => True) (forStatement expr block) := by
  apply bind_taken (expectKeyword .forK)
  intro _
  apply bind (expect .leftParen)
  intro _
  apply bind (forInit value)
  intro init
  apply bind (forClause value .semicolon)
  intro test
  apply bind (forClause value .rightParen)
  intro update
  exact bind body fun _ => pure id

theorem whileStatement : Heeds (fun _ => True) (whileStatement expr block) :=
  bind_taken (expectKeyword .whileK) fun _ => bind (condition value) fun _ => bind body fun _ => pure id

theorem statementWith : Heeds (fun _ => True) (statementWith expr block) := by
  apply bind peek
  intro token
  cases token with
  | keyword word =>
    cases word with
    | letK => exact declaration value
    | constK => exact declaration value
    | functionK => exact functionDeclaration body
    | ifK => exact ifStatement body value
    | forK => exact forStatement body value
    | whileK => exact whileStatement body value
    | returnK => exact returnStatement value
    | _ => exact expressionStatement value
  | _ => exact expressionStatement value

end

/-- Statements in braces go on up to the closing brace or the end. -/
theorem blockEnd : Heeds (fun _ => False) (do
    if ← Parser.check .rightBrace then Pure.pure true else Parser.checkEnd) := by
  apply bind (check .rightBrace)
  intro closed
  cases closed with
  | true => exact pure id
  | false => exact checkEnd

theorem blockWith {statement : Parser Stmt} (each : Heeds (fun _ => True) statement) :
    Heeds (fun _ => True) (blockWith statement) := by
  apply bind_taken (expect .leftBrace)
  intro _
  exact bind (manyUntil each blockEnd) fun _ => bind (expect .rightBrace) fun _ => pure id

theorem statementAt (levels : Nat) : Heeds (fun _ => True) (statement levels) := by
  induction levels with
  | zero => exact statementWith tooDeep (expressionAt 0)
  | succ levels ih => exact statementWith (blockWith ih) (expressionAt (levels + 1))

theorem readStatement (n : Nat) : Heeds (fun _ => True) (readStatement n) := by
  induction n with
  | zero => exact tooDeep
  | succ n ih => exact statementWith (blockWith ih).nested (readExpression (n + 1))

theorem readProgram : Heeds (fun _ => False) readProgram := manyUntil (readStatement _) checkEnd

/-! ## The end of the text -/

theorem bind_eq_ok {α β : Type} {p : Parser α} {f : α → Parser β} {s s' : Source} {b : β}
    (done : (p >>= f) s = .ok (b, s')) : ∃ a middle, p s = .ok (a, middle) ∧ f a middle = .ok (b, s') := by
  cases result : p s with
  | error error =>
    rw [bind_of_error result] at done
    cases done
  | ok pair =>
    rw [bind_of_ok result] at done
    exact ⟨pair.1, pair.2, rfl, done⟩

theorem at?_of_checkEnd {s s' : Source} (atEnd : Parser.checkEnd s = .ok (true, s')) :
    ∃ stop, s'.rest.at? 0 = some (.eof, stop) := by
  obtain ⟨token, middle, peeked, isEnd⟩ := bind_eq_ok atEnd
  cases token with
  | eof =>
    cases isEnd
    obtain ⟨rest, scanned, bound, depth⟩ := s
    cases rest with
    | lexeme first rest =>
      simp only [Parser.peek, Except.ok.injEq, Prod.mk.injEq] at peeked
      obtain ⟨isEof, rfl⟩ := peeked
      exact ⟨first.start, by simp only [Stream.at?, isEof]⟩
    | done stop =>
      cases peeked
      exact ⟨stop, rfl⟩
    | failed e => cases peeked
  | _ => cases isEnd

/-- A program has been read if nothing else is left. -/
theorem at?_of_readProgram {s s' : Source} {p : Program} (enough : s.Enough)
    (done : Parser.readProgram s = .ok (p, s')) : ∃ stop, s'.rest.at? 0 = some (.eof, stop) := by
  obtain ⟨items, middle, iterated, finished⟩ := bind_eq_ok done
  cases finished
  obtain ⟨last, stopped⟩ := iterate_ends (until_step (readStatement _) checkEnd) enough iterated
  obtain ⟨atEnd, before, checked, ended⟩ := bind_eq_ok stopped
  cases atEnd with
  | true =>
    cases ended
    exact at?_of_checkEnd checked
  | false =>
    obtain ⟨statement, _, _, more⟩ := bind_eq_ok ended
    cases more

end Parser.Heeds

/-! ## Streams -/

namespace Stream

theorem enough_source (s : Stream) : s.source.Enough := Nat.lt_succ_self _

theorem parse_eq_ok {s : Stream} {p : Program} (parsed : s.parse = .ok p) :
    ∃ n stop, s.at? n = some (.eof, stop) := by
  have outcome := Parser.Heeds.readProgram s.source s.enough_source
  obtain ⟨s', done⟩ := Parser.parse_eq_ok parsed
  rw [done] at outcome
  obtain ⟨n, moved, _⟩ := outcome
  obtain ⟨stop, here⟩ := Parser.Heeds.at?_of_readProgram s.enough_source done
  rw [moved] at here
  exact ⟨n, stop, (at?_drop n 0 s).symm.trans here⟩

theorem parse_eq_lex {s : Stream} {e : LexError} (failed : s.parse = .error (.lex e)) :
    s.error? = some e := by
  have outcome := Parser.Heeds.readProgram s.source s.enough_source
  obtain ⟨depth, stopped⟩ := Parser.parse_eq_error failed
  rw [stopped] at outcome
  exact outcome

/-- What comes behind a token that is rejected does not matter. -/
theorem parse_eq_unexpectedToken {s : Stream} {wanted : Expected} {found : Token} {position : Position}
    (failed : s.parse = .error (.unexpectedToken wanted found position)) :
    ∃ k, s.at? k = some (found, position) ∧
      ∀ t, s.Agree (k + 1) t → t.parse = .error (.unexpectedToken wanted found position) := by
  have outcome := Parser.Heeds.readProgram s.source s.enough_source
  obtain ⟨depth, stopped⟩ := Parser.parse_eq_error failed
  rw [stopped] at outcome
  obtain ⟨k, here, same⟩ := outcome
  refine ⟨k, here, ?_⟩
  intro t agree
  rw [Stream.parse, Parser.parse, same t.source ⟨agree, rfl, rfl, t.enough_source⟩]
  rfl

end Stream

/-! ## Texts -/

theorem Stream.lexemes_snd (s : Stream) : s.lexemes.2 = s.error? := by
  induction s with
  | lexeme first rest ih => exact ih
  | done stop => rfl
  | failed e => rfl

theorem tokenize_of_error?_eq_none {source : String} (complete : (Stream.ofSource source).error? = none) :
    ∃ tokens, tokenize source = .ok tokens := by
  rw [← Stream.lexemes_snd] at complete
  unfold tokenize
  split
  · exact ⟨_, rfl⟩
  · next failed =>
    rw [failed] at complete
    cases complete

theorem tokenize_of_error?_eq_some {source : String} {e : LexError}
    (stopped : (Stream.ofSource source).error? = some e) : tokenize source = .error e := by
  rw [← Stream.lexemes_snd] at stopped
  unfold tokenize
  split
  · next complete =>
    rw [complete] at stopped
    cases stopped
  · next failed =>
    rw [failed] at stopped
    cases stopped
    rfl

namespace Lexer

/-- There is an `eof` token at the end only. -/
theorem Delivers.error?_eq_none {l : Lexer} {s : Stream} (delivers : l.Delivers s) {k : Nat}
    {stop : Position} (here : s.at? k = some (.eof, stop)) : s.error? = none := by
  induction delivers generalizing k with
  | lexeme scanned ne_eof _ ih =>
    cases k with
    | zero =>
      cases here
      exact absurd rfl ne_eof
    | succ k => exact ih here
  | done scanned => rfl
  | failed scanned => cases k <;> cases here

/-- At the end `eof` is taken again and again. -/
theorem takes_eof {l : Lexer} (nothing : l.cursor.rest = []) (closed : l.interpolations = [])
    (fresh : l.ahead = none) (here : l.start = l.cursor.position) (n : Nat) :
    l.Takes (List.replicate n ⟨.eof, l.start, l.offset⟩) l := by
  have again : l.next = (.ok .eof, l) := by
    rw [next_eq_scan fresh, scan_at_end nothing closed, ← here]
  induction n with
  | zero => exact .nil l
  | succ n ih => exact .cons again ih

/-- The tokens of the stream are those that are taken one by one. -/
theorem Delivers.takes {l : Lexer} {s : Stream} (delivers : l.Delivers s) (fresh : l.ahead = none) {k : Nat}
    {token : Token} {start : Position} (here : s.at? k = some (token, start)) :
    ∃ before rejected last, l.Takes (before ++ [rejected]) last ∧ before.length = k ∧
      rejected.token = token ∧ rejected.start = start ∧ rejected.stop = last.offset := by
  induction delivers generalizing k with
  | @lexeme l l' t s scanned ne_eof _ ih =>
    obtain ⟨gap, own, reads⟩ := scan_reads scanned
    have first : l.next = (.ok t, l') := (next_eq_scan fresh).trans scanned
    cases k with
    | zero =>
      cases here
      exact ⟨[], _, l', .cons first (.nil l'), rfl, rfl, rfl, rfl⟩
    | succ k =>
      obtain ⟨before, rejected, last, takes, length, same⟩ := ih (reads.ahead.trans fresh) here
      exact ⟨_ :: before, rejected, last, .cons first takes, congrArg (· + 1) length, same⟩
  | @done l l' scanned =>
    obtain ⟨gap, own, reads⟩ := scan_reads scanned
    obtain ⟨rfl, nothing, closed⟩ := reads.eof rfl
    have first : l.next = (.ok .eof, l') := (next_eq_scan fresh).trans scanned
    have again := takes_eof nothing closed (reads.ahead.trans fresh) reads.position.symm k
    have all : l.Takes (List.replicate (k + 1) ⟨.eof, l'.start, l'.offset⟩) l' := .cons first again
    rw [List.replicate_succ'] at all
    refine ⟨_, _, l', all, List.length_replicate, ?_⟩
    cases k <;> cases here <;> exact ⟨rfl, rfl, rfl⟩
  | failed scanned => cases k <;> cases here

end Lexer

/-! ## Listings of tokens -/

namespace Session

/-- The session with tokens printed or not. -/
def withPrintTokens (s : Session) (printTokens : Bool) : Session :=
  { s with settings := { s.settings with printTokens } }

@[simp] theorem withPrintTokens_withPrintTokens (s : Session) (b c : Bool) :
    (s.withPrintTokens b).withPrintTokens c = s.withPrintTokens c := rfl

theorem tidy_withPrintTokens (s : Session) (b : Bool) :
    (s.withPrintTokens b).tidy = s.tidy.withPrintTokens b := by
  unfold tidy
  by_cases collects : s.settings.collectAfterRun
  · rw [if_pos collects, if_pos (show (s.withPrintTokens b).settings.collectAfterRun from collects)]
    rfl
  · rw [if_neg collects, if_neg (show ¬(s.withPrintTokens b).settings.collectAfterRun from collects)]

theorem runTree_withPrintTokens (s : Session) (b : Bool) (patience : Nat) (p : Program) :
    (s.withPrintTokens b).runTree patience p =
      (s.runTree patience p).map fun o => (o.1, o.2.withPrintTokens b) := by
  have evaluator : (s.withPrintTokens b).interpreter = s.interpreter := rfl
  unfold runTree
  rw [evaluator]
  cases s.interpreter.run patience p with
  | none => rfl
  | some outcome =>
    obtain ⟨result, interpreter⟩ := outcome
    have tidied := tidy_withPrintTokens { s with interpreter } b
    cases result with
    | ok value => exact congrArg (fun s => some (_, s)) tidied
    | error e => exact congrArg (fun s => some (_, s)) tidied

theorem runChunk_withPrintTokens (s : Session) (b : Bool) (patience : Nat) (chunk : Chunk) :
    (s.withPrintTokens b).runChunk patience chunk =
      (s.runChunk patience chunk).map fun o => (o.1, o.2.withPrintTokens b) := by
  have machine : (s.withPrintTokens b).vm = s.vm := rfl
  unfold runChunk
  rw [machine]
  cases s.vm.run patience chunk with
  | none => rfl
  | some outcome =>
    obtain ⟨result, vm⟩ := outcome
    cases result <;> rfl

/-- What can be seen of a run apart from what it has printed. -/
def silent (outcome : Option (Execution × Session)) : Option (Except Failure Shown × Session) :=
  outcome.map fun o => (o.1.result, o.2)

/-- A program runs the same, whatever has been printed before. -/
theorem runProgram_withPrintTokens (s : Session) (b : Bool) (patience : Nat) (printed printed' : String)
    (p : Program) : silent ((s.withPrintTokens b).runProgram patience printed p) =
      (silent (s.runProgram patience printed' p)).map fun o => (o.1, o.2.withPrintTokens b) := by
  have backend : (s.withPrintTokens b).settings.backend = s.settings.backend := rfl
  unfold runProgram
  rw [backend]
  cases s.settings.backend with
  | tree =>
    simp only [runTree_withPrintTokens]
    cases s.runTree patience p with
    | none => rfl
    | some outcome => rfl
  | bytecode =>
    cases p.generate with
    | error e => rfl
    | ok chunk =>
      simp only [runChunk_withPrintTokens]
      cases s.runChunk patience chunk with
      | none => rfl
      | some outcome => rfl

theorem execute_of_error (s : Session) (patience : Nat) {source : String} {e : ParseError}
    (failed : parseProgram source = .error e) :
    ∃ x failure, s.execute patience source = some (x, s) ∧ x.result = .error failure := by
  unfold execute
  cases s.tokenListing source with
  | error e => exact ⟨_, _, rfl, rfl⟩
  | ok tokens =>
    rw [failed]
    exact ⟨_, _, rfl, rfl⟩

theorem execute_of_ok (s : Session) (patience : Nat) {source : String} {p : Program} {tokens : List Token}
    (parsed : parseProgram source = .ok p) (tokenized : tokenize source = .ok tokens) :
    ∃ printed, s.execute patience source = s.runProgram patience printed p := by
  have listed : ∃ listing, s.tokenListing source = .ok listing := by
    unfold tokenListing
    rw [tokenized]
    split <;> exact ⟨_, rfl⟩
  obtain ⟨listing, listed⟩ := listed
  unfold execute
  rw [listed, parsed]
  exact ⟨_, rfl⟩

/-- Listing the tokens makes no difference but for what is printed and for the error of a text that has
no program. -/
theorem execute_withPrintTokens (s : Session) (patience : Nat) {source : String}
    (readable : ∀ p, parseProgram source = .ok p → ∃ tokens, tokenize source = .ok tokens) :
    ((s.withPrintTokens true).execute patience source).map (·.2) =
        ((s.withPrintTokens false).execute patience source).map (·.2.withPrintTokens true) ∧
      ∀ x s' shown, (s.withPrintTokens false).execute patience source = some (x, s') →
        x.result = .ok shown → ∃ y, (s.withPrintTokens true).execute patience source =
          some (y, s'.withPrintTokens true) ∧ y.result = .ok shown := by
  cases parsed : parseProgram source with
  | error e =>
    obtain ⟨_, _, listed, _⟩ := (s.withPrintTokens true).execute_of_error patience parsed
    obtain ⟨_, _, plain, failed⟩ := (s.withPrintTokens false).execute_of_error patience parsed
    rw [listed, plain]
    refine ⟨rfl, ?_⟩
    intro x s' shown executed success
    cases executed
    rw [failed] at success
    cases success
  | ok p =>
    obtain ⟨tokens, tokenized⟩ := readable p parsed
    obtain ⟨printed, listed⟩ := (s.withPrintTokens true).execute_of_ok patience parsed tokenized
    obtain ⟨printed', plain⟩ := (s.withPrintTokens false).execute_of_ok patience parsed tokenized
    rw [listed, plain]
    have same := (s.withPrintTokens false).runProgram_withPrintTokens true patience printed printed' p
    rw [withPrintTokens_withPrintTokens] at same
    generalize (s.withPrintTokens true).runProgram patience printed p = listed at same
    generalize (s.withPrintTokens false).runProgram patience printed' p = plain at same
    cases plain with
    | none =>
      have never : listed = none := Option.map_eq_none_iff.1 same
      refine ⟨by rw [never]; rfl, ?_⟩
      intro x s' shown executed
      cases executed
    | some outcome =>
      obtain ⟨y, rfl, result⟩ := Option.map_eq_some_iff.1 same
      obtain ⟨sameResult, sameSession⟩ := Prod.mk.inj result
      refine ⟨congrArg some sameSession, ?_⟩
      intro x s' shown executed success
      cases executed
      exact ⟨y.1, congrArg (fun s => some (y.1, s)) sameSession, sameResult.trans success⟩

end Session

/-- A text with a program has tokens.  If the lexer fails, then with the error that the parser reports.  A
token that is rejected is one of those that a fresh lexer takes one by one, it is reported with its start,
and the parser has asked for nothing behind it: were the lexer to fail there, the error would be the same.
So whether the tokens are listed makes no difference to what a session does with a text that has a
program, and none to its state with any text. -/
theorem parser_reads_tokens (source : String) :
    (∀ p, parseProgram source = .ok p → ∃ tokens, tokenize source = .ok tokens) ∧
    (∀ e, parseProgram source = .error (.lex e) → tokenize source = .error e) ∧
    (∀ wanted found position, parseProgram source = .error (.unexpectedToken wanted found position) →
      ∃ before rejected last, (Lexer.ofSource source).Takes (before ++ [rejected]) last ∧
        rejected.token = found ∧ rejected.start = position ∧ rejected.stop = last.offset ∧
        ∀ e, ((Stream.ofSource source).cut (before.length + 1) e).parse =
          .error (.unexpectedToken wanted found position)) ∧
    ∀ (s : Session) (patience : Nat),
      ((s.withPrintTokens true).execute patience source).map (·.2) =
        ((s.withPrintTokens false).execute patience source).map (·.2.withPrintTokens true) ∧
      ∀ x s' shown, (s.withPrintTokens false).execute patience source = some (x, s') →
        x.result = .ok shown → ∃ y, (s.withPrintTokens true).execute patience source =
          some (y, s'.withPrintTokens true) ∧ y.result = .ok shown := by
  have delivers := Lexer.delivers_ofSource source
  have readable (p : Program) (parsed : parseProgram source = .ok p) :
      ∃ tokens, tokenize source = .ok tokens := by
    obtain ⟨n, stop, here⟩ := Stream.parse_eq_ok parsed
    exact tokenize_of_error?_eq_none (delivers.error?_eq_none here)
  refine ⟨readable, ?_, ?_, fun s patience => s.execute_withPrintTokens patience readable⟩
  · intro e failed
    exact tokenize_of_error?_eq_some (Stream.parse_eq_lex failed)
  · intro wanted found position failed
    obtain ⟨k, here, same⟩ := Stream.parse_eq_unexpectedToken failed
    obtain ⟨before, rejected, last, takes, rfl, sameToken, sameStart, stop⟩ := delivers.takes rfl here
    refine ⟨before, rejected, last, takes, sameToken, sameStart, stop, ?_⟩
    intro e
    exact same _ (Stream.agree_cut here e)

/-- Programs cannot be compared by evaluation, but it can tell what a text is rejected for. -/
theorem parseProgram_eq_error {source : String} {error : ParseError}
    (rejected : (parseProgram source).map (fun _ => ()) = .error error) :
    parseProgram source = .error error := by
  cases result : parseProgram source with
  | ok p =>
    rw [result] at rejected
    cases rejected
  | error e =>
    rw [result] at rejected
    cases rejected
    rfl

set_option maxRecDepth 4000 in
/-- The string that is not closed is not looked at: the token in front of it is rejected. -/
theorem parser_reads_tokens_of_open_string :
    tokenize "let = 'x" = .error (.unterminatedString ⟨1, 7, 6⟩) ∧
    parseProgram "let = 'x" = .error (.unexpectedToken .identifier (.punctuator .assign) ⟨1, 5, 4⟩) ∧
    ∃ before rejected last, (Lexer.ofSource "let = 'x").Takes (before ++ [rejected]) last ∧
      rejected.token = .punctuator .assign ∧ rejected.start = ⟨1, 5, 4⟩ ∧ rejected.stop = last.offset ∧
      ∀ e, ((Stream.ofSource "let = 'x").cut (before.length + 1) e).parse =
        .error (.unexpectedToken .identifier (.punctuator .assign) ⟨1, 5, 4⟩) := by
  have parsed : parseProgram "let = 'x" =
      .error (.unexpectedToken .identifier (.punctuator .assign) ⟨1, 5, 4⟩) :=
    parseProgram_eq_error (by decide +kernel)
  refine ⟨by decide +kernel, parsed, ?_⟩
  obtain ⟨_, _, rejects, _⟩ := parser_reads_tokens "let = 'x"
  exact rejects _ _ _ parsed

end TinyScript
