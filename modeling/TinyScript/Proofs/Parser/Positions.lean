import Mathlib.Algebra.Ring.Nat
import Mathlib.Data.List.Induction
import TinyScript.Proofs.Parser.Progress

/-! # Reported positions are exact

A position is `Exact` if it lies in the text and its line and column are the ones that its offset has there.
The position behind a first part of the text is exact (`Cursor.Moves.exact`), a lexer remembers and reports no
other positions, in whatever order it is asked for tokens (`Lexer.Placed`), and a parser reports only what
its stream has told it (`Parser.Progressive.places`).
-/

namespace TinyScript

/-! ## Positions -/

/-- Line and column are counted from the offset: the line breaks before it, and the characters behind the
last one of them. -/
structure Position.Exact (source : String) (p : Position) : Prop where
  offset : p.offset ≤ source.length
  line : p.line = 1 + (source.toList.take p.offset).count '\n'
  column : p.column = 1 + ((source.toList.take p.offset).reverse.takeWhile (· ≠ '\n')).length

namespace Position

theorem line_advance_start (cs : List Char) : (start.advance cs).line = 1 + cs.count '\n' := by
  induction cs using List.reverseRecOn with
  | nil => rfl
  | append_singleton cs c ih =>
    rw [advance_append, List.count_append, advance_cons, advance_nil, next]
    split
    · next lineBreak => simp [ih, lineBreak, Nat.add_assoc]
    · next other => simp [ih, other]

theorem column_advance_start (cs : List Char) :
    (start.advance cs).column = 1 + (cs.reverse.takeWhile (· ≠ '\n')).length := by
  induction cs using List.reverseRecOn with
  | nil => rfl
  | append_singleton cs c ih =>
    rw [advance_append, List.reverse_append, advance_cons, advance_nil, next]
    split
    · next lineBreak => simp [lineBreak]
    · next other => simp [ih, other, Nat.add_assoc]

variable {source : String} {p : Position}

/-- Neither of the two counts more than the characters of the text. -/
theorem Exact.bounded (exact : p.Exact source) :
    p.line ≤ source.length + 1 ∧ p.column ≤ source.length + 1 := by
  have before : (source.toList.take p.offset).length ≤ source.length := by
    rw [← String.length_toList]
    exact List.length_take_le' _ _
  have breaks := List.count_le_length (a := '\n') (l := source.toList.take p.offset)
  have behind := (List.takeWhile_sublist (l := (source.toList.take p.offset).reverse) (· ≠ '\n')).length_le
  rw [List.length_reverse] at behind
  rw [exact.line, exact.column]
  omega

end Position

/-- A cursor that has come from the start of the text is at an exact position. -/
theorem Cursor.Moves.exact {source : String} {c : Cursor} (moves : Moves ⟨source.toList, .start⟩ c) :
    c.position.Exact source := by
  obtain ⟨own, split, moved⟩ := moves
  have split : source.toList = own ++ c.rest := split
  have offset : c.position.offset = own.length := by
    rw [moved, Position.advance_offset]
    exact Nat.zero_add _
  have before : source.toList.take c.position.offset = own := by rw [offset, split, List.take_left]
  refine ⟨?_, ?_, ?_⟩
  · rw [offset, ← String.length_toList, split, List.length_append]
    exact Nat.le_add_right _ _
  · rw [before, moved]
    exact Position.line_advance_start own
  · rw [before, moved]
    exact Position.column_advance_start own

/-! ## Lexers -/

namespace Lexer

/-- A comment that is not closed is reported by its start, at which the cursor has been. -/
theorem moves_start_of_skipGap {g : Gap} {cs : List Char} {p start : Position} {after : Cursor}
    (skipped : skipGap g cs p = (some start, after)) :
    g = .block start ∨ ∃ c : Cursor, Cursor.Moves ⟨cs, p⟩ c ∧ c.position = start := by
  fun_induction skipGap g cs p with
  | case1 | case5 | case6 => cases skipped
  | case2 _ _ ih | case10 _ _ _ ih =>
    obtain ⟨c, moves, here⟩ := (ih skipped).resolve_left (by simp)
    exact .inr ⟨c, .cons (.cons moves), here⟩
  | case3 rest p ih =>
    rcases ih skipped with opened | ⟨c, moves, here⟩
    · cases opened
      exact .inr ⟨⟨_, _⟩, .refl _, rfl⟩
    · exact .inr ⟨c, .cons (.cons moves), here⟩
  | case4 _ _ _ _ _ _ ih | case7 _ _ ih | case8 _ _ _ _ ih =>
    obtain ⟨c, moves, here⟩ := (ih skipped).resolve_left (by simp)
    exact .inr ⟨c, .cons moves, here⟩
  | case9 start p =>
    cases skipped
    exact .inl rfl
  | case11 _ _ _ _ _ ih =>
    rcases ih skipped with same | ⟨c, moves, here⟩
    · exact .inl same
    · exact .inr ⟨c, .cons moves, here⟩

/-- What is remembered and reported of a token that begins right here: its start, or that of the segment
before. -/
structure Cites (l : Lexer) (result : Except LexError Token × Lexer) : Prop where
  start : result.2.start = l.start
  segment : result.2.segment = l.start ∨ result.2.segment = l.segment
  error : ∀ e, result.1 = .error e → e.position = l.start ∨ e.position = l.segment

namespace Cites

variable {l : Lexer}

theorem reads (t : Token) (cursor : Cursor) (interpolations : List Nat) :
    l.Cites (.ok t, { l with cursor, interpolations }) :=
  ⟨rfl, .inr rfl, fun _ failed => by cases failed⟩

theorem fails {e : LexError} (here : e.position = l.start ∨ e.position = l.segment) (cursor : Cursor) :
    l.Cites (.error e, { l with cursor }) := by
  refine ⟨rfl, .inr rfl, fun e' same => ?_⟩
  cases same
  exact here

theorem scanToken (l : Lexer) : l.Cites l.scanToken := by
  cases here : l.cursor.rest with
  | nil =>
    rw [Lexer.scanToken, here]
    simp only
    split
    · exact .reads _ _ _
    · exact .fails (.inr rfl) _
  | cons c rest =>
    have branch := scanToken_branch here
    generalize l.scanToken = answer at branch
    cases branch with
    | templateEnd | templateStart => exact ⟨rfl, .inl rfl, fun _ failed => by cases failed⟩
    | openTemplate =>
      refine ⟨rfl, .inl rfl, fun e same => ?_⟩
      cases same
      exact .inl rfl
    | openString | unexpected => exact .fails (.inl rfl) _
    | _ => exact .reads _ _ _

end Cites

/-- Every position that the lexer remembers is exact. -/
structure Placed (source : String) (l : Lexer) : Prop where
  stands : l.Stands source
  start : l.start.Exact source
  segment : l.segment.Exact source

namespace Placed

variable {source : String} {l : Lexer}

theorem ofSource (source : String) : (Lexer.ofSource source).Placed source where
  stands := .ofSource source
  start := (Cursor.Moves.refl _).exact
  segment := (Cursor.Moves.refl _).exact

theorem scan (placed : l.Placed source) :
    l.scan.2.Placed source ∧ ∀ e, l.scan.1 = .error e → e.position.Exact source := by
  have stands := placed.stands.scan
  have moves := moves_skipGap .blank l.cursor.rest l.cursor.position
  unfold Lexer.scan at stands ⊢
  split
  · next start after skipped =>
    rw [skipped] at stands
    refine ⟨⟨stands, placed.start, placed.segment⟩, fun e same => ?_⟩
    cases same
    obtain ⟨c, further, here⟩ := (moves_start_of_skipGap skipped).resolve_left (by simp)
    exact here ▸ (placed.stands.trans further).exact
  · next after skipped =>
    rw [skipped] at stands moves
    have here : after.position.Exact source := (placed.stands.trans moves).exact
    have cites := Cites.scanToken { l with cursor := after, start := after.position }
    have placedThere {p : Position} (cited : p = after.position ∨ p = l.segment) : p.Exact source := by
      rcases cited with rfl | rfl
      · exact here
      · exact placed.segment
    refine ⟨⟨stands, ?_, placedThere cites.segment⟩, fun e failed => placedThere (cites.error e failed)⟩
    rw [cites.start]
    exact here

theorem call (placed : l.Placed source) (c : Call) :
    (l.call c).2.Placed source ∧ ∀ e, (l.call c).1 = .error e → e.position.Exact source := by
  obtain ⟨token, ahead, _, called⟩ | ⟨_, ahead, called⟩ := l.call_cases c
  · rw [called]
    exact ⟨⟨placed.stands, placed.start, placed.segment⟩, fun _ failed => by cases failed⟩
  · rw [called]
    obtain ⟨there, errors⟩ := placed.scan
    exact ⟨⟨there.stands, there.start, there.segment⟩, errors⟩

/-- Whatever it has been asked for, errors or not. -/
theorem after (placed : l.Placed source) (calls : List Call) : (l.after calls).Placed source := by
  induction calls generalizing l with
  | nil => exact placed
  | cons c calls ih => exact ih (placed.call c).1

end Placed

end Lexer

/-! ## Streams and parsers -/

/-- Every position that a stream tells, with its tokens, its end or its error, has a property. -/
def Stream.Places (P : Position → Prop) : Stream → Prop
  | .lexeme first rest => P first.start ∧ rest.Places P
  | .done stop => P stop
  | .failed e => P e.position

theorem Lexer.Delivers.places {source : String} {l : Lexer} {s : Stream} (delivers : l.Delivers s)
    (placed : l.Placed source) : s.Places (·.Exact source) := by
  induction delivers with
  | lexeme scanned _ _ ih =>
    have there := placed.scan.1
    rw [scanned] at there
    exact ⟨there.start, ih there⟩
  | done scanned =>
    have there := placed.scan.1
    rw [scanned] at there
    exact there.start
  | failed scanned => exact placed.scan.2 _ (by rw [scanned])

/-- Every position that a parser can learn from its source has a property. -/
structure Source.Places (P : Position → Prop) (s : Source) : Prop where
  rest : s.rest.Places P
  scanned : P s.scanned

namespace Parser

variable {α β : Type} {P : Position → Prop} {s : Source}

/-- The positions of what is left, or that of the error. -/
def OutcomePlaces (P : Position → Prop) : Result α → Prop
  | .ok (_, s) => s.Places P
  | .error failure => P failure.error.position

theorem places_bind {p : Parser α} {f : α → Parser β} (first : OutcomePlaces P (p s))
    (rest : ∀ a s', s'.Places P → OutcomePlaces P (f a s')) : OutcomePlaces P ((p >>= f) s) := by
  cases result : p s with
  | error e =>
    rw [result] at first
    rw [Heeds.bind_of_error result]
    exact first
  | ok pair =>
    rw [result] at first
    rw [Heeds.bind_of_ok result]
    exact rest pair.1 pair.2 first

theorem places_iterateUpTo {step : α → Parser (Option α)}
    (each : ∀ a s, s.Places P → OutcomePlaces P (step a s)) (n : Nat) (a : α) (places : s.Places P) :
    OutcomePlaces P (iterateUpTo step n a s) := by
  induction n generalizing a s with
  | zero => exact places
  | succ n ih =>
    refine places_bind (each a s places) fun found s' there => ?_
    cases found with
    | none => exact there
    | some next => exact ih next there

theorem places_nested {p : Parser α} (deeper : OutcomePlaces P (p (s.atDepth (s.depth + 1))))
    (places : s.Places P) : OutcomePlaces P (nested p s) := by
  rcases Nat.lt_or_ge s.depth nestingLimit with room | full
  · rw [nested_of_lt room]
    cases result : p (s.atDepth (s.depth + 1)) with
    | ok pair =>
      rw [result] at deeper
      exact ⟨deeper.rest, deeper.scanned⟩
    | error failure =>
      rw [result] at deeper
      exact deeper
  · rw [nested_of_limit full]
    exact places.scanned

/-- A parser reports no position but those of its source. -/
theorem Progressive.places {p : Parser α} (progressive : Progressive p) (places : s.Places P) :
    OutcomePlaces P (p s) := by
  induction progressive generalizing s with
  | pure a => exact places
  | bind _ _ first rest => exact places_bind (first places) fun a _ there => rest a there
  | peek =>
    obtain ⟨stream, scanned, bound, depth⟩ := s
    cases stream with
    | lexeme first rest => exact ⟨places.rest, places.rest.1⟩
    | done stop => exact ⟨places.rest, places.rest⟩
    | failed e => exact places.rest
  | next =>
    obtain ⟨stream, scanned, bound, depth⟩ := s
    cases stream with
    | lexeme first rest => exact ⟨places.rest.2, places.rest.1⟩
    | done stop => exact ⟨places.rest, places.rest⟩
    | failed e => exact places.rest
  | unexpected => exact places.scanned
  | tooDeep => exact places.scanned
  | nested _ deeper => exact places_nested (deeper ⟨places.rest, places.scanned⟩) places
  | iterate _ _ a each => exact places_iterateUpTo (fun b _ => each b) s.bound a places

end Parser

/-- The position of whatever keeps a text from being a program. -/
theorem position_exact_of_parseProgram {source : String} {e : ParseError}
    (failed : parseProgram source = .error e) : e.position.Exact source := by
  have stream := (Lexer.delivers_ofSource source).places (.ofSource source)
  have outcome := Parser.Progressive.readProgram.places (s := (Stream.ofSource source).source)
    ⟨stream, (Cursor.Moves.refl _).exact⟩
  obtain ⟨depth, stopped⟩ := Parser.parse_eq_error failed
  rw [stopped] at outcome
  exact outcome

/-! ## The front end -/

/-- After any calls of the lexer, and whichever of them have failed, its counters and the start of the token
that has been scanned last are exact, and so is the position of every error that a further call reports.
The position of an error of the parser is exact as well.  In a text of fewer than 2³² - 1 characters the line
and the column of an exact position are 32-bit words, as they are behind every first part of the text, so that
no counter overflows on the way. -/
theorem positions_exact {source : String} (short : source.length < 2 ^ 32 - 1) :
    (∀ calls, let l := (Lexer.ofSource source).after calls
      l.start.Exact source ∧ l.cursor.position.Exact source ∧
        ∀ c e, (l.call c).1 = .error e → e.position.Exact source) ∧
    (∀ e, parseProgram source = .error e → e.position.Exact source) ∧
    (∀ before rest, source.toList = before ++ rest → (Position.start.advance before).Exact source) ∧
    ∀ p : Position, p.Exact source → p.line < 2 ^ 32 ∧ p.column < 2 ^ 32 := by
  refine ⟨fun calls => ?_, fun e => position_exact_of_parseProgram, fun before rest split => ?_, ?_⟩
  · have placed := (Lexer.Placed.ofSource source).after calls
    exact ⟨placed.start, placed.stands.exact, fun c => (placed.call c).2⟩
  · exact Cursor.Moves.exact (c := ⟨rest, _⟩) ⟨before, split, rfl⟩
  · intro p exact
    obtain ⟨line, column⟩ := exact.bounded
    omega

/-- A comment over two lines, and a string over two lines in an interpolation that is looked at before the
end is missed. -/
def brokenSource : String := "/*\n*/ \x60a$\x7b'b\nc' "

set_option maxRecDepth 4000 in
theorem positions_exact_of_brokenSource :
    brokenSource.length < 2 ^ 32 - 1 ∧
    ((Lexer.ofSource brokenSource).after [.peek, .next, .next, .peek]).start = ⟨3, 4, 16⟩ ∧
    (⟨3, 4, 16⟩ : Position).Exact brokenSource ∧
    parseProgram brokenSource = .error (.lex (.unterminatedTemplate ⟨2, 4, 6⟩)) ∧
    (⟨2, 4, 6⟩ : Position).Exact brokenSource := by
  have short : brokenSource.length < 2 ^ 32 - 1 := by decide
  obtain ⟨lexed, parsed, _, _⟩ := positions_exact short
  have start : ((Lexer.ofSource brokenSource).after [.peek, .next, .next, .peek]).start = ⟨3, 4, 16⟩ := by decide +kernel
  have failed : parseProgram brokenSource = .error (.lex (.unterminatedTemplate ⟨2, 4, 6⟩)) :=
    parseProgram_eq_error (by decide +kernel)
  exact ⟨short, start, start ▸ (lexed [.peek, .next, .next, .peek]).1, failed, parsed _ failed⟩

end TinyScript
