import TinyScript.Lexer

/-! # What a scan comes to

The first character behind the gap decides how a token is read, and `Lexer.Branch` lists everything that can
come of it, tokens and errors.  What holds of all scans of a token is a case analysis of that list
(`Lexer.scanToken_branch`), and a scan that succeeds has passed a gap in front of the token or of the end of
the text (`Lexer.scan_eq_ok`).
-/

namespace TinyScript.Lexer

variable {l l' : Lexer} {c : Char} {rest : List Char} {t : Token}

/-- A segment of a template begins at a back-tick, or at a brace that closes the innermost interpolation;
these interpolations are open in it. -/
def Resumes (l : Lexer) (c : Char) (interpolations : List Nat) : Prop :=
  c = backTick ∧ interpolations = l.interpolations ∨ c = '}' ∧ l.interpolations = 0 :: interpolations

/-- What can come of reading a token that begins with a character. -/
inductive Branch (l : Lexer) (c : Char) (rest : List Char) : Except LexError Token × Lexer → Prop where
  | number (digit : Number.isDigit c = true) :
      Branch l c rest (l.scanRun Number.isDigit fun ds => .number (Number.ofDigits ds))
  | word (starts : isNameStart c = true) :
      Branch l c rest (l.scanRun isNamePart fun cs => Lexer.word (String.ofList cs))
  | string {text : String} {cursor : Cursor} (isQuote : c = doubleQuote ∨ c = singleQuote)
      (closed : scanString c rest (l.cursor.position.next c) [] = (some text, cursor)) :
      Branch l c rest (.ok (.string text), { l with cursor })
  | openString {cursor : Cursor} (isQuote : c = doubleQuote ∨ c = singleQuote)
      (stopped : scanString c rest (l.cursor.position.next c) [] = (none, cursor)) :
      Branch l c rest (.error (.unterminatedString l.start), { l with cursor })
  | templateEnd {interpolations : List Nat} {text : String} {cursor : Cursor}
      (resumes : l.Resumes c interpolations)
      (closed : scanSegment rest (l.cursor.position.next c) [] = (.closed text, cursor)) :
      Branch l c rest (.ok (.templateEnd text), { l with cursor, interpolations, segment := l.start })
  | templateStart {interpolations : List Nat} {text : String} {cursor : Cursor}
      (resumes : l.Resumes c interpolations)
      (opened : scanSegment rest (l.cursor.position.next c) [] = (.opened text, cursor)) :
      Branch l c rest (.ok (.templateStart text),
        { l with cursor, interpolations := 0 :: interpolations, segment := l.start })
  | openTemplate {interpolations : List Nat} {cursor : Cursor} (resumes : l.Resumes c interpolations)
      (stopped : scanSegment rest (l.cursor.position.next c) [] = (.unterminated, cursor)) :
      Branch l c rest (.error (.unterminatedTemplate l.start),
        { l with cursor, interpolations, segment := l.start })
  /-- A brace is counted for the innermost interpolation, and opens or closes none. -/
  | brace {mark : Punctuator} {interpolations : List Nat} (spelled : mark.spelling.toList = [c])
      (same : interpolations.length = l.interpolations.length) :
      Branch l c rest (.ok (.punctuator mark),
        { l with cursor := ⟨rest, l.cursor.position.next c⟩, interpolations })
  | pair {d : Char} {more : List Char} {mark : Punctuator} (follows : rest = d :: more)
      (joined : Punctuator.ofPair? c d = some mark) :
      Branch l c rest (.ok (.punctuator mark),
        { l with cursor := ⟨more, (l.cursor.position.next c).next d⟩ })
  | single {mark : Punctuator} (found : Punctuator.ofChar? c = some mark) :
      Branch l c rest (.ok (.punctuator mark), { l with cursor := ⟨rest, l.cursor.position.next c⟩ })
  | unexpected : Branch l c rest
      (.error (.unexpectedCharacter c l.start), { l with cursor := ⟨rest, l.cursor.position.next c⟩ })

theorem scanTemplate_branch {interpolations : List Nat} (resumes : l.Resumes c interpolations) :
    l.Branch c rest
      ({ l with interpolations }.scanTemplate ⟨rest, l.cursor.position.next c⟩) := by
  simp only [scanTemplate]
  split
  · next closed => exact .templateEnd resumes closed
  · next opened => exact .templateStart resumes opened
  · next stopped => exact .openTemplate resumes stopped

theorem scanPunctuator_branch : l.Branch c rest (l.scanPunctuator c ⟨rest, l.cursor.position.next c⟩) := by
  unfold scanPunctuator
  split
  · next mark pair =>
    obtain ⟨d, first, joined⟩ := Option.bind_eq_some_iff.1 pair
    obtain ⟨more, rfl⟩ := List.head?_eq_some_iff.1 first
    exact .pair rfl joined
  · split
    · next mark found => exact .single found
    · exact .unexpected

/-- The first character decides: a digit, a letter, a quote, a back-tick, one of the braces, or a sign. -/
theorem scanToken_branch (here : l.cursor.rest = c :: rest) : l.Branch c rest l.scanToken := by
  rw [scanToken, here]
  simp only
  split
  · next digit => exact .number digit
  split
  · next starts => exact .word starts
  split
  · next isQuote =>
    split
    · next closed => exact .string isQuote closed
    · next stopped => exact .openString isQuote stopped
  split
  · next tick => exact scanTemplate_branch (.inl ⟨tick, rfl⟩)
  split
  · next left =>
    subst left
    refine .brace rfl ?_
    cases l.interpolations <;> rfl
  split
  · next right =>
    subst right
    split
    · exact .brace rfl rfl
    · next outer inside => exact scanTemplate_branch (.inr ⟨rfl, inside⟩)
    · next open_ outer inside => exact .brace rfl (by rw [inside]; rfl)
  · exact scanPunctuator_branch

theorem word_ne_eof (name : String) : word name ≠ .eof := by
  unfold word
  split <;> simp

/-- What is read at a character is not the end of the text. -/
theorem scanToken_ne_eof (here : l.cursor.rest = c :: rest) (scanned : l.scanToken = (.ok t, l')) :
    t ≠ .eof := by
  have branch := scanToken_branch here
  rw [scanned] at branch
  generalize answer : (Except.ok t, l') = r at branch
  cases branch with
  | word =>
    cases answer
    exact word_ne_eof _
  | _ => cases answer <;> simp

/-- A scan that succeeds has passed a gap, up to the end of the text or to a token. -/
theorem scan_eq_ok (scanned : l.scan = (.ok t, l')) :
    (t = .eof ∧ l.interpolations = [] ∧ ∃ p, l' = { l with cursor := ⟨[], p⟩, start := p } ∧
      skipGap .blank l.cursor.rest l.cursor.position = (none, ⟨[], p⟩)) ∨
    t ≠ .eof ∧ ∃ c rest p, skipGap .blank l.cursor.rest l.cursor.position = (none, ⟨c :: rest, p⟩) ∧
      scanToken { l with cursor := ⟨c :: rest, p⟩, start := p } = (.ok t, l') := by
  unfold scan at scanned
  split at scanned
  · cases scanned
  · next after passed =>
    obtain ⟨text, p⟩ := after
    cases text with
    | nil =>
      simp only [scanToken] at scanned
      split at scanned
      · next closed =>
        cases scanned
        exact .inl ⟨rfl, List.isEmpty_iff.1 closed, p, rfl, passed⟩
      · cases scanned
    | cons c rest => exact .inr ⟨scanToken_ne_eof rfl scanned, c, rest, p, passed, scanned⟩

end TinyScript.Lexer
