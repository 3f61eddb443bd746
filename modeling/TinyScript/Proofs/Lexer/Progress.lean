import TinyScript.Proofs.Lexer.Scan

/-! # A lexer gets on

Whatever a lexer finds, a token or an error, it only ever moves forward in its text: it stands behind a
first part of the text, at the position behind that part (`Lexer.Stands`), and a scan that begins before the
end takes at least one character (`Lexer.scan_lt`).  At the end it stays, and each scan says the same
(`Lexer.scan_after_end`).
-/

namespace TinyScript

/-! ## Cursors -/

/-- The second cursor stands behind some more characters of the text. -/
def Cursor.Moves (c c' : Cursor) : Prop :=
  ∃ own, c.rest = own ++ c'.rest ∧ c'.position = c.position.advance own

namespace Cursor.Moves

theorem refl (c : Cursor) : c.Moves c := ⟨[], rfl, rfl⟩

theorem trans {c d e : Cursor} (first : c.Moves d) (second : d.Moves e) : c.Moves e := by
  obtain ⟨own, split, moved⟩ := first
  obtain ⟨more, split', moved'⟩ := second
  refine ⟨own ++ more, ?_, ?_⟩
  · rw [split, split', List.append_assoc]
  · rw [moved', moved, Position.advance_append]

/-- One character is passed. -/
theorem next (c : Char) (rest : List Char) (p : Position) : Moves ⟨c :: rest, p⟩ ⟨rest, p.next c⟩ :=
  ⟨[c], rfl, rfl⟩

/-- One character is passed, and then some more. -/
theorem cons {c : Char} {rest : List Char} {p : Position} {after : Cursor}
    (moves : Moves ⟨rest, p.next c⟩ after) : Moves ⟨c :: rest, p⟩ after :=
  (next c rest p).trans moves

theorem length_le {c d : Cursor} (moves : c.Moves d) : d.rest.length ≤ c.rest.length := by
  obtain ⟨own, split, _⟩ := moves
  rw [split, List.length_append]
  omega

end Cursor.Moves

theorem Cursor.moves_skip (n : Nat) (c : Cursor) : c.Moves (c.skip n) := by
  fun_induction Cursor.skip n c with
  | case1 c => exact .refl c
  | case2 n p => exact .refl _
  | case3 n c rest p ih => exact .cons ih

namespace Lexer

theorem moves_skipGap (g : Gap) (cs : List Char) (p : Position) :
    Cursor.Moves ⟨cs, p⟩ (skipGap g cs p).2 := by
  fun_induction skipGap g cs p with
  | case1 p => exact .refl _
  | case2 rest p ih => exact .cons (.cons ih)
  | case3 rest p ih => exact .cons (.cons ih)
  | case4 c rest p _ _ _ ih => exact .cons ih
  | case5 c rest p => exact .refl _
  | case6 p => exact .refl _
  | case7 rest p ih => exact .cons ih
  | case8 c rest p _ ih => exact .cons ih
  | case9 start p => exact .refl _
  | case10 start rest p ih => exact .cons (.cons ih)
  | case11 start c rest p _ ih => exact .cons ih

/-- A comment without an end has taken all of the text. -/
theorem rest_of_skipGap_eq_some {g : Gap} {cs : List Char} {p start : Position} {after : Cursor}
    (skipped : skipGap g cs p = (some start, after)) : after.rest = [] := by
  fun_induction skipGap g cs p with
  | case1 | case5 | case6 => cases skipped
  | case9 start p =>
    cases skipped
    rfl
  | case2 _ _ ih | case3 _ _ ih | case4 _ _ _ _ _ _ ih | case7 _ _ ih | case8 _ _ _ _ ih
  | case10 _ _ _ ih | case11 _ _ _ _ _ ih => exact ih skipped

theorem moves_scanString (quote : Char) (cs : List Char) (p : Position) (read : List Char) :
    Cursor.Moves ⟨cs, p⟩ (scanString quote cs p read).2 := by
  fun_induction scanString quote cs p read with
  | case1 p read => exact .refl _
  | case2 rest p read => exact .next _ _ _
  | case3 p read => exact .next _ _ _
  | case4 p read e rest _ ih => exact .cons (.cons ih)
  | case5 c rest p read _ _ ih => exact .cons ih

theorem moves_scanSegment (cs : List Char) (p : Position) (read : List Char) :
    Cursor.Moves ⟨cs, p⟩ (scanSegment cs p read).2 := by
  fun_induction scanSegment cs p read with
  | case1 p read => exact .refl _
  | case2 rest p read => exact .cons (.next _ _ _)
  | case3 rest p read => exact .next _ _ _
  | case4 p read => exact .next _ _ _
  | case5 p read e rest _ _ ih => exact .cons (.cons ih)
  | case6 c rest p read _ _ _ ih => exact .cons ih

/-! ## Tokens -/

variable {l : Lexer} {c : Char} {rest : List Char}

theorem moves_scanRun {belongs : Char → Bool} (token : List Char → Token) (here : l.cursor.rest = c :: rest)
    (first : belongs c = true) :
    Cursor.Moves ⟨rest, l.cursor.position.next c⟩ (l.scanRun belongs token).2.cursor := by
  have stop : (l.scanRun belongs token).2.cursor =
      Cursor.skip (rest.takeWhile belongs).length ⟨rest, l.cursor.position.next c⟩ := by
    obtain ⟨⟨cs, p⟩, start, interpolations, segment, ahead⟩ := l
    cases here
    simp only [scanRun, List.takeWhile_cons_of_pos first, List.length_cons, Cursor.skip]
  rw [stop]
  exact Cursor.moves_skip ..

/-- A token, or an error, takes the character at which it begins. -/
theorem moves_scanToken (here : l.cursor.rest = c :: rest) :
    Cursor.Moves ⟨rest, l.cursor.position.next c⟩ l.scanToken.2.cursor := by
  have inString := moves_scanString c rest (l.cursor.position.next c) []
  have inTemplate := moves_scanSegment rest (l.cursor.position.next c) []
  have branch := scanToken_branch here
  generalize l.scanToken = answer at branch
  cases branch with
  | number digit => exact moves_scanRun _ here digit
  | word starts => exact moves_scanRun _ here (by simp [isNamePart, starts])
  | string _ scanned | openString _ scanned =>
    rw [scanned] at inString
    exact inString
  | templateEnd _ scanned | templateStart _ scanned | openTemplate _ scanned =>
    rw [scanned] at inTemplate
    exact inTemplate
  | pair follows =>
    subst follows
    exact .next _ _ _
  | brace | single | unexpected => exact .refl _

/-! ## Scans -/

theorem moves_scan (l : Lexer) : l.cursor.Moves l.scan.2.cursor := by
  have moves := moves_skipGap .blank l.cursor.rest l.cursor.position
  unfold scan
  split
  · next skipped =>
    rw [skipped] at moves
    exact moves
  · next after skipped =>
    rw [skipped] at moves
    obtain ⟨rest, p⟩ := after
    cases rest with
    | nil =>
      simp only [scanToken]
      split <;> exact moves
    | cons c rest =>
      have token := moves_scanToken (l := { l with cursor := ⟨c :: rest, p⟩, start := p }) rfl
      exact moves.trans (.cons token)

/-- A scan before the end takes a character, whatever comes of it. -/
theorem scan_lt (before : l.cursor.rest ≠ []) :
    l.scan.2.cursor.rest.length < l.cursor.rest.length := by
  have moves := moves_skipGap .blank l.cursor.rest l.cursor.position
  have nonempty := List.length_pos_iff.2 before
  unfold scan
  split
  · next after skipped =>
    rw [rest_of_skipGap_eq_some skipped]
    exact nonempty
  · next after skipped =>
    rw [skipped] at moves
    obtain ⟨rest, p⟩ := after
    cases rest with
    | nil =>
      simp only [scanToken]
      split <;> exact nonempty
    | cons c rest =>
      have token := moves_scanToken (l := { l with cursor := ⟨c :: rest, p⟩, start := p }) rfl
      exact Nat.lt_of_le_of_lt token.length_le moves.length_le

/-- What a lexer answers at the end of the text. -/
def endAnswer (l : Lexer) : Except LexError Token :=
  if l.interpolations.isEmpty then .ok .eof else .error (.unterminatedTemplate l.segment)

theorem scan_at_end_eq (nothing : l.cursor.rest = []) :
    l.scan = (l.endAnswer, { l with start := l.cursor.position }) := by
  obtain ⟨⟨rest, position⟩, start, interpolations, segment, ahead⟩ := l
  cases nothing
  cases interpolations <;> rfl

/-! ## Calls -/

/-- What a lexer can be asked for. -/
inductive Call where
  | next
  | peek
  deriving Repr, DecidableEq

def call (l : Lexer) : Call → Except LexError Token × Lexer
  | .next => l.next
  | .peek => l.peek

/-- The lexer after some calls. -/
def after (l : Lexer) (calls : List Call) : Lexer := calls.foldl (fun l c => (l.call c).2) l

theorem after_append (l : Lexer) (calls more : List Call) :
    l.after (calls ++ more) = (l.after calls).after more := by
  simp [after]

/-- A call takes the token that has been looked at, or looks at it once more, or scans. -/
theorem call_cases (l : Lexer) (c : Call) :
    (∃ token ahead, l.ahead = some token ∧ l.call c = (.ok token, { l with ahead })) ∨
      l.ahead = none ∧ ∃ ahead, l.call c = (l.scan.1, { l.scan.2 with ahead }) := by
  cases looked : l.ahead with
  | some token =>
    cases c with
    | next => exact .inl ⟨token, none, rfl, by rw [call, Lexer.next, looked]⟩
    | peek =>
      refine .inl ⟨token, some token, rfl, ?_⟩
      rw [call, peek, looked]
      simp only [← looked]
  | none =>
    refine .inr ⟨rfl, ?_⟩
    cases c with
    | next => exact ⟨l.scan.2.ahead, by rw [call, Lexer.next, looked]⟩
    | peek =>
      rw [call, peek, looked]
      obtain ⟨answer, l'⟩ := l.scan
      cases answer with
      | ok token => exact ⟨some token, rfl⟩
      | error e => exact ⟨l'.ahead, rfl⟩

/-- The lexer stands behind a first part of the text, at the position behind it. -/
def Stands (source : String) (l : Lexer) : Prop :=
  Cursor.Moves ⟨source.toList, .start⟩ l.cursor

namespace Stands

variable {source : String}

theorem call (stands : l.Stands source) (c : Call) : (l.call c).2.Stands source := by
  obtain ⟨token, ahead, _, called⟩ | ⟨_, ahead, called⟩ := l.call_cases c
  · rw [called]
    exact stands
  · rw [called]
    exact stands.trans l.moves_scan

theorem after (stands : l.Stands source) (calls : List Call) : (l.after calls).Stands source := by
  induction calls generalizing l with
  | nil => exact stands
  | cons c calls ih => exact ih (stands.call c)

theorem ofSource (source : String) : (Lexer.ofSource source).Stands source := .refl _

/-- The characters that have been read and those that are left are all there are. -/
theorem offset_add (stands : l.Stands source) : l.offset + l.cursor.rest.length = source.length := by
  obtain ⟨own, split, moved⟩ := stands
  have split : source.toList = own ++ l.cursor.rest := split
  rw [offset, moved, Position.advance_offset, ← String.length_toList, split, List.length_append]
  exact congrArg (· + _) (Nat.zero_add _)

theorem scan (stands : l.Stands source) : l.scan.2.Stands source := stands.trans l.moves_scan

end Stands

/-- At the end of the text calls change neither the place nor what will be said there. -/
structure SameEnd (l l' : Lexer) : Prop where
  rest : l'.cursor.rest = []
  interpolations : l'.interpolations = l.interpolations
  segment : l'.segment = l.segment

theorem SameEnd.call {l' : Lexer} (same : SameEnd l l') (c : Call) : SameEnd l (l'.call c).2 := by
  obtain ⟨token, ahead, _, called⟩ | ⟨_, ahead, called⟩ := l'.call_cases c
  · rw [called]
    exact ⟨same.rest, same.interpolations, same.segment⟩
  · rw [called, scan_at_end_eq same.rest]
    exact ⟨same.rest, same.interpolations, same.segment⟩

theorem SameEnd.after {l' : Lexer} (same : SameEnd l l') (calls : List Call) :
    SameEnd l (l'.after calls) := by
  induction calls generalizing l' with
  | nil => exact same
  | cons c calls ih => exact ih (same.call c)

/-- Once nothing is left, every scan has the same answer, whatever has been asked for in between. -/
theorem scan_after_end (nothing : l.cursor.rest = []) (calls : List Call) :
    (l.after calls).scan.1 = l.endAnswer := by
  have same : SameEnd l (l.after calls) := SameEnd.after ⟨nothing, rfl, rfl⟩ calls
  rw [scan_at_end_eq same.rest, endAnswer, endAnswer, same.interpolations, same.segment]

end Lexer

end TinyScript
