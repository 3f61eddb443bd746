import Mathlib.Data.Nat.Basic
import TinyScript.Proofs.Lexer.Scan

/-! # Tokens partition the text

The tokens of a text lie one behind the other and cover it up to gaps.  Each gap consists of blanks and of
complete comments, also by itself, and each token that is no segment of a template is that token by itself
(`tokens_partition`).
-/

namespace TinyScript

/-! ## Texts by themselves -/

/-- The characters from one offset up to another. -/
def slice (source : String) (start stop : Nat) : String :=
  String.ofList ((source.toList.take stop).drop start)

theorem slice_eq {source : String} {before middle after : List Char}
    (split : source.toList = before ++ (middle ++ after)) :
    slice source before.length (before.length + middle.length) = String.ofList middle := by
  rw [slice, split, ← List.append_assoc, ← List.length_append, List.take_left, List.drop_left]

theorem Stream.done_of_scan {l l' : Lexer} (scanned : l.scan = (.ok .eof, l')) (n : Nat) :
    l.streamUpTo (n + 1) = .done l'.start := by
  rw [Lexer.streamUpTo, scanned]

theorem tokenize_gap {gap : List Char} (passes : Lexer.Passes .blank gap) :
    tokenize (String.ofList gap) = .ok [.eof] := by
  have scanned : (Lexer.ofSource (String.ofList gap)).scan =
      (.ok .eof, ⟨⟨[], Position.start.advance gap⟩, Position.start.advance gap, [], .start, none⟩) := by
    rw [Lexer.scan, Lexer.ofSource, String.toList_ofList, passes .blank .start .blank]
    rfl
  rw [tokenize, Stream.ofSource, Stream.done_of_scan scanned]
  rfl

theorem tokenize_token {own : List Char} {t : Token} (ne_eof : t ≠ .eof) (nonempty : own ≠ [])
    (alone : ∀ l : Lexer, l.interpolations = [] → l.cursor.rest = own → Lexer.Scanned l.scan t []) :
    tokenize (String.ofList own) = .ok [t, .eof] := by
  have scanned := alone (Lexer.ofSource (String.ofList own)) rfl String.toList_ofList
  obtain ⟨first, l', read, rfl, nothing, closed⟩ :=
    Lexer.streamUpTo_of_scanned scanned ne_eof (String.ofList own).length
  obtain ⟨n, length⟩ : ∃ n, (String.ofList own).length = n + 1 := by
    cases own with
    | nil => exact absurd rfl nonempty
    | cons c cs => exact ⟨cs.length, String.length_ofList⟩
  have atEnd := Stream.done_of_scan (Lexer.scan_at_end nothing closed) n
  rw [tokenize, Stream.ofSource, read, length, atEnd]
  rfl

/-! ## Tiles -/

/-- The lexemes cover the text from an offset on. -/
inductive Tiles (source : String) : Nat → List Lexeme → Prop where
  | eof {from_ : Nat} {start : Position} : from_ ≤ start.offset → start.offset = source.length →
      Lexer.IsGap True (slice source from_ start.offset).toList →
      tokenize (slice source from_ start.offset) = .ok [.eof] →
      Tiles source from_ [⟨.eof, start, start.offset⟩]
  | token {from_ : Nat} {lexeme : Lexeme} {rest : List Lexeme} : lexeme.token ≠ .eof →
      from_ ≤ lexeme.start.offset → lexeme.start.offset < lexeme.stop → lexeme.stop ≤ source.length →
      Lexer.IsGap False (slice source from_ lexeme.start.offset).toList →
      tokenize (slice source from_ lexeme.start.offset) = .ok [.eof] →
      (lexeme.token.isTemplate = false →
        tokenize (slice source lexeme.start.offset lexeme.stop) = .ok [lexeme.token, .eof]) →
      Tiles source lexeme.stop rest → Tiles source from_ (lexeme :: rest)

/-- Where the gap and the token end. -/
theorem Lexer.Reads.offsets {l l' : Lexer} {gap own : List Char} {t : Token} (reads : l.Reads gap own t l') :
    l'.start.offset = l.offset + gap.length ∧ l'.offset = l'.start.offset + own.length := by
  constructor
  · rw [reads.start, Position.advance_offset, Lexer.offset]
  · rw [Lexer.offset, reads.position, Position.advance_offset]

/-- What a lexer delivers without an error tiles the text from where it stands. -/
theorem Lexer.Delivers.tiles {source : String} {l : Lexer} {s : Stream} (delivers : l.Delivers s)
    {lexemes : List Lexeme} (complete : s.lexemes = (lexemes, none)) (fresh : l.ahead = none)
    {before : List Char} (split : source.toList = before ++ l.cursor.rest)
    (here : l.offset = before.length) :
    (∃ last, l.Takes lexemes last) ∧ Tiles source before.length lexemes := by
  induction delivers generalizing lexemes before with
  | @failed l l' e scanned => cases complete
  | @done l l' scanned =>
    cases complete
    obtain ⟨gap, own, reads⟩ := scan_reads scanned
    obtain ⟨rfl, nothing, _⟩ := reads.eof rfl
    obtain ⟨start, stop⟩ := reads.offsets
    have stays : l'.offset = l'.start.offset := stop
    rw [here] at start
    rw [reads.rest, nothing] at split
    have length : l'.start.offset = source.length := by
      rw [start, ← String.length_toList, split]
      simp
    have passed : slice source before.length l'.start.offset = String.ofList gap := by rw [start, slice_eq split]
    have filled : IsGap True (slice source before.length l'.start.offset).toList := by
      rw [passed, String.toList_ofList]
      exact reads.filled.mono fun _ => trivial
    have alone : tokenize (slice source before.length l'.start.offset) = .ok [.eof] := by
      rw [passed]
      exact tokenize_gap reads.gap
    refine ⟨⟨l', ?_⟩, .eof (by omega) length filled alone⟩
    rw [← stays]
    exact .cons ((next_eq_scan fresh).trans scanned) (.nil l')
  | @lexeme l l' t s scanned ne_eof _ ih =>
    obtain ⟨gap, own, reads⟩ := scan_reads scanned
    obtain ⟨nonempty, byItself⟩ := reads.token ne_eof
    obtain ⟨start, stop⟩ := reads.offsets
    rw [here] at start
    rw [reads.rest] at split
    -- The rest is tiled from the end of this token on, so what comes before it is all that is taken.
    have behind : source.toList = (before ++ gap) ++ (own ++ l'.cursor.rest) := by
      rw [split, List.append_assoc]
    have afterwards : source.toList = (before ++ gap ++ own) ++ l'.cursor.rest := by
      rw [behind, List.append_assoc (before ++ gap)]
    have length : l'.offset = (before ++ gap ++ own).length := by
      simp only [stop, start, List.length_append]
    simp only [Stream.lexemes, Prod.mk.injEq] at complete
    obtain ⟨rfl, noError⟩ := complete
    obtain ⟨⟨last, takes⟩, tiles⟩ := ih (Prod.ext rfl noError) (reads.ahead.trans fresh) afterwards length
    rw [← length] at tiles
    have passed : slice source before.length l'.start.offset = String.ofList gap := by rw [start, slice_eq split]
    have filled : IsGap False (slice source before.length l'.start.offset).toList := by
      rw [passed, String.toList_ofList]
      exact reads.filled.mono ne_eof
    have gapAlone : tokenize (slice source before.length l'.start.offset) = .ok [.eof] := by
      rw [passed]
      exact tokenize_gap reads.gap
    have tokenAlone (plain : t.isTemplate = false) :
        tokenize (slice source l'.start.offset l'.offset) = .ok [t, .eof] := by
      rw [stop, start, ← List.length_append, slice_eq behind]
      exact tokenize_token ne_eof nonempty (byItself plain)
    have inText : l'.offset ≤ source.length := by
      rw [length, ← String.length_toList, afterwards]
      simp
    have nonzero := List.length_pos_iff.2 nonempty
    refine ⟨⟨last, .cons ((next_eq_scan fresh).trans scanned) takes⟩, ?_⟩
    exact .token ne_eof (by simp only; omega) (by simp only; omega) inText filled gapAlone tokenAlone tiles

/-- If a text has tokens, then reading them one by one tiles it: every token begins where a gap of blanks and
complete comments behind the last one ends, has at least one character, and lies in the text, at whose end
there is `eof`. -/
theorem tokens_partition {source : String} {tokens : List Token} (tokenized : tokenize source = .ok tokens) :
    ∃ lexemes last, (Lexer.ofSource source).Takes lexemes last ∧ lexemes.map (·.token) = tokens ∧
      Tiles source 0 lexemes := by
  unfold tokenize at tokenized
  split at tokenized
  · next lexemes complete =>
    cases tokenized
    obtain ⟨⟨last, takes⟩, tiles⟩ := (Lexer.delivers_ofSource source).tiles complete rfl
      (List.nil_append _).symm rfl
    exact ⟨lexemes, last, takes, rfl, tiles⟩
  · cases tokenized

/-- Comments, a string with an escaped quote, and braces inside and outside of an interpolation. -/
def mixedSource : String :=
  "/* a */ 'b\\'' // c\n\x60d$\x7b \x7b\x7d \x7de\x60<=x1 "

set_option maxRecDepth 4000 in
theorem tokens_partition_of_mixedSource : ∃ lexemes last,
    (Lexer.ofSource mixedSource).Takes lexemes last ∧
    lexemes.map (·.token) = [.string "b'", .templateStart "d", .punctuator .leftBrace,
      .punctuator .rightBrace, .templateEnd "e", .punctuator .lessEqual, .identifier "x1", .eof] ∧
    Tiles mixedSource 0 lexemes :=
  tokens_partition (by decide +kernel)

end TinyScript
