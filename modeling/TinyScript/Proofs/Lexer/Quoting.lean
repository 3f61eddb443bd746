import TinyScript.Proofs.Lexer.Interpolation

/-! # Every text can be written

With a backslash in front of each character that would not stand for itself (`Lexer.guarded`), every text can
be put in quotes of either kind, or in back-ticks.  It is read back as it is (`Lexer.scanToken_guarded`,
`Lexer.scanTemplate_guarded`), whatever comes behind it, and the lexer stops there (`quoted_reads_back`).
-/

namespace TinyScript

namespace Lexer

variable {l : Lexer} {c : Char} {text rest : List Char}

/-- A character that is no blank and begins no comment is the first one of the token. -/
theorem scan_solid (here : l.cursor.rest = c :: rest) (solid : Text.isBlank c = false) (noSlash : c ≠ '/') :
    l.scan = { l with start := l.cursor.position }.scanToken := by
  obtain ⟨⟨text, p⟩, start, interpolations, segment, ahead⟩ := l
  cases here
  rw [scan, skipGap_solid solid fun slash => absurd slash noSlash]

/-- The characters that do not stand for themselves in the text of a template. -/
abbrev IsTemplateSpecial (c : Char) : Prop := c = backslash ∨ c = backTick ∨ c = '$'

/-- Text in which they are guarded is passed as a whole, since it opens no interpolation. -/
theorem scanSegment_guarded (text rest : List Char) (p : Position) (read : List Char) :
    scanSegment (guarded IsTemplateSpecial text ++ rest) p read =
      scanSegment rest (p.advance (guarded IsTemplateSpecial text)) (text.reverse ++ read) := by
  induction text generalizing p read with
  | nil => rfl
  | cons c text ih =>
    rw [List.reverse_cons, List.append_assoc]
    by_cases special : IsTemplateSpecial c
    · have kept : unescape c = c := by rcases special with rfl | rfl | rfl <;> rfl
      rw [guarded_cons_of_special special, List.cons_append, List.cons_append, scanSegment_escape, kept, ih]
      rfl
    · obtain ⟨noEscape, others⟩ := not_or.1 special
      obtain ⟨noTick, noDollar⟩ := not_or.1 others
      rw [guarded_cons_of_plain special, List.cons_append,
        scanSegment_char (fun dollar => absurd dollar noDollar) noTick noEscape, ih]
      rfl

theorem scanTemplate_guarded {after : Cursor} {text : String}
    (here : after.rest = guarded IsTemplateSpecial text.toList ++ backTick :: rest) :
    l.scanTemplate after = (.ok (.templateEnd text), { l with
      segment := l.start
      cursor :=
        ⟨rest, (after.position.advance (guarded IsTemplateSpecial text.toList)).next backTick⟩ }) := by
  have scanned := scanSegment_guarded text.toList (backTick :: rest) after.position []
  rw [scanSegment_tick, List.append_nil, List.reverse_reverse, String.ofList_toList] at scanned
  simp only [scanTemplate, here, scanned]

/-- A back-tick begins a template. -/
theorem scan_tick (here : l.cursor.rest = backTick :: rest) :
    l.scan =
      Lexer.scanTemplate { l with start := l.cursor.position } ⟨rest, l.cursor.position.next backTick⟩ := by
  rw [scan_solid here (by decide) (by decide), scanToken, here]
  rfl

/-! ## Quotations -/

/-- A text as a string. -/
def inQuotes (quote : Char) (text : String) : List Char :=
  quote :: (guarded (IsStringSpecial quote) text.toList ++ [quote])

/-- A text as a template without interpolations. -/
def inTicks (text : String) : List Char :=
  backTick :: (guarded IsTemplateSpecial text.toList ++ [backTick])

theorem scan_inQuotes {quote : Char} (isQuote : quote = doubleQuote ∨ quote = singleQuote) {text : String}
    (here : l.cursor.rest = inQuotes quote text ++ rest) :
    l.scan = (.ok (.string text), { l with
      start := l.cursor.position
      cursor := ⟨rest, l.cursor.position.advance (inQuotes quote text)⟩ }) := by
  have split : l.cursor.rest = quote :: (guarded (IsStringSpecial quote) text.toList ++ quote :: rest) := by
    rw [here, inQuotes, List.cons_append, List.append_assoc, List.singleton_append]
  have solid : Text.isBlank quote = false := by rcases isQuote with rfl | rfl <;> rfl
  have noSlash : quote ≠ '/' := by rcases isQuote with rfl | rfl <;> decide
  rw [scan_solid split solid noSlash,
    scanToken_guarded (l := { l with start := l.cursor.position }) isQuote split, inQuotes,
    Position.advance_cons, Position.advance_append, Position.advance_cons, Position.advance_nil]

theorem scan_inTicks {text : String} (here : l.cursor.rest = inTicks text ++ rest) :
    l.scan = (.ok (.templateEnd text), { l with
      start := l.cursor.position
      segment := l.cursor.position
      cursor := ⟨rest, l.cursor.position.advance (inTicks text)⟩ }) := by
  have split : l.cursor.rest = backTick :: (guarded IsTemplateSpecial text.toList ++ backTick :: rest) := by
    rw [here, inTicks, List.cons_append, List.append_assoc, List.singleton_append]
  rw [scan_tick split, scanTemplate_guarded rfl, inTicks, Position.advance_cons, Position.advance_append,
    Position.advance_cons, Position.advance_nil]

end Lexer

open Lexer in
/-- A lexer with no token in hand that stands before a quoted text takes that text and stops right behind the
quotation, at the position to which it leads, whatever comes there.  It has noted where the token begins, and
for a template also that its segment does, and is as it was apart from that: inside of the same
interpolations. -/
theorem quoted_reads_back {l : Lexer} (fresh : l.ahead = none) (text : String) (rest : List Char) :
    (∀ quote, quote = doubleQuote ∨ quote = singleQuote → l.cursor.rest = inQuotes quote text ++ rest →
      l.next = (.ok (.string text), { l with
        start := l.cursor.position
        cursor := ⟨rest, l.cursor.position.advance (inQuotes quote text)⟩ })) ∧
    (l.cursor.rest = inTicks text ++ rest →
      l.next = (.ok (.templateEnd text), { l with
        start := l.cursor.position
        segment := l.cursor.position
        cursor := ⟨rest, l.cursor.position.advance (inTicks text)⟩ })) := by
  rw [next_eq_scan fresh]
  exact ⟨fun quote isQuote => scan_inQuotes isQuote, scan_inTicks⟩

/-- In an interpolation, before a string that has a quote, a line break, and a backslash before a letter. -/
def beforeString : Lexer := (Lexer.ofSource "\x60$\x7b'it\\'s\n\\\\n'\x7d\x60").next.2

/-- In an interpolation, before a template whose text looks as if it opened another one and were closed. -/
def beforeTemplate : Lexer := (Lexer.ofSource "\x60$\x7b\x60\\$\x7b\\\x60\x60\x7d\x60").next.2

open Lexer in
theorem quoted_reads_back_in_interpolations :
    (beforeString.ahead = none ∧
      beforeString.cursor.rest = inQuotes singleQuote "it's\n\\n" ++ ['\x7d', backTick] ∧
      beforeString.next = (.ok (.string "it's\n\\n"),
        ⟨⟨['\x7d', backTick], ⟨2, 5, 14⟩⟩, ⟨1, 4, 3⟩, [0], ⟨1, 1, 0⟩, none⟩)) ∧
    beforeTemplate.ahead = none ∧
      beforeTemplate.cursor.rest = inTicks "$\x7b\x60" ++ ['\x7d', backTick] ∧
      beforeTemplate.next = (.ok (.templateEnd "$\x7b\x60"),
        ⟨⟨['\x7d', backTick], ⟨1, 11, 10⟩⟩, ⟨1, 4, 3⟩, [0], ⟨1, 4, 3⟩, none⟩) := by
  have freshString : beforeString.ahead = none := by decide +kernel
  have string : beforeString.cursor.rest = inQuotes singleQuote "it's\n\\n" ++ ['\x7d', backTick] := by decide +kernel
  have freshTemplate : beforeTemplate.ahead = none := by decide +kernel
  have template : beforeTemplate.cursor.rest = inTicks "$\x7b\x60" ++ ['\x7d', backTick] := by decide +kernel
  refine ⟨⟨freshString, string, ?_⟩, freshTemplate, template, ?_⟩
  · rw [(quoted_reads_back freshString _ _).1 singleQuote (.inr rfl) string]
    rfl
  · rw [(quoted_reads_back freshTemplate _ _).2 template]
    rfl

end TinyScript
