import TinyScript.Proofs.Parser.Writing

/-! # Reading tokens back

A lexer reads from a writing of tokens those tokens (`Stream.holds_of_written`): it passes the blanks in
front of a token, takes what spells the token, since nothing behind runs on, and stands before the rest.
-/

namespace TinyScript

/-- The stream delivers the tokens and ends. -/
inductive Stream.Holds : Stream → List Token → Prop where
  | done (stop : Position) : Holds (.done stop) []
  | lexeme {first : Lexeme} {rest : Stream} {ts : List Token} : rest.Holds ts →
      Holds (.lexeme first rest) (first.token :: ts)

theorem Stream.Holds.length_eq {stream : Stream} {ts : List Token} (holds : stream.Holds ts) :
    stream.length = ts.length := by
  induction holds with
  | done => rfl
  | lexeme _ ih => rw [Stream.length, ih, List.length_cons]

/-! ## Characters -/

theorem Text.isBlank_eq_false {c : Char} (low : 0x20 < c.toNat) (high : c.toNat < 0x80) :
    isBlank c = false := by
  simp [isBlank, blanks, Span.cover, Span.contains]
  omega

namespace Lexer

theorem toNat_of_isDigit {c : Char} (digit : Number.isDigit c = true) :
    0x30 ≤ c.toNat ∧ c.toNat ≤ 0x39 := by
  simpa [Number.isDigit, Char.le_def, UInt32.le_iff_toNat_le] using digit

theorem toNat_of_isNameStart {c : Char} (starts : isNameStart c = true) :
    0x61 ≤ c.toNat ∧ c.toNat ≤ 0x7A ∨ 0x41 ≤ c.toNat ∧ c.toNat ≤ 0x5A ∨ c.toNat = 0x5F ∨
      c.toNat = 0x24 := by
  simp only [isNameStart, Bool.or_eq_true, Bool.and_eq_true, decide_eq_true_eq, Char.le_def,
    UInt32.le_iff_toNat_le] at starts
  rcases starts with ((small | capital) | rfl) | rfl
  · exact .inl small
  · exact .inr (.inl capital)
  · exact .inr (.inr (.inl rfl))
  · exact .inr (.inr (.inr rfl))

theorem isBlank_of_isDigit {c : Char} (digit : Number.isDigit c = true) : Text.isBlank c = false := by
  have bounds := toNat_of_isDigit digit
  exact Text.isBlank_eq_false (by omega) (by omega)

theorem isBlank_of_isNameStart {c : Char} (starts : isNameStart c = true) : Text.isBlank c = false := by
  have bounds := toNat_of_isNameStart starts
  exact Text.isBlank_eq_false (by omega) (by omega)

theorem isDigit_of_isNameStart {c : Char} (starts : isNameStart c = true) :
    Number.isDigit c = false := by
  refine Bool.eq_false_iff.2 fun digit => ?_
  have bounds := toNat_of_isNameStart starts
  have := toNat_of_isDigit digit
  omega

/-! ## Blanks -/

theorem skipGap_blank {gap : List Char} (blank : IsBlank gap) (cs : List Char) (p : Position) :
    skipGap .blank (gap ++ cs) p = skipGap .blank cs (p.advance gap) := by
  induction gap generalizing p with
  | nil => rfl
  | cons c gap ih =>
    obtain ⟨here, behind⟩ := List.forall_mem_cons.1 blank
    rw [List.cons_append, skipGap, if_pos here, ih behind]
    · rfl
    all_goals
      rintro _ rfl
      cases here

/-- A character that is no blank and does not begin a comment ends a gap. -/
theorem skipGap_solid {c : Char} {rest : List Char} (solid : Text.isBlank c = false)
    (code : c = '/' → ∀ d, rest.head? = some d → d ≠ '/' ∧ d ≠ '*') (p : Position) :
    skipGap .blank (c :: rest) p = (none, ⟨c :: rest, p⟩) := by
  rw [skipGap, if_neg (by simp [solid])]
  all_goals
    rintro _ rfl rfl
    exact absurd (code rfl _ rfl) (by simp)

/-! ## Runs and strings -/

theorem skip_append (own rest : List Char) (p : Position) :
    Cursor.skip own.length ⟨own ++ rest, p⟩ = ⟨rest, p.advance own⟩ := by
  induction own generalizing p with
  | nil => rfl
  | cons c own ih => exact ih (p.next c)

theorem takeWhile_run {belongs : Char → Bool} {own rest : List Char} (all : ∀ c ∈ own, belongs c = true)
    (apart : ∀ c, rest.head? = some c → belongs c = false) :
    (own ++ rest).takeWhile belongs = own := by
  rw [List.takeWhile_append_of_pos all]
  cases rest with
  | nil => simp
  | cons c rest => simp [apart c rfl]

/-- A text with a backslash in front of each of its special characters. -/
def guarded (special : Char → Prop) [DecidablePred special] (text : List Char) : List Char :=
  text.flatMap fun c => if special c then [backslash, c] else [c]

theorem guarded_cons_of_special {special : Char → Prop} [DecidablePred special] {c : Char}
    (isSpecial : special c) (text : List Char) :
    guarded special (c :: text) = backslash :: c :: guarded special text := by
  rw [guarded, List.flatMap_cons, if_pos isSpecial]
  rfl

theorem guarded_cons_of_plain {special : Char → Prop} [DecidablePred special] {c : Char}
    (plain : ¬special c) (text : List Char) : guarded special (c :: text) = c :: guarded special text := by
  rw [guarded, List.flatMap_cons, if_neg plain]
  rfl

/-- The characters that do not stand for themselves in a string with such quotes. -/
abbrev IsStringSpecial (quote c : Char) : Prop := c = quote ∨ c = backslash

/-- A text in which they are guarded is read up to the quote behind it. -/
theorem scanString_guarded {quote : Char} (isQuote : quote = doubleQuote ∨ quote = singleQuote)
    (text rest : List Char) (p : Position) (read : List Char) :
    scanString quote (guarded (IsStringSpecial quote) text ++ quote :: rest) p read =
      (some (String.ofList (read.reverse ++ text)),
        ⟨rest, (p.advance (guarded (IsStringSpecial quote) text)).next quote⟩) := by
  induction text generalizing p read with
  | nil =>
    rw [guarded, List.flatMap_nil, List.nil_append, scanString.eq_def, List.append_nil]
    exact if_pos rfl
  | cons c text ih =>
    by_cases special : IsStringSpecial quote c
    · have kept : unescape c = c := by
        rcases special with rfl | rfl
        · rcases isQuote with rfl | rfl <;> rfl
        · rfl
      have apart : backslash ≠ quote := by rcases isQuote with rfl | rfl <;> decide
      rw [guarded_cons_of_special special, List.cons_append, List.cons_append, scanString.eq_def]
      simp only [if_neg apart, if_true, kept, ih, List.reverse_cons, List.append_assoc]
      rfl
    · obtain ⟨noQuote, noEscape⟩ := not_or.1 special
      rw [guarded_cons_of_plain special, List.cons_append, scanString.eq_def]
      simp only [if_neg noQuote, if_neg noEscape, ih, List.reverse_cons, List.append_assoc]
      rfl

/-! ## Tokens -/

/-- The token has been read, and the rest of the text comes next, outside of all templates. -/
def Scanned (result : Except LexError Token × Lexer) (t : Token) (rest : List Char) : Prop :=
  ∃ l, result = (.ok t, l) ∧ l.cursor.rest = rest ∧ l.interpolations = []

section

variable {l : Lexer} {own rest : List Char} (plain : l.interpolations = [])
  (here : l.cursor.rest = own ++ rest)

include plain here

theorem scanned_run {belongs : Char → Bool} (token : List Char → Token)
    (all : ∀ c ∈ own, belongs c = true) (apart : ∀ c, rest.head? = some c → belongs c = false) :
    Scanned (l.scanRun belongs token) (token own) rest := by
  refine ⟨{ l with cursor := l.cursor.skip own.length }, ?_, ?_, plain⟩
  · rw [scanRun, here, takeWhile_run all apart]
  · have skipped := skip_append own rest l.cursor.position
    rw [← here] at skipped
    exact congrArg Cursor.rest skipped

theorem scanned_number (digits : IsDigits own)
    (apart : ∀ c, rest.head? = some c → Number.isDigit c = false) :
    Scanned l.scanToken (.number (Number.ofDigits own)) rest := by
  obtain ⟨nonempty, all⟩ := digits
  obtain ⟨d, ds, rfl⟩ := List.exists_cons_of_ne_nil nonempty
  have run := scanned_run plain here (fun ds => .number (Number.ofDigits ds)) all apart
  rw [scanToken, here]
  simpa [all d List.mem_cons_self] using run

theorem scanned_word (isWord : IsWord own)
    (apart : ∀ c, rest.head? = some c → isNamePart c = false) :
    Scanned l.scanToken (word (String.ofList own)) rest := by
  obtain ⟨c, cs, split, starts, parts⟩ := isWord
  have all : ∀ d ∈ own, isNamePart d = true := by
    rw [split, List.forall_mem_cons]
    exact ⟨by simp [isNamePart, starts], parts⟩
  have run := scanned_run plain here (fun cs => word (String.ofList cs)) all apart
  rw [scanToken, here]
  simpa [split, starts, isDigit_of_isNameStart starts] using run

end

/-- A quoted text is read as what it is, up to the end of the quotation. -/
theorem scanToken_guarded {l : Lexer} {quote : Char} (isQuote : quote = doubleQuote ∨ quote = singleQuote)
    {text : String} {rest : List Char}
    (here : l.cursor.rest = quote :: (guarded (IsStringSpecial quote) text.toList ++ quote :: rest)) :
    l.scanToken = (.ok (.string text), { l with cursor := ⟨rest,
      ((l.cursor.position.next quote).advance (guarded (IsStringSpecial quote) text.toList)).next quote⟩ }) := by
  have scanned := scanString_guarded isQuote text.toList rest (l.cursor.position.next quote) []
  have digit : Number.isDigit quote = false := by rcases isQuote with rfl | rfl <;> rfl
  have name : isNameStart quote = false := by rcases isQuote with rfl | rfl <;> rfl
  rw [scanToken, here]
  simp [digit, name, isQuote, scanned]

theorem scanned_string {l : Lexer} (plain : l.interpolations = []) {text : String} {rest : List Char}
    (here : l.cursor.rest = doubleQuote :: (text.toList.flatMap escaped ++ doubleQuote :: rest)) :
    Scanned l.scanToken (.string text) rest :=
  ⟨_, scanToken_guarded (.inl rfl) here, rfl, plain⟩

/-- A character that is no blank and begins no number, word, string or template. -/
def isSymbol (c : Char) : Bool :=
  !Text.isBlank c && !Number.isDigit c && !isNameStart c && c ≠ doubleQuote && c ≠ singleQuote &&
    c ≠ backTick

theorem isBlank_of_isSymbol {c : Char} (symbol : isSymbol c = true) : Text.isBlank c = false := by
  simp only [isSymbol, Bool.and_eq_true, Bool.not_eq_true'] at symbol
  exact symbol.1.1.1.1.1

theorem isSymbol_of_mem_spelling (mark : Punctuator) : ∀ c ∈ mark.spelling.toList, isSymbol c = true := by
  rw [← List.all_eq_true]
  cases mark <;> rfl

theorem spelling_cases (mark : Punctuator) :
    (∃ c, mark.spelling.toList = [c] ∧ Punctuator.ofChar? c = some mark) ∨
      ∃ c d, mark.spelling.toList = [c, d] ∧ Punctuator.ofPair? c d = some mark := by
  cases mark with
  | equal | notEqual | lessEqual | greaterEqual | andAnd | orOr | plusAssign | minusAssign =>
    exact .inr ⟨_, _, rfl, rfl⟩
  | _ => exact .inl ⟨_, rfl, rfl⟩

/-- Outside of templates, braces are punctuators like the others. -/
theorem scanToken_symbol {l : Lexer} (plain : l.interpolations = []) {c : Char} {rest : List Char}
    (here : l.cursor.rest = c :: rest) (symbol : isSymbol c = true) :
    l.scanToken = l.scanPunctuator c ⟨rest, l.cursor.position.next c⟩ := by
  simp only [isSymbol, Bool.and_eq_true, Bool.not_eq_true', decide_eq_true_eq] at symbol
  obtain ⟨⟨⟨⟨⟨_, digit⟩, name⟩, double⟩, single⟩, tick⟩ := symbol
  obtain ⟨⟨cs, p⟩, start, interpolations, segment, ahead⟩ := l
  subst plain here
  simp only [scanToken, digit, name, double, single, tick, or_self, if_false, Bool.false_eq_true]
  split
  · next brace =>
    subst brace
    cases rest <;> rfl
  · split
    · next brace =>
      subst brace
      cases rest <;> rfl
    · rfl

theorem scanned_punctuator {l : Lexer} (plain : l.interpolations = []) {mark : Punctuator} {rest : List Char}
    (apart : ∀ c, rest.head? = some c → mark.joins c = false)
    (here : l.cursor.rest = mark.spelling.toList ++ rest) :
    Scanned l.scanToken (.punctuator mark) rest := by
  have symbols := isSymbol_of_mem_spelling mark
  rcases spelling_cases mark with ⟨c, spelled, alone⟩ | ⟨c, d, spelled, pair⟩
  · rw [spelled] at here symbols
    rw [scanToken_symbol plain here (symbols c (by simp))]
    have single : rest.head?.bind (Punctuator.ofPair? c) = none := by
      cases first : rest.head? with
      | none => rfl
      | some d =>
        have := apart d first
        simp only [Punctuator.joins, spelled, Bool.or_eq_false_iff] at this
        simpa using this.1
    refine ⟨{ l with cursor := ⟨rest, l.cursor.position.next c⟩ }, ?_, rfl, plain⟩
    simp [scanPunctuator, single, alone]
  · rw [spelled] at here symbols
    rw [scanToken_symbol plain here (symbols c (by simp))]
    refine ⟨{ l with cursor := ⟨rest, (l.cursor.position.next c).next d⟩ }, ?_, rfl, plain⟩
    simp [scanPunctuator, pair, Cursor.skip]

end Lexer

/-! ## Texts -/

theorem isWord_keyword (word : Keyword) : IsWord word.spelling.toList := by
  cases word <;> exact ⟨_, _, rfl, rfl, List.all_eq_true.1 rfl⟩

theorem IsWord.solid {own : List Char} (isWord : IsWord own) :
    ∃ c cs, own = c :: cs ∧ Text.isBlank c = false ∧ c ≠ '/' := by
  obtain ⟨c, cs, split, starts, _⟩ := isWord
  refine ⟨c, cs, split, Lexer.isBlank_of_isNameStart starts, ?_⟩
  rintro rfl
  cases starts

/-- What spells a token begins neither with a blank nor with a comment. -/
theorem Token.Spells.solid {t : Token} {own rest : List Char} (spells : t.Spells own)
    (apart : ∀ c, rest.head? = some c → t.runsOn c = false) :
    ∃ c cs, own = c :: cs ∧ Text.isBlank c = false ∧
      (c = '/' → ∀ d, (cs ++ rest).head? = some d → d ≠ '/' ∧ d ≠ '*') := by
  cases spells with
  | identifier isName =>
    obtain ⟨c, cs, split, solid, code⟩ := isName.1.solid
    exact ⟨c, cs, split, solid, fun slash => absurd slash code⟩
  | number digits =>
    obtain ⟨c, cs, rfl⟩ := List.exists_cons_of_ne_nil digits.1
    have digit := digits.2 c List.mem_cons_self
    refine ⟨c, cs, rfl, Lexer.isBlank_of_isDigit digit, ?_⟩
    rintro rfl
    cases digit
  | string text => exact ⟨_, _, rfl, by decide, fun slash => absurd slash (by decide)⟩
  | keyword word =>
    obtain ⟨c, cs, split, solid, code⟩ := (isWord_keyword word).solid
    exact ⟨c, cs, split, solid, fun slash => absurd slash code⟩
  | punctuator mark =>
    have symbols := Lexer.isSymbol_of_mem_spelling mark
    rcases Lexer.spelling_cases mark with ⟨c, spelled, _⟩ | ⟨c, d, spelled, pair⟩
    · refine ⟨c, [], spelled, Lexer.isBlank_of_isSymbol (symbols c (by simp [spelled])), ?_⟩
      rintro rfl d first
      have separate := apart d first
      simp only [runsOn, Punctuator.joins, spelled, Bool.or_eq_false_iff] at separate
      simpa using separate.2
    · refine ⟨c, [d], spelled, Lexer.isBlank_of_isSymbol (symbols c (by simp [spelled])), ?_⟩
      rintro rfl
      cases pair

theorem Token.Spells.scanned {t : Token} {own rest : List Char} (spells : t.Spells own)
    (apart : ∀ c, rest.head? = some c → t.runsOn c = false) {l : Lexer} (plain : l.interpolations = [])
    (here : l.cursor.rest = own ++ rest) : Lexer.Scanned l.scanToken t rest := by
  cases spells with
  | @identifier name isName =>
    have read := Lexer.scanned_word plain here isName.1 apart
    rwa [String.ofList_toList, Lexer.word, isName.2] at read
  | number digits => exact Lexer.scanned_number plain here digits apart
  | string text => exact Lexer.scanned_string plain (by simpa using here)
  | keyword word =>
    have read := Lexer.scanned_word plain here (isWord_keyword word) apart
    rwa [String.ofList_toList, Lexer.word, Keyword.ofWord?_spelling] at read
  | punctuator mark => exact Lexer.scanned_punctuator plain apart here

theorem Token.Spells.scanned_after {t : Token} {gap own rest : List Char} (blank : IsBlank gap)
    (spells : t.Spells own) (apart : ∀ c, rest.head? = some c → t.runsOn c = false) {l : Lexer}
    (plain : l.interpolations = []) (here : l.cursor.rest = gap ++ (own ++ rest)) :
    Lexer.Scanned l.scan t rest := by
  obtain ⟨c, cs, rfl, solid, code⟩ := spells.solid apart
  rw [Lexer.scan, here, Lexer.skipGap_blank blank, List.cons_append, Lexer.skipGap_solid solid code]
  exact spells.scanned apart plain rfl

theorem Token.Spells.ne_eof {t : Token} {own : List Char} (spells : t.Spells own) : t ≠ .eof := by
  cases spells <;> simp

/-- Every token takes at least one character. -/
theorem Written.length_le {ts : List Token} {text : List Char} (written : Written ts text) :
    ts.length ≤ text.length := by
  induction written with
  | nil => simp
  | cons _ spells apart _ ih =>
    obtain ⟨c, cs, rfl, _⟩ := spells.solid apart
    simp only [List.length_cons, List.length_append]
    omega

theorem Lexer.streamUpTo_of_scanned {l : Lexer} {t : Token} {rest : List Char}
    (scanned : Scanned l.scan t rest) (token : t ≠ .eof) (n : Nat) :
    ∃ (first : Lexeme) (l' : Lexer), l.streamUpTo (n + 1) = .lexeme first (l'.streamUpTo n) ∧
      first.token = t ∧ l'.cursor.rest = rest ∧ l'.interpolations = [] := by
  obtain ⟨l', read, left, plain⟩ := scanned
  refine ⟨⟨t, l'.start, l'.offset⟩, l', ?_, rfl, left, plain⟩
  rw [streamUpTo, read]
  cases t with
  | eof => exact absurd rfl token
  | _ => rfl

theorem Lexer.streamUpTo_of_blank {l : Lexer} (plain : l.interpolations = [])
    (blank : IsBlank l.cursor.rest) (n : Nat) : ∃ stop, l.streamUpTo (n + 1) = .done stop := by
  have gap := skipGap_blank blank [] l.cursor.position
  rw [List.append_nil] at gap
  refine ⟨l.cursor.position.advance l.cursor.rest, ?_⟩
  rw [streamUpTo, scan, gap, skipGap]
  simp [scanToken, plain]

theorem Lexer.holds_streamUpTo {ts : List Token} {text : List Char} (written : Written ts text) {l : Lexer}
    (plain : l.interpolations = []) (here : l.cursor.rest = text) {n : Nat} (enough : ts.length < n) :
    (l.streamUpTo n).Holds ts := by
  induction written generalizing l n with
  | nil blank =>
    obtain ⟨n, rfl⟩ := Nat.exists_eq_succ_of_ne_zero (Nat.ne_of_gt enough)
    obtain ⟨stop, read⟩ := streamUpTo_of_blank plain (here ▸ blank) n
    rw [Nat.succ_eq_add_one, read]
    exact .done stop
  | cons blank spells apart _ ih =>
    obtain ⟨n, rfl⟩ := Nat.exists_eq_succ_of_ne_zero (Nat.ne_of_gt (Nat.zero_lt_of_lt enough))
    have scanned := spells.scanned_after blank apart plain here
    obtain ⟨first, l', read, rfl, left, plain⟩ := streamUpTo_of_scanned scanned spells.ne_eof n
    rw [Nat.succ_eq_add_one, read]
    exact .lexeme (ih plain left (Nat.lt_of_succ_lt_succ enough))

/-- A lexer reads the tokens that a text spells. -/
theorem Stream.holds_of_written {ts : List Token} {source : String} (written : Written ts source.toList) :
    (Stream.ofSource source).Holds ts := by
  have enough := written.length_le
  rw [String.length_toList] at enough
  exact Lexer.holds_streamUpTo written rfl rfl (Nat.lt_succ_of_le enough)

end TinyScript
