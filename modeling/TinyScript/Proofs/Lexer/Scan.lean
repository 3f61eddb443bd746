import TinyScript.Proofs.Lexer.Branches
import TinyScript.Proofs.Parser.Scanning

/-! # What a lexer takes from the text

To read a token a lexer passes a gap and then takes what the token consists of (`Lexer.scan_reads`).  Both
are known to be what they are by themselves: the gap alone is passed to its end, and the token alone, unless
it is a segment of a template, is read as the same token.
-/

namespace TinyScript

def Token.isTemplate : Token → Bool
  | .templateStart _ | .templateEnd _ => true
  | _ => false

namespace Lexer

/-! ## Gaps -/

/-- States at the same kind of place. -/
inductive Gap.Like : Gap → Gap → Prop where
  | blank : Like .blank .blank
  | line : Like .line .line
  | block (start start' : Position) : Like (.block start) (.block start')

/-- The text is passed to its end, wherever it stands. -/
def Passes (g : Gap) (gap : List Char) : Prop :=
  ∀ g' p, g.Like g' → skipGap g' gap p = (none, ⟨[], p.advance gap⟩)

namespace Passes

variable {gap : List Char}

theorem nil : Passes .blank [] := by
  intro g p like
  cases like
  rfl

theorem lineEnd : Passes .line [] := by
  intro g p like
  cases like
  rfl

theorem blank {c : Char} (isBlank : Text.isBlank c = true) (passes : Passes .blank gap) :
    Passes .blank (c :: gap) := by
  intro g p like
  cases like
  have one : IsBlank [c] := by simpa [IsBlank] using isBlank
  exact (skipGap_blank one gap p).trans (passes .blank (p.next c) .blank)

theorem openLine (passes : Passes .line gap) : Passes .blank ('/' :: '/' :: gap) := by
  intro g p like
  cases like
  exact passes .line ((p.next '/').next '/') .line

theorem openBlock {start : Position} (passes : Passes (.block start) gap) :
    Passes .blank ('/' :: '*' :: gap) := by
  intro g p like
  cases like
  exact passes (.block p) ((p.next '/').next '*') (.block start p)

theorem closeLine (passes : Passes .blank gap) : Passes .line ('\n' :: gap) := by
  intro g p like
  cases like
  exact passes .blank (p.next '\n') .blank

theorem inLine {c : Char} (further : c ≠ '\n') (passes : Passes .line gap) : Passes .line (c :: gap) := by
  intro g p like
  cases like
  rw [skipGap, if_neg further]
  exact passes .line (p.next c) .line

theorem closeBlock {start : Position} (passes : Passes .blank gap) :
    Passes (.block start) ('*' :: '/' :: gap) := by
  intro g p like
  cases like
  exact passes .blank ((p.next '*').next '/') .blank

theorem inBlock {start : Position} {c : Char} (further : ∀ rest, c = '*' → gap = '/' :: rest → False)
    (passes : Passes (.block start) gap) : Passes (.block start) (c :: gap) := by
  intro g p like
  cases like with
  | block _ start' =>
    rw [skipGap]
    · exact passes (.block start') (p.next c) (.block start start')
    · exact further

end Passes

/-- Blanks and complete comments.  A comment that is ended by the end of its line may be the last thing in the
text. -/
inductive IsGap (last : Prop) : List Char → Prop where
  | nil : IsGap last []
  | blank {c : Char} {gap : List Char} : Text.isBlank c = true → IsGap last gap → IsGap last (c :: gap)
  | line {text gap : List Char} : '\n' ∉ text → IsGap last gap →
      IsGap last ('/' :: '/' :: (text ++ '\n' :: gap))
  | lastLine {text : List Char} : last → '\n' ∉ text → IsGap last ('/' :: '/' :: text)
  | block {text gap : List Char} : ¬['*', '/'] <:+: text → IsGap last gap →
      IsGap last ('/' :: '*' :: (text ++ '*' :: '/' :: gap))

theorem IsGap.mono {last last' : Prop} (imp : last → last') {gap : List Char} (isGap : IsGap last gap) :
    IsGap last' gap := by
  induction isGap with
  | nil => exact .nil
  | blank isBlank _ ih => exact .blank isBlank ih
  | line inLine _ ih => exact .line inLine ih
  | lastLine atEnd inLine => exact .lastLine (imp atEnd) inLine
  | block inBlock _ ih => exact .block inBlock ih

/-- The rest of a gap, from some place in it on. -/
def Gap.IsRest (last : Prop) : Gap → List Char → Prop
  | .blank, gap => IsGap last gap
  | .line, gap => IsGap last ('/' :: '/' :: gap)
  | .block _, gap => ∃ text more, gap = text ++ '*' :: '/' :: more ∧ ¬['*', '/'] <:+: text ∧ IsGap last more

namespace Gap.IsRest

variable {last : Prop} {gap : List Char}

theorem inLine {c : Char} (further : c ≠ '\n') (isRest : Gap.line.IsRest last gap) :
    Gap.line.IsRest last (c :: gap) := by
  cases isRest with
  | blank isBlank => cases isBlank
  | @line text more inLine isGap =>
    have inLine' : '\n' ∉ c :: text := List.not_mem_cons_of_ne_of_not_mem further.symm inLine
    exact .line inLine' isGap
  | lastLine atEnd inLine => exact .lastLine atEnd (List.not_mem_cons_of_ne_of_not_mem further.symm inLine)

theorem inBlock {start : Position} {c : Char} (further : ∀ rest, c = '*' → gap = '/' :: rest → False)
    (isRest : (Gap.block start).IsRest last gap) : (Gap.block start).IsRest last (c :: gap) := by
  obtain ⟨text, more, rfl, inBlock, isGap⟩ := isRest
  refine ⟨c :: text, more, rfl, fun ends => ?_, isGap⟩
  rcases List.infix_cons_iff.1 ends with here | later
  · obtain ⟨behind, split⟩ := here
    cases split
    exact further _ rfl rfl
  · exact inBlock later

end Gap.IsRest

/-- What is passed is a prefix of the text, also if nothing came behind it, and what does come behind it is
no blank. -/
theorem skipGap_eq_none {g : Gap} {cs rest : List Char} {p q : Position}
    (passed : skipGap g cs p = (none, ⟨rest, q⟩)) :
    ∃ gap, cs = gap ++ rest ∧ q = p.advance gap ∧ (Passes g gap ∧ g.IsRest (rest = []) gap) ∧
      ∀ c, rest.head? = some c → Text.isBlank c = false := by
  fun_induction skipGap g cs p with
  | case1 p =>
    cases passed
    exact ⟨[], rfl, rfl, ⟨.nil, .nil⟩, by simp⟩
  | case2 text p ih =>
    obtain ⟨gap, rfl, rfl, ⟨passes, isRest⟩, solid⟩ := ih passed
    exact ⟨'/' :: '/' :: gap, rfl, rfl, ⟨passes.openLine, isRest⟩, solid⟩
  | case3 text p ih =>
    obtain ⟨gap, rfl, rfl, ⟨passes, own, more, rfl, inBlock, isGap⟩, solid⟩ := ih passed
    exact ⟨'/' :: '*' :: (own ++ '*' :: '/' :: more), rfl, rfl, ⟨passes.openBlock, .block inBlock isGap⟩,
      solid⟩
  | case4 c text p _ _ isBlank ih =>
    obtain ⟨gap, rfl, rfl, ⟨passes, isRest⟩, solid⟩ := ih passed
    exact ⟨c :: gap, rfl, rfl, ⟨passes.blank isBlank, .blank isBlank isRest⟩, solid⟩
  | case5 c text p _ _ solid =>
    cases passed
    refine ⟨[], rfl, rfl, ⟨.nil, .nil⟩, ?_⟩
    intro d first
    cases first
    simpa using solid
  | case6 p =>
    cases passed
    exact ⟨[], rfl, rfl, ⟨.lineEnd, .lastLine rfl List.not_mem_nil⟩, by simp⟩
  | case7 text p ih =>
    obtain ⟨gap, rfl, rfl, ⟨passes, isRest⟩, solid⟩ := ih passed
    have nothing : '\n' ∉ ([] : List Char) := List.not_mem_nil
    exact ⟨'\n' :: gap, rfl, rfl, ⟨passes.closeLine, .line nothing isRest⟩, solid⟩
  | case8 c text p further ih =>
    obtain ⟨gap, rfl, rfl, ⟨passes, isRest⟩, solid⟩ := ih passed
    exact ⟨c :: gap, rfl, rfl, ⟨passes.inLine further, isRest.inLine further⟩, solid⟩
  | case9 start p => cases passed
  | case10 start text p ih =>
    obtain ⟨gap, rfl, rfl, ⟨passes, isRest⟩, solid⟩ := ih passed
    exact ⟨'*' :: '/' :: gap, rfl, rfl, ⟨passes.closeBlock, [], gap, rfl, by simp, isRest⟩, solid⟩
  | case11 start c text p further ih =>
    obtain ⟨gap, rfl, rfl, ⟨passes, isRest⟩, solid⟩ := ih passed
    -- If the comment ended here in the gap, it would end here in the text.
    have open_ (more : List Char) (star : c = '*') (slash : gap = '/' :: more) : False :=
      further (more ++ rest) star (by rw [slash]; rfl)
    exact ⟨c :: gap, rfl, rfl, ⟨passes.inBlock open_, isRest.inBlock open_⟩, solid⟩

/-! ## Strings and segments -/

theorem scanString_eq_some {quote : Char} {cs rest read : List Char} {p q : Position} {text : String}
    (scanned : scanString quote cs p read = (some text, ⟨rest, q⟩)) :
    ∃ own, cs = own ++ rest ∧ q = p.advance own ∧
      ∀ p', scanString quote own p' read = (some text, ⟨[], p'.advance own⟩) := by
  fun_induction scanString quote cs p read with
  | case1 p read => cases scanned
  | case2 more p read =>
    cases scanned
    refine ⟨[quote], rfl, rfl, ?_⟩
    intro p'
    simp [scanString.eq_def]
  | case3 p read => cases scanned
  | case4 p read e more escape ih =>
    obtain ⟨own, rfl, rfl, alone⟩ := ih scanned
    refine ⟨backslash :: e :: own, rfl, rfl, ?_⟩
    intro p'
    rw [scanString.eq_def]
    simp only [if_neg escape, if_true]
    exact alone _
  | case5 c more p read notQuote notEscape ih =>
    obtain ⟨own, rfl, rfl, alone⟩ := ih scanned
    refine ⟨c :: own, rfl, rfl, ?_⟩
    intro p'
    rw [scanString.eq_def]
    simp only [if_neg notQuote, if_neg notEscape]
    exact alone _

/-- The segment has come to its end. -/
def Segment.isClosed : Segment → Bool
  | .unterminated => false
  | _ => true

theorem scanSegment_isClosed {cs read : List Char} {p : Position} {segment : Segment} {after : Cursor}
    (scanned : scanSegment cs p read = (segment, after)) (closed : segment.isClosed = true) :
    ∃ own, cs = own ++ after.rest ∧ after.position = p.advance own := by
  fun_induction scanSegment cs p read with
  | case1 p read =>
    cases scanned
    cases closed
  | case2 rest p read =>
    cases scanned
    exact ⟨['$', '{'], rfl, rfl⟩
  | case3 rest p read =>
    cases scanned
    exact ⟨[backTick], rfl, rfl⟩
  | case4 p read =>
    cases scanned
    cases closed
  | case5 p read e rest _ _ ih =>
    obtain ⟨own, split, moved⟩ := ih scanned
    exact ⟨backslash :: e :: own, congrArg (backslash :: e :: ·) split, moved⟩
  | case6 c rest p read _ _ _ ih =>
    obtain ⟨own, split, moved⟩ := ih scanned
    exact ⟨c :: own, congrArg (c :: ·) split, moved⟩

/-! ## Tokens -/

/-- The second lexer has taken some characters from where the first one stands. -/
structure Spans (l l' : Lexer) (own : List Char) : Prop where
  rest : l.cursor.rest = own ++ l'.cursor.rest
  position : l'.cursor.position = l.cursor.position.advance own
  start : l'.start = l.start
  ahead : l'.ahead = l.ahead

/-- By themselves the characters are read as the token. -/
def Alone (own : List Char) (t : Token) : Prop :=
  ∀ l : Lexer, l.interpolations = [] → l.cursor.rest = own → Scanned l.scanToken t []

variable {l l' : Lexer} {t : Token} {c : Char} {rest : List Char}

theorem skip_spans (own : List Char) (here : l.cursor.rest = own ++ rest) :
    l.Spans { l with cursor := l.cursor.skip own.length } own := by
  have skipped := skip_append own rest l.cursor.position
  rw [← here] at skipped
  refine ⟨?_, ?_, rfl, rfl⟩
  · rw [here]
    exact congrArg (own ++ ·.rest) skipped.symm
  · exact congrArg (·.position) skipped

/-- A run ends where its class of characters does. -/
theorem scanRun_spans {belongs : Char → Bool} {token : List Char → Token}
    (scanned : l.scanRun belongs token = (.ok t, l')) (here : l.cursor.rest = c :: rest)
    (first : belongs c = true) :
    ∃ own, l.Spans l' (c :: own) ∧ t = token (c :: own) ∧ ∀ d ∈ c :: own, belongs d = true := by
  have run : l.cursor.rest.takeWhile belongs = c :: rest.takeWhile belongs := by
    rw [here, List.takeWhile_cons_of_pos first]
  unfold scanRun at scanned
  rw [run] at scanned
  cases scanned
  have split : l.cursor.rest = (c :: rest.takeWhile belongs) ++ rest.dropWhile belongs := by
    rw [here, List.cons_append, List.takeWhile_append_dropWhile]
  refine ⟨rest.takeWhile belongs, skip_spans _ split, rfl, ?_⟩
  rw [← run]
  exact List.all_eq_true.1 List.all_takeWhile

theorem isTemplate_of_scanTemplate {after : Cursor} (scanned : l.scanTemplate after = (.ok t, l')) :
    t.isTemplate = true := by
  simp only [scanTemplate] at scanned
  split at scanned <;> cases scanned <;> rfl

theorem spelling_of_ofPair? {c d : Char} {mark : Punctuator} (found : Punctuator.ofPair? c d = some mark) :
    mark.spelling.toList = [c, d] := by
  unfold Punctuator.ofPair? at found
  split at found <;> cases found <;> rfl

theorem spelling_of_ofChar? {c : Char} {mark : Punctuator} (found : Punctuator.ofChar? c = some mark) :
    mark.spelling.toList = [c] := by
  unfold Punctuator.ofChar? at found
  split at found <;> cases found <;> rfl

/-! ### Tokens by themselves -/

theorem alone_punctuator {mark : Punctuator} {own : List Char} (spelled : mark.spelling.toList = own) :
    Alone own (.punctuator mark) := by
  intro l plain here
  apply scanned_punctuator plain (by simp)
  rw [here, spelled, List.append_nil]

theorem alone_number {own : List Char} (digits : IsDigits own) :
    Alone own (.number (Number.ofDigits own)) := by
  intro l plain here
  apply scanned_number plain _ digits (by simp)
  rw [here, List.append_nil]

theorem alone_word {own : List Char} (isWord : IsWord own) : Alone own (word (String.ofList own)) := by
  intro l plain here
  apply scanned_word plain _ isWord (by simp)
  rw [here, List.append_nil]

theorem alone_string {quote : Char} (isQuote : quote = doubleQuote ∨ quote = singleQuote)
    {own : List Char} {text : String}
    (closed : ∀ p, scanString quote own p [] = (some text, ⟨[], p.advance own⟩)) :
    Alone (quote :: own) (.string text) := by
  intro l plain here
  have digit : Number.isDigit quote = false := by rcases isQuote with rfl | rfl <;> rfl
  have name : isNameStart quote = false := by rcases isQuote with rfl | rfl <;> rfl
  refine ⟨{ l with cursor := ⟨[], (l.cursor.position.next quote).advance own⟩ }, ?_, rfl, plain⟩
  rw [scanToken, here]
  simp [digit, name, isQuote, closed]

theorem word_isTemplate (name : String) : (word name).isTemplate = false := by
  unfold word
  split <;> rfl

/-- A slash is taken alone. -/
theorem eq_nil_of_slash {mark : Punctuator} {own : List Char} (spelled : mark.spelling.toList = '/' :: own) :
    own = [] := by
  cases spelling_cases mark with
  | inl single =>
    obtain ⟨d, same, _⟩ := single
    rw [spelled] at same
    cases same
    rfl
  | inr pair =>
    obtain ⟨d, e, same, joined⟩ := pair
    rw [spelled] at same
    cases same
    cases joined

/-- What a token consists of that is no segment of a template. -/
inductive Consists : List Char → Token → Prop where
  | number {own : List Char} (digits : IsDigits own) : Consists own (.number (Number.ofDigits own))
  | word {own : List Char} (isWord : IsWord own) : Consists own (word (String.ofList own))
  | string {quote : Char} (isQuote : quote = doubleQuote ∨ quote = singleQuote) {own : List Char}
      {text : String} (closed : ∀ p, scanString quote own p [] = (some text, ⟨[], p.advance own⟩)) :
      Consists (quote :: own) (.string text)
  | punctuator {own : List Char} {mark : Punctuator} (spelled : mark.spelling.toList = own) :
      Consists own (.punctuator mark)

namespace Consists

variable {own : List Char}

theorem alone (consists : Consists own t) : Alone own t := by
  cases consists with
  | number digits => exact alone_number digits
  | word isWord => exact alone_word isWord
  | string isQuote closed => exact alone_string isQuote closed
  | punctuator spelled => exact alone_punctuator spelled

theorem isTemplate (consists : Consists own t) : t.isTemplate = false := by
  cases consists with
  | word => exact word_isTemplate _
  | number | string | punctuator => rfl

/-- A token that begins with a character of punctuators is one. -/
theorem spelling (consists : Consists (c :: own) t) (symbol : isSymbol c = true) :
    ∃ mark : Punctuator, mark.spelling.toList = c :: own := by
  simp only [isSymbol, Bool.and_eq_true, Bool.not_eq_true', decide_eq_true_eq] at symbol
  obtain ⟨⟨⟨⟨⟨_, noDigit⟩, noName⟩, noDouble⟩, noSingle⟩, _⟩ := symbol
  generalize here : c :: own = all at consists
  cases consists with
  | number digits =>
    rw [digits.2 c (here ▸ .head _)] at noDigit
    cases noDigit
  | word isWord =>
    obtain ⟨d, more, rfl, starts, _⟩ := isWord
    cases here
    rw [starts] at noName
    cases noName
  | string isQuote =>
    cases here
    exact absurd isQuote (by simp [noDouble, noSingle])
  | @punctuator _ mark spelled => exact ⟨mark, spelled⟩

/-- A slash is taken alone. -/
theorem slash (consists : Consists ('/' :: own) t) : own = [] := by
  obtain ⟨mark, spelled⟩ := consists.spelling (by decide)
  exact eq_nil_of_slash spelled

end Consists

/-- A segment of a template is read behind the back-tick or the brace at which it begins. -/
structure Continues (l : Lexer) (c : Char) (rest : List Char) (t : Token) (l' : Lexer) : Prop where
  mark : c = backTick ∨ c = '}' ∧ l.interpolations ≠ []
  segment : (∃ text, t = .templateEnd text ∧
      scanSegment rest (l.cursor.position.next c) [] = (.closed text, l'.cursor)) ∨
    ∃ text, t = .templateStart text ∧
      scanSegment rest (l.cursor.position.next c) [] = (.opened text, l'.cursor)

theorem Continues.isTemplate (continues : l.Continues c rest t l') : t.isTemplate = true := by
  rcases continues.segment with ⟨text, rfl, _⟩ | ⟨text, rfl, _⟩ <;> rfl

theorem Resumes.mark {interpolations : List Nat} (resumes : l.Resumes c interpolations) :
    c = backTick ∨ c = '}' ∧ l.interpolations ≠ [] := by
  obtain ⟨tick, _⟩ | ⟨right, inside⟩ := resumes
  · exact .inl tick
  · exact .inr ⟨right, by simp [inside]⟩

/-- A token that begins right here, and what it consists of. -/
theorem scanToken_consists (here : l.cursor.rest = c :: rest) (scanned : l.scanToken = (.ok t, l')) :
    ∃ own, l.Spans l' (c :: own) ∧ (Consists (c :: own) t ∨ l.Continues c rest t l') := by
  have branch := scanToken_branch here
  generalize l.scanToken = answer at scanned branch
  cases branch with
  | number digit =>
    obtain ⟨own, spans, rfl, all⟩ := scanRun_spans scanned here digit
    exact ⟨own, spans, .inl (.number ⟨by simp, all⟩)⟩
  | word starts =>
    obtain ⟨own, spans, rfl, all⟩ := scanRun_spans scanned here (by simp [isNamePart, starts])
    exact ⟨own, spans, .inl (.word ⟨c, own, rfl, starts, fun d member => all d (.tail _ member)⟩)⟩
  | string isQuote closed =>
    cases scanned
    obtain ⟨own, rfl, moved, alone⟩ := scanString_eq_some closed
    exact ⟨own, ⟨here, moved, rfl, rfl⟩, .inl (.string isQuote alone)⟩
  | templateEnd resumes closed =>
    cases scanned
    obtain ⟨own, split, moved⟩ := scanSegment_isClosed closed rfl
    exact ⟨own, ⟨here.trans (congrArg (c :: ·) split), moved, rfl, rfl⟩,
      .inr ⟨resumes.mark, .inl ⟨_, rfl, closed⟩⟩⟩
  | templateStart resumes opened =>
    cases scanned
    obtain ⟨own, split, moved⟩ := scanSegment_isClosed opened rfl
    exact ⟨own, ⟨here.trans (congrArg (c :: ·) split), moved, rfl, rfl⟩,
      .inr ⟨resumes.mark, .inr ⟨_, rfl, opened⟩⟩⟩
  | brace spelled =>
    cases scanned
    exact ⟨[], ⟨here, rfl, rfl, rfl⟩, .inl (.punctuator spelled)⟩
  | @pair d _ _ follows joined =>
    cases scanned
    exact ⟨[d], ⟨by rw [here, follows]; rfl, rfl, rfl, rfl⟩,
      .inl (.punctuator (spelling_of_ofPair? joined))⟩
  | single found =>
    cases scanned
    exact ⟨[], ⟨here, rfl, rfl, rfl⟩, .inl (.punctuator (spelling_of_ofChar? found))⟩
  | openString | openTemplate | unexpected => cases scanned

theorem scanToken_spans (here : l.cursor.rest = c :: rest) (scanned : l.scanToken = (.ok t, l')) :
    ∃ own, l.Spans l' (c :: own) ∧
      (t.isTemplate = false → Alone (c :: own) t ∧ (c = '/' → own = [])) := by
  obtain ⟨own, spans, consists | continues⟩ := scanToken_consists here scanned
  · refine ⟨own, spans, fun _ => ⟨consists.alone, ?_⟩⟩
    rintro rfl
    exact consists.slash
  · refine ⟨own, spans, fun plain => ?_⟩
    rw [continues.isTemplate] at plain
    cases plain

/-! ## Reading on -/

/-- How a lexer reads a token: it passes a gap and takes what the token consists of. -/
structure Reads (l : Lexer) (gap own : List Char) (t : Token) (l' : Lexer) : Prop where
  rest : l.cursor.rest = gap ++ (own ++ l'.cursor.rest)
  start : l'.start = l.cursor.position.advance gap
  position : l'.cursor.position = l'.start.advance own
  ahead : l'.ahead = l.ahead
  filled : IsGap (t = .eof) gap
  gap : Passes .blank gap
  /-- At the end there is nothing left, and no interpolation is open. -/
  eof : t = .eof → own = [] ∧ l'.cursor.rest = [] ∧ l'.interpolations = []
  /-- A token has characters, and reads by itself. -/
  token : t ≠ .eof → own ≠ [] ∧ (t.isTemplate = false →
    ∀ l : Lexer, l.interpolations = [] → l.cursor.rest = own → Scanned l.scan t [])

/-- Where a token begins by itself there is no gap. -/
theorem Alone.scan {own : List Char} (alone : Alone (c :: own) t) (solid : Text.isBlank c = false)
    (slash : c = '/' → own = []) (plain : l.interpolations = []) (here : l.cursor.rest = c :: own) :
    Scanned l.scan t [] := by
  have code : c = '/' → ∀ d, own.head? = some d → d ≠ '/' ∧ d ≠ '*' := by
    intro isSlash d first
    rw [slash isSlash] at first
    cases first
  rw [Lexer.scan, here, skipGap_solid solid code]
  exact alone _ plain rfl

theorem scan_reads (scanned : l.scan = (.ok t, l')) : ∃ gap own, l.Reads gap own t l' := by
  rcases scan_eq_ok scanned with ⟨rfl, closed, p, rfl, passed⟩ | ⟨isToken, c, rest, p, passed, token⟩
  · obtain ⟨gap, split, rfl, ⟨passes, isGap⟩, _⟩ := skipGap_eq_none passed
    exact ⟨gap, [], split, rfl, rfl, rfl, isGap.mono fun _ => rfl, passes, fun _ => ⟨rfl, rfl, closed⟩,
      fun token => absurd rfl token⟩
  · obtain ⟨gap, split, rfl, ⟨passes, isGap⟩, solid⟩ := skipGap_eq_none passed
    have filled : IsGap (t = .eof) gap := isGap.mono fun nothing => absurd nothing (List.cons_ne_nil _ _)
    obtain ⟨own, spans, alone⟩ := scanToken_spans rfl token
    have left : c :: rest = (c :: own) ++ l'.cursor.rest := spans.rest
    refine ⟨gap, c :: own, ?_, spans.start, ?_, spans.ahead, filled, passes,
      fun eof => absurd eof isToken, ?_⟩
    · rw [split, left]
    · rw [spans.start]
      exact spans.position
    · refine fun _ => ⟨by simp, fun plain l inCode here => ?_⟩
      exact (alone plain).1.scan (solid c rfl) (alone plain).2 inCode here

/-- At the end a lexer stays where it is. -/
theorem scan_at_end (nothing : l.cursor.rest = []) (closed : l.interpolations = []) :
    l.scan = (.ok .eof, { l with start := l.cursor.position }) := by
  obtain ⟨⟨rest, position⟩, start, interpolations, segment, ahead⟩ := l
  cases nothing
  cases closed
  rfl

theorem next_eq_scan (fresh : l.ahead = none) : l.next = l.scan := by
  rw [Lexer.next, fresh]

/-- Tokens are taken one by one, each with its start and with the offset behind it. -/
inductive Takes : Lexer → List Lexeme → Lexer → Prop where
  | nil (l : Lexer) : Takes l [] l
  | cons {l mid last : Lexer} {t : Token} {rest : List Lexeme} : l.next = (.ok t, mid) →
      Takes mid rest last → Takes l (⟨t, mid.start, mid.offset⟩ :: rest) last

/-- All that a lexer will ever read. -/
inductive Delivers : Lexer → Stream → Prop where
  | lexeme {l l' : Lexer} {t : Token} {s : Stream} : l.scan = (.ok t, l') → t ≠ .eof →
      Delivers l' s → Delivers l (.lexeme ⟨t, l'.start, l'.offset⟩ s)
  | done {l l' : Lexer} : l.scan = (.ok .eof, l') → Delivers l (.done l'.start)
  | failed {l l' : Lexer} {e : LexError} : l.scan = (.error e, l') → Delivers l (.failed e)

/-- Every token takes a character, so the number of characters is a bound for that of the tokens. -/
theorem delivers_streamUpTo {n : Nat} (enough : l.cursor.rest.length < n) :
    l.Delivers (l.streamUpTo n) := by
  induction n generalizing l with
  | zero => omega
  | succ n ih =>
    unfold streamUpTo
    split
    · next scanned => exact .failed scanned
    · next scanned => exact .done scanned
    · next t l' ne_eof scanned =>
      obtain ⟨gap, own, reads⟩ := scan_reads scanned
      apply Delivers.lexeme scanned ne_eof
      apply ih
      have nonempty := List.length_pos_iff.2 (reads.token ne_eof).1
      rw [reads.rest] at enough
      simp only [List.length_append] at enough
      omega

theorem delivers_ofSource (source : String) :
    (Lexer.ofSource source).Delivers (Stream.ofSource source) := by
  apply delivers_streamUpTo
  rw [Lexer.ofSource, String.length_toList]
  exact Nat.lt_succ_self _

end Lexer

end TinyScript
