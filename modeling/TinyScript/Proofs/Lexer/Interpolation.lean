import Mathlib.Algebra.Ring.Nat
import TinyScript.Proofs.Lexer.Scan

/-! # Text inside an interpolation

A text that stands in an interpolation, with a line break and the closing brace behind it, is read as it is
by itself, token by token (`Lexer.Embedded.lists`), if it closes no more braces than it opens: the lexer
counts the braces of the text on top of its own interpolations, and takes the closing brace for the end of
this one when the count is down again.
-/

namespace TinyScript

/-! ## Braces -/

/-- How many braces are open behind a token, if so many are open before it. -/
def Token.braces (depth : Nat) : Token → Option Nat
  | .punctuator .leftBrace => some (depth + 1)
  | .punctuator .rightBrace => if depth = 0 then none else some (depth - 1)
  | _ => some depth

theorem Token.braces_rightBrace {depth total : Nat}
    (counted : (Token.punctuator .rightBrace).braces depth = some total) : depth = total + 1 := by
  simp only [Token.braces] at counted
  split at counted
  · cases counted
  · cases counted
    omega

theorem Token.braces_of_isTemplate {t : Token} (template : t.isTemplate = true) (depth : Nat) :
    t.braces depth = some depth := by
  cases t with
  | punctuator => cases template
  | _ => rfl

theorem Token.braces_word (name : String) (depth : Nat) : (Lexer.word name).braces depth = some depth := by
  unfold Lexer.word
  split <;> rfl

/-- Only the two braces count. -/
theorem Token.braces_punctuator {mark : Punctuator} {c : Char} {own : List Char}
    (spelled : mark.spelling.toList = c :: own) (noLeft : c ≠ '{') (noRight : c ≠ '}') (depth : Nat) :
    (Token.punctuator mark).braces depth = some depth := by
  cases mark with
  | leftBrace =>
    cases spelled
    exact absurd rfl noLeft
  | rightBrace =>
    cases spelled
    exact absurd rfl noRight
  | _ => rfl

/-- The tokens lead from so many open braces to so many others, and close none but these. -/
def Shifts (before after : Nat) (ts : List Token) : Prop :=
  ∀ depth, ts.foldlM Token.braces (before + depth) = some (after + depth)

/-- A token that begins with neither brace is none. -/
theorem Lexer.Consists.braces {c : Char} {own : List Char} {t : Token} (consists : Consists (c :: own) t)
    (noLeft : c ≠ '{') (noRight : c ≠ '}') (depth : Nat) : t.braces depth = some depth := by
  generalize here : c :: own = all at consists
  cases consists with
  | word => exact Token.braces_word _ depth
  | number | string => rfl
  | punctuator spelled =>
    subst here
    exact Token.braces_punctuator spelled noLeft noRight depth

namespace Lexer

/-! ## Longer texts -/

/-- Whatever was passed is passed if the text goes on in a new line, and if that was all, then so is the
line break. -/
theorem skipGap_append {g g' : Gap} (like : g.Like g') {cs rest : List Char} {p q : Position}
    (passed : skipGap g cs p = (none, ⟨rest, q⟩)) (tail : List Char) (p' : Position) :
    ∃ q', skipGap g' (cs ++ '\n' :: tail) p' =
      if rest = [] then skipGap .blank tail q' else (none, ⟨rest ++ '\n' :: tail, q'⟩) := by
  have blank {c : Char} (isBlank : Text.isBlank c = true) (cs : List Char) (p : Position) :
      skipGap .blank (c :: cs) p = skipGap .blank cs (p.next c) := by
    have one : IsBlank [c] := by simpa [IsBlank] using isBlank
    exact skipGap_blank one cs p
  fun_induction skipGap g cs p generalizing g' p' with
  | case1 p =>
    cases like
    cases passed
    exact ⟨p'.next '\n', blank (by decide) tail p'⟩
  | case2 text p ih =>
    cases like
    exact ih .line passed _
  | case3 text p ih =>
    cases like
    exact ih (.block p p') passed _
  | case4 c text p _ _ isBlank ih =>
    cases like
    rw [List.cons_append, blank isBlank]
    exact ih .blank passed _
  | case5 c text p noLine noBlock solid =>
    cases like
    cases passed
    refine ⟨p', ?_⟩
    have code : c = '/' → ∀ d, (text ++ '\n' :: tail).head? = some d → d ≠ '/' ∧ d ≠ '*' := by
      rintro rfl d first
      cases text with
      | nil =>
        cases first
        decide
      | cons e text =>
        cases first
        exact ⟨fun slash => noLine text rfl (by rw [slash]), fun star => noBlock text rfl (by rw [star])⟩
    rw [List.cons_append, skipGap_solid (by simpa using solid) code, if_neg (by simp)]
  | case6 p =>
    cases like
    cases passed
    exact ⟨p'.next '\n', rfl⟩
  | case7 text p ih =>
    cases like
    exact ih .blank passed _
  | case8 c text p further ih =>
    cases like
    rw [List.cons_append, skipGap, if_neg further]
    exact ih .line passed _
  | case9 start p => cases passed
  | case10 start text p ih =>
    cases like
    exact ih .blank passed _
  | case11 start c text p further ih =>
    cases like with
    | block _ start' =>
      rw [List.cons_append, skipGap]
      · exact ih (.block start start') passed _
      · rintro rest star slash
        cases text with
        | nil => cases slash
        | cons d text =>
          cases slash
          exact further text star rfl

theorem scanString_append {quote : Char} {cs rest read : List Char} {p q : Position} {text : String}
    (scanned : scanString quote cs p read = (some text, ⟨rest, q⟩)) (tail : List Char) (p' : Position) :
    ∃ q', scanString quote (cs ++ tail) p' read = (some text, ⟨rest ++ tail, q'⟩) := by
  fun_induction scanString quote cs p read generalizing p' with
  | case1 p read => cases scanned
  | case2 more p read =>
    cases scanned
    refine ⟨p'.next quote, ?_⟩
    rw [List.cons_append, scanString.eq_def]
    exact if_pos rfl
  | case3 p read => cases scanned
  | case4 p read e more escape ih =>
    rw [List.cons_append, List.cons_append, scanString.eq_def]
    simp only [if_neg escape, if_true]
    exact ih scanned _
  | case5 c more p read notQuote notEscape ih =>
    rw [List.cons_append, scanString.eq_def]
    simp only [if_neg notQuote, if_neg notEscape]
    exact ih scanned _

theorem scanSegment_tick (rest : List Char) (p : Position) (read : List Char) :
    scanSegment (backTick :: rest) p read =
      (.closed (String.ofList read.reverse), ⟨rest, p.next backTick⟩) := by
  rw [scanSegment.eq_def]
  rfl

theorem scanSegment_escape (e : Char) (rest : List Char) (p : Position) (read : List Char) :
    scanSegment (backslash :: e :: rest) p read =
      scanSegment rest ((p.next backslash).next e) (unescape e :: read) := by
  rw [scanSegment.eq_def]
  rfl

theorem scanSegment_char {c : Char} {rest : List Char} (noOpening : c = '$' → rest.head? ≠ some '{')
    (noTick : c ≠ backTick) (noEscape : c ≠ backslash) (p : Position) (read : List Char) :
    scanSegment (c :: rest) p read = scanSegment rest (p.next c) (c :: read) := by
  rw [scanSegment.eq_def]
  split
  · next nothing => cases nothing
  · next dollar =>
    cases dollar
    exact absurd rfl (noOpening rfl)
  · next other =>
    cases other
    rw [if_neg noTick, if_neg noEscape]

theorem scanSegment_append {cs rest read : List Char} {p q : Position} {segment : Segment}
    (scanned : scanSegment cs p read = (segment, ⟨rest, q⟩)) (closed : segment.isClosed = true)
    (tail : List Char) (p' : Position) :
    ∃ q', scanSegment (cs ++ tail) p' read = (segment, ⟨rest ++ tail, q'⟩) := by
  fun_induction scanSegment cs p read generalizing p' with
  | case1 p read =>
    cases scanned
    cases closed
  | case2 more p read =>
    cases scanned
    exact ⟨(p'.next '$').next '{', rfl⟩
  | case3 more p read =>
    cases scanned
    exact ⟨p'.next backTick, scanSegment_tick ..⟩
  | case4 p read =>
    cases scanned
    cases closed
  | case5 p read e more _ _ ih =>
    rw [List.cons_append, List.cons_append, scanSegment_escape]
    exact ih scanned _
  | case6 c more p read noOpening noTick noEscape ih =>
    rw [List.cons_append, scanSegment_char _ noTick noEscape]
    · exact ih scanned _
    · rintro dollar first
      cases more with
      | nil =>
        cases scanned
        cases closed
      | cons d more =>
        cases first
        exact noOpening more dollar rfl

/-! ## Side by side -/

/-- The second lexer reads the text of the first one inside an interpolation, in which so many braces are
open by now outside of the interpolations of the text; the brace that closes it has something behind it. -/
structure Embedded (behind : List Char) (depth : Nat) (l l' : Lexer) : Prop where
  rest : l'.cursor.rest = l.cursor.rest ++ '\n' :: '}' :: behind
  interpolations : l'.interpolations = l.interpolations ++ [depth]

/-- The second lexer has read the same token, after which so many braces are open. -/
def Follows (behind : List Char) (total : Nat) (t : Token) (m : Lexer)
    (result : Except LexError Token × Lexer) : Prop :=
  ∃ depth m', result = (.ok t, m') ∧ Embedded behind depth m m' ∧ depth + m.interpolations.sum = total

namespace Embedded

variable {behind : List Char} {depth : Nat} {l l' m : Lexer} {t : Token} {c : Char} {rest : List Char}

theorem scanRun (embedded : Embedded behind depth l l') {belongs : Char → Bool}
    {token : List Char → Token} (scanned : l.scanRun belongs token = (.ok t, m))
    (apart : belongs '\n' = false) :
    Follows behind (depth + l.interpolations.sum) t m (l'.scanRun belongs token) := by
  obtain ⟨⟨text, p⟩, start, interpolations, segment, ahead⟩ := l
  obtain ⟨⟨text', p'⟩, start', interpolations', segment', ahead'⟩ := l'
  obtain ⟨rfl, rfl⟩ := embedded
  obtain ⟨own, left, rfl, all, stops⟩ : ∃ own left, text = own ++ left ∧ (∀ c ∈ own, belongs c = true) ∧
      ∀ c, left.head? = some c → belongs c = false := by
    refine ⟨text.takeWhile belongs, text.dropWhile belongs, List.takeWhile_append_dropWhile.symm,
      List.all_eq_true.1 List.all_takeWhile, fun c first => ?_⟩
    simpa [first] using List.head?_dropWhile_not belongs text
  have stops' : ∀ c, (left ++ '\n' :: '}' :: behind).head? = some c → belongs c = false := by
    cases left with
    | nil =>
      rintro c ⟨⟩
      exact apart
    | cons d left => exact stops
  simp only [Lexer.scanRun, List.append_assoc, takeWhile_run all stops, takeWhile_run all stops',
    skip_append] at scanned ⊢
  cases scanned
  exact ⟨depth, _, rfl, ⟨rfl, rfl⟩, rfl⟩

theorem scanTemplate (embedded : Embedded behind depth l l') {p p' : Position}
    (scanned : l.scanTemplate ⟨rest, p⟩ = (.ok t, m)) :
    Follows behind (depth + l.interpolations.sum) t m
      (l'.scanTemplate ⟨rest ++ '\n' :: '}' :: behind, p'⟩) := by
  simp only [Lexer.scanTemplate] at scanned
  split at scanned
  · next segment =>
    cases scanned
    obtain ⟨q, same⟩ := scanSegment_append segment rfl ('\n' :: '}' :: behind) p'
    simp only [Lexer.scanTemplate, same]
    exact ⟨depth, _, rfl, ⟨rfl, embedded.interpolations⟩, rfl⟩
  · next segment =>
    cases scanned
    obtain ⟨q, same⟩ := scanSegment_append segment rfl ('\n' :: '}' :: behind) p'
    simp only [Lexer.scanTemplate, same]
    exact ⟨depth, _, rfl, ⟨rfl, congrArg (0 :: ·) embedded.interpolations⟩, by simp⟩
  · cases scanned

theorem scanPunctuator (embedded : Embedded behind depth l l') {p p' : Position}
    (scanned : l.scanPunctuator c ⟨rest, p⟩ = (.ok t, m)) :
    Follows behind (depth + l.interpolations.sum) t m
      (l'.scanPunctuator c ⟨rest ++ '\n' :: '}' :: behind, p'⟩) := by
  have alone : Punctuator.ofPair? c '\n' = none := by
    unfold Punctuator.ofPair?
    split <;> simp_all
  have pair : (rest ++ '\n' :: '}' :: behind).head?.bind (Punctuator.ofPair? c) =
      rest.head?.bind (Punctuator.ofPair? c) := by
    cases rest with
    | nil => exact alone
    | cons d rest => rfl
  unfold Lexer.scanPunctuator at scanned ⊢
  simp only [pair]
  split at scanned
  · next mark found =>
    cases scanned
    obtain ⟨d, first, _⟩ := Option.bind_eq_some_iff.1 found
    obtain ⟨more, rfl⟩ := List.head?_eq_some_iff.1 first
    simp only [found]
    exact ⟨depth, _, rfl, ⟨rfl, embedded.interpolations⟩, rfl⟩
  · next single =>
    simp only [single]
    split at scanned
    · cases scanned
      exact ⟨depth, _, rfl, ⟨rfl, embedded.interpolations⟩, rfl⟩
    · cases scanned

/-- A brace is counted for the innermost interpolation, which may be the one around the text. -/
theorem leftBrace (embedded : Embedded behind depth l l') (here : l.cursor.rest = '{' :: rest)
    (scanned : l.scanToken = (.ok t, m)) {total : Nat}
    (counted : t.braces (depth + l.interpolations.sum) = some total) :
    Follows behind total t m l'.scanToken := by
  obtain ⟨⟨text, p⟩, start, interpolations, segment, ahead⟩ := l
  obtain ⟨⟨text', p'⟩, start', interpolations', segment', ahead'⟩ := l'
  obtain ⟨rfl, rfl⟩ := embedded
  cases here
  cases scanned
  cases counted
  cases interpolations with
  | nil => exact ⟨depth + 1, _, rfl, ⟨rfl, rfl⟩, rfl⟩
  | cons open_ outer => exact ⟨depth, _, rfl, ⟨rfl, rfl⟩, by simp only [List.sum_cons]; omega⟩

theorem rightBrace (embedded : Embedded behind depth l l') (here : l.cursor.rest = '}' :: rest)
    (scanned : l.scanToken = (.ok t, m)) {total : Nat}
    (counted : t.braces (depth + l.interpolations.sum) = some total) :
    Follows behind total t m l'.scanToken := by
  obtain ⟨⟨text, p⟩, start, interpolations, segment, ahead⟩ := l
  obtain ⟨⟨text', p'⟩, start', interpolations', segment', ahead'⟩ := l'
  obtain ⟨rfl, rfl⟩ := embedded
  cases here
  match interpolations with
  | [] =>
    cases scanned
    obtain rfl : depth = total + 1 := Token.braces_rightBrace counted
    exact ⟨total, _, rfl, ⟨rfl, rfl⟩, rfl⟩
  | 0 :: outer =>
    have template : Lexer.scanTemplate ⟨⟨'}' :: rest, p⟩, start, outer, segment, ahead⟩
        ⟨rest, p.next '}'⟩ = (.ok t, m) := scanned
    rw [Token.braces_of_isTemplate (isTemplate_of_scanTemplate template)] at counted
    have inside : Embedded behind depth ⟨⟨'}' :: rest, p⟩, start, outer, segment, ahead⟩
        ⟨⟨'}' :: rest ++ '\n' :: '}' :: behind, p'⟩, start', outer ++ [depth], segment', ahead'⟩ := ⟨rfl, rfl⟩
    rw [List.sum_cons, Nat.zero_add] at counted
    cases counted
    exact inside.scanTemplate template
  | (open_ + 1) :: outer =>
    cases scanned
    have less := Token.braces_rightBrace counted
    refine ⟨depth, _, rfl, ⟨rfl, rfl⟩, ?_⟩
    simp only [List.sum_cons] at less ⊢
    omega

theorem scanToken (embedded : Embedded behind depth l l') (here : l.cursor.rest = c :: rest)
    (scanned : l.scanToken = (.ok t, m)) {total : Nat}
    (counted : t.braces (depth + l.interpolations.sum) = some total) :
    Follows behind total t m l'.scanToken := by
  by_cases left : c = '{'
  · subst left
    exact embedded.leftBrace here scanned counted
  by_cases right : c = '}'
  · subst right
    exact embedded.rightBrace here scanned counted
  have plain : t.braces (depth + l.interpolations.sum) = some (depth + l.interpolations.sum) := by
    obtain ⟨own, _, consists | continues⟩ := scanToken_consists here scanned
    · exact consists.braces left right _
    · exact Token.braces_of_isTemplate continues.isTemplate _
  cases plain.symm.trans counted
  -- Both lexers see the same first character, so they take the same branch.
  have here' : l'.cursor.rest = c :: (rest ++ '\n' :: '}' :: behind) := by
    rw [embedded.rest, here]
    rfl
  rw [Lexer.scanToken, here] at scanned
  rw [Lexer.scanToken, here']
  simp only [left, right, if_false] at scanned ⊢
  split at scanned
  · next digit =>
    rw [if_pos digit]
    exact embedded.scanRun scanned (by decide)
  next noDigit =>
  rw [if_neg noDigit]
  split at scanned
  · next starts =>
    rw [if_pos starts]
    exact embedded.scanRun scanned (by decide)
  next noName =>
  rw [if_neg noName]
  split at scanned
  · next isQuote =>
    rw [if_pos isQuote]
    split at scanned
    · next text after closed =>
      cases scanned
      obtain ⟨q, same⟩ := scanString_append closed ('\n' :: '}' :: behind) (l'.cursor.position.next c)
      simp only [same]
      exact ⟨depth, _, rfl, ⟨rfl, embedded.interpolations⟩, rfl⟩
    · cases scanned
  next noQuote =>
  rw [if_neg noQuote]
  split at scanned
  · next isTick =>
    rw [if_pos isTick]
    exact embedded.scanTemplate scanned
  next noTick =>
  rw [if_neg noTick]
  exact embedded.scanPunctuator scanned

/-- The brace that closes the only interpolation. -/
theorem scanToken_closing (here : l.cursor.rest = '}' :: rest) (single : l.interpolations = [0]) :
    l.scanToken = Lexer.scanTemplate { l with interpolations := [] } ⟨rest, l.cursor.position.next '}'⟩ := by
  obtain ⟨⟨text, p⟩, start, interpolations, segment, ahead⟩ := l
  cases here
  cases single
  rfl

/-- One token further. -/
theorem scan (embedded : Embedded behind depth l l') (scanned : l.scan = (.ok t, m)) (isToken : t ≠ .eof)
    {total : Nat} (counted : t.braces (depth + l.interpolations.sum) = some total) :
    Follows behind total t m l'.scan := by
  obtain ⟨_, c, rest, p, passed, token⟩ := (scan_eq_ok scanned).resolve_left fun eof => isToken eof.1
  obtain ⟨q, passed'⟩ := skipGap_append .blank passed ('}' :: behind) l'.cursor.position
  rw [Lexer.scan, embedded.rest, passed', if_neg (by simp)]
  have here : Embedded behind depth { l with cursor := ⟨c :: rest, p⟩, start := p }
      { l' with cursor := ⟨c :: rest ++ '\n' :: '}' :: behind, q⟩, start := q } :=
    ⟨rfl, embedded.interpolations⟩
  exact here.scanToken rfl token counted

/-- At the end of the text comes the brace that closes the interpolation, and template text behind it. -/
theorem scan_end (embedded : Embedded behind depth l l') (scanned : l.scan = (.ok .eof, m))
    (closed : depth + l.interpolations.sum = 0) : ∃ (inner : Lexer) (after : Cursor),
      l'.scan = inner.scanTemplate after ∧ inner.interpolations = [] ∧ after.rest = behind := by
  obtain ⟨_, nothing, p, _, passed⟩ := (scan_eq_ok scanned).resolve_right fun token => token.1 rfl
  obtain ⟨q, passed'⟩ := skipGap_append .blank passed ('}' :: behind) l'.cursor.position
  have brace : skipGap .blank ('}' :: behind) q = (none, ⟨'}' :: behind, q⟩) :=
    skipGap_solid (by decide) (fun slash => absurd slash (by decide)) q
  obtain rfl : depth = 0 := by omega
  have single : l'.interpolations = [0] := by
    rw [embedded.interpolations, nothing]
    rfl
  rw [Lexer.scan, embedded.rest, passed', if_pos rfl, brace]
  exact ⟨_, _, scanToken_closing rfl single, rfl, rfl⟩

end Embedded

/-! ## All tokens -/

/-- The tokens up to the end of the text. -/
inductive Lists : Lexer → List Token → Prop where
  | done {l l' : Lexer} : l.scan = (.ok .eof, l') → Lists l []
  | token {l l' : Lexer} {t : Token} {ts : List Token} : l.scan = (.ok t, l') → t ≠ .eof → Lists l' ts →
      Lists l (t :: ts)

/-- A text in an interpolation is read as it is by itself, and then the template text behind it. -/
theorem Embedded.lists {behind : List Char} {l l' : Lexer} {ts : List Token} (lists : l.Lists ts) {depth : Nat}
    (embedded : Embedded behind depth l l')
    (balanced : ts.foldlM Token.braces (depth + l.interpolations.sum) = some 0) {t : Token} {us : List Token}
    (isToken : t ≠ .eof) (further : ∀ (inner : Lexer) (after : Cursor), inner.interpolations = [] →
      after.rest = behind → ∃ m, inner.scanTemplate after = (.ok t, m) ∧ m.Lists us) :
    l'.Lists (ts ++ t :: us) := by
  induction lists generalizing depth l' with
  | done scanned =>
    obtain ⟨inner, after, read, none, here⟩ := embedded.scan_end scanned (Option.some.inj balanced)
    obtain ⟨m, segment, rest⟩ := further inner after none here
    exact .token (read.trans segment) isToken rest
  | @token l m first ts scanned firstToken _ ih =>
    rw [List.foldlM_cons] at balanced
    obtain ⟨total, counted, rest⟩ := Option.bind_eq_some_iff.1 balanced
    obtain ⟨depth', m', read, inside, rfl⟩ := embedded.scan scanned firstToken counted
    exact .token read firstToken (ih inside rest)

end Lexer

end TinyScript
