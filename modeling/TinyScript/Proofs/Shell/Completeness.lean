import Mathlib.Algebra.BigOperators.Group.List.Basic
import TinyScript.Proofs.Lexer.Interpolation
import TinyScript.Proofs.Lexer.OpenTemplates
import TinyScript.Proofs.Parser.Brackets
import TinyScript.Shell.Complete

/-! # The check for completeness and the lexer

The check goes through the characters of a text once and knows neither tokens nor interpolations: a template
is quoted text to it, up to the next back-tick.  Outside of interpolations it keeps step with the lexer, gap
by gap and token by token (`Shell.completeFrom_outside`).  While the lexer reads tokens in an interpolation
the check is still in the template (`Shell.completeFrom_inside`), and the two meet again at the brace that
ends the interpolation, unless a back-tick stands before it (`ClearInterpolations`).  So the check counts the
brackets outside of interpolations (`isComplete_eq_weight`), of which a program closes at least as many as it
opens.
-/

namespace TinyScript

namespace Shell

open Lexer (backTick skipGap scanString scanSegment)

/-! ## Characters -/

variable {c : Char} {own rest : List Char} {depth : Int32}

theorem completeFrom_cons (noQuote : isQuote c = false)
    (noComment : c = '/' → ∀ d, rest.head? = some d → d ≠ '/' ∧ d ≠ '*') :
    completeFrom .code depth (c :: rest) = completeFrom .code (depth + .ofInt (bracketDepth c)) rest := by
  rw [completeFrom, noQuote]
  · rfl
  all_goals
    rintro _ rfl rfl
    exact absurd (noComment rfl _ rfl) (by simp)

/-- A character that is nothing but itself to the check. -/
def IsPlain (c : Char) : Prop := isQuote c = false ∧ c ≠ '/'

instance : DecidablePred IsPlain := fun c => inferInstanceAs (Decidable (isQuote c = false ∧ c ≠ '/'))

theorem completeFrom_open (quote : isQuote c = true) :
    completeFrom .code depth (c :: rest) = completeFrom (.quoted c) depth rest := by
  have noSlash : c ≠ '/' := by
    rintro rfl
    cases quote
  rw [completeFrom, quote]
  · rfl
  all_goals exact fun _ slash => absurd slash noSlash

theorem completeFrom_append (plain : ∀ c ∈ own, IsPlain c) (d : Int) :
    completeFrom .code (.ofInt d) (own ++ rest) =
      completeFrom .code (.ofInt (d + (own.map bracketDepth).sum)) rest := by
  induction own generalizing d with
  | nil => simp
  | cons c own ih =>
    obtain ⟨⟨noQuote, noSlash⟩, others⟩ := List.forall_mem_cons.1 plain
    rw [List.cons_append, completeFrom_cons noQuote (fun slash => absurd slash noSlash), ← Int32.ofInt_add,
      ih others, List.map_cons, List.sum_cons, Int.add_assoc]

theorem isPlain_of_isNamePart (part : Lexer.isNamePart c = true) : IsPlain c ∧ bracketDepth c = 0 := by
  refine ⟨⟨?_, ?_⟩, ?_⟩
  · refine Bool.eq_false_iff.2 fun quote => ?_
    simp only [isQuote, Bool.or_eq_true, decide_eq_true_eq] at quote
    rcases quote with (rfl | rfl) | rfl <;> cases part
  · rintro rfl
    cases part
  · unfold bracketDepth
    split <;> first | cases part | rfl

theorem sum_bracketDepth (all : ∀ c ∈ own, bracketDepth c = 0) : (own.map bracketDepth).sum = 0 := by
  rw [List.map_congr_left all]
  simp

/-- A run of characters of names. -/
theorem completeFrom_run (run : ∀ c ∈ own, Lexer.isNamePart c = true) (d : Int) :
    completeFrom .code (.ofInt d) (own ++ rest) = completeFrom .code (.ofInt d) rest := by
  rw [completeFrom_append (fun c member => (isPlain_of_isNamePart (run c member)).1),
    sum_bracketDepth fun c member => (isPlain_of_isNamePart (run c member)).2, Int.add_zero]

/-! ## Gaps -/

/-- Where the check stands in a gap. -/
def regionOf : Lexer.Gap → Region
  | .blank => .code
  | .line => .lineComment
  | .block _ => .blockComment

theorem completeFrom_blank (blank : Text.isBlank c = true) :
    completeFrom .code depth (c :: rest) = completeFrom .code depth rest := by
  have noQuote : isQuote c = false := by
    refine Bool.eq_false_iff.2 fun quote => ?_
    simp only [isQuote, Bool.or_eq_true, decide_eq_true_eq] at quote
    rcases quote with (rfl | rfl) | rfl <;> cases blank
  have noSlash : c ≠ '/' := by
    rintro rfl
    cases blank
  have noBracket : bracketDepth c = 0 := by
    unfold bracketDepth
    split <;> first | cases blank | rfl
  rw [completeFrom_cons noQuote fun slash => absurd slash noSlash, noBracket]
  exact congrArg (completeFrom .code · rest) (Int32.add_zero depth)

/-- A gap is passed, and a text is not complete while a block comment is open. -/
theorem completeFrom_gap (depth : Int32) (g : Lexer.Gap) (cs : List Char) (p : Position) :
    completeFrom (regionOf g) depth cs =
      ((skipGap g cs p).1.isNone && completeFrom .code depth (skipGap g cs p).2.rest) := by
  fun_induction skipGap g cs p with
  | case1 p => rfl
  | case2 text p ih => exact ih
  | case3 text p ih => exact ih
  | case4 c text p _ _ blank ih => exact (completeFrom_blank blank).trans ih
  | case5 c text p _ _ solid => rfl
  | case6 p => rfl
  | case7 text p ih => exact ih
  | case8 c text p further ih =>
    rw [regionOf, completeFrom, if_neg further]
    exact ih
  | case9 start p => rfl
  | case10 start text p ih => exact ih
  | case11 start c text p further ih =>
    rw [regionOf, completeFrom]
    · exact ih
    · exact further

/-- Where a gap ends no comment begins. -/
theorem no_comment_after_skipGap {g : Lexer.Gap} {cs rest : List Char} {p q : Position}
    (passed : skipGap g cs p = (none, ⟨'/' :: rest, q⟩)) : ∀ d, rest.head? = some d → d ≠ '/' ∧ d ≠ '*' := by
  fun_induction skipGap g cs p with
  | case1 | case6 | case9 => cases passed
  | case5 c text p noLine noBlock _ =>
    cases passed
    intro d first
    obtain ⟨more, rfl⟩ := List.head?_eq_some_iff.1 first
    exact ⟨fun slash => noLine more rfl (by rw [slash]), fun star => noBlock more rfl (by rw [star])⟩
  | case2 _ _ ih | case3 _ _ ih | case4 _ _ _ _ _ _ ih | case7 _ _ ih | case8 _ _ _ _ ih
  | case10 _ _ _ ih | case11 _ _ _ _ _ ih => exact ih passed

/-! ## Strings and segments -/

section

variable {quote : Char}

theorem completeFrom_escape (e : Char) : completeFrom (.quoted quote) depth (Lexer.backslash :: e :: rest) =
    completeFrom (.quoted quote) depth rest := by
  rw [completeFrom.eq_def]
  simp

theorem completeFrom_close (noEscape : quote ≠ Lexer.backslash) :
    completeFrom (.quoted quote) depth (quote :: rest) = completeFrom .code depth rest := by
  rw [completeFrom.eq_def]
  simp [noEscape]

theorem completeFrom_further (further : c ≠ quote) (noEscape : c ≠ Lexer.backslash) :
    completeFrom (.quoted quote) depth (c :: rest) = completeFrom (.quoted quote) depth rest := by
  rw [completeFrom.eq_def]
  simp [noEscape, further]

end

/-- A string is passed, and a text is not complete while one is open. -/
theorem completeFrom_scanString {quote : Char} (noEscape : quote ≠ Lexer.backslash) (cs : List Char)
    (p : Position) (read : List Char) :
    completeFrom (.quoted quote) depth cs =
      ((scanString quote cs p read).1.isSome &&
        completeFrom .code depth (scanString quote cs p read).2.rest) := by
  fun_induction scanString quote cs p read with
  | case1 p read => rfl
  | case2 rest p read => exact completeFrom_close noEscape
  | case3 p read =>
    rw [completeFrom.eq_def]
    simp
  | case4 p read e rest _ ih => exact (completeFrom_escape e).trans ih
  | case5 c rest p read further escape ih => exact (completeFrom_further further escape).trans ih

/-- Where to go on behind a segment that has come to its end. -/
theorem completeFrom_scanSegment {cs : List Char} {p : Position} {read : List Char}
    {segment : Lexer.Segment} {after : Cursor} (scanned : scanSegment cs p read = (segment, after)) :
    (∀ text, segment = .closed text →
        completeFrom (.quoted backTick) depth cs = completeFrom .code depth after.rest) ∧
      ∀ text, segment = .opened text →
        completeFrom (.quoted backTick) depth cs = completeFrom (.quoted backTick) depth after.rest := by
  fun_induction scanSegment cs p read with
  | case1 p read => cases scanned; simp
  | case2 rest p read =>
    cases scanned
    refine ⟨by simp, fun _ _ => ?_⟩
    rw [completeFrom_further (by decide) (by decide), completeFrom_further (by decide) (by decide)]
  | case3 rest p read =>
    cases scanned
    exact ⟨fun _ _ => completeFrom_close (by decide), by simp⟩
  | case4 p read => cases scanned; simp
  | case5 p read e rest _ _ ih =>
    rw [completeFrom_escape]
    exact ih scanned
  | case6 c rest p read _ noTick noEscape ih =>
    rw [completeFrom_further noTick noEscape]
    exact ih scanned

/-! ## Tokens -/

theorem isPlain_spelling {mark : Punctuator} (noSlash : mark ≠ .slash) :
    (∀ c ∈ mark.spelling.toList, IsPlain c) ∧
      (mark.spelling.toList.map bracketDepth).sum = (Token.punctuator mark).weight := by
  cases mark <;> first
    | exact absurd rfl noSlash
    | exact ⟨by simp [Punctuator.spelling, IsPlain, isQuote], rfl⟩

theorem weight_word (name : String) : (Lexer.word name).weight = 0 := by
  unfold Lexer.word
  split <;> rfl

/-- To the check a token is the brackets that it opens or closes. -/
theorem completeFrom_consists {t : Token} (consists : Lexer.Consists own t)
    (noComment : own = ['/'] → ∀ d, rest.head? = some d → d ≠ '/' ∧ d ≠ '*') (d : Int) :
    completeFrom .code (.ofInt d) (own ++ rest) = completeFrom .code (.ofInt (d + t.weight)) rest := by
  cases consists with
  | number digits =>
    rw [completeFrom_run (fun c member => by simp [Lexer.isNamePart, digits.2 c member])]
    exact congrArg (fun d => completeFrom .code (.ofInt d) rest) (Int.add_zero d).symm
  | word isWord =>
    obtain ⟨c, more, rfl, starts, parts⟩ := isWord
    rw [weight_word, Int.add_zero, completeFrom_run]
    exact List.forall_mem_cons.2 ⟨by simp [Lexer.isNamePart, starts], parts⟩
  | @string quote isQuote own text closed =>
    have quoted : Shell.isQuote quote = true := by rcases isQuote with rfl | rfl <;> rfl
    have noEscape : quote ≠ Lexer.backslash := by rcases isQuote with rfl | rfl <;> decide
    obtain ⟨q, passed⟩ := Lexer.scanString_append (closed .start) rest .start
    rw [List.cons_append, completeFrom_open quoted, completeFrom_scanString noEscape _ .start [], passed]
    exact congrArg (fun d => completeFrom .code (.ofInt d) rest) (Int.add_zero d).symm
  | @punctuator _ mark spelled =>
    subst spelled
    by_cases slash : mark = .slash
    · subst slash
      have alone : Punctuator.slash.spelling.toList = ['/'] := rfl
      have noQuote : Shell.isQuote '/' = false := rfl
      rw [alone, List.singleton_append, completeFrom_cons noQuote fun _ => noComment alone, ← Int32.ofInt_add]
      rfl
    · obtain ⟨plain, sum⟩ := isPlain_spelling slash
      rw [completeFrom_append plain, sum]

end Shell

namespace Lexer

variable {l l' : Lexer} {t : Token}

/-- A token and the text: a gap, and then what the token consists of, or a segment of a template. -/
structure Scans (l : Lexer) (gap : List Char) (c : Char) (own : List Char) (t : Token) (l' : Lexer) :
    Prop where
  rest : l.cursor.rest = gap ++ ((c :: own) ++ l'.cursor.rest)
  passed : skipGap .blank l.cursor.rest l.cursor.position = (none, ⟨(c :: own) ++ l'.cursor.rest, l'.start⟩)
  start : l'.start = l.cursor.position.advance gap
  position : l'.cursor.position = l'.start.advance (c :: own)
  token : Consists (c :: own) t ∨
    Continues { l with cursor := ⟨(c :: own) ++ l'.cursor.rest, l'.start⟩, start := l'.start } c
      (own ++ l'.cursor.rest) t l'

theorem scan_scans (scanned : l.scan = (.ok t, l')) (isToken : t ≠ .eof) :
    ∃ gap c own, l.Scans gap c own t l' := by
  obtain ⟨_, c, rest, q, passed, token⟩ := (scan_eq_ok scanned).resolve_left fun eof => isToken eof.1
  obtain ⟨gap, split, moved, _⟩ := skipGap_eq_none passed
  obtain ⟨own, spans, token⟩ := scanToken_consists rfl token
  obtain rfl : rest = own ++ l'.cursor.rest := (List.cons.inj spans.rest).2
  obtain rfl : l'.start = q := spans.start
  exact ⟨gap, c, own, split, passed, moved, spans.position, token⟩

/-- Where the gap and the token are in the text. -/
theorem Scans.slices {source : String} {gap own : List Char} {c : Char} (scans : l.Scans gap c own t l')
    (stands : l.Stands source) : source.toList[l'.start.offset]? = some c ∧
      slice source l.offset l'.start.offset = String.ofList gap ∧
      slice source l'.start.offset l'.offset = String.ofList (c :: own) := by
  obtain ⟨read, split, length⟩ := stands.split
  rw [scans.rest] at split
  have behind : source.toList = (read ++ gap) ++ ((c :: own) ++ l'.cursor.rest) := by
    rw [split, List.append_assoc]
  have start : l'.start.offset = (read ++ gap).length := by
    rw [scans.start, Position.advance_offset, List.length_append, length, Lexer.offset]
  have stop : l'.offset = (read ++ gap).length + (c :: own).length := by
    rw [Lexer.offset, scans.position, Position.advance_offset, start]
  refine ⟨by simp [start, behind], ?_, ?_⟩
  · rw [start, ← length, List.length_append]
    exact slice_eq split
  · rw [stop, start]
    exact slice_eq behind

/-- The end is found behind a gap, and no interpolation is open there. -/
theorem scan_eof (scanned : l.scan = (.ok .eof, l')) : l.interpolations = [] ∧
    ∃ q, skipGap .blank l.cursor.rest l.cursor.position = (none, ⟨[], q⟩) := by
  rcases scan_eq_ok scanned with ⟨_, closed, p, _, passed⟩ | ⟨isToken, _⟩
  · exact ⟨closed, p, passed⟩
  · exact absurd rfl isToken

end Lexer

namespace Shell

variable {l l' : Lexer} {t : Token}

/-- Where the check stands behind a token: an interpolation is text of its template to it. -/
def resume (within : Bool) : Region := if within then .quoted Lexer.backTick else .code

theorem weight_of_isTemplate (template : t.isTemplate = true) : t.weight = 0 := by
  cases t with
  | templateStart | templateEnd => rfl
  | _ => cases template

/-- A segment of a template, behind the character at which it begins. -/
theorem completeFrom_continues (continues : l.Continues c rest t l') (within : Bool) (depth : Int32) :
    completeFrom (.quoted Lexer.backTick) depth rest =
      completeFrom (resume (t.inside within)) depth l'.cursor.rest := by
  rcases continues.segment with ⟨text, rfl, closed⟩ | ⟨text, rfl, opened⟩
  · exact (completeFrom_scanSegment closed).1 text rfl
  · exact (completeFrom_scanSegment opened).2 text rfl

/-- Outside of interpolations the check keeps step with the lexer. -/
theorem completeFrom_outside (outside : l.interpolations = []) (scanned : l.scan = (.ok t, l'))
    (isToken : t ≠ .eof) (d : Int) : completeFrom .code (.ofInt d) l.cursor.rest =
      completeFrom (resume (t.inside false)) (.ofInt (d + t.weight)) l'.cursor.rest := by
  obtain ⟨gap, c, own, scans⟩ := Lexer.scan_scans scanned isToken
  have passed := scans.passed
  have behind := completeFrom_gap (.ofInt d) .blank l.cursor.rest l.cursor.position
  rw [passed, Option.isNone_none, Bool.true_and] at behind
  refine behind.trans ?_
  rcases scans.token with consists | continues
  · rw [Token.inside_of_plain consists.isTemplate]
    refine completeFrom_consists consists (fun slash => ?_) d
    rw [slash] at passed
    exact no_comment_after_skipGap passed
  · obtain rfl : c = Lexer.backTick := continues.mark.resolve_right fun closes => closes.2 outside
    rw [List.cons_append, completeFrom_open rfl, weight_of_isTemplate continues.isTemplate, Int.add_zero]
    exact completeFrom_continues continues false _

/-- Text without a back-tick stays in the template, and if it ends with a backslash, so does what follows. -/
theorem completeFrom_through {e : Char} (noTick : e ≠ Lexer.backTick) (noEscape : e ≠ Lexer.backslash) :
    (own : List Char) → Lexer.backTick ∉ own →
      completeFrom (.quoted Lexer.backTick) depth (own ++ e :: rest) =
        completeFrom (.quoted Lexer.backTick) depth rest
  | [], _ => completeFrom_further noTick noEscape
  | [c], clear => by
    have further : c ≠ Lexer.backTick := fun same => clear (same ▸ .head _)
    by_cases escape : c = Lexer.backslash
    · subst escape
      exact completeFrom_escape e
    · exact (completeFrom_further further escape).trans (completeFrom_further noTick noEscape)
  | c :: x :: own, clear => by
    have further : c ≠ Lexer.backTick := fun same => clear (same ▸ .head _)
    have rest : Lexer.backTick ∉ x :: own := fun member => clear (.tail _ member)
    by_cases escape : c = Lexer.backslash
    · subst escape
      exact (completeFrom_escape x).trans
        (completeFrom_through noTick noEscape own fun member => rest (.tail _ member))
    · exact (completeFrom_further further escape).trans (completeFrom_through noTick noEscape (x :: own) rest)

/-- A token that begins with a brace has no back-tick in it. -/
theorem no_backTick_of_brace (consists : Lexer.Consists ('}' :: own) t) : Lexer.backTick ∉ '}' :: own := by
  obtain ⟨mark, spelled⟩ := consists.spelling (by decide)
  rw [← spelled]
  exact fun member => absurd (Lexer.isSymbol_of_mem_spelling _ _ member) (by decide)

/-- What an interpolation is to the check: neither the gap nor the token has a back-tick, but for a token that
begins with the brace that ends the interpolation. -/
structure Clear (source : String) (l l' : Lexer) : Prop where
  gap : Lexer.backTick ∉ (slice source l.offset l'.start.offset).toList
  token : source.toList[l'.start.offset]? ≠ some '}' →
    Lexer.backTick ∉ (slice source l'.start.offset l'.offset).toList

theorem Clear.of_scans {source : String} {gap : List Char} {c : Char} (clear : Clear source l l')
    (scans : l.Scans gap c own t l') (stands : l.Stands source) :
    Lexer.backTick ∉ gap ∧ (c ≠ '}' → Lexer.backTick ∉ c :: own) := by
  obtain ⟨here, before, token⟩ := scans.slices stands
  refine ⟨?_, fun other => ?_⟩
  · simpa only [before, String.toList_ofList] using clear.gap
  · have clearToken := clear.token (by simpa [here] using other)
    rwa [token, String.toList_ofList] at clearToken

/-- Inside of an interpolation the check stays in the template, whose text it takes it for. -/
theorem completeFrom_inside {source : String} (stands : l.Stands source) (scanned : l.scan = (.ok t, l'))
    (isToken : t ≠ .eof) (clear : Clear source l l') {before : List Char}
    (noTick : Lexer.backTick ∉ before) (depth : Int32) :
    (t.isTemplate = true → source.toList[l'.start.offset]? = some '}') ∧
      ∃ before', Lexer.backTick ∉ before' ∧ (t.inside true = false → before' = []) ∧
        completeFrom (resume true) depth (before ++ l.cursor.rest) =
          completeFrom (resume (t.inside true)) depth (before' ++ l'.cursor.rest) := by
  obtain ⟨gap, c, own, scans⟩ := Lexer.scan_scans scanned isToken
  obtain ⟨clearGap, clearToken⟩ := clear.of_scans scans stands
  have clearBefore : Lexer.backTick ∉ before ++ gap :=
    List.not_mem_append noTick clearGap
  rw [scans.rest, ← List.append_assoc]
  rcases scans.token with consists | continues
  · have clearOwn : Lexer.backTick ∉ c :: own := by
      by_cases brace : c = '}'
      · subst brace
        exact no_backTick_of_brace consists
      · exact clearToken brace
    rw [Token.inside_of_plain consists.isTemplate, consists.isTemplate]
    refine ⟨by simp, (before ++ gap) ++ (c :: own), ?_, by simp, ?_⟩
    · exact List.not_mem_append clearBefore clearOwn
    · rw [List.append_assoc _ (c :: own)]
  · obtain rfl : c = '}' := by
      by_contra other
      rcases continues.mark with rfl | ⟨brace, _⟩
      · exact clearToken other (.head _)
      · exact other brace
    refine ⟨fun _ => (scans.slices stands).1, [], List.not_mem_nil, fun _ => rfl, ?_⟩
    rw [List.cons_append, List.nil_append, ← completeFrom_continues continues true depth]
    exact completeFrom_through (by decide) (by decide) (before ++ gap) clearBefore

end Shell

/-! ## Texts -/

/-- No back-tick stands in an interpolation: neither in the gaps between its tokens nor in these, so there is
no template inside of it. -/
def ClearInterpolations (source : String) (lexemes : List Lexeme) : Prop :=
  ∀ before x after, lexemes = before ++ x :: after → openers source before ≠ [] →
    Lexer.backTick ∉ (slice source (stopOf before) x.start.offset).toList ∧
      (x.continues source = false → Lexer.backTick ∉ (slice source x.start.offset x.stop).toList)

/-- It is enough to look at each of the tokens. -/
theorem clearInterpolations_iff {source : String} {lexemes : List Lexeme} :
    ClearInterpolations source lexemes ↔ ∀ i : Fin lexemes.length, openers source (lexemes.take i) ≠ [] →
      Lexer.backTick ∉ (slice source (stopOf (lexemes.take i)) lexemes[i].start.offset).toList ∧
        (lexemes[i].continues source = false →
          Lexer.backTick ∉ (slice source lexemes[i].start.offset lexemes[i].stop).toList) := by
  constructor
  · intro clear i
    refine clear _ _ (lexemes.drop (i + 1)) ?_
    rw [Fin.getElem_fin, List.getElem_cons_drop, List.take_append_drop]
  · rintro clear before x after rfl
    simpa using clear ⟨before.length, by simp⟩

instance {source : String} {lexemes : List Lexeme} : Decidable (ClearInterpolations source lexemes) :=
  decidable_of_iff _ clearInterpolations_iff.symm

namespace Lexer

open Shell

variable {source : String} {l l' : Lexer} {s : Stream} {t : Token}

/-- At most one interpolation is open at a time. -/
theorem length_interpolations {read : List Lexeme} (tracks : Tracks source read l)
    (scanned : l.scan = (.ok t, l')) (isToken : t ≠ .eof) {within : Bool}
    (counted : l.interpolations.length = if within then 1 else 0)
    (closes : within = true → t.isTemplate = true → source.toList[l'.start.offset]? = some '}') :
    l'.interpolations.length = if t.inside within then 1 else 0 := by
  obtain ⟨c, here, remembers⟩ := remembers_scan tracks.stands scanned isToken
  rw [remembers.depth, counted]
  cases template : t.isTemplate with
  | false => rw [Token.depth_of_plain template, Token.inside_of_plain template]
  | true =>
    cases within with
    | false =>
      cases t with
      | templateStart text | templateEnd text => simp [Token.depth, Token.inside]
      | _ => cases template
    | true =>
      obtain rfl : c = '}' := by simpa [here] using closes rfl template
      cases t with
      | templateStart text | templateEnd text => simp [Token.depth, Token.inside]
      | _ => cases template

/-- What the check says of a text is read off the brackets outside of interpolations. -/
theorem Delivers.completeFrom_eq (delivers : l.Delivers s) {read : List Lexeme}
    (tracks : Tracks source read l) (clear : ClearInterpolations source (read ++ s.lexemes.1))
    (ended : s.error? = none) {within : Bool} (counted : l.interpolations.length = if within then 1 else 0)
    {before : List Char} (noTick : backTick ∉ before) (outside : within = false → before = []) (d : Int) :
    completeFrom (resume within) (.ofInt d) (before ++ l.cursor.rest) =
      decide (Int32.ofInt (d + s.weight within) ≤ 0) := by
  induction delivers generalizing read within before d with
  | failed => cases ended
  | @done l l' scanned =>
    obtain ⟨closed, q, passed⟩ := scan_eof scanned
    cases within with
    | true => rw [closed] at counted; cases counted
    | false =>
      have gap := completeFrom_gap (.ofInt d) .blank l.cursor.rest l.cursor.position
      rw [passed] at gap
      rw [outside rfl, List.nil_append, Stream.weight, Int.add_zero]
      exact gap
  | @lexeme l l' t s scanned isToken _ ih =>
    have tracks' := tracks.step scanned isToken
    have clear' : ClearInterpolations source ((read ++ [⟨t, l'.start, l'.offset⟩]) ++ s.lexemes.1) := by
      rwa [List.append_assoc]
    cases within with
    | false =>
      obtain rfl := outside rfl
      have closed : l.interpolations = [] := List.length_eq_zero_iff.1 counted
      have next := length_interpolations tracks scanned isToken counted (by simp)
      have rest := ih tracks' clear' ended next List.not_mem_nil (fun _ => rfl) (d + t.weight)
      rw [List.nil_append, resume, if_neg (by decide), completeFrom_outside closed scanned isToken]
      rw [List.nil_append, Int.add_assoc] at rest
      exact rest
    | true =>
      -- To the check an interpolation is text of its template, so only its end matters.
      have opened : openers source read ≠ [] := by
        intro nothing
        have depth := tracks.depth
        rw [nothing, counted] at depth
        cases depth
      obtain ⟨clearGap, clearToken⟩ := clear read _ _ rfl opened
      rw [tracks.stop] at clearGap
      have clearHere : Clear source l l' :=
        ⟨clearGap, fun other => clearToken (by simpa [Lexeme.continues] using other)⟩
      obtain ⟨closes, before', noTick', outside', step⟩ :=
        completeFrom_inside tracks.stands scanned isToken clearHere noTick (.ofInt d)
      have next := length_interpolations tracks scanned isToken counted fun _ => closes
      rw [step, ih tracks' clear' ended next noTick' outside' d, Stream.weight, if_pos rfl, Int.zero_add]

end Lexer

/-! ## Numbers of brackets -/

namespace Shell

/-- A character that opens or closes. -/
def isBracket (c : Char) : Bool := bracketDepth c != 0

theorem natAbs_weight_le {own : List Char} {t : Token} (consists : Lexer.Consists own t) :
    t.weight.natAbs ≤ own.countP isBracket := by
  cases consists with
  | word =>
    rw [weight_word]
    exact Nat.zero_le _
  | number | string => exact Nat.zero_le _
  | @punctuator _ mark spelled =>
    subst spelled
    cases mark <;> exact Nat.le_of_eq rfl

end Shell

/-- What is left to be opened or closed is in the text that is left. -/
theorem Lexer.Delivers.natAbs_weight_le {l : Lexer} {s : Stream} (delivers : l.Delivers s) (within : Bool) :
    (s.weight within).natAbs ≤ l.cursor.rest.countP Shell.isBracket := by
  induction delivers generalizing within with
  | failed | done => exact Nat.zero_le _
  | @lexeme l l' t s scanned isToken _ ih =>
    obtain ⟨gap, c, own, scans⟩ := scan_scans scanned isToken
    have here : t.weight.natAbs ≤ (c :: own).countP Shell.isBracket := by
      rcases scans.token with consists | continues
      · exact Shell.natAbs_weight_le consists
      · rw [Shell.weight_of_isTemplate continues.isTemplate]
        exact Nat.zero_le _
    have behind := ih (t.inside within)
    rw [scans.rest, List.countP_append, List.countP_append, Stream.weight]
    simp only
    split <;> omega

theorem Shell.ofInt_le_zero_iff {n : Int} (small : n.natAbs < 2 ^ 31) : Int32.ofInt n ≤ 0 ↔ n ≤ 0 := by
  rw [Int32.le_iff_toInt_le, Int32.toInt_ofInt_of_le (by omega) (by omega)]
  rfl

/-- Where nothing but interpolations stands in its way, the check counts brackets. -/
theorem isComplete_eq_weight {source : String} {s : Stream} (delivers : (Lexer.ofSource source).Delivers s)
    (clear : ClearInterpolations source s.lexemes.1) (few : source.toList.countP Shell.isBracket < 2 ^ 31)
    (ended : s.error? = none) : Shell.isComplete source = decide (s.weight false ≤ 0) := by
  have outside : (Lexer.ofSource source).interpolations.length = if false then 1 else 0 := rfl
  have checked := delivers.completeFrom_eq (.ofSource source) clear ended outside List.not_mem_nil
    (fun _ => rfl) 0
  rw [List.nil_append, Int.zero_add] at checked
  refine checked.trans (decide_eq_decide.2 (Shell.ofInt_le_zero_iff ?_))
  exact Nat.lt_of_le_of_lt (delivers.natAbs_weight_le false) few

/-! ## Texts without templates -/

theorem mem_of_mem_slice {source : String} {start stop : Nat} {c : Char}
    (member : c ∈ (slice source start stop).toList) : c ∈ source.toList := by
  rw [slice, String.toList_ofList] at member
  exact List.mem_of_mem_take (List.mem_of_mem_drop member)

theorem clearInterpolations_of_not_mem {source : String} (noTick : Lexer.backTick ∉ source.toList)
    (lexemes : List Lexeme) : ClearInterpolations source lexemes :=
  fun _ _ _ _ _ => ⟨fun member => noTick (mem_of_mem_slice member),
    fun _ member => noTick (mem_of_mem_slice member)⟩

/-- A string or a comment without an end. -/
def LexError.IsOpen : LexError → Prop
  | .unterminatedString _ | .unterminatedComment _ => True
  | _ => False

namespace Lexer

variable {l l' : Lexer} {s : Stream} {t : Token}

/-- No template is open, and none begins in the text that is left. -/
structure TemplateFree (source : String) (l : Lexer) : Prop where
  stands : l.Stands source
  noTick : backTick ∉ l.cursor.rest
  outside : l.interpolations = []

theorem TemplateFree.ofSource {source : String} (noTick : backTick ∉ source.toList) :
    (Lexer.ofSource source).TemplateFree source :=
  ⟨.ofSource source, noTick, rfl⟩

theorem TemplateFree.step {source : String} (free : l.TemplateFree source) (scanned : l.scan = (.ok t, l'))
    (isToken : t ≠ .eof) : t.isTemplate = false ∧ l'.TemplateFree source := by
  obtain ⟨stands, noTick, outside⟩ := free
  have stands' := stands.scan
  rw [scanned] at stands'
  obtain ⟨gap, c, own, scans⟩ := scan_scans scanned isToken
  rw [scans.rest] at noTick
  simp only [List.mem_append, not_or] at noTick
  obtain ⟨_, noTickHere, noTickBehind⟩ := noTick
  have plain : t.isTemplate = false := by
    rcases scans.token with consists | continues
    · exact consists.isTemplate
    · rcases continues.mark with rfl | ⟨_, inside⟩
      · exact absurd (.head _) noTickHere
      · exact absurd outside inside
  obtain ⟨d, _, remembers⟩ := remembers_scan stands scanned isToken
  have depth := remembers.depth
  rw [Token.depth_of_plain plain, outside] at depth
  exact ⟨plain, stands', noTickBehind, List.length_eq_zero_iff.1 depth⟩

theorem Delivers.all_plain {source : String} (delivers : l.Delivers s) (free : l.TemplateFree source) :
    s.All (·.isTemplate = false) := by
  induction delivers with
  | failed | done => trivial
  | lexeme scanned isToken _ ih =>
    obtain ⟨plain, free'⟩ := free.step scanned isToken
    exact ⟨plain, ih free'⟩

theorem completeFrom_of_scanToken {e : LexError} (scanned : l.scanToken = (.error e, l')) (isOpen : e.IsOpen)
    (depth : Int32) : Shell.completeFrom .code depth l.cursor.rest = false := by
  cases here : l.cursor.rest with
  | nil =>
    rw [scanToken, here] at scanned
    simp only at scanned
    split at scanned
    · cases scanned
    · cases scanned
      exact isOpen.elim
  | cons c rest =>
    have branch := scanToken_branch here
    generalize l.scanToken = answer at scanned branch
    cases branch with
    | openString isQuote stopped =>
      have quoted : Shell.isQuote c = true := by rcases isQuote with rfl | rfl <;> rfl
      have noEscape : c ≠ backslash := by rcases isQuote with rfl | rfl <;> decide
      rw [Shell.completeFrom_open quoted, Shell.completeFrom_scanString noEscape rest _ [], stopped]
      rfl
    | openTemplate | unexpected =>
      cases scanned
      exact isOpen.elim
    | _ => cases scanned

theorem completeFrom_of_isOpen {e : LexError} (scanned : l.scan = (.error e, l')) (isOpen : e.IsOpen)
    (depth : Int32) : Shell.completeFrom .code depth l.cursor.rest = false := by
  refine (Shell.completeFrom_gap depth .blank l.cursor.rest l.cursor.position).trans ?_
  unfold scan at scanned
  split at scanned
  · next passed =>
    rw [passed]
    rfl
  · next after passed =>
    rw [passed, Option.isNone_none, Bool.true_and]
    exact completeFrom_of_scanToken scanned isOpen depth

theorem Delivers.completeFrom_of_isOpen {source : String} (delivers : l.Delivers s)
    (free : l.TemplateFree source) {e : LexError} (failed : s.error? = some e) (isOpen : e.IsOpen) (d : Int) :
    Shell.completeFrom .code (.ofInt d) l.cursor.rest = false := by
  induction delivers generalizing d with
  | failed scanned =>
    cases failed
    exact Lexer.completeFrom_of_isOpen scanned isOpen (.ofInt d)
  | done => cases failed
  | @lexeme l l' t s scanned isToken _ ih =>
    obtain ⟨plain, free'⟩ := free.step scanned isToken
    rw [Shell.completeFrom_outside free.outside scanned isToken, Token.inside_of_plain plain]
    exact ih free' failed (d + t.weight)

end Lexer

/-- Outside of interpolations every bracket counts. -/
theorem Stream.weight_of_plain {s : Stream} (plain : s.All (·.isTemplate = false)) :
    s.weight false = ((s.lexemes.1.map (·.token)).countP Token.opens : Int) -
      (s.lexemes.1.map (·.token)).countP Token.closes := by
  induction s with
  | lexeme first rest ih =>
    have opens := List.countP_cons (p := Token.opens) (a := first.token) (l := rest.lexemes.1.map (·.token))
    have closes := List.countP_cons (p := Token.closes) (a := first.token) (l := rest.lexemes.1.map (·.token))
    simp only [Stream.lexemes, List.map_cons]
    rw [Stream.weight, Token.inside_of_plain plain.1, ih plain.2, Token.weight, opens, closes,
      if_neg (by decide)]
    push_cast
    omega
  | done stop => rfl
  | failed e => rfl

theorem tokenize_eq_ok {source : String} {tokens : List Token} (tokenized : tokenize source = .ok tokens) :
    (Stream.ofSource source).error? = none ∧ tokens = (Stream.ofSource source).lexemes.1.map (·.token) := by
  rw [← Stream.lexemes_snd]
  unfold tokenize at tokenized
  split at tokenized
  · next complete =>
    cases tokenized
    rw [complete]
    exact ⟨rfl, rfl⟩
  · cases tokenized

theorem error?_of_tokenize {source : String} {e : LexError} (failed : tokenize source = .error e) :
    (Stream.ofSource source).error? = some e := by
  cases stopped : (Stream.ofSource source).error? with
  | none =>
    obtain ⟨tokens, ok⟩ := tokenize_of_error?_eq_none stopped
    cases ok.symm.trans failed
  | some other =>
    cases (tokenize_of_error?_eq_some stopped).symm.trans failed
    rfl

/-- Of a text without templates the check and the lexer say the same: if there are tokens, the text is
complete just if no more brackets are opened than closed, and it is not while a string or a comment is open. -/
theorem complete_iff_brackets {source : String} (noTick : Lexer.backTick ∉ source.toList)
    (few : source.toList.countP Shell.isBracket < 2 ^ 31) :
    (∀ tokens, tokenize source = .ok tokens →
      (Shell.isComplete source = true ↔ tokens.countP Token.opens ≤ tokens.countP Token.closes)) ∧
    ∀ start, tokenize source = .error (.unterminatedString start) ∨
      tokenize source = .error (.unterminatedComment start) → Shell.isComplete source = false := by
  have delivers := Lexer.delivers_ofSource source
  have free := Lexer.TemplateFree.ofSource noTick
  refine ⟨fun tokens tokenized => ?_, fun start failed => ?_⟩
  · obtain ⟨ended, rfl⟩ := tokenize_eq_ok tokenized
    rw [isComplete_eq_weight delivers (clearInterpolations_of_not_mem noTick _) few ended,
      decide_eq_true_eq, Stream.weight_of_plain (delivers.all_plain free)]
    omega
  · rcases failed with failed | failed
    all_goals exact delivers.completeFrom_of_isOpen free (error?_of_tokenize failed) trivial 0

set_option maxRecDepth 4000 in
/-- Brackets in strings and in comments, and a quote that is escaped; and a string without an end, in which no
comment begins. -/
theorem complete_iff_brackets_of_quotes :
    (tokenize "f(\"(\", '\\'') /* [ */ \x7b // \x7d" =
        .ok [.identifier "f", .punctuator .leftParen, .string "(", .punctuator .comma, .string "'",
          .punctuator .rightParen, .punctuator .leftBrace, .eof] ∧
      Shell.isComplete "f(\"(\", '\\'') /* [ */ \x7b // \x7d" = false) ∧
    tokenize "['/*\\']" = .error (.unterminatedString ⟨1, 2, 1⟩) ∧ Shell.isComplete "['/*\\']" = false := by
  have tokenized : tokenize "f(\"(\", '\\'') /* [ */ \x7b // \x7d" =
      .ok [.identifier "f", .punctuator .leftParen, .string "(", .punctuator .comma, .string "'",
        .punctuator .rightParen, .punctuator .leftBrace, .eof] := by decide +kernel
  have failed : tokenize "['/*\\']" = .error (.unterminatedString ⟨1, 2, 1⟩) := by decide +kernel
  refine ⟨⟨tokenized, ?_⟩, failed, ?_⟩
  · have counts := (complete_iff_brackets (by decide) (by decide)).1 _ tokenized
    exact Bool.eq_false_iff.2 fun complete => absurd (counts.1 complete) (by decide)
  · exact (complete_iff_brackets (by decide) (by decide)).2 _ (.inl failed)

/-! ## Programs -/

/-- What is accepted as a program is complete, if no back-tick stands in an interpolation. -/
theorem program_isComplete {source : String} {p : Program} (parsed : parseProgram source = .ok p)
    (clear : ClearInterpolations source (Stream.ofSource source).lexemes.1)
    (few : source.toList.countP Shell.isBracket < 2 ^ 31) : Shell.isComplete source = true := by
  have delivers := Lexer.delivers_ofSource source
  obtain ⟨n, stop, atEnd⟩ := Stream.parse_eq_ok parsed
  rw [isComplete_eq_weight delivers clear few (delivers.error?_eq_none atEnd), decide_eq_true_eq]
  exact Stream.weight_le_zero delivers.all_ne_eof parsed

set_option maxRecDepth 8000 in
/-- Brackets in an interpolation do not count.  But a back-tick there, be it in a string, ends the template
for the check, which takes what is behind it for code. -/
theorem program_isComplete_of_interpolations :
    ((parseProgram "s = \x60a$\x7bf(\"\x7d\", [1])\x7db\x60;").isOk = true ∧
      Shell.isComplete "s = \x60a$\x7bf(\"\x7d\", [1])\x7db\x60;" = true) ∧
    (parseProgram "\x60$\x7b\"\x60\"\x7d\x60").isOk = true ∧
      Shell.isComplete "\x60$\x7b\"\x60\"\x7d\x60" = false := by
  have accepted : (parseProgram "s = \x60a$\x7bf(\"\x7d\", [1])\x7db\x60;").isOk = true := by
    decide +kernel
  refine ⟨⟨accepted, ?_⟩, by decide +kernel, by decide +kernel⟩
  cases parsed : parseProgram "s = \x60a$\x7bf(\"\x7d\", [1])\x7db\x60;" with
  | error e =>
    rw [parsed] at accepted
    cases accepted
  | ok p => exact program_isComplete parsed (by decide +kernel) (by decide)

end TinyScript
