import TinyScript.Proofs.Lexer.Partition
import TinyScript.Proofs.Lexer.Progress

/-! # Templates that stay open

Interpolations nest, and a lexer counts the braces of each; but it remembers the start of one segment only,
the last that it has read.  `openers` follows the segments through a list of tokens and keeps the starts of
those whose interpolations are open.  It has as many entries as the lexer has counts (`Lexer.Tracks`), so that
what is said at the end of the text can be compared with the innermost of them
(`unterminated_reports_last_segment`).
-/

namespace TinyScript

/-! ## Segments -/

/-- The segments behind the token if these are open before it.  A segment that `continues` a template is the
end of the innermost interpolation. -/
def Token.openers (continues : Bool) (start : Position) (opened : List Position) : Token → List Position
  | .templateStart _ => start :: if continues then opened.tail else opened
  | .templateEnd _ => if continues then opened.tail else opened
  | _ => opened

/-- How many interpolations are open behind the token, whatever their segments are. -/
def Token.depth (continues : Bool) (depth : Nat) : Token → Nat
  | .templateStart _ => (if continues then depth - 1 else depth) + 1
  | .templateEnd _ => if continues then depth - 1 else depth
  | _ => depth

/-- The token begins with the brace that closes an interpolation. -/
def Lexeme.continues (source : String) (x : Lexeme) : Bool :=
  source.toList[x.start.offset]? == some '}'

/-- The starts of the segments whose interpolations are open behind the lexemes, innermost first. -/
def openers (source : String) (lexemes : List Lexeme) : List Position :=
  lexemes.foldl (fun opened x => x.token.openers (x.continues source) x.start opened) []

/-- The segments of templates. -/
def segments (lexemes : List Lexeme) : List Lexeme := lexemes.filter (·.token.isTemplate)

/-- The offset behind the lexemes. -/
def stopOf (lexemes : List Lexeme) : Nat := (lexemes.getLast?.map (·.stop)).getD 0

section

variable {source : String} {lexemes : List Lexeme} {x : Lexeme}

theorem openers_append_singleton : openers source (lexemes ++ [x]) =
    x.token.openers (x.continues source) x.start (openers source lexemes) := by
  simp [openers]

theorem segments_append_of_isTemplate (template : x.token.isTemplate = true) :
    segments (lexemes ++ [x]) = segments lexemes ++ [x] := by
  simp [segments, template]

theorem segments_append_of_plain (plain : x.token.isTemplate = false) :
    segments (lexemes ++ [x]) = segments lexemes := by
  simp [segments, plain]

@[simp] theorem stopOf_append_singleton : stopOf (lexemes ++ [x]) = x.stop := by
  simp [stopOf]

end

namespace Token

variable {t : Token} {continues : Bool} {start : Position} {opened : List Position}

theorem openers_of_plain (plain : t.isTemplate = false) : t.openers continues start opened = opened := by
  cases t with
  | templateStart => cases plain
  | templateEnd => cases plain
  | _ => rfl

theorem mem_openers {p : Position} (member : p ∈ t.openers continues start opened) :
    (∃ text, t = .templateStart text) ∧ p = start ∨ p ∈ opened := by
  have outer (member : p ∈ if continues then opened.tail else opened) : p ∈ opened := by
    split at member
    · exact List.mem_of_mem_tail member
    · exact member
  cases t with
  | templateStart text =>
    rcases List.mem_cons.1 member with same | inside
    · exact .inl ⟨⟨text, rfl⟩, same⟩
    · exact .inr (outer inside)
  | templateEnd text => exact .inr (outer member)
  | _ => exact .inr member

theorem length_openers : (t.openers continues start opened).length = t.depth continues opened.length := by
  cases t with
  | templateStart => cases continues <;> simp [openers, depth]
  | templateEnd => cases continues <;> simp [openers, depth]
  | _ => rfl

theorem depth_of_plain (plain : t.isTemplate = false) (d : Nat) : t.depth continues d = d := by
  cases t with
  | templateStart => cases plain
  | templateEnd => cases plain
  | _ => rfl

end Token

/-! ## One token -/

namespace Lexer

/-- What a lexer remembers of a token that begins at `c`. -/
structure Remembers (l : Lexer) (c : Char) (t : Token) (l' : Lexer) : Prop where
  segment : l'.segment = if t.isTemplate then l'.start else l.segment
  depth : l'.interpolations.length = t.depth (c == '}') l.interpolations.length

variable {l l' : Lexer} {t : Token} {c : Char} {rest : List Char}

theorem Remembers.of_plain (plain : t.isTemplate = false) (segment : l'.segment = l.segment)
    (depth : l'.interpolations.length = l.interpolations.length) : l.Remembers c t l' where
  segment := by rw [segment, plain]; rfl
  depth := by rw [depth, Token.depth_of_plain plain]

/-- A segment leaves the interpolation at whose end it begins, if it does not begin the template. -/
theorem Resumes.length_eq {interpolations : List Nat} (resumes : l.Resumes c interpolations) :
    interpolations.length =
      if c == '}' then l.interpolations.length - 1 else l.interpolations.length := by
  obtain ⟨rfl, rfl⟩ | ⟨rfl, inside⟩ := resumes
  · rfl
  · simp [inside]

theorem remembers_scanToken (here : l.cursor.rest = c :: rest) (scanned : l.scanToken = (.ok t, l')) :
    l.Remembers c t l' := by
  have branch := scanToken_branch here
  generalize l.scanToken = answer at scanned branch
  cases branch with
  | number | string | pair | single =>
    cases scanned
    exact .of_plain rfl rfl rfl
  | word =>
    cases scanned
    exact .of_plain (word_isTemplate _) rfl rfl
  | templateEnd resumes =>
    cases scanned
    exact ⟨rfl, resumes.length_eq⟩
  | templateStart resumes =>
    cases scanned
    exact ⟨rfl, congrArg (· + 1) resumes.length_eq⟩
  | brace _ same =>
    cases scanned
    exact .of_plain rfl rfl same
  | openString | openTemplate | unexpected => cases scanned

/-- What has been read is as long as the offset says. -/
theorem Stands.split {source : String} (stands : l.Stands source) :
    ∃ before, source.toList = before ++ l.cursor.rest ∧ before.length = l.offset := by
  obtain ⟨before, split, moved⟩ := stands
  refine ⟨before, split, ?_⟩
  rw [Lexer.offset, moved, Position.advance_offset]
  exact (Nat.zero_add _).symm

/-- The character at which a token begins, and what the lexer remembers of it. -/
theorem remembers_scan {source : String} (stands : l.Stands source) (scanned : l.scan = (.ok t, l'))
    (isToken : t ≠ .eof) :
    ∃ c, source.toList[l'.start.offset]? = some c ∧ l.Remembers c t l' := by
  obtain ⟨before, split, length⟩ := stands.split
  obtain ⟨_, c, rest, p, passed, token⟩ := (scan_eq_ok scanned).resolve_left fun eof => isToken eof.1
  obtain ⟨gap, gapSplit, rfl, _⟩ := skipGap_eq_none passed
  obtain ⟨own, spans, _⟩ := scanToken_spans rfl token
  have remembers := remembers_scanToken rfl token
  have start : l'.start.offset = (before ++ gap).length := by
    rw [spans.start, Position.advance_offset, List.length_append, length, Lexer.offset]
  refine ⟨c, ?_, remembers.segment, remembers.depth⟩
  rw [start, split, gapSplit, ← List.append_assoc, List.getElem?_append_right (Nat.le_refl _),
    Nat.sub_self]
  rfl

/-- What is said at the end of the text if an interpolation is open there. -/
theorem scan_gap (nothing : Passes .blank l.cursor.rest) : l.scan.1 = l.endAnswer := by
  rw [scan, nothing .blank l.cursor.position .blank]
  simp only [scanToken, endAnswer]
  split <;> rfl

/-! ## All tokens -/

/-- What a lexer that has read the lexemes remembers of them. -/
structure Tracks (source : String) (read : List Lexeme) (l : Lexer) : Prop where
  stands : l.Stands source
  stop : stopOf read = l.offset
  /-- Every open interpolation has a segment. -/
  depth : l.interpolations.length = (openers source read).length
  before : ∀ opener ∈ openers source read, opener.offset < l.offset
  segment : ∀ last, (segments read).getLast? = some last → l.segment = last.start
  /-- The innermost open segment is the last one that has been read, or another has been closed since. -/
  innermost : ∀ opener outer, openers source read = opener :: outer →
    ∃ last, (segments read).getLast? = some last ∧
      ((∃ text, last.token = .templateStart text) ∧ last.start = opener ∨
        (∃ text, last.token = .templateEnd text) ∧ opener.offset < last.start.offset)

theorem Tracks.ofSource (source : String) : Tracks source [] (ofSource source) where
  stands := .ofSource source
  stop := rfl
  depth := rfl
  before := by simp [openers]
  segment := by simp [segments]
  innermost := by simp [openers]

theorem Tracks.step {source : String} {read : List Lexeme} (tracks : Tracks source read l)
    (scanned : l.scan = (.ok t, l')) (isToken : t ≠ .eof) :
    Tracks source (read ++ [⟨t, l'.start, l'.offset⟩]) l' := by
  obtain ⟨c, begins, remembers⟩ := remembers_scan tracks.stands scanned isToken
  obtain ⟨gap, own, reads⟩ := scan_reads scanned
  obtain ⟨start, stop⟩ := reads.offsets
  have nonempty := List.length_pos_iff.2 (reads.token isToken).1
  have continues : Lexeme.continues source ⟨t, l'.start, l'.offset⟩ = (c == '}') := by
    simp [Lexeme.continues, begins]
  have openers_eq : openers source (read ++ [⟨t, l'.start, l'.offset⟩]) =
      t.openers (c == '}') l'.start (openers source read) := by
    rw [openers_append_singleton, continues]
  have stands := tracks.stands.scan
  rw [scanned] at stands
  refine ⟨stands, stopOf_append_singleton, ?_, fun opener member => ?_, ?_, ?_⟩
  · rw [openers_eq, Token.length_openers, ← tracks.depth]
    exact remembers.depth
  · rw [openers_eq] at member
    rcases Token.mem_openers member with ⟨_, rfl⟩ | earlier
    · omega
    · have := tracks.before opener earlier
      omega
  · intro last isLast
    cases template : t.isTemplate with
    | true =>
      rw [segments_append_of_isTemplate template, List.getLast?_concat] at isLast
      cases isLast
      rw [remembers.segment, if_pos template]
    | false =>
      rw [segments_append_of_plain template] at isLast
      rw [remembers.segment, template]
      exact tracks.segment last isLast
  · intro opener outer opened
    rw [openers_eq] at opened
    cases template : t.isTemplate with
    | true =>
      refine ⟨_, by rw [segments_append_of_isTemplate template, List.getLast?_concat], ?_⟩
      cases t with
      | templateStart text =>
        cases opened
        exact .inl ⟨⟨text, rfl⟩, rfl⟩
      | templateEnd text =>
        have member : opener ∈ (Token.templateEnd text).openers (c == '}') l'.start
            (openers source read) := opened ▸ List.mem_cons_self
        rcases Token.mem_openers member with ⟨⟨_, other⟩, _⟩ | earlier
        · cases other
        · have earlier := tracks.before opener earlier
          exact .inr ⟨⟨text, rfl⟩, by simp only; omega⟩
      | _ => cases template
    | false =>
      rw [Token.openers_of_plain template] at opened
      rw [segments_append_of_plain template]
      exact tracks.innermost opener outer opened

theorem Delivers.tracks {source : String} {s : Stream} {read : List Lexeme} (delivers : l.Delivers s)
    (tracks : Tracks source read l) {lexemes : List Lexeme} {error : LexError}
    (failed : s.lexemes = (lexemes, some error)) :
    ∃ last, Tracks source (read ++ lexemes) last ∧ last.scan.1 = .error error := by
  induction delivers generalizing read lexemes with
  | @failed l l' e scanned =>
    cases failed
    exact ⟨l, by rwa [List.append_nil], by rw [scanned]⟩
  | done => cases failed
  | @lexeme l l' t s scanned isToken _ ih =>
    simp only [Stream.lexemes, Prod.mk.injEq] at failed
    obtain ⟨rfl, failed⟩ := failed
    obtain ⟨last, tracks', answer⟩ := ih (tracks.step scanned isToken) (Prod.ext rfl failed)
    exact ⟨last, by simpa using tracks', answer⟩

end Lexer

/-- If only blanks and comments are left behind the tokens of a text, and there is an error nevertheless, then
it is an interpolation that has not been closed; but the error is at the segment of a template that has been
read last.  That is the one which has opened the interpolation, unless it has been followed by another
template, and if so, then the error is at a segment that comes later and has an end. -/
theorem unterminated_reports_last_segment {source : String} {lexemes : List Lexeme} {error : LexError}
    (read : (Stream.ofSource source).lexemes = (lexemes, some error))
    (nothing : Lexer.Passes .blank (source.toList.drop (stopOf lexemes))) :
    ∃ last opener outer, (segments lexemes).getLast? = some last ∧
      openers source lexemes = opener :: outer ∧ error = .unterminatedTemplate last.start ∧
      ((∃ text, last.token = .templateStart text) ∧ last.start = opener ∨
        (∃ text, last.token = .templateEnd text) ∧ opener.offset < last.start.offset) := by
  obtain ⟨l, tracks, answer⟩ :=
    (Lexer.delivers_ofSource source).tracks (Lexer.Tracks.ofSource source) read
  rw [List.nil_append] at tracks
  obtain ⟨before, split, length⟩ := tracks.stands.split
  have rest : l.cursor.rest = source.toList.drop (stopOf lexemes) := by
    rw [tracks.stop, ← length, split, List.drop_left]
  rw [Lexer.scan_gap (rest ▸ nothing), Lexer.endAnswer] at answer
  split at answer
  · cases answer
  · next opened =>
    cases answer
    cases eq : openers source lexemes with
    | nil =>
      have depth := tracks.depth
      rw [eq] at depth
      exact absurd (List.isEmpty_iff.2 (List.length_eq_zero_iff.1 depth)) opened
    | cons opener outer =>
      obtain ⟨last, isLast, cases⟩ := tracks.innermost opener outer eq
      exact ⟨last, opener, outer, isLast, rfl, by rw [tracks.segment last isLast], cases⟩

set_option maxRecDepth 4000 in
/-- The first template is open and the second, which is closed, is reported. -/
theorem unterminated_reports_closed_template :
    tokenize "\x60a$\x7b\x60b\x60" = .error (.unterminatedTemplate ⟨1, 5, 4⟩) ∧
    ∃ lexemes, (Stream.ofSource "\x60a$\x7b\x60b\x60").lexemes =
        (lexemes, some (.unterminatedTemplate ⟨1, 5, 4⟩)) ∧
      openers "\x60a$\x7b\x60b\x60" lexemes = [⟨1, 1, 0⟩] ∧
      ∃ last, (segments lexemes).getLast? = some last ∧ last.start = ⟨1, 5, 4⟩ ∧
        ∃ text, last.token = .templateEnd text := by
  have read : (Stream.ofSource "\x60a$\x7b\x60b\x60").lexemes =
      ([⟨.templateStart "a", ⟨1, 1, 0⟩, 4⟩, ⟨.templateEnd "b", ⟨1, 5, 4⟩, 7⟩],
        some (.unterminatedTemplate ⟨1, 5, 4⟩)) := by decide +kernel
  have opened : openers "\x60a$\x7b\x60b\x60"
      [⟨.templateStart "a", ⟨1, 1, 0⟩, 4⟩, ⟨.templateEnd "b", ⟨1, 5, 4⟩, 7⟩] = [⟨1, 1, 0⟩] := by decide +kernel
  refine ⟨by rw [tokenize, read], _, read, opened, ?_⟩
  obtain ⟨last, opener, outer, isLast, opened', same, ends⟩ :=
    unterminated_reports_last_segment read Lexer.Passes.nil
  have start : last.start = ⟨1, 5, 4⟩ := (LexError.unterminatedTemplate.inj same).symm
  cases opened.symm.trans opened'
  rcases ends with ⟨_, here⟩ | ⟨closed, _⟩
  · rw [start] at here
    cases here
  · exact ⟨last, isLast, start, closed⟩

end TinyScript
