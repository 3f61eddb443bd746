import Mathlib
import TinyScript.Proofs.Lexer.Quoting
import TinyScript.Proofs.Parser.Single

/-! # Templates

A template alternates texts with interpolations, each of which holds the source of an expression
(`Template.source`).  It is read as the sum of its texts and expressions, from left to right
(`Template.desugared`), whatever the sources contain, if they can be read by themselves with one level of
nesting less (`template_desugars`).

`cbv` evaluates the example at the end, by equations of library functions that are spread over Mathlib.
-/

namespace TinyScript

/-! ## How templates are written -/

/-- An interpolation and the text behind it. -/
structure Template.Part where
  /-- What stands in the interpolation. -/
  source : String
  /-- The expression that it spells. -/
  value : Expr
  text : String

namespace Template

/-- A character of a text, with a backslash before it if it needs one. -/
def escaped (c : Char) : List Char :=
  if c = Lexer.backslash ∨ c = Lexer.backTick ∨ c = '$' then [Lexer.backslash, c] else [c]

/-- All that comes behind the first text. -/
def behind : List Part → List Char
  | [] => [Lexer.backTick]
  | part :: rest => '$' :: '{' ::
      (part.source.toList ++ '\n' :: '}' :: (part.text.toList.flatMap escaped ++ behind rest))

/-- A template as it is written, with a line break at the end of each interpolation. -/
def source (head : String) (parts : List Part) : String :=
  String.ofList (Lexer.backTick :: (head.toList.flatMap escaped ++ behind parts))

/-- A sum to which an expression and the text behind it are added. -/
def extended (sum : Expr) (part : Part) : Expr :=
  .binary .add (.binary .add sum part.value) (.literal (.string part.text))

/-- The sum of the texts and expressions. -/
def desugared (head : String) (parts : List Part) : Expr := parts.foldl extended (.literal (.string head))

end Template

/-! ## Tokens of a text -/

def Stream.tokens : Stream → List Token
  | .lexeme first rest => first.token :: rest.tokens
  | .done _ | .failed _ => []

namespace Lexer

variable {l : Lexer} {ts : List Token} {s : Stream}

theorem Lists.holds (lists : l.Lists ts) (delivers : l.Delivers s) : s.Holds ts := by
  induction lists generalizing s with
  | done scanned =>
    cases delivers with
    | lexeme scanned' isToken =>
      cases scanned.symm.trans scanned'
      exact absurd rfl isToken
    | done => exact .done _
    | failed scanned' => cases scanned.symm.trans scanned'
  | token scanned isToken _ ih =>
    cases delivers with
    | lexeme scanned' _ rest =>
      cases scanned.symm.trans scanned'
      exact .lexeme (ih rest)
    | done scanned' =>
      cases scanned.symm.trans scanned'
      exact absurd rfl isToken
    | failed scanned' => cases scanned.symm.trans scanned'

/-- The tokens of a stream that comes to the end of the text. -/
theorem Delivers.lists (delivers : l.Delivers s) {n : Nat} {stop : Position}
    (ends : s.at? n = some (.eof, stop)) : l.Lists s.tokens := by
  induction delivers generalizing n with
  | lexeme scanned isToken _ ih =>
    cases n with
    | zero =>
      cases ends
      exact absurd rfl isToken
    | succ n => exact .token scanned isToken (ih ends)
  | done scanned => exact .done scanned
  | failed scanned => cases n <;> cases ends

theorem Lists.ne_eof (lists : l.Lists ts) : Token.eof ∉ ts := by
  induction lists with
  | done => exact List.not_mem_nil
  | token _ isToken _ ih =>
    rw [List.mem_cons, not_or]
    exact ⟨isToken.symm, ih⟩

end Lexer

theorem Stream.Holds.source {s : Stream} {ts : List Token} (holds : s.Holds ts) : s.source.Holds ts := by
  refine ⟨holds, ?_⟩
  show ts.length < s.length + 1
  rw [holds.length_eq]
  exact Nat.lt_succ_self _

theorem tokenize_of_holds {source : String} {ts : List Token} (holds : (Stream.ofSource source).Holds ts) :
    tokenize source = .ok (ts ++ [.eof]) := by
  have lexemes : ∃ found, (Stream.ofSource source).lexemes = (found, none) ∧
      found.map (·.token) = ts ++ [.eof] := by
    generalize Stream.ofSource source = s at holds
    induction holds with
    | done stop => exact ⟨_, rfl, rfl⟩
    | @lexeme first rest ts _ ih =>
      obtain ⟨found, complete, tokens⟩ := ih
      refine ⟨first :: found, ?_, ?_⟩
      · rw [Stream.lexemes, complete]
      · rw [List.map_cons, tokens]
        rfl
  obtain ⟨found, complete, tokens⟩ := lexemes
  rw [tokenize, complete]
  exact congrArg Except.ok tokens

/-! ## Tokens of a template -/

namespace Template

open Lexer

section

variable (l : Lexer) {c : Cursor} {text : String} {rest : List Char}

theorem scanTemplate_closed (here : c.rest = text.toList.flatMap escaped ++ backTick :: rest) :
    ∃ m, l.scanTemplate c = (.ok (.templateEnd text), m) ∧ m.cursor.rest = rest ∧
      m.interpolations = l.interpolations :=
  ⟨_, scanTemplate_guarded here, rfl, rfl⟩

theorem scanTemplate_opened (here : c.rest = text.toList.flatMap escaped ++ '$' :: '{' :: rest) :
    ∃ m, l.scanTemplate c = (.ok (.templateStart text), m) ∧ m.cursor.rest = rest ∧
      m.interpolations = 0 :: l.interpolations := by
  have segment := scanSegment_guarded text.toList ('$' :: '{' :: rest) c.position []
  rw [scanSegment, List.append_nil, List.reverse_reverse, String.ofList_toList] at segment
  have split : c.rest = guarded IsTemplateSpecial text.toList ++ '$' :: '{' :: rest := here
  simp only [scanTemplate, split, segment]
  exact ⟨_, rfl, rfl, rfl⟩

end

/-- A text, which ends the template if no interpolation comes behind it. -/
def segment (text : String) : List Part → Token
  | [] => .templateEnd text
  | _ :: _ => .templateStart text

/-- The tokens of the source of an expression. -/
def Part.tokens (part : Part) : List Token := (Stream.ofSource part.source).tokens

/-- All tokens behind the first text. -/
def tokensBehind : List Part → List Token
  | [] => []
  | part :: rest => part.tokens ++ segment part.text rest :: tokensBehind rest

theorem segment_ne_eof (text : String) (parts : List Part) : segment text parts ≠ .eof := by
  cases parts <;> nofun

theorem endsCode_segment (text : String) (parts : List Part) : (segment text parts).endsCode = true := by
  cases parts <;> rfl

/-- The source can be read by itself, and closes the braces that it opens. -/
structure Part.Listed (part : Part) : Prop where
  lists : (ofSource part.source).Lists part.tokens
  balanced : Shifts 0 0 part.tokens

theorem lists_behind {parts : List Part} (each : ∀ part ∈ parts, part.Listed) {l : Lexer} {c : Cursor}
    {text : String} (outside : l.interpolations = [])
    (here : c.rest = text.toList.flatMap escaped ++ behind parts) :
    ∃ m, l.scanTemplate c = (.ok (segment text parts), m) ∧ m.Lists (tokensBehind parts) := by
  induction parts generalizing l c text with
  | nil =>
    obtain ⟨m, read, nothing, closed⟩ := scanTemplate_closed l here
    exact ⟨m, read, .done (scan_at_end nothing (closed.trans outside))⟩
  | cons part rest ih =>
    obtain ⟨listed, others⟩ := List.forall_mem_cons.1 each
    obtain ⟨m, read, inside, opened⟩ := scanTemplate_opened l here
    refine ⟨m, read, ?_⟩
    have embedded : Embedded (part.text.toList.flatMap escaped ++ behind rest) 0 (ofSource part.source) m :=
      ⟨inside, by rw [opened, outside]; rfl⟩
    exact embedded.lists listed.lists (listed.balanced 0) (segment_ne_eof _ _)
      fun inner after closed here => ih others closed here

theorem lists_source (head : String) {parts : List Part} (each : ∀ part ∈ parts, part.Listed) :
    (ofSource (source head parts)).Lists (segment head parts :: tokensBehind parts) := by
  have here : (ofSource (source head parts)).cursor.rest =
      backTick :: (head.toList.flatMap escaped ++ behind parts) := String.toList_ofList
  have read := scan_tick here
  obtain ⟨m, first, lists⟩ := lists_behind each (c := ⟨_, Position.start.next backTick⟩)
    (l := { ofSource (source head parts) with start := .start }) rfl rfl
  exact .token (read.trans first) (segment_ne_eof _ _) lists

end Template

/-! ## Reading templates -/

namespace Parser

open Template

/-- One more interpolation and the text behind it, if the text before it does not end the template. -/
def templateStep (inner : Parser Expr) : Expr × Bool → Parser (Option (Expr × Bool)) := fun (read, more) => do
  if !more then pure none
  else
    let read := concatenate read (← inner)
    match ← next with
    | .templateStart text => pure (some (concatenate read (.literal (.string text)), true))
    | .templateEnd text => pure (some (concatenate read (.literal (.string text)), false))
    | other => unexpected .closingInterpolation other

theorem template_eq (inner : Parser Expr) (head : String) :
    template inner head =
      iterate (templateStep inner) (.literal (.string head), true) >>= fun (whole, _) => pure whole := rfl

section

variable {inner : Parser Expr} {fit : Part → Prop} {parts : List Part}
  (each : ∀ part ∈ parts, ∀ tail, (upcoming tail).endsCode = true →
    Reads inner (part.tokens ++ tail) part.value tail (fit part))

include each

theorem repeats_templateStep (read : Expr) :
    Repeats (templateStep inner) (read, !parts.isEmpty) (tokensBehind parts)
      (parts.foldl extended read, false) [] (∀ part ∈ parts, fit part) := by
  induction parts generalizing read with
  | nil => exact .congr (.stop (.pure none)) (by simp)
  | cons part rest ih =>
    rw [List.forall_mem_cons] at each
    have value := each.1 (segment part.text rest :: tokensBehind rest) (endsCode_segment _ _)
    refine .congr (.more (.finish value ?_) ?_ (ih each.2 _)) List.forall_mem_cons.symm
    · refine .step (.next _ _) ?_
      cases rest <;> exact .pure _
    · rw [tokensBehind, List.length_append, List.length_cons]
      omega

theorem reads_template (nonempty : parts.isEmpty = false) (head : String) :
    Reads (template inner head) (tokensBehind parts) (desugared head parts) []
      (∀ part ∈ parts, fit part) := by
  have all := repeats_templateStep each (.literal (.string head))
  rw [nonempty] at all
  rw [template_eq]
  exact .finish (.iterate all) (.pure _)

theorem reads_atom (head : String) :
    Reads (atom inner) (segment head parts :: tokensBehind parts) (desugared head parts) []
      (∀ part ∈ parts, fit part) := by
  refine .step (.next _ _) ?_
  cases parts with
  | nil => exact .congr (.pure _) (by simp)
  | cons => exact reads_template each rfl head

end

/-- A template by itself, with expressions that are one level deeper. -/
theorem reads_source {levels : Nat} {fit : Part → Prop} {parts : List Part}
    (each : ∀ part ∈ parts, ∀ tail, (upcoming tail).endsCode = true →
      Reads (expression levels) (part.tokens ++ tail) part.value tail (fit part)) (head : String) :
    Reads (programWithin (levels + 1)) (segment head parts :: tokensBehind parts)
      [.expression (desugared head parts)] [] (∀ part ∈ parts, fit part) := by
  have ends : EndsExpr [] := ⟨⟨rfl, rfl⟩, rfl, rfl⟩
  have primary : Reads (primaryAt (levels + 1)) (segment head parts :: tokensBehind parts)
      (desugared head parts) [] (∀ part ∈ parts, fit part) :=
    (Starts.init (reads_atom each head)).stop (suffix_none ends.toEndsPrimary)
  refine reads_program ?_ ?_ (reads_expression (starts_chain primary) ends)
  · cases parts <;> rfl
  · cases parts <;> rfl

end Parser

/-- The program that a source text spells, with so many levels in use before it begins. -/
def parseBeneath (depth : Nat) (source : String) : Except ParseError Program :=
  Parser.Result.answer (Parser.readProgram ((Stream.ofSource source).source.atDepth depth))

theorem parseBeneath_zero (source : String) : parseBeneath 0 source = parseProgram source := rfl

theorem parseBeneath_of_reads (depth : Nat) {source : String} {ts : List Token} {p : Program} {fits : Prop}
    (holds : (Stream.ofSource source).Holds ts)
    (reads : Parser.Reads (Parser.programWithin (nestingLimit - depth)) ts p [] fits) :
    (fits ∧ parseBeneath depth source = .ok p) ∨
      (¬fits ∧ ∃ position, parseBeneath depth source = .error (.nestingTooDeep nestingLimit position)) := by
  obtain ⟨result, counted, levels⟩ :=
    Parser.Same.readProgram (d := depth) (e := 0) (Stream.ofSource source).source
  have same : parseBeneath depth source =
      Parser.Result.answer (Parser.programWithin (nestingLimit - depth) (Stream.ofSource source).source) := by
    rw [parseBeneath, counted, result.answer_atDepth, ← result.answer_atDepth 0, ← levels]
    rfl
  obtain ⟨fit, s', read, _⟩ | ⟨unfit, position, left, failed⟩ := reads _ holds.source
  · refine .inl ⟨fit, ?_⟩
    rw [same, read]
    rfl
  · refine .inr ⟨unfit, position, ?_⟩
    rw [same, failed]
    rfl

namespace Template

/-- The source is that of the expression, with no semicolon behind it. -/
structure Part.Proper (part : Part) : Prop where
  parsed : parseProgram part.source = .ok [.expression part.value]
  unterminated : ∀ ts, tokenize part.source ≠ .ok (ts ++ [.punctuator .semicolon, .eof])

/-- The expression can be one level deeper. -/
def Part.Fits (part : Part) : Prop :=
  parseBeneath 1 part.source = .ok [.expression part.value]

/-- The token before the end tells whether there is a semicolon. -/
theorem unterminated_of_last {source : String} {t : Token}
    (last : (tokenize source).map (·.reverse[1]?) = .ok (some t)) (other : t ≠ .punctuator .semicolon)
    (ts : List Token) : tokenize source ≠ .ok (ts ++ [.punctuator .semicolon, .eof]) := by
  intro terminated
  rw [terminated] at last
  have same : some (.punctuator .semicolon) = some t := by simpa [Except.map] using last
  exact other (Option.some.inj same).symm

namespace Part.Proper

variable {part : Part} (proper : part.Proper)

include proper

theorem lists : (Lexer.ofSource part.source).Lists part.tokens := by
  obtain ⟨n, stop, ends⟩ := Stream.parse_eq_ok proper.parsed
  exact (Lexer.delivers_ofSource part.source).lists ends

theorem holds : (Stream.ofSource part.source).Holds part.tokens :=
  proper.lists.holds (Lexer.delivers_ofSource part.source)

theorem single : Parser.Single nestingLimit part.tokens part.value := by
  have plain (us : List Token) : part.tokens ≠ us ++ [.punctuator .semicolon] := by
    intro terminated
    have tokens := tokenize_of_holds proper.holds
    rw [terminated, List.append_assoc] at tokens
    exact proper.unterminated us tokens
  have parsed := proper.parsed
  rw [parseProgram, Stream.parse_eq] at parsed
  obtain ⟨s', done⟩ := Parser.parse_eq_ok parsed
  exact Parser.single_of_program proper.holds.source proper.lists.ne_eof plain done

theorem listed : part.Listed := ⟨proper.lists, proper.single.balanced⟩

theorem reads (tail : List Token) (ends : (Parser.upcoming tail).endsCode = true) :
    Parser.Reads (Parser.expression (nestingLimit - 1)) (part.tokens ++ tail) part.value tail part.Fits := by
  have single : Parser.Single (nestingLimit - 1 + 1) part.tokens part.value := proper.single
  have alone := single.reads [] rfl
  rw [List.append_nil] at alone
  refine (single.reads tail ends).congr ?_
  obtain ⟨fits, parsed⟩ | ⟨unfit, position, failed⟩ :=
    parseBeneath_of_reads 1 proper.holds (Parser.reads_program single.opens single.nonempty alone)
  · exact ⟨fun _ => parsed, fun _ => fits⟩
  · refine ⟨fun fits => absurd fits unfit, fun parsed => ?_⟩
    cases parsed.symm.trans failed

end Part.Proper

end Template

/-- A template is the sum of its texts and expressions, from left to right, if the expressions can be one
level deeper; otherwise it is refused for its nesting. -/
theorem template_desugars (head : String) (parts : List Template.Part) (each : ∀ part ∈ parts, part.Proper) :
    ((∀ part ∈ parts, part.Fits) →
      parseProgram (Template.source head parts) = .ok [.expression (Template.desugared head parts)]) ∧
    (¬(∀ part ∈ parts, part.Fits) → ∃ position,
      parseProgram (Template.source head parts) = .error (.nestingTooDeep nestingLimit position)) := by
  have lists := Template.lists_source head fun part member => (each part member).listed
  have holds := lists.holds (Lexer.delivers_ofSource (Template.source head parts))
  have reads := Parser.reads_source (fun part member => (each part member).reads) head
  rw [← parseBeneath_zero]
  obtain ⟨fits, parsed⟩ | ⟨unfit, failed⟩ := parseBeneath_of_reads 0 holds reads
  · exact ⟨fun _ => parsed, fun unfit => absurd fits unfit⟩
  · exact ⟨fun fits => absurd fits unfit, fun _ => failed⟩

/-- An object that holds another template, with a brace and a back tick in strings, and a comment that goes
on to the end of its line. -/
def Template.mixedParts : List Template.Part :=
  [{ source := "\x7b a: \x60x$\x7b \x7b\x7d \x7dy\x60, '\x7d': '\x60' \x7d"
     value := .object [("a", .binary .add (.binary .add (.literal (.string "x")) (.object []))
       (.literal (.string "y"))), ("\x7d", .literal (.string "\x60"))]
     text := "" },
   { source := "x /* ; */ .y // \x7d \x60"
     value := .member (.identifier "x") "y"
     text := "$\x7b\\\x60" }]

set_option maxRecDepth 4000 in
theorem template_desugars_of_mixed :
    (∀ part ∈ Template.mixedParts, part.Proper) ∧ (∀ part ∈ Template.mixedParts, part.Fits) ∧
    Template.source "" Template.mixedParts =
      "\x60$\x7b\x7b a: \x60x$\x7b \x7b\x7d \x7dy\x60, '\x7d': '\x60' \x7d\n\x7d" ++
      "$\x7bx /* ; */ .y // \x7d \x60\n\x7d\\$\x7b\\\\\\\x60\x60" ∧
    parseProgram (Template.source "" Template.mixedParts) =
      .ok [.expression (Template.desugared "" Template.mixedParts)] := by
  have proper : ∀ part ∈ Template.mixedParts, part.Proper := by
    refine List.forall_mem_cons.2 ⟨⟨by cbv, ?_⟩, List.forall_mem_singleton.2 ⟨by cbv, ?_⟩⟩
    · exact Template.unterminated_of_last (t := .punctuator .rightBrace) (by cbv) (by simp)
    · exact Template.unterminated_of_last (t := .identifier "y") (by cbv) (by simp)
  have fits : ∀ part ∈ Template.mixedParts, part.Fits :=
    List.forall_mem_cons.2 ⟨by cbv, List.forall_mem_singleton.2 (by cbv)⟩
  exact ⟨proper, fits, by decide +kernel, (template_desugars "" Template.mixedParts proper).1 fits⟩

end TinyScript
