import Mathlib.Algebra.Order.Ring.Int
import Mathlib.Data.Int.Cast.Basic
import TinyScript.Proofs.Parser.Grammar
import TinyScript.Proofs.Parser.Progress

/-! # Brackets in programs

Every production takes closing brackets that match the opening ones.  But a bracket can be opened in an
interpolation and closed in another, or outside of all of them: the segment of a template that ends an
interpolation is read as a template by itself if an expression may stand there.  So of the brackets outside
of interpolations there may be more closing ones than opening ones, but never less (`Stream.weight_le_zero`).

`Stream.Closes` compares what is left of a stream at two places, and each combinator has a rule for it, so
that the proof for a production has the shape of the production.
-/

namespace TinyScript

/-! ## Tokens and streams -/

namespace Token

def opens : Token → Bool
  | .punctuator .leftParen | .punctuator .leftBracket | .punctuator .leftBrace => true
  | _ => false

def closes : Token → Bool
  | .punctuator .rightParen | .punctuator .rightBracket | .punctuator .rightBrace => true
  | _ => false

/-- By how much a token opens or closes brackets. -/
def weight (t : Token) : Int := (if t.opens then 1 else 0) - if t.closes then 1 else 0

/-- Whether an interpolation is open behind a token.  The next segment of a template ends it, or begins
another. -/
def inside (within : Bool) : Token → Bool
  | .templateStart _ => true
  | .templateEnd _ => false
  | _ => within

theorem inside_of_plain {t : Token} (plain : t.isTemplate = false) (within : Bool) :
    t.inside within = within := by
  cases t with
  | templateStart => cases plain
  | templateEnd => cases plain
  | _ => rfl

end Token

namespace Stream

/-- By how many the opening brackets that are left are more than the closing ones; brackets in interpolations
do not count.  The stream may begin `within` one. -/
def weight (within : Bool) : Stream → Int
  | .lexeme first rest =>
    (if within then 0 else first.token.weight) + rest.weight (first.token.inside within)
  | .done _ => 0
  | .failed _ => 0

/-- The part of a stream in front of the second place closes more brackets than it opens, and it has come so
far outside of interpolations; or it has left one, and then it may have closed some more. -/
inductive Closes (count : Nat) (s s' : Stream) : Prop where
  | same (within : s.weight true = s'.weight true) (outside : s.weight false + count = s'.weight false)
  | left (within : s.weight true ≤ s'.weight false) (outside : s.weight false + count ≤ s'.weight false)

namespace Closes

variable {s s' s'' : Stream} {m n : Nat}

theorem refl (s : Stream) : s.Closes 0 s := .same rfl (Int.add_zero _)

theorem trans (first : s.Closes m s') (second : s'.Closes n s'') : s.Closes (m + n) s'' := by
  cases first with
  | same within outside =>
    cases second with
    | same within' outside' => exact .same (by omega) (by omega)
    | left within' outside' => exact .left (by omega) (by omega)
  | left within outside =>
    cases second with
    | same within' outside' => exact .left (by omega) (by omega)
    | left within' outside' => exact .left (by omega) (by omega)

end Closes

/-- The token has been taken from the first stream. -/
def Follows (t : Token) (s s' : Stream) : Prop :=
  ∀ within, s.weight within = (if within then 0 else t.weight) + s'.weight (t.inside within)

theorem Follows.of_plain {t : Token} {s s' : Stream} (follows : Follows t s s')
    (plain : t.isTemplate = false) :
    s.weight true = s'.weight true ∧ s.weight false = t.weight + s'.weight false := by
  have within := follows true
  have outside := follows false
  rw [Token.inside_of_plain plain] at within outside
  exact ⟨by simpa using within, by simpa using outside⟩

/-- A segment counts neither in an interpolation nor outside of all of them. -/
theorem Follows.of_segment {t : Token} {s s' : Stream} (follows : Follows t s s')
    (segment : t.isTemplate = true) (within : Bool) : s.weight within = s'.weight (t.inside true) := by
  have same := follows within
  cases t with
  | templateStart text | templateEnd text =>
    simpa [Token.inside, Token.weight, Token.opens, Token.closes] using same
  | _ => cases segment

end Stream

namespace Parser

variable {α β : Type} {pre : Token → Prop} {count : Nat} {p : Parser α} {f : α → Parser β}

/-! ## Looks -/

/-- The parser takes nothing; what it finds depends on the next token. -/
def Looks (post : α → Token → Prop) (p : Parser α) : Prop :=
  ∀ s a s', p s = .ok (a, s') → s'.rest = s.rest ∧ s'.bound = s.bound ∧
    ∀ t start, s.rest.at? 0 = some (t, start) → post a t

namespace Looks

theorem peek : Looks (fun a t => a = t) peek := by
  intro s a s' done
  obtain ⟨rest, scanned, bound, depth⟩ := s
  cases rest with
  | lexeme first rest =>
    cases done
    refine ⟨rfl, rfl, fun t start here => ?_⟩
    cases here
    rfl
  | done stop =>
    cases done
    refine ⟨rfl, rfl, fun t start here => ?_⟩
    cases here
    rfl
  | failed e => cases done

theorem peeked {post : α → Token → Prop} {g : Token → Parser α}
    (found : ∀ t, Looks (fun a _ => post a t) (g t)) : Looks post (Parser.peek >>= g) := by
  intro s a s' done
  obtain ⟨t, middle, looked, rest⟩ := Heeds.bind_eq_ok done
  obtain ⟨same, bound, token⟩ := peek s t middle looked
  obtain ⟨same', bound', holds⟩ := found t middle a s' rest
  refine ⟨same'.trans same, bound'.trans bound, fun u start here => ?_⟩
  cases token u start here
  exact holds t start (same ▸ here)

theorem pure {post : α → Token → Prop} {a : α} (holds : ∀ t, post a t) :
    Looks post (Pure.pure a) := by
  intro s b s' done
  cases done
  exact ⟨rfl, rfl, fun t _ _ => holds t⟩

theorem check (mark : Punctuator) :
    Looks (fun found t => found = true → t = .punctuator mark) (check mark) := by
  refine peeked fun t => ?_
  cases t with
  | punctuator other => exact pure fun _ found => by rw [of_decide_eq_true found]
  | _ => exact pure fun _ found => by cases found

theorem checkKeyword (word : Keyword) :
    Looks (fun found t => found = true → t = .keyword word) (checkKeyword word) := by
  refine peeked fun t => ?_
  cases t with
  | keyword other => exact pure fun _ found => by rw [of_decide_eq_true found]
  | _ => exact pure fun _ found => by cases found

theorem checkEnd : Looks (fun _ _ => True) checkEnd := by
  refine peeked fun t => ?_
  cases t <;> exact pure fun _ => trivial

theorem andThen {post : α → Token → Prop} (first : Looks post p) (rest : ∀ a, Looks (fun _ _ => True) (f a)) :
    Looks (fun _ _ => True) (p >>= f) := by
  intro s b s' done
  obtain ⟨a, middle, looked, after⟩ := Heeds.bind_eq_ok done
  obtain ⟨same, bound, _⟩ := first s a middle looked
  obtain ⟨same', bound', _⟩ := rest a middle b s' after
  exact ⟨same'.trans same, bound'.trans bound, fun _ _ _ => trivial⟩

theorem peekOperator (operator? : Punctuator → Option α) :
    Looks (fun found t => found.isSome → ∃ mark, t = .punctuator mark ∧ operator? mark = found)
      (peekOperator operator?) := by
  refine peeked fun t => ?_
  cases t with
  | punctuator mark => exact pure fun _ _ => ⟨mark, rfl, rfl⟩
  | _ => exact pure fun _ found => by cases found

end Looks

/-! ## Parsers -/

/-- If the next token is as it should be, the parser succeeds only behind a part of the stream that closes so
many brackets. -/
def ClosesAt (pre : Token → Prop) (count : Nat) (p : Parser α) : Prop :=
  ∀ s a s', s.Enough → (∀ t start, s.rest.at? 0 = some (t, start) → pre t) → p s = .ok (a, s') →
    s'.Within s ∧ s.rest.Closes count s'.rest

/-- Whatever comes next. -/
abbrev Closes (count : Nat) (p : Parser α) : Prop := ClosesAt (fun _ => True) count p

/-- The same of a parser that goes on behind a token. -/
def ClosesAfter (t : Token) (count : Nat) (p : Parser α) : Prop :=
  ∀ s a s', s.Enough → p s = .ok (a, s') →
    s'.Within s ∧ ∀ first, Stream.Follows t first s.rest → first.Closes count s'.rest

/-- The parser goes on in an interpolation, and ends outside of all of them. -/
def Leaves (p : Parser α) : Prop :=
  ∀ s a s', s.Enough → p s = .ok (a, s') → s'.Within s ∧ s.rest.weight true ≤ s'.rest.weight false

namespace ClosesAt

theorem pure (a : α) : ClosesAt pre 0 (Pure.pure a) := by
  intro s b s' enough here done
  cases done
  exact ⟨.refl s, .refl s.rest⟩

theorem bind (first : ClosesAt pre 0 p) (rest : ∀ a, Closes count (f a)) : ClosesAt pre count (p >>= f) := by
  intro s b s' enough here done
  obtain ⟨a, middle, before, after⟩ := Heeds.bind_eq_ok done
  obtain ⟨within, closes⟩ := first s a middle enough here before
  obtain ⟨within', closes'⟩ := rest a middle b s' (within.enough enough) (fun _ _ _ => trivial) after
  refine ⟨within'.trans within, ?_⟩
  simpa only [Nat.zero_add] using closes.trans closes'

/-- Brackets are closed first. -/
theorem bind_closing (first : Closes count p) (rest : ∀ a, Closes 0 (f a)) : Closes count (p >>= f) := by
  intro s b s' enough here done
  obtain ⟨a, middle, before, after⟩ := Heeds.bind_eq_ok done
  obtain ⟨within, closes⟩ := first s a middle enough here before
  obtain ⟨within', closes'⟩ := rest a middle b s' (within.enough enough) (fun _ _ _ => trivial) after
  exact ⟨within'.trans within, closes.trans closes'⟩

theorem map {g : α → β} (closes : ClosesAt pre count p) : ClosesAt pre count (g <$> p) := by
  intro s b s' enough here done
  rw [map_eq_pure_bind] at done
  obtain ⟨a, middle, before, after⟩ := Heeds.bind_eq_ok done
  cases after
  exact closes s a _ enough here before

theorem look {post : α → Token → Prop} (looks : Looks post p) (rest : ∀ a, ClosesAt (post a) count (f a)) :
    ClosesAt pre count (p >>= f) := by
  intro s b s' enough here done
  obtain ⟨a, middle, before, after⟩ := Heeds.bind_eq_ok done
  obtain ⟨same, bound, found⟩ := looks s a middle before
  have within : middle.Within s := ⟨by rw [same], bound⟩
  rw [← same] at found
  obtain ⟨within', closes⟩ := rest a middle b s' (within.enough enough) found after
  rw [same] at closes
  exact ⟨within'.trans within, closes⟩

theorem anywhere (closes : Closes count p) : ClosesAt pre count p :=
  fun s a s' enough _ done => closes s a s' enough (fun _ _ _ => trivial) done

theorem unexpected (wanted : Expected) (found : Token) :
    ClosesAt pre count (Parser.unexpected wanted found : Parser α) := by
  intro s a s' enough here done
  cases done

theorem tooDeep : ClosesAt pre count (tooDeep : Parser α) := by
  intro s a s' enough here done
  cases done

theorem nested (closes : ClosesAt pre count p) : ClosesAt pre count (nested p) := by
  intro s a s' enough here done
  obtain ⟨inner, before, rfl⟩ := nested_eq_ok done
  obtain ⟨within, closes'⟩ := closes (s.atDepth (s.depth + 1)) a inner enough here before
  exact ⟨⟨within.rest, within.bound⟩, closes'⟩

/-! ### Single tokens -/

theorem next_eq_ok {s s' : Source} {t : Token} (done : next s = .ok (t, s')) :
    s'.Within s ∧ Stream.Follows t s.rest s'.rest ∧ ∃ start, s.rest.at? 0 = some (t, start) := by
  obtain ⟨rest, scanned, bound, depth⟩ := s
  cases rest with
  | lexeme first rest =>
    cases done
    exact ⟨⟨Nat.le_succ _, rfl⟩, fun _ => rfl, _, rfl⟩
  | done stop =>
    cases done
    refine ⟨⟨Nat.le_refl _, rfl⟩, fun within => ?_, _, rfl⟩
    cases within <;> rfl
  | failed e => cases done

theorem next_lt {s s' : Source} {t : Token} (done : Parser.next s = .ok (t, s')) (token : t ≠ .eof) :
    s'.rest.length < s.rest.length := by
  obtain ⟨rest, scanned, bound, depth⟩ := s
  cases rest with
  | lexeme first rest =>
    cases done
    exact Nat.lt_succ_self _
  | done stop =>
    cases done
    exact absurd rfl token
  | failed e => cases done

theorem next {f : Token → Parser β} (rest : ∀ t, pre t → ClosesAfter t count (f t)) :
    ClosesAt pre count (Parser.next >>= f) := by
  intro s b s' enough here done
  obtain ⟨t, middle, taken, after⟩ := Heeds.bind_eq_ok done
  obtain ⟨within, follows, start, found⟩ := next_eq_ok taken
  obtain ⟨within', closes⟩ := rest t (here t start found) middle b s' (within.enough enough) after
  exact ⟨within'.trans within, closes s.rest follows⟩

end ClosesAt

namespace ClosesAfter

variable {t : Token}

/-- What is left to be closed behind a token that is no segment of a template. -/
theorem plain {left : Nat} (weight : (left : Int) = count + t.weight) (isPlain : t.isTemplate = false)
    (rest : Closes left p) : ClosesAfter t count p := by
  intro s a s' enough done
  obtain ⟨within, closes⟩ := rest s a s' enough (fun _ _ _ => trivial) done
  refine ⟨within, fun first follows => ?_⟩
  obtain ⟨inside, outside⟩ := follows.of_plain isPlain
  cases closes with
  | same inside' outside' => exact .same (by omega) (by omega)
  | left inside' outside' => exact .left (by omega) (by omega)

/-- A token that is neither a bracket nor a segment. -/
theorem neutral (weight : t.weight = 0) (isPlain : t.isTemplate = false) (rest : Closes count p) :
    ClosesAfter t count p :=
  plain (by rw [weight, Int.add_zero]) isPlain rest

theorem unexpected (wanted : Expected) (found : Token) :
    ClosesAfter t count (Parser.unexpected wanted found : Parser α) := by
  intro s a s' enough done
  cases done

theorem unexpected_bind (wanted : Expected) (found : Token) :
    ClosesAfter t count (Parser.unexpected wanted found >>= f) := by
  intro s a s' enough done
  cases done

/-- The last segment of a template, wherever it has begun. -/
theorem templateEnd (text : String) (a : α) : ClosesAfter (.templateEnd text) 0 (Pure.pure a) := by
  intro s b s' enough done
  cases done
  refine ⟨.refl s, fun first follows => ?_⟩
  have same (within : Bool) : first.weight within = s.rest.weight false := follows.of_segment rfl within
  exact .left (same true).le (by rw [same, Nat.cast_zero, Int.add_zero])

theorem templateStart (text : String) (leaves : Leaves p) : ClosesAfter (.templateStart text) 0 p := by
  intro s a s' enough done
  obtain ⟨within, le⟩ := leaves s a s' enough done
  refine ⟨within, fun first follows => ?_⟩
  have same (within : Bool) : first.weight within = s.rest.weight true := follows.of_segment rfl within
  exact .left ((same true).trans_le le) (by rwa [same, Nat.cast_zero, Int.add_zero])

end ClosesAfter

/-! ## Combinators -/

namespace ClosesAt

theorem expect_eq_ok {mark : Punctuator} {s s' : Source} (done : expect mark s = .ok ((), s')) :
    s'.Within s ∧ Stream.Follows (.punctuator mark) s.rest s'.rest := by
  obtain ⟨t, middle, taken, found⟩ := Heeds.bind_eq_ok done
  obtain ⟨within, follows, _⟩ := next_eq_ok taken
  cases t with
  | punctuator other =>
    simp only at found
    split at found
    · next same =>
      cases found
      exact ⟨within, same ▸ follows⟩
    · cases found
  | _ => cases found

theorem expect {mark : Punctuator} (weight : (Token.punctuator mark).weight = -count) :
    Closes count (expect mark) := by
  intro s a s' enough _ done
  obtain ⟨within, follows⟩ := expect_eq_ok done
  obtain ⟨inside, outside⟩ := follows.of_plain rfl
  exact ⟨within, .same inside (by omega)⟩

/-- A bracket is opened, and what follows closes it. -/
theorem expect_opening {mark : Punctuator} {f : Unit → Parser β} (weight : (Token.punctuator mark).weight = 1)
    (rest : Closes 1 (f ())) : Closes 0 (Parser.expect mark >>= f) := by
  intro s b s' enough _ done
  obtain ⟨_, middle, opened, after⟩ := Heeds.bind_eq_ok done
  obtain ⟨within, follows⟩ := expect_eq_ok opened
  obtain ⟨inside, outside⟩ := follows.of_plain rfl
  obtain ⟨within', closes⟩ := rest middle b s' (within.enough enough) (fun _ _ _ => trivial) after
  refine ⟨within'.trans within, ?_⟩
  cases closes with
  | same inside' outside' => exact .same (by omega) (by omega)
  | left inside' outside' => exact .left (by omega) (by omega)

theorem expectKeyword (word : Keyword) : Closes 0 (expectKeyword word) := by
  refine .next fun t _ => ?_
  cases t with
  | keyword other =>
    refine .neutral rfl rfl ?_
    by_cases same : other = word
    · simp only [if_pos same]
      exact .pure ()
    · simp only [if_neg same]
      exact .unexpected _ _
  | _ => exact .unexpected _ _

theorem expectIdentifier : Closes 0 expectIdentifier := by
  refine .next fun t _ => ?_
  cases t with
  | identifier name => exact .neutral rfl rfl (.pure name)
  | _ => exact .unexpected _ _

/-- The mark is taken if it is there. -/
theorem eat {mark : Punctuator} (weight : (Token.punctuator mark).weight = 0) : Closes 0 (eat mark) := by
  refine .look (.check mark) fun found => ?_
  cases found with
  | true =>
    refine .next fun t here => ?_
    cases here rfl
    exact .neutral weight rfl (.pure true)
  | false => exact .pure false

theorem iterate {step : α → Parser (Option α)} (each : ∀ a, Closes 0 (step a)) (a : α) :
    Closes 0 (iterate step a) := by
  suffices all : ∀ n a s b s', s.Enough → iterateUpTo step n a s = .ok (b, s') →
      s'.Within s ∧ s.rest.Closes 0 s'.rest from fun s b s' enough _ done => all s.bound a s b s' enough done
  intro n
  induction n with
  | zero =>
    intro a s b s' enough done
    cases done
    exact ⟨.refl s, .refl s.rest⟩
  | succ n ih =>
    intro a s b s' enough done
    obtain ⟨found, middle, stepped, rest⟩ := Heeds.bind_eq_ok done
    obtain ⟨within, closes⟩ := each a s found middle enough (fun _ _ _ => trivial) stepped
    cases found with
    | none =>
      cases rest
      exact ⟨within, closes⟩
    | some next =>
      obtain ⟨within', closes'⟩ := ih next middle b s' (within.enough enough) rest
      exact ⟨within'.trans within, closes.trans closes'⟩

section

variable {item : Parser α} (each : Closes 0 item)

include each

theorem manyUntil {stop : Parser Bool} (stops : Looks (fun _ _ => True) stop) :
    Closes 0 (manyUntil stop item) := by
  refine .bind (.iterate (fun read => .look stops fun stopped => ?_) []) fun _ => .pure _
  cases stopped with
  | true => exact .pure none
  | false => exact .bind each.anywhere fun _ => .pure _

theorem commaSeparated : Closes 0 (commaSeparated item) := by
  refine .bind each fun first => .bind (.iterate (fun read => ?_) [first]) fun _ => .pure _
  refine .bind (.eat rfl) fun more => ?_
  cases more with
  | true => exact .bind each fun _ => .pure _
  | false => exact .pure none

/-- The closing mark is that of a bracket that has been opened before. -/
theorem bracketed {close : Punctuator} (weight : (Token.punctuator close).weight = -1) :
    Closes 1 (bracketed close item) := by
  refine .bind (.iterate (fun state => ?_) ([], true)) fun _ =>
    .bind_closing (.expect weight) fun _ => .pure _
  obtain ⟨read, more⟩ := state
  cases more with
  | false => exact .pure none
  | true =>
    refine .look (.check close) fun closed => ?_
    cases closed with
    | true => exact .pure none
    | false => exact .bind each.anywhere fun _ => .bind (.eat rfl) fun _ => .pure _

end

/-! ## Expressions -/

section

variable {inner : Parser Expr} (deeper : Closes 0 inner)

include deeper

theorem arguments : Closes 0 (arguments inner) := by
  have closing (args : List Expr) : Closes 1 (do Parser.expect .rightParen; Pure.pure args) :=
    .bind_closing (.expect rfl) fun _ => .pure args
  refine .expect_opening rfl (.look (.check .rightParen) fun closed => ?_)
  cases closed with
  | true => exact (closing []).anywhere
  | false => exact .bind (commaSeparated deeper).anywhere closing

theorem field : Closes 0 (field inner) := by
  have value (key : String) : Closes 0 (do
      Parser.expect .colon
      Pure.pure (key, ← inner) : Parser (String × Expr)) :=
    .bind (.expect rfl) fun _ => .bind deeper fun _ => .pure _
  refine .next fun t _ => ?_
  cases t with
  | identifier name => exact .neutral rfl rfl (value name)
  | string text => exact .neutral rfl rfl (value text)
  | _ => exact .unexpected_bind _ _

/-- One interpolation and the segment behind it. -/
theorem interpolation {s middle s' : Source} {e : Expr} {t : Token} (enough : s.Enough)
    (read : inner s = .ok (e, middle)) (taken : Parser.next middle = .ok (t, s'))
    (segment : t.isTemplate = true) :
    s'.Within s ∧ s'.rest.length < s.rest.length ∧ s.rest.weight true ≤ s'.rest.weight (t.inside true) := by
  obtain ⟨within, closes⟩ := deeper s e middle enough (fun _ _ _ => trivial) read
  obtain ⟨within', follows, _⟩ := next_eq_ok taken
  have shorter := next_lt taken (by rintro rfl; cases segment)
  refine ⟨within'.trans within, Nat.lt_of_lt_of_le shorter within.rest, ?_⟩
  have inside := follows.of_segment segment true
  have outside := follows.of_segment segment false
  cases closes with
  | same within' _ => omega
  | left within' _ => omega

omit deeper in
/-- A loop that goes on for as long as there is an interpolation. -/
theorem leaves_iterateUpTo {step : α × Bool → Parser (Option (α × Bool))}
    (stops : ∀ read s, step (read, false) s = .ok (none, s))
    (goes : ∀ read s found s', s.Enough → step (read, true) s = .ok (found, s') → ∃ read' more,
      found = some (read', more) ∧ s'.Within s ∧ s'.rest.length < s.rest.length ∧
        s.rest.weight true ≤ s'.rest.weight more)
    {n : Nat} {read : α} {b : α × Bool} {s s' : Source} (fuel : s.rest.length < n) (enough : s.Enough)
    (done : iterateUpTo step n (read, true) s = .ok (b, s')) :
    s'.Within s ∧ s.rest.weight true ≤ s'.rest.weight false := by
  induction n generalizing read s with
  | zero => omega
  | succ n ih =>
    obtain ⟨found, middle, stepped, rest⟩ := Heeds.bind_eq_ok done
    obtain ⟨read', more, rfl, within, shorter, le⟩ := goes read s found middle enough stepped
    cases more with
    | true =>
      obtain ⟨within', le'⟩ := ih (by omega) (within.enough enough) rest
      exact ⟨within'.trans within, le.trans le'⟩
    | false =>
      have ended : s' = middle := by
        cases n with
        | zero =>
          cases rest
          rfl
        | succ n =>
          simp only [iterateUpTo] at rest
          rw [Heeds.bind_of_ok (stops read' middle)] at rest
          cases rest
          rfl
      rw [ended]
      exact ⟨within, le⟩

/-- The rest of a template is not over while there is an interpolation. -/
theorem template (head : String) : Leaves (template inner head) := by
  intro s whole s' enough done
  obtain ⟨state, middle, repeated, rest⟩ := Heeds.bind_eq_ok done
  cases rest
  refine leaves_iterateUpTo (fun read s => rfl) (fun read s found s' enough stepped => ?_) enough enough
    repeated
  obtain ⟨e, after, before, segment⟩ := Heeds.bind_eq_ok stepped
  obtain ⟨t, last, taken, ends⟩ := Heeds.bind_eq_ok segment
  cases t with
  | templateStart text =>
    cases ends
    exact ⟨_, true, rfl, interpolation deeper enough before taken rfl⟩
  | templateEnd text =>
    cases ends
    exact ⟨_, false, rfl, interpolation deeper enough before taken rfl⟩
  | _ => cases ends

theorem atom : Closes 0 (atom inner) := by
  refine .next fun t _ => ?_
  cases t with
  | number x => exact .neutral rfl rfl (.pure _)
  | string text => exact .neutral rfl rfl (.pure _)
  | keyword word =>
    cases word with
    | trueK => exact .neutral rfl rfl (.pure _)
    | falseK => exact .neutral rfl rfl (.pure _)
    | _ => exact .unexpected _ _
  | identifier name => exact .neutral rfl rfl (.pure _)
  | punctuator mark =>
    cases mark with
    | leftParen => exact .plain rfl rfl (.bind deeper fun _ => .bind_closing (.expect rfl) fun _ => .pure _)
    | leftBracket => exact .plain rfl rfl (.map (.bracketed deeper rfl))
    | leftBrace => exact .plain rfl rfl (.map (.bracketed (field deeper) rfl))
    | _ => exact .unexpected _ _
  | templateEnd text => exact .templateEnd text _
  | templateStart text => exact .templateStart text (template deeper text)
  | _ => exact .unexpected _ _

theorem suffix (base : Expr) : Closes 0 (suffix inner base) := by
  refine .look (.check .leftParen) fun called => ?_
  cases called with
  | true => exact .bind (arguments deeper).anywhere fun _ => .pure _
  | false =>
    refine .bind (ClosesAt.anywhere (.eat rfl)) fun read => ?_
    cases read with
    | true => exact .bind .expectIdentifier fun _ => .pure _
    | false => exact .pure none

theorem primaryWith : Closes 0 (primaryWith inner) :=
  .bind (atom deeper) fun first => .iterate (suffix deeper) first

end

/-- An operator is no bracket. -/
theorem weight_of_binaryOp? {mark : Punctuator} (found : (binaryOp? mark).isSome) :
    (Token.punctuator mark).weight = 0 := by
  cases mark <;> first | rfl | cases found

theorem weight_of_assignOp? {mark : Punctuator} (found : (assignOp? mark).isSome) :
    (Token.punctuator mark).weight = 0 := by
  cases mark <;> first | rfl | cases found

theorem chain {primary : Parser Expr} (operand : Closes 0 primary) : Closes 0 (chain primary) := by
  refine .bind operand fun first => .iterate (fun left => .look (.peekOperator binaryOp?) fun op => ?_) first
  cases op with
  | some op =>
    refine .next fun t here => ?_
    obtain ⟨mark, rfl, found⟩ := here rfl
    have weight := weight_of_binaryOp? (by rw [found]; rfl)
    exact .neutral weight rfl (.bind operand fun _ => .pure _)
  | none => exact .pure none

theorem expressionWith {primary right : Parser Expr} (operand : Closes 0 primary) (deeper : Closes 0 right) :
    Closes 0 (expressionWith primary right) := by
  refine .bind (chain operand) fun left => .look (.peekOperator assignOp?) fun op => ?_
  cases op with
  | some op =>
    refine .next fun t here => ?_
    obtain ⟨mark, rfl, found⟩ := here rfl
    have weight := weight_of_assignOp? (by rw [found]; rfl)
    cases left with
    | identifier target => exact .neutral weight rfl (.bind deeper fun _ => .pure _)
    | _ => exact .unexpected _ _
  | none => exact .pure left

theorem readExpression (n : Nat) : Closes 0 (readExpression n) := by
  induction n with
  | zero => exact .tooDeep
  | succ n ih => exact expressionWith (nested (primaryWith ih)) (nested ih)

/-! ## Statements -/

/-- The first word of a declaration. -/
theorem declaration {expr : Parser Expr} (value : Closes 0 expr) :
    ClosesAt (fun t => ∃ word, t = .keyword word) 0 (declaration expr) := by
  refine .next fun t here => ?_
  obtain ⟨word, rfl⟩ := here
  exact .neutral rfl rfl (.bind .expectIdentifier fun _ => .bind (.expect rfl) fun _ =>
    .bind value fun _ => .bind (.expect rfl) fun _ => .pure _)

theorem functionDeclaration {block : Parser (List Stmt)} (body : Closes 0 block) :
    Closes 0 (functionDeclaration block) := by
  have finish (name : String) (params : List String) : Closes 1 (do
      Parser.expect .rightParen
      Pure.pure (Stmt.function name params (← block) none)) :=
    .bind_closing (.expect rfl) fun _ => .bind body fun _ => .pure _
  refine .bind (.expectKeyword .functionK) fun _ => .bind .expectIdentifier fun name => ?_
  refine .expect_opening rfl (.look (.check .rightParen) fun closed => ?_)
  cases closed with
  | true => exact (finish name []).anywhere
  | false => exact .bind (commaSeparated .expectIdentifier).anywhere (finish name)

section

variable {expr : Parser Expr} (value : Closes 0 expr)

include value

theorem condition : Closes 0 (condition expr) :=
  .expect_opening rfl (.bind value fun _ => .bind_closing (.expect rfl) fun _ => .pure _)

theorem forInit : Closes 0 (forInit expr) := by
  refine .bind (.eat rfl) fun missing => ?_
  have evaluated : Closes 0 (do
      let value ← expr
      Parser.expect .semicolon
      Pure.pure (some (Stmt.expression value))) :=
    .bind value fun _ => .bind (.expect rfl) fun _ => .pure _
  cases missing with
  | true => exact .pure none
  | false =>
    refine .look .peek fun t => ?_
    cases t with
    | keyword word =>
      have declared : ClosesAt (fun t => Token.keyword word = t) 0 (some <$> Parser.declaration expr) :=
        .map fun s a s' enough here => declaration value s a s' enough fun t start found =>
          ⟨word, (here t start found).symm⟩
      cases word with
      | letK => exact declared
      | constK => exact declared
      | _ => exact evaluated.anywhere
    | _ => exact evaluated.anywhere

/-- The mark that ends a clause, and closes a bracket or does not. -/
theorem forClause {close : Punctuator} (weight : (Token.punctuator close).weight = -count) :
    Closes count (forClause expr close) := by
  have closing (clause : Option Expr) : Closes count (do
      Parser.expect close
      Pure.pure clause) :=
    .bind_closing (.expect weight) fun _ => .pure clause
  refine .look (.check close) fun missing => ?_
  cases missing with
  | true => exact (closing none).anywhere
  | false => exact .bind (ClosesAt.map value).anywhere closing

theorem returnStatement : Closes 0 (returnStatement expr) := by
  have closing (argument : Option Expr) : Closes 0 (do
      let _ ← Parser.eat .semicolon
      Pure.pure (Stmt.ret argument)) :=
    .bind (.eat rfl) fun _ => .pure _
  have valued : Closes 0 (do
      let argument ← some <$> expr
      let _ ← Parser.eat .semicolon
      Pure.pure (Stmt.ret argument)) :=
    .bind (.map value) closing
  refine .bind (.expectKeyword .returnK) fun _ => .look .peek fun t => ?_
  cases t with
  | punctuator mark =>
    cases mark with
    | semicolon => exact (closing none).anywhere
    | rightBrace => exact (closing none).anywhere
    | _ => exact valued.anywhere
  | eof => exact (closing none).anywhere
  | _ => exact valued.anywhere

theorem expressionStatement : Closes 0 (expressionStatement expr) :=
  .bind value fun _ => .bind (.eat rfl) fun _ => .pure _

variable {block : Parser (List Stmt)} (body : Closes 0 block)

include body

theorem ifStatement : Closes 0 (ifStatement expr block) := by
  refine .bind (.expectKeyword .ifK) fun _ => .bind (condition value) fun test => .bind body fun _ => ?_
  refine .look (.checkKeyword .elseK) fun more => ?_
  cases more with
  | true =>
    refine .next fun t here => ?_
    cases here rfl
    exact .neutral rfl rfl (.bind body fun _ => .pure _)
  | false => exact .pure _

theorem forStatement : Closes 0 (forStatement expr block) :=
  .bind (.expectKeyword .forK) fun _ => .expect_opening rfl (.bind (forInit value) fun _ =>
    .bind (forClause value rfl) fun _ => .bind_closing (forClause value rfl) fun _ =>
      .bind body fun _ => .pure _)

theorem whileStatement : Closes 0 (whileStatement expr block) :=
  .bind (.expectKeyword .whileK) fun _ => .bind (condition value) fun _ => .bind body fun _ => .pure _

theorem statementWith : Closes 0 (statementWith expr block) := by
  refine .look .peek fun t => ?_
  cases t with
  | keyword word =>
    have declared : ClosesAt (fun t => Token.keyword word = t) 0 (Parser.declaration expr) :=
      fun s a s' enough here => declaration value s a s' enough fun t start found =>
        ⟨word, (here t start found).symm⟩
    cases word with
    | letK => exact declared
    | constK => exact declared
    | functionK => exact (functionDeclaration body).anywhere
    | ifK => exact (ifStatement value body).anywhere
    | forK => exact (forStatement value body).anywhere
    | whileK => exact (whileStatement value body).anywhere
    | returnK => exact (returnStatement value).anywhere
    | _ => exact (expressionStatement value).anywhere
  | _ => exact (expressionStatement value).anywhere

end

theorem blockWith {statement : Parser Stmt} (each : Closes 0 statement) : Closes 0 (blockWith statement) := by
  refine .expect_opening rfl (.bind (manyUntil each (.andThen (.check .rightBrace) fun closed => ?_))
    fun _ => .bind_closing (.expect rfl) fun _ => .pure _)
  cases closed with
  | true => exact .pure fun _ => trivial
  | false => exact .checkEnd

theorem readStatement (n : Nat) : Closes 0 (readStatement n) := by
  induction n with
  | zero => exact .tooDeep
  | succ n ih => exact statementWith (readExpression (n + 1)) (nested (blockWith ih))

theorem readProgram : Closes 0 readProgram := manyUntil (readStatement _) .checkEnd

end ClosesAt

end Parser

/-! ## Programs -/

theorem Lexer.Delivers.all_ne_eof {l : Lexer} {s : Stream} (delivers : l.Delivers s) : s.All (· ≠ .eof) := by
  induction delivers with
  | lexeme _ isToken _ ih => exact ⟨isToken, ih⟩
  | done => trivial
  | failed => trivial

/-- A program closes at least as many brackets outside of interpolations as it opens there. -/
theorem Stream.weight_le_zero {s : Stream} (tokens : s.All (· ≠ .eof)) {p : Program}
    (parsed : s.parse = .ok p) : s.weight false ≤ 0 := by
  obtain ⟨last, done⟩ := Parser.parse_eq_ok parsed
  have closes : s.Closes 0 last.rest :=
    (Parser.ClosesAt.readProgram s.source p last s.enough_source (fun _ _ _ => trivial) done).2
  have anything : Parser.Establishes (· ≠ .eof) fun _ => True := by constructor <;> intros <;> trivial
  obtain ⟨stop, atEnd⟩ := Parser.Heeds.at?_of_readProgram s.enough_source done
  have left := (anything.readProgram s.source p last tokens done).2
  have ended : last.rest.weight false = 0 := by
    cases rest : last.rest with
    | lexeme first more =>
      rw [rest] at atEnd left
      exact absurd (congrArg (·.1) (Option.some.inj atEnd)) left.1
    | done stop => rfl
    | failed error => rfl
  cases closes with
  | same _ outside => omega
  | left _ outside => omega

end TinyScript
