import TinyScript.Proofs.Lexer.Interpolation
import TinyScript.Proofs.Parser.Expressions
import TinyScript.Proofs.Parser.Progress

/-! # Expressions with template text behind them

What an expression is does not depend on what comes behind it, if that is the end of the text or template
text, and neither does its nesting.  `Embeds tail shallow before after p q` compares the parser `p` before some
tokens with the parser `q` before the same tokens and a tail.

* If `p` fails because the nesting is too deep, then so does `q`.
* If `p` reads something, then `q` reads the same from the same tokens, or, if it may be `shallow`, fails
  because the nesting is too deep.
* The tokens that are read lead from `before` open braces to `after` ones.

Each combinator has a rule, so that the proof for a production has the shape of the production.  An
expression is compared with itself before a tail (`Embeds.expression`) and with one that has a level less
(`Embeds.expression_shallow`).
-/

namespace TinyScript

/-! ## Braces -/

namespace Shifts

theorem nil (depth : Nat) : Shifts depth depth [] := fun _ => rfl

theorem append {before mid after : Nat} {ts us : List Token} (first : Shifts before mid ts)
    (second : Shifts mid after us) : Shifts before after (ts ++ us) := by
  intro depth
  rw [List.foldlM_append, first depth]
  exact second depth

theorem lift {before after : Nat} {ts : List Token} (shifts : Shifts before after ts) (more : Nat) :
    Shifts (before + more) (after + more) ts := by
  intro depth
  rw [Nat.add_assoc, Nat.add_assoc]
  exact shifts (more + depth)

theorem single {before after : Nat} {t : Token}
    (shifts : ∀ depth, t.braces (before + depth) = some (after + depth)) : Shifts before after [t] := by
  intro depth
  rw [List.foldlM_cons, shifts depth]
  rfl

end Shifts

/-- Neither of the braces. -/
def Token.isPlain : Token → Bool
  | .punctuator .leftBrace | .punctuator .rightBrace => false
  | _ => true

theorem Shifts.plain {t : Token} (plain : t.isPlain = true) : Shifts 0 0 [t] := by
  refine .single fun depth => ?_
  unfold Token.isPlain at plain
  unfold Token.braces
  split at plain <;> simp_all

theorem shifts_leftBrace : Shifts 0 1 [.punctuator .leftBrace] := by
  refine .single fun depth => ?_
  rw [Token.braces, Nat.zero_add, Nat.add_comm]

theorem shifts_rightBrace : Shifts 1 0 [.punctuator .rightBrace] := by
  refine .single fun depth => ?_
  rw [Token.braces, if_neg (by omega), Nat.add_sub_cancel_left, Nat.zero_add]

/-- The end of the text, or template text. -/
def Token.endsCode : Token → Bool
  | .templateStart _ | .templateEnd _ | .eof => true
  | _ => false

/-! ## Sources -/

theorem Stream.Holds.unique {stream : Stream} {ts us : List Token} (first : stream.Holds ts)
    (second : stream.Holds us) : ts = us := by
  induction first generalizing us with
  | done =>
    cases second
    rfl
  | lexeme _ ih =>
    cases second with
    | lexeme rest => rw [ih rest]

theorem Stream.exists_holds (ts : List Token) : ∃ stream : Stream, stream.Holds ts := by
  induction ts with
  | nil => exact ⟨.done .start, .done .start⟩
  | cons t ts ih =>
    obtain ⟨stream, holds⟩ := ih
    exact ⟨.lexeme ⟨t, .start, 0⟩ stream, .lexeme holds⟩

theorem Source.exists_holds (ts : List Token) : ∃ s : Source, s.Holds ts := by
  obtain ⟨stream, holds⟩ := Stream.exists_holds ts
  exact ⟨⟨stream, .start, ts.length + 1, 0⟩, holds, Nat.lt_succ_self _⟩

theorem Source.Holds.enough {s : Source} {ts : List Token} (holds : s.Holds ts) : s.Enough := by
  rw [Source.Enough, holds.stream.length_eq]
  exact holds.bound

namespace Parser

variable {α β γ : Type}

theorem Reads.run {p : Parser α} {ts us : List Token} {a : α} (reads : Reads p ts a us True) {s : Source}
    (holds : s.Holds ts) : ∃ s', p s = .ok (a, s') ∧ s'.Holds us := by
  obtain ⟨_, read⟩ | ⟨impossible, _⟩ := reads s holds
  · exact read
  · exact absurd trivial impossible

theorem Reads.next_end : Reads Parser.next [] .eof [] True := by
  rintro ⟨rest, scanned, bound, depth⟩ ⟨stream, enough⟩
  cases stream with
  | done stop => exact .inl ⟨trivial, _, rfl, .done stop, enough⟩

theorem eq_cons_of_isMark {ts : List Token} {mark : Punctuator} (isMark : (upcoming ts).isMark mark = true) :
    ∃ us, ts = .punctuator mark :: us := by
  cases ts with
  | nil => cases isMark
  | cons t ts =>
    cases t with
    | punctuator found => exact ⟨ts, by rw [of_decide_eq_true isMark]⟩
    | _ => cases isMark

theorem eq_cons_of_operator {operator? : Punctuator → Option γ} {ts : List Token} {op : γ}
    (found : (upcoming ts).operator operator? = some op) :
    ∃ mark us, ts = .punctuator mark :: us ∧ operator? mark = some op := by
  cases ts with
  | nil => cases found
  | cons t ts =>
    cases t with
    | punctuator mark => exact ⟨mark, ts, rfl, found⟩
    | _ => cases found

/-! ## Outcomes -/

/-- The nesting is too deep. -/
def TooDeep (result : Result α) : Prop :=
  ∃ position depth, result = .error ⟨.nestingTooDeep nestingLimit position, depth⟩

/-- What is known of an outcome before some tokens and a tail, given the outcome before the tokens alone. -/
def Matches (tail : List Token) (shallow : Prop) (before after : Nat) (ts : List Token) :
    Result α → Result α → Prop
  | .ok (a, s'), result => ∃ own us, ts = own ++ us ∧ Shifts before after own ∧ s'.Holds us ∧
      ((∃ t', result = .ok (a, t') ∧ t'.Holds (us ++ tail)) ∨ shallow ∧ TooDeep result)
  | .error ⟨.nestingTooDeep _ _, _⟩, result => TooDeep result
  | .error _, _ => True

def Embeds (tail : List Token) (shallow : Prop) (before after : Nat) (p q : Parser α) : Prop :=
  ∀ s t ts, s.Holds ts → t.Holds (ts ++ tail) → Matches tail shallow before after ts (p s) (q t)

section

variable {tail : List Token} {shallow : Prop} {before mid after : Nat}

namespace Matches

variable {own ts us : List Token} {first second : Result α}

theorem after_own (compared : Matches tail shallow mid after us first second) (shifts : Shifts before mid own) :
    Matches tail shallow before after (own ++ us) first second := by
  cases first with
  | ok pair =>
    obtain ⟨own', vs, rfl, shifts', rest⟩ := compared
    exact ⟨own ++ own', vs, (List.append_assoc ..).symm, shifts.append shifts', rest⟩
  | error failure =>
    obtain ⟨error, depth⟩ := failure
    cases error <;> exact compared

theorem refuse (compared : Matches tail shallow before after ts first second) (isShallow : shallow)
    {third : Result α} (deep : TooDeep third) :
    Matches tail shallow before after ts first third := by
  cases first with
  | ok pair =>
    obtain ⟨own, us, split, shifts, left, _⟩ := compared
    exact ⟨own, us, split, shifts, left, .inr ⟨isShallow, deep⟩⟩
  | error failure =>
    obtain ⟨error, depth⟩ := failure
    cases error with
    | nestingTooDeep => exact deep
    | _ => trivial

theorem lift (compared : Matches tail shallow before after ts first second) (more : Nat) :
    Matches tail shallow (before + more) (after + more) ts first second := by
  cases first with
  | ok pair =>
    obtain ⟨own, us, split, shifts, rest⟩ := compared
    exact ⟨own, us, split, shifts.lift more, rest⟩
  | error failure =>
    obtain ⟨error, depth⟩ := failure
    cases error <;> exact compared

/-- The second part of a sequence begins where the first one has stopped. -/
theorem bind {p q : Parser α} {f g : α → Parser β} {s t : Source}
    (compared : Matches tail shallow before mid ts (p s) (q t))
    (rest : ∀ a s' t' us, p s = .ok (a, s') → s'.Holds us → t'.Holds (us ++ tail) →
      Matches tail shallow mid after us (f a s') (g a t')) :
    Matches tail shallow before after ts ((p >>= f) s) ((q >>= g) t) := by
  cases result : p s with
  | error failure =>
    rw [result] at compared
    rw [Heeds.bind_of_error result]
    obtain ⟨error, depth⟩ := failure
    cases error with
    | nestingTooDeep limit position =>
      obtain ⟨position, depth, failed⟩ := compared
      exact ⟨position, depth, Heeds.bind_of_error failed⟩
    | _ => trivial
  | ok pair =>
    obtain ⟨a, s'⟩ := pair
    rw [result] at compared
    rw [Heeds.bind_of_ok result]
    obtain ⟨own, us, rfl, shifts, left, ⟨t', read, left'⟩ | ⟨isShallow, position, depth, failed⟩⟩ := compared
    · rw [Heeds.bind_of_ok read]
      exact (rest a s' t' us result left left').after_own shifts
    · -- The other parser has given up, but what is read here is still known to be balanced.
      obtain ⟨t', left'⟩ := Source.exists_holds (us ++ tail)
      refine ((rest a s' t' us result left left').after_own shifts).refuse isShallow ?_
      exact ⟨position, depth, Heeds.bind_of_error failed⟩

/-- Both parsers read the same from the same tokens. -/
theorem of_reads (own : List Token) {p q : Parser α} {a : α} {s t : Source} (here : s.Holds (own ++ us))
    (here' : t.Holds (own ++ us ++ tail)) (shifts : Shifts before after own)
    (reads : Reads p (own ++ us) a us True) (reads' : Reads q (own ++ us ++ tail) a (us ++ tail) True) :
    Matches tail shallow before after (own ++ us) (p s) (q t) := by
  obtain ⟨s', read, left⟩ := reads.run here
  obtain ⟨t', read', left'⟩ := reads'.run here'
  rw [read, read']
  exact ⟨own, us, rfl, shifts, left, .inl ⟨t', rfl, left'⟩⟩

end Matches

namespace Embeds

variable {p q : Parser α}

/-! ## Sequences -/

theorem pure (a : α) : Embeds tail shallow before before (pure a) (pure a) := by
  intro s t ts here here'
  exact ⟨[], ts, rfl, .nil before, here, .inl ⟨t, rfl, here'⟩⟩

theorem bind {f g : α → Parser β} (first : Embeds tail shallow before mid p q)
    (rest : ∀ a, Embeds tail shallow mid after (f a) (g a)) :
    Embeds tail shallow before after (p >>= f) (q >>= g) := by
  intro s t ts here here'
  exact (first s t ts here here').bind fun a s' t' us _ left left' => rest a s' t' us left left'

theorem map (f : α → β) (first : Embeds tail shallow before after p q) :
    Embeds tail shallow before after (f <$> p) (f <$> q) := by
  rw [map_eq_pure_bind, map_eq_pure_bind]
  exact .bind first fun a => .pure (f a)

theorem lift (embeds : Embeds tail shallow before after p q) (more : Nat) :
    Embeds tail shallow (before + more) (after + more) p q :=
  fun s t ts here here' => (embeds s t ts here here').lift more

theorem tooDeep : Embeds tail shallow before after (tooDeep : Parser α) tooDeep :=
  fun _ t _ _ _ => ⟨t.scanned, t.depth, rfl⟩

theorem refused (embeds : Embeds tail shallow before after p p) (isShallow : shallow) :
    Embeds tail shallow before after p Parser.tooDeep :=
  fun s t ts here here' => (embeds s t ts here here').refuse isShallow ⟨t.scanned, t.depth, rfl⟩

theorem unexpected (wanted : Expected) (found : Token) (q : Parser α) :
    Embeds tail shallow before after (unexpected wanted found) q :=
  fun _ _ _ _ _ => trivial

/-! ## Repetition -/

theorem iterateUpTo {step step' : α → Parser (Option α)}
    (each : ∀ a, Embeds tail shallow 0 0 (step a) (step' a)) (takes : Takes step) {n m : Nat} {a : α}
    {s t : Source} {ts : List Token} (here : s.Holds ts) (here' : t.Holds (ts ++ tail))
    (first : ts.length < n) (second : (ts ++ tail).length < m) :
    Matches tail shallow 0 0 ts (iterateUpTo step n a s) (iterateUpTo step' m a t) := by
  induction n generalizing m a s t ts with
  | zero => omega
  | succ n ih =>
    obtain ⟨m, rfl⟩ := Nat.exists_eq_succ_of_ne_zero (Nat.ne_of_gt (Nat.zero_lt_of_lt second))
    refine (each a s t ts here here').bind fun found s' t' us stepped left left' => ?_
    cases found with
    | none => exact Embeds.pure a s' t' us left left'
    | some b =>
      have shorter := takes a b s s' here.enough stepped
      rw [here.stream.length_eq, left.stream.length_eq] at shorter
      rw [List.length_append] at second
      exact ih left left' (by omega) (by rw [List.length_append]; omega)

theorem iterate {step step' : α → Parser (Option α)}
    (each : ∀ a, Embeds tail shallow 0 0 (step a) (step' a)) (takes : Takes step) (a : α) :
    Embeds tail shallow 0 0 (iterate step a) (iterate step' a) :=
  fun _ _ _ here here' => iterateUpTo each takes here here' here.bound here'.bound

/-! ## Single tokens -/

/-- A token that is taken is rejected, or it is none of the tail and one goes on. -/
inductive Continues (tail : List Token) (shallow : Prop) (before after : Nat) (token : Token) :
    Parser β → Parser β → Prop where
  | reject (wanted : Expected) (q : Parser β) :
      Continues tail shallow before after token (Parser.unexpected wanted token) q
  | accept {p q : Parser β} (mid : Nat) : token ≠ .eof → Shifts before mid [token] →
      Embeds tail shallow mid after p q → Continues tail shallow before after token p q

theorem next_bind {f g : Token → Parser β}
    (continues : ∀ token, Continues tail shallow before after token (f token) (g token)) :
    Embeds tail shallow before after (Parser.next >>= f) (Parser.next >>= g) := by
  intro s t ts here here'
  cases ts with
  | nil =>
    obtain ⟨s', read, _⟩ := Reads.next_end.run here
    rw [Heeds.bind_of_ok read]
    have answer := continues .eof
    generalize f .eof = p, g .eof = q at answer
    cases answer with
    | reject => trivial
    | accept _ isToken => exact absurd rfl isToken
  | cons token ts =>
    obtain ⟨s', read, left⟩ := (Reads.next token ts).run here
    obtain ⟨t', read', left'⟩ := (Reads.next token (ts ++ tail)).run here'
    rw [Heeds.bind_of_ok read, Heeds.bind_of_ok read']
    have answer := continues token
    generalize f token = p, g token = q at answer
    cases answer with
    | reject => trivial
    | accept mid _ shifts rest => exact (rest s' t' ts left left').after_own shifts

theorem expect {mark : Punctuator} (shifts : Shifts before after [.punctuator mark]) :
    Embeds tail shallow before after (expect mark) (expect mark) := by
  refine .next_bind fun token => ?_
  cases token with
  | punctuator found =>
    by_cases same : found = mark
    · subst same
      simp only [if_true]
      exact .accept after (by simp) shifts (.pure ())
    · simp only [same, if_false]
      exact .reject _ _
  | _ => exact .reject _ _

theorem expectIdentifier : Embeds tail shallow 0 0 expectIdentifier expectIdentifier := by
  refine .next_bind fun token => ?_
  cases token with
  | identifier name => exact .accept 0 (by simp) (.plain rfl) (.pure name)
  | _ => exact .reject _ _

section

variable (ends : (upcoming tail).endsCode = true)

include ends

theorem isMark_tail (mark : Punctuator) : (upcoming tail).isMark mark = false := by
  revert ends
  cases upcoming tail with
  | punctuator found => nofun
  | _ => exact fun _ => rfl

theorem operator_tail (operator? : Punctuator → Option γ) : (upcoming tail).operator operator? = none := by
  revert ends
  cases upcoming tail with
  | punctuator found => nofun
  | _ => exact fun _ => rfl

omit ends in
/-- What is seen in the tail is what is seen at the end. -/
theorem look {value : Token → γ} {p : Parser γ} (reads : ∀ ts, Reads p ts (value (upcoming ts)) ts True)
    (same : value (upcoming tail) = value .eof) : Embeds tail shallow 0 0 p p := by
  intro s t ts here here'
  have seen : value (upcoming (ts ++ tail)) = value (upcoming ts) := by
    cases ts with
    | nil => exact same
    | cons => rfl
  have reads' := reads (ts ++ tail)
  rw [seen] at reads'
  exact Matches.of_reads [] here here' (.nil 0) (reads ts) reads'

theorem check (mark : Punctuator) : Embeds tail shallow 0 0 (check mark) (check mark) :=
  look (Reads.check mark) (isMark_tail ends mark)

theorem eat {mark : Punctuator} (plain : (Token.punctuator mark).isPlain = true) :
    Embeds tail shallow 0 0 (eat mark) (eat mark) := by
  intro s t ts here here'
  cases isMark : (upcoming ts).isMark mark with
  | true =>
    obtain ⟨us, rfl⟩ := eq_cons_of_isMark isMark
    exact Matches.of_reads [_] here here' (.plain plain) (.eat mark us) (.eat mark (us ++ tail))
  | false =>
    have other : (upcoming (ts ++ tail)).isMark mark = false := by
      cases ts with
      | nil => exact isMark_tail ends mark
      | cons => exact isMark
    exact Matches.of_reads [] here here' (.nil 0) (.eat_other isMark) (.eat_other other)

/-- An operator is taken if there is one. -/
theorem operator_bind {operator? : Punctuator → Option γ} {f f' : Option γ → Parser β}
    (nothing : Embeds tail shallow 0 0 (f none) (f' none)) {g g' : γ → Token → Parser β}
    (takes : ∀ op, f (some op) = Parser.next >>= g op) (takes' : ∀ op, f' (some op) = Parser.next >>= g' op)
    (plain : ∀ mark op, operator? mark = some op → (Token.punctuator mark).isPlain = true)
    (something : ∀ op token, Embeds tail shallow 0 0 (g op token) (g' op token)) :
    Embeds tail shallow 0 0 (peekOperator operator? >>= f) (peekOperator operator? >>= f') := by
  intro s t ts here here'
  have looked : Embeds tail shallow 0 0 (peekOperator operator?) (peekOperator operator?) :=
    look (Reads.peekOperator operator?) (operator_tail ends operator?)
  refine (looked s t ts here here').bind fun op s' t' us read left left' => ?_
  cases op with
  | none => exact nothing s' t' us left left'
  | some op =>
    obtain ⟨s'', read'', left''⟩ := (Reads.peekOperator operator? ts).run here
    have same := Except.ok.inj (read.symm.trans read'')
    obtain ⟨found, rfl⟩ := Prod.mk.inj same
    obtain rfl := left.stream.unique left''.stream
    obtain ⟨mark, vs, rfl, isOperator⟩ := eq_cons_of_operator found.symm
    rw [takes, takes']
    obtain ⟨s₁, taken, rest⟩ := (Reads.next _ vs).run left
    obtain ⟨t₁, taken', rest'⟩ := (Reads.next _ (vs ++ tail)).run left'
    rw [Heeds.bind_of_ok taken, Heeds.bind_of_ok taken']
    exact (something op _ s₁ t₁ vs rest rest').after_own (.plain (plain mark op isOperator))

/-! ## Lists -/

section

variable {item item' : Parser α} (each : Embeds tail shallow 0 0 item item')
  (heeds : Heeds (fun _ => True) item)

include each heeds

theorem commaSeparated : Embeds tail shallow 0 0 (commaSeparated item) (commaSeparated item') := by
  refine .bind each fun first => ?_
  refine .bind (.iterate (fun read => ?_) (Heeds.takes (Heeds.comma_step heeds)) [first]) fun _ => .pure _
  refine .bind (.eat ends rfl) fun more => ?_
  cases more with
  | true => exact .bind each fun _ => .pure _
  | false => exact .pure none

theorem bracketed {close : Punctuator} (closing : Shifts before 0 [.punctuator close]) :
    Embeds tail shallow before 0 (bracketed close item) (bracketed close item') := by
  have items : Embeds tail shallow 0 0
      (Parser.iterate (fun (state : List α × Bool) => do
        if !state.2 then Pure.pure none
        else if ← Parser.check close then Pure.pure none
        else
          let found ← item
          Pure.pure (some (found :: state.1, ← Parser.eat .comma))) ([], true))
      (Parser.iterate (fun (state : List α × Bool) => do
        if !state.2 then Pure.pure none
        else if ← Parser.check close then Pure.pure none
        else
          let found ← item'
          Pure.pure (some (found :: state.1, ← Parser.eat .comma))) ([], true)) := by
    refine .iterate (fun state => ?_) (Heeds.takes (Heeds.bracket_step heeds close)) ([], true)
    obtain ⟨read, more⟩ := state
    cases more with
    | false => exact .pure none
    | true =>
      refine .bind (.check ends close) fun closed => ?_
      cases closed with
      | true => exact .pure none
      | false => exact .bind each fun _ => .bind (.eat ends rfl) fun _ => .pure _
  have lifted := items.lift before
  rw [Nat.zero_add] at lifted
  exact .bind lifted fun _ => .bind (.expect closing) fun _ => .pure _

end

/-! ## Expressions -/

section

variable {inner inner' : Parser Expr} (deeper : Embeds tail shallow 0 0 inner inner')

include deeper

omit ends in
theorem field : Embeds tail shallow 0 0 (field inner) (field inner') := by
  have value (key : String) : Embeds tail shallow 0 0 (do
      Parser.expect .colon
      Pure.pure (key, ← inner) : Parser (String × Expr)) (do
      Parser.expect .colon
      Pure.pure (key, ← inner')) :=
    .bind (.expect (.plain rfl)) fun _ => .bind deeper fun _ => .pure _
  refine .next_bind fun token => ?_
  cases token with
  | identifier name => exact .accept 0 (by simp) (.plain rfl) (value name)
  | string text => exact .accept 0 (by simp) (.plain rfl) (value text)
  | _ => exact .reject _ _

variable (heeds : Heeds (fun _ => True) inner)

include heeds

theorem arguments : Embeds tail shallow 0 0 (arguments inner) (arguments inner') := by
  have closing (args : List Expr) : Embeds tail shallow 0 0
      (do Parser.expect .rightParen; Pure.pure args : Parser (List Expr))
      (do Parser.expect .rightParen; Pure.pure args) :=
    .bind (.expect (.plain rfl)) fun _ => .pure args
  refine .bind (.expect (.plain rfl)) fun _ => .bind (.check ends .rightParen) fun closed => ?_
  cases closed with
  | true => exact closing []
  | false => exact .bind (.commaSeparated ends deeper heeds) closing

omit ends in
theorem template (head : String) : Embeds tail shallow 0 0 (template inner head) (template inner' head) := by
  refine .bind (.iterate (fun state => ?_) (Heeds.takes (Heeds.template_step heeds)) _) fun _ => .pure _
  obtain ⟨read, more⟩ := state
  cases more with
  | false => exact .pure none
  | true =>
    refine .bind deeper fun e => .next_bind fun token => ?_
    cases token with
    | templateStart text => exact .accept 0 (by simp) (.plain rfl) (.pure _)
    | templateEnd text => exact .accept 0 (by simp) (.plain rfl) (.pure _)
    | _ => exact .reject _ _

theorem atom : Embeds tail shallow 0 0 (atom inner) (atom inner') := by
  refine .next_bind fun token => ?_
  cases token with
  | keyword word =>
    cases word with
    | trueK | falseK => exact .accept 0 (by simp) (.plain rfl) (.pure _)
    | _ => exact .reject _ _
  | punctuator mark =>
    cases mark with
    | leftParen =>
      exact .accept 0 (by simp) (.plain rfl)
        (.bind deeper fun value => .bind (.expect (.plain rfl)) fun _ => .pure value)
    | leftBracket =>
      exact .accept 0 (by simp) (.plain rfl) (.map _ (.bracketed ends deeper heeds (.plain rfl)))
    | leftBrace =>
      exact .accept 1 (by simp) shifts_leftBrace
        (.map _ (.bracketed ends (.field deeper) (Heeds.field heeds) shifts_rightBrace))
    | _ => exact .reject _ _
  | templateStart text => exact .accept 0 (by simp) (.plain rfl) (.template deeper heeds text)
  | eof => exact .reject _ _
  | number | string | identifier | templateEnd => exact .accept 0 (by simp) (.plain rfl) (.pure _)

theorem suffix (base : Expr) : Embeds tail shallow 0 0 (suffix inner base) (suffix inner' base) := by
  refine .bind (.check ends .leftParen) fun called => ?_
  cases called with
  | true => exact .bind (.arguments ends deeper heeds) fun _ => .pure _
  | false =>
    refine .bind (.eat ends rfl) fun read => ?_
    cases read with
    | true => exact .bind .expectIdentifier fun _ => .pure _
    | false => exact .pure none

theorem primaryWith : Embeds tail shallow 0 0 (primaryWith inner) (primaryWith inner') :=
  .bind (.atom ends deeper heeds) fun base =>
    .iterate (.suffix ends deeper heeds) (Heeds.takes (Heeds.suffix heeds)) base

end

theorem chain {primary primary' : Parser Expr} (operand : Embeds tail shallow 0 0 primary primary')
    (heeds : Heeds (fun _ => True) primary) : Embeds tail shallow 0 0 (chain primary) (chain primary') := by
  refine .bind operand fun first => .iterate (fun left => ?_) (Heeds.takes (Heeds.chain_step heeds)) first
  refine .operator_bind ends (.pure none) (fun op => rfl) (fun op => rfl) ?_ fun op token =>
    .bind operand fun _ => .pure _
  intro mark op isOperator
  cases mark with
  | leftBrace | rightBrace => cases isOperator
  | _ => rfl

theorem expressionWith {primary primary' right right' : Parser Expr}
    (operand : Embeds tail shallow 0 0 primary primary') (heeds : Heeds (fun _ => True) primary)
    (deeper : Embeds tail shallow 0 0 right right') :
    Embeds tail shallow 0 0 (expressionWith primary right) (expressionWith primary' right') := by
  refine .bind (.chain ends operand heeds) fun left => ?_
  refine .operator_bind ends (.pure left) (fun op => rfl) (fun op => rfl) ?_ fun op mark => ?_
  · intro mark op isOperator
    cases mark with
    | leftBrace | rightBrace => cases isOperator
    | _ => rfl
  · cases left with
    | identifier target => exact .bind deeper fun _ => .pure _
    | _ => exact .unexpected _ _ _

theorem expression (levels : Nat) :
    Embeds tail shallow 0 0 (Parser.expression levels) (Parser.expression levels) := by
  induction levels with
  | zero => exact .expressionWith ends .tooDeep Heeds.tooDeep .tooDeep
  | succ levels ih =>
    have heeds := Heeds.expressionAt levels
    exact .expressionWith ends (.primaryWith ends ih heeds) (Heeds.primaryWith heeds) ih

theorem expression_shallow (isShallow : shallow) (levels : Nat) :
    Embeds tail shallow 0 0 (Parser.expression (levels + 1)) (Parser.expression levels) := by
  have heeds := Heeds.expressionAt levels
  induction levels with
  | zero =>
    have inside : Embeds tail shallow 0 0 (Parser.expression 0) (Parser.expression 0) := .expression ends 0
    exact .expressionWith ends (.refused (.primaryWith ends inside heeds) isShallow)
      (Heeds.primaryWith heeds) (.refused inside isShallow)
  | succ levels ih =>
    have deeper := ih (Heeds.expressionAt levels)
    exact .expressionWith ends (.primaryWith ends deeper heeds) (Heeds.primaryWith heeds) deeper

end

end Embeds

end

end Parser

end TinyScript
