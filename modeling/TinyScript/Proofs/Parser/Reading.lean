import TinyScript.Proofs.Parser.Scanning

/-! # What parsers read

`Reads p ts a us fits` says what the parser `p` does before the tokens `ts`: it reads `a` and leaves the
tokens `us` if what it reads `fits`, and otherwise it fails because the nesting is too deep.  Each
combinator has a rule, so that the proof for a production has the shape of the production.

A repetition that builds its result from the left has two rules more: `Repeats step a ts b us fits` says
where it gets to from `a`, and `Starts p step ts a us fits` that the parser `p` has read `a` and goes on
with repetitions of `step`.
-/

namespace TinyScript

/-- The tokens are all that is left, and there can be as many repetitions. -/
structure Source.Holds (s : Source) (ts : List Token) : Prop where
  stream : s.rest.Holds ts
  bound : ts.length < s.bound

def Token.isMark (mark : Punctuator) : Token → Bool
  | .punctuator found => found = mark
  | _ => false

def Token.isKeyword (word : Keyword) : Token → Bool
  | .keyword found => found = word
  | _ => false

def Token.isEnd : Token → Bool
  | .eof => true
  | _ => false

/-- The token as an operator of some kind. -/
def Token.operator {α : Type} (operator? : Punctuator → Option α) : Token → Option α
  | .punctuator mark => operator? mark
  | _ => none

namespace Parser

/-- The token that comes next. -/
def upcoming (ts : List Token) : Token := ts.headD .eof

@[simp] theorem upcoming_cons (t : Token) (ts : List Token) : upcoming (t :: ts) = t := rfl

variable {α β : Type} {ts us vs : List Token} {fits fits' : Prop}

def Reads (p : Parser α) (ts : List Token) (a : α) (us : List Token) (fits : Prop) : Prop :=
  ∀ s : Source, s.Holds ts →
    (fits ∧ ∃ s', p s = .ok (a, s') ∧ s'.Holds us) ∨
      (¬fits ∧ ∃ position depth, p s = .error ⟨.nestingTooDeep nestingLimit position, depth⟩)

namespace Reads

variable {p : Parser α} {a : α}

/-! ## Sequences -/

theorem of_ok (reads : ∀ s : Source, s.Holds ts → ∃ s', p s = .ok (a, s') ∧ s'.Holds us) :
    Reads p ts a us True := fun s holds => .inl ⟨trivial, reads s holds⟩

theorem pure (a : α) : Reads (pure a) ts a ts True := of_ok fun s holds => ⟨s, rfl, holds⟩

theorem bind {f : α → Parser β} {b : β} (first : Reads p ts a us fits)
    (rest : Reads (f a) us b vs fits') : Reads (p >>= f) ts b vs (fits ∧ fits') := by
  intro s holds
  simp only [Bind.bind, StateT.bind, Except.bind]
  rcases first s holds with ⟨fit, s', read, left⟩ | ⟨unfit, position, depth, failed⟩
  · rw [read]
    rcases rest s' left with ⟨fit', result⟩ | ⟨unfit, failed⟩
    · exact .inl ⟨⟨fit, fit'⟩, result⟩
    · exact .inr ⟨fun both => unfit both.2, failed⟩
  · rw [failed]
    exact .inr ⟨fun both => unfit both.1, position, depth, rfl⟩

theorem congr (reads : Reads p ts a us fits) (same : fits ↔ fits') : Reads p ts a us fits' := by
  rwa [← propext same]

/-- The first part always fits. -/
theorem step {f : α → Parser β} {b : β} (first : Reads p ts a us True)
    (rest : Reads (f a) us b vs fits) : Reads (p >>= f) ts b vs fits :=
  (first.bind rest).congr (iff_of_eq (true_and fits))

/-- The last part always fits. -/
theorem finish {f : α → Parser β} {b : β} (first : Reads p ts a us fits)
    (rest : Reads (f a) us b vs True) : Reads (p >>= f) ts b vs fits :=
  (first.bind rest).congr (iff_of_eq (and_true fits))

theorem map (f : α → β) (reads : Reads p ts a us fits) : Reads (f <$> p) ts (f a) us fits := by
  rw [map_eq_pure_bind]
  exact reads.finish (.pure (f a))

theorem tooDeep (unfit : ¬fits) : Reads tooDeep ts a us fits :=
  fun s _ => .inr ⟨unfit, s.scanned, s.depth, rfl⟩

/-! ## Single tokens -/

theorem peek (ts : List Token) : Reads peek ts (upcoming ts) ts True := by
  rintro ⟨rest, scanned, bound, depth⟩ ⟨stream, enough⟩
  cases stream with
  | done stop => exact .inl ⟨trivial, _, rfl, .done stop, enough⟩
  | lexeme inner => exact .inl ⟨trivial, _, rfl, .lexeme inner, enough⟩

theorem next (t : Token) (ts : List Token) : Reads next (t :: ts) t ts True := by
  rintro ⟨rest, scanned, bound, depth⟩ ⟨stream, enough⟩
  cases stream with
  | lexeme inner => exact .inl ⟨trivial, _, rfl, inner, Nat.lt_of_succ_lt enough⟩

theorem check (mark : Punctuator) (ts : List Token) :
    Reads (check mark) ts ((upcoming ts).isMark mark) ts True := by
  refine .step (.peek ts) ?_
  cases upcoming ts <;> exact .pure _

theorem check_mark (mark : Punctuator) (ts : List Token) :
    Reads (Parser.check mark) (.punctuator mark :: ts) true (.punctuator mark :: ts) True := by
  simpa [Token.isMark] using check mark (.punctuator mark :: ts)

theorem check_other {mark : Punctuator} (other : (upcoming ts).isMark mark = false) :
    Reads (Parser.check mark) ts false ts True := by
  simpa [other] using check mark ts

theorem checkKeyword (word : Keyword) (ts : List Token) :
    Reads (checkKeyword word) ts ((upcoming ts).isKeyword word) ts True := by
  refine .step (.peek ts) ?_
  cases upcoming ts <;> exact .pure _

theorem checkEnd (ts : List Token) : Reads checkEnd ts (upcoming ts).isEnd ts True := by
  refine .step (.peek ts) ?_
  cases upcoming ts <;> exact .pure _

theorem peekOperator {γ : Type} (operator? : Punctuator → Option γ) (ts : List Token) :
    Reads (peekOperator operator?) ts ((upcoming ts).operator operator?) ts True := by
  refine .step (.peek ts) ?_
  cases upcoming ts <;> exact .pure _

theorem eat (mark : Punctuator) (ts : List Token) :
    Reads (eat mark) (.punctuator mark :: ts) true ts True :=
  .step (.check_mark mark ts) (.step (.next _ _) (.pure _))

theorem eat_other {mark : Punctuator} (other : (upcoming ts).isMark mark = false) :
    Reads (Parser.eat mark) ts false ts True := .step (.check_other other) (.pure _)

theorem expect (mark : Punctuator) (ts : List Token) :
    Reads (expect mark) (.punctuator mark :: ts) () ts True := by
  refine .step (.next _ _) ?_
  show Reads (if mark = mark then _ else _) _ _ _ _
  rw [if_pos rfl]
  exact .pure ()

theorem expectKeyword (word : Keyword) (ts : List Token) :
    Reads (expectKeyword word) (.keyword word :: ts) () ts True := by
  refine .step (.next _ _) ?_
  show Reads (if word = word then _ else _) _ _ _ _
  rw [if_pos rfl]
  exact .pure ()

theorem expectIdentifier (name : String) (ts : List Token) :
    Reads expectIdentifier (.identifier name :: ts) name ts True :=
  .step (.next _ _) (.pure name)

end Reads

/-! ## Repetition -/

def Repeats (step : α → Parser (Option α)) (a : α) (ts : List Token) (b : α) (us : List Token)
    (fits : Prop) : Prop :=
  ∀ n, ts.length < n → Reads (iterateUpTo step n a) ts b us fits

theorem Reads.iterate {step : α → Parser (Option α)} {a b : α} (repeats : Repeats step a ts b us fits) :
    Reads (iterate step a) ts b us fits := fun s holds => repeats s.bound holds.bound s holds

namespace Repeats

variable {step : α → Parser (Option α)} {a b c : α}

theorem stop (nothing : Reads (step a) ts none us True) : Repeats step a ts a us True := by
  intro n enough
  cases n with
  | zero => cases enough
  | succ n => exact .step nothing (.pure a)

theorem more (found : Reads (step a) ts (some b) us fits) (shorter : us.length < ts.length)
    (others : Repeats step b us c vs fits') : Repeats step a ts c vs (fits ∧ fits') := by
  intro n enough
  cases n with
  | zero => cases enough
  | succ n => exact .bind found (others n (by omega))

theorem congr (repeats : Repeats step a ts b us fits) (same : fits ↔ fits') :
    Repeats step a ts b us fits' := fun n enough => (repeats n enough).congr same

end Repeats

def Starts (p : Parser α) (step : α → Parser (Option α)) (ts : List Token) (a : α) (us : List Token)
    (fits : Prop) : Prop :=
  ∀ b vs fits', Repeats step a us b vs fits' → Reads p ts b vs (fits ∧ fits')

namespace Starts

variable {p : Parser α} {step : α → Parser (Option α)} {a b : α}

theorem init (first : Reads p ts a us fits) : Starts (p >>= iterate step) step ts a us fits :=
  fun _ _ _ repeats => first.bind (.iterate repeats)

theorem more (starts : Starts p step ts a us fits) (found : Reads (step a) us (some b) vs fits')
    (shorter : vs.length < us.length) : Starts p step ts b vs (fits ∧ fits') :=
  fun _ _ _ repeats => (starts _ _ _ (.more found shorter repeats)).congr and_assoc.symm

theorem stop (starts : Starts p step ts a us fits) (nothing : Reads (step a) us none us True) :
    Reads p ts a us fits := (starts _ _ _ (.stop nothing)).congr (iff_of_eq (and_true fits))

theorem congr (starts : Starts p step ts a us fits) (same : fits ↔ fits') :
    Starts p step ts a us fits' := fun _ _ _ repeats => (starts _ _ _ repeats).congr (and_congr_left' same)

end Starts

/-! ## Lists -/

theorem length_lt_append (t : Token) (ts us : List Token) : us.length < (t :: ts ++ us).length := by
  simp only [List.cons_append, List.length_cons, List.length_append]
  omega

theorem withCommas_singleton (ts : List Token) : withCommas [ts] = ts := List.append_nil ts

theorem withCommas_cons_cons (ts us : List Token) (tss : List (List Token)) :
    withCommas (ts :: us :: tss) = ts ++ .punctuator .comma :: withCommas (us :: tss) := rfl

section

variable {item : Parser α} {tokens : α → List Token} {fit : α → Prop} {ends : List Token → Prop}

theorem Reads.manyUntil {stop : Parser Bool} {opens : Token → Prop} {as : List α} {rest : List Token}
    (first : ∀ a ∈ as, ∃ t us, tokens a = t :: us ∧ opens t)
    (each : ∀ a ∈ as, ∀ ts, ends ts → Reads item (tokens a ++ ts) a ts (fit a))
    (goes : ∀ t ts, opens t → ends (t :: ts) ∧ Reads stop (t :: ts) false (t :: ts) True)
    (last : ends rest) (stops : Reads stop rest true rest True) :
    Reads (manyUntil stop item) (as.flatMap tokens ++ rest) as rest (∀ a ∈ as, fit a) := by
  -- The items read so far are kept last first; the induction is on those that are still to come.
  have every (read : List α) : ends (as.flatMap tokens ++ rest) ∧ Repeats (fun read => do
      if ← stop then Pure.pure none else Pure.pure (some ((← item) :: read))) read
      (as.flatMap tokens ++ rest) (as.reverse ++ read) rest (∀ a ∈ as, fit a) := by
    induction as generalizing read with
    | nil =>
      refine ⟨last, .congr (.stop ?_) (by simp)⟩
      exact .step stops (.pure none)
    | cons a as ih =>
      rw [List.forall_mem_cons] at first each
      obtain ⟨ends', others⟩ := ih first.2 each.2 (a :: read)
      obtain ⟨⟨t, us, starts, opening⟩, _⟩ := first
      rw [List.flatMap_cons, List.append_assoc, List.reverse_cons, List.append_assoc]
      obtain ⟨start, going⟩ := goes t (us ++ (as.flatMap tokens ++ rest)) opening
      rw [← List.cons_append, ← starts] at start going
      refine ⟨start, .congr (.more (.step going ?_) ?_ others) List.forall_mem_cons.symm⟩
      · exact .finish (each.1 _ ends') (.pure _)
      · rw [starts]
        exact length_lt_append t us _
  refine .finish (.iterate (every []).2) ?_
  simpa using Reads.pure as

theorem Reads.commaSeparated {a : α} {as : List α} {rest : List Token}
    (each : ∀ b ∈ a :: as, ∀ ts, ends ts → Reads item (tokens b ++ ts) b ts (fit b))
    (comma : ∀ ts, ends (.punctuator .comma :: ts)) (last : ends rest)
    (other : (upcoming rest).isMark .comma = false) :
    Reads (commaSeparated item) (withCommas ((a :: as).map tokens) ++ rest) (a :: as) rest
      (∀ b ∈ a :: as, fit b) := by
  rw [List.forall_mem_cons] at each
  have every (read : List α) : ends ((as.map tokens).flatMap (.punctuator .comma :: ·) ++ rest) ∧
      Repeats (fun read => do
        if ← Parser.eat .comma then Pure.pure (some ((← item) :: read)) else Pure.pure none) read
        ((as.map tokens).flatMap (.punctuator .comma :: ·) ++ rest) (as.reverse ++ read) rest
        (∀ b ∈ as, fit b) := by
    obtain ⟨_, each⟩ := each
    induction as generalizing read with
    | nil =>
      refine ⟨last, .congr (.stop ?_) (by simp)⟩
      exact .step (.eat_other other) (.pure none)
    | cons b as ih =>
      rw [List.forall_mem_cons] at each
      obtain ⟨ends', others⟩ := ih (b :: read) each.2
      rw [List.map_cons, List.flatMap_cons, List.append_assoc, List.reverse_cons, List.append_assoc]
      refine ⟨comma _, .congr (.more (.step (.eat .comma _) ?_) ?_ others) List.forall_mem_cons.symm⟩
      · exact .finish (each.1 _ ends') (.pure _)
      · exact length_lt_append _ (tokens b) _
  obtain ⟨ends', others⟩ := every [a]
  rw [List.map_cons, withCommas, List.append_assoc]
  refine .congr (.bind (each.1 _ ends') (.finish (.iterate others) ?_)) List.forall_mem_cons.symm
  simpa using Reads.pure (a :: as)

/-- Items in parentheses, and what comes after them. -/
theorem Reads.parenthesized {f : List α → Parser β} {b : β} {as : List α} {rest : List Token}
    (first : ∀ a ∈ as, ∃ t us, tokens a = t :: us ∧ t.isMark .rightParen = false)
    (each : ∀ a ∈ as, ∀ ts, ends ts → Reads item (tokens a ++ ts) a ts (fit a))
    (comma : ∀ ts, ends (.punctuator .comma :: ts)) (last : ∀ ts, ends (.punctuator .rightParen :: ts))
    (behind : Reads (f as) rest b us fits) :
    Reads (do
      Parser.expect .leftParen
      let items ← if ← Parser.check .rightParen then Pure.pure [] else Parser.commaSeparated item
      Parser.expect .rightParen
      f items) (.punctuator .leftParen :: (withCommas (as.map tokens) ++ .punctuator .rightParen :: rest))
      b us ((∀ a ∈ as, fit a) ∧ fits) := by
  refine .step (.expect .leftParen _) ?_
  cases as with
  | nil =>
    refine .step (.check_mark .rightParen _) (.step (.pure []) (.step (.expect .rightParen _) ?_))
    exact behind.congr (by simp)
  | cons a as =>
    obtain ⟨t, us, starts, opening⟩ := first a List.mem_cons_self
    refine .step (.check_other (by simpa [withCommas, starts] using opening)) ?_
    exact .bind (.commaSeparated each comma (last rest) rfl) (.step (.expect .rightParen _) behind)

theorem Reads.bracketed {close : Punctuator} {as : List α} {rest : List Token}
    (first : ∀ a ∈ as, ∃ t us, tokens a = t :: us ∧ t.isMark close = false)
    (each : ∀ a ∈ as, ∀ ts, ends ts → Reads item (tokens a ++ ts) a ts (fit a))
    (comma : ∀ ts, ends (.punctuator .comma :: ts)) (last : ends (.punctuator close :: rest))
    (other : close ≠ .comma) :
    Reads (bracketed close item) (withCommas (as.map tokens) ++ .punctuator close :: rest) as rest
      (∀ a ∈ as, fit a) := by
  -- The flag says that another item may follow: nothing has been read yet, or a comma just now.
  have every (read : List α) : Repeats (fun (state : List α × Bool) => do
      if !state.2 then Pure.pure none
      else if ← Parser.check close then Pure.pure none
      else
        let found ← item
        Pure.pure (some (found :: state.1, ← Parser.eat .comma))) (read, true)
      (withCommas (as.map tokens) ++ .punctuator close :: rest) (as.reverse ++ read, as.isEmpty)
      (.punctuator close :: rest) (∀ a ∈ as, fit a) := by
    induction as generalizing read with
    | nil =>
      refine .congr (.stop ?_) (by simp)
      exact .step (.check_mark close rest) (.pure none)
    | cons a as ih =>
      rw [List.forall_mem_cons] at first each
      obtain ⟨⟨t, us, starts, opening⟩, firsts⟩ := first
      have open_ (vs : List Token) : (upcoming (tokens a ++ vs)).isMark close = false := by
        rwa [starts]
      cases as with
      | nil =>
        have close' : Token.isMark .comma (.punctuator close) = false := by simpa [Token.isMark] using other
        rw [List.map_singleton, withCommas_singleton]
        refine .congr (.more (.step (.check_other (open_ _)) (.finish (each.1 _ last)
          (.step (.eat_other close') (.pure _)))) ?_ (.stop (.pure none))) (by simp)
        rw [starts]
        exact length_lt_append t us _
      | cons b as =>
        have others := ih firsts each.2 (a :: read)
        rw [List.map_cons, List.map_cons, withCommas_cons_cons, ← List.map_cons, List.append_assoc,
          List.cons_append, List.reverse_cons, List.append_assoc]
        refine .congr (.more (.step (.check_other (open_ _)) (.finish (each.1 _ (comma _))
          (.step (.eat .comma _) (.pure _)))) ?_ others) List.forall_mem_cons.symm
        rw [starts]
        exact Nat.lt_of_succ_lt (length_lt_append t us (.punctuator .comma :: _))
  refine .finish (.iterate (every [])) ?_
  refine .step (.expect close rest) ?_
  simpa using Reads.pure as

end

end Parser

end TinyScript
