import TinyScript.Parser.Basic

/-! # What parsers ask for

A parser takes tokens from the front of its stream and looks at most one token further.  `Heeds takes p` says
what that means for the outcome of the parser `p`.

* If it succeeds, then it has taken some tokens, at least one if its result is one that `takes`, and it
  does the same on every stream that agrees on these tokens and on the next one.
* If it rejects a token, then that is a token of the stream, it is reported with its start, and every stream
  that agrees up to this token leads to the same error, whatever comes behind.
* If it fails because the stream does, then with the error of the stream.

Each combinator has a rule, so that the proof for a production has the shape of the production.
-/

namespace TinyScript

namespace Stream

/-! ## Streams -/

/-- What is left after some tokens have been taken; there is no end to the `eof` tokens. -/
def drop : Nat → Stream → Stream
  | n + 1, .lexeme _ rest => rest.drop n
  | _, s => s

/-- The token after some others, and where it begins. -/
def at? : Nat → Stream → Option (Token × Position)
  | 0, .lexeme first _ => some (first.token, first.start)
  | n + 1, .lexeme _ rest => rest.at? n
  | _, .done stop => some (.eof, stop)
  | _, .failed _ => none

/-- The error that the stream ends with. -/
def error? : Stream → Option LexError
  | .lexeme _ rest => rest.error?
  | .done _ => none
  | .failed e => some e

/-- The stream that delivers some tokens and then fails. -/
def cut : Nat → LexError → Stream → Stream
  | 0, e, _ => .failed e
  | n + 1, e, .lexeme first rest => .lexeme first (rest.cut n e)
  | _ + 1, _, s => s

/-- Two streams that deliver the same tokens, so many of them without an error. -/
inductive Agree : Nat → Stream → Stream → Prop where
  | zero (s t : Stream) : Agree 0 s t
  | lexeme {n : Nat} {s t : Stream} (first : Lexeme) : Agree n s t →
      Agree (n + 1) (.lexeme first s) (.lexeme first t)
  | done (n : Nat) (stop : Position) : Agree n (.done stop) (.done stop)

theorem drop_zero (s : Stream) : s.drop 0 = s := by
  cases s <;> rfl

theorem drop_done (n : Nat) (stop : Position) : (Stream.done stop).drop n = .done stop := by
  cases n <;> rfl

theorem drop_failed (n : Nat) (e : LexError) : (Stream.failed e).drop n = .failed e := by
  cases n <;> rfl

theorem drop_drop (m n : Nat) (s : Stream) : (s.drop m).drop n = s.drop (m + n) := by
  induction m generalizing s with
  | zero => rw [drop_zero, Nat.zero_add]
  | succ m ih =>
    cases s with
    | lexeme first rest =>
      rw [Nat.add_right_comm]
      exact ih rest
    | done stop => rw [drop_done, drop_done, drop_done]
    | failed e => rw [drop_failed, drop_failed, drop_failed]

theorem length_drop_le (n : Nat) (s : Stream) : (s.drop n).length ≤ s.length := by
  induction n generalizing s with
  | zero => exact Nat.le_of_eq (congrArg Stream.length (drop_zero s))
  | succ n ih =>
    cases s with
    | lexeme first rest => exact Nat.le_succ_of_le (ih rest)
    | done stop => exact Nat.le_refl _
    | failed e => exact Nat.le_refl _

theorem at?_drop (n k : Nat) (s : Stream) : (s.drop n).at? k = s.at? (n + k) := by
  induction n generalizing s with
  | zero => rw [drop_zero, Nat.zero_add]
  | succ n ih =>
    cases s with
    | lexeme first rest =>
      rw [Nat.add_right_comm]
      exact ih rest
    | done stop =>
      rw [drop_done]
      cases k <;> rfl
    | failed e =>
      rw [drop_failed]
      cases k <;> rfl

theorem error?_drop (n : Nat) (s : Stream) : (s.drop n).error? = s.error? := by
  induction n generalizing s with
  | zero => rw [drop_zero]
  | succ n ih =>
    cases s with
    | lexeme first rest => exact ih rest
    | done stop => rfl
    | failed e => rfl

theorem Agree.mono {m n : Nat} {s t : Stream} (agree : Agree n s t) (fewer : m ≤ n) : Agree m s t := by
  induction agree generalizing m with
  | zero s t =>
    rw [Nat.le_zero.1 fewer]
    exact .zero s t
  | lexeme first _ ih =>
    cases m with
    | zero => exact .zero _ _
    | succ m => exact .lexeme first (ih (Nat.le_of_succ_le_succ fewer))
  | done n stop => exact .done m stop

theorem Agree.drop {m n : Nat} {s t : Stream} (agree : Agree (m + n) s t) :
    Agree n (s.drop m) (t.drop m) := by
  induction m generalizing s t with
  | zero =>
    rw [drop_zero, drop_zero]
    rwa [Nat.zero_add] at agree
  | succ m ih =>
    rw [Nat.add_right_comm] at agree
    cases agree with
    | lexeme first rest => exact ih rest
    | done _ stop => exact .done n stop

/-- A stream agrees with what is left when it is cut behind a token. -/
theorem agree_cut {k : Nat} {s : Stream} {found : Token × Position} (here : s.at? k = some found)
    (e : LexError) : Agree (k + 1) s (s.cut (k + 1) e) := by
  induction k generalizing s with
  | zero =>
    cases s with
    | lexeme first rest => exact .lexeme first (.zero _ _)
    | done stop => exact .done 1 stop
    | failed _ => cases here
  | succ k ih =>
    cases s with
    | lexeme first rest => exact .lexeme first (ih here)
    | done stop => exact .done _ stop
    | failed _ => cases here

end Stream

/-! ## Sources -/

namespace Source

/-- There are enough repetitions for the tokens that are left. -/
def Enough (s : Source) : Prop := s.rest.length < s.bound

/-- What is left after some tokens have been taken, with the start of the token delivered last. -/
def after (s : Source) (n : Nat) (scanned : Position) : Source :=
  { s with rest := s.rest.drop n, scanned }

theorem Enough.after {s : Source} (enough : s.Enough) (n : Nat) (scanned : Position) :
    (s.after n scanned).Enough :=
  Nat.lt_of_le_of_lt (Stream.length_drop_le n s.rest) enough

theorem after_after (s : Source) (m n : Nat) (p q : Position) :
    (s.after m p).after n q = s.after (m + n) q := by
  simp only [after, Stream.drop_drop]

/-- The second source cannot be told from the first one by its next few tokens. -/
structure Alike (n : Nat) (s t : Source) : Prop where
  rest : s.rest.Agree n t.rest
  scanned : t.scanned = s.scanned
  depth : t.depth = s.depth
  enough : t.Enough

theorem Alike.mono {m n : Nat} {s t : Source} (alike : Alike n s t) (fewer : m ≤ n) : Alike m s t :=
  ⟨alike.rest.mono fewer, alike.scanned, alike.depth, alike.enough⟩

theorem Alike.after {m n : Nat} {s t : Source} (alike : Alike (m + n) s t) (scanned : Position) :
    Alike n (s.after m scanned) (t.after m scanned) :=
  ⟨alike.rest.drop, rfl, alike.depth, alike.enough.after m scanned⟩

end Source

namespace Parser

variable {α β : Type}

/-! ## Outcomes -/

/-- What is known of an outcome, where `runs` tells what comes of other sources. -/
def Outcome (takes : α → Prop) (runs : Source → Result α → Prop) (s : Source) :
    Result α → Prop
  | .ok (a, s') => ∃ n, s' = s.after n s'.scanned ∧ (takes a → s'.rest.length < s.rest.length) ∧
      ∀ t, s.Alike (n + 1) t → runs t (.ok (a, t.after n s'.scanned))
  | .error ⟨.unexpectedToken wanted found position, depth⟩ => ∃ k, s.rest.at? k = some (found, position) ∧
      ∀ t, s.Alike (k + 1) t → runs t (.error ⟨.unexpectedToken wanted found position, depth⟩)
  | .error ⟨.lex e, _⟩ => s.rest.error? = some e
  | .error ⟨.nestingTooDeep _ _, _⟩ => True

def Heeds (takes : α → Prop) (p : Parser α) : Prop :=
  ∀ s : Source, s.Enough → Outcome takes (fun t result => p t = result) s (p s)

/-- An outcome after some tokens have been taken. -/
theorem Outcome.after {n : Nat} {s : Source} {scanned : Position} {mid takes : α → Prop}
    {runs runs' : Source → Result α → Prop}
    {result : Result α} (rest : Outcome mid runs' (s.after n scanned) result)
    (taken : ∀ a, takes a → mid a ∨ (s.after n scanned).rest.length < s.rest.length)
    (first : ∀ t result, s.Alike (n + 1) t → runs' (t.after n scanned) result → runs t result) :
    Outcome takes runs s result := by
  cases result with
  | ok pair =>
    obtain ⟨a, s'⟩ := pair
    obtain ⟨m, moved, further, same⟩ := rest
    refine ⟨n + m, ?_, ?_, ?_⟩
    · rw [moved, Source.after_after]
      rfl
    · intro takesOne
      have shorter : s'.rest.length ≤ (s.after n scanned).rest.length := by
        rw [moved]
        exact Stream.length_drop_le m _
      have before : (s.after n scanned).rest.length ≤ s.rest.length := Stream.length_drop_le n _
      cases taken a takesOne with
      | inl later => exact Nat.lt_of_lt_of_le (further later) before
      | inr now => exact Nat.lt_of_le_of_lt shorter now
    · intro t alike
      apply first t _ (alike.mono (by omega))
      have result := same _ (Source.Alike.after (m := n) (n := m + 1) alike scanned)
      rwa [Source.after_after] at result
  | error failure =>
    obtain ⟨error, depth⟩ := failure
    cases error with
    | unexpectedToken wanted found position =>
      obtain ⟨k, here, same⟩ := rest
      refine ⟨n + k, ?_, ?_⟩
      · rw [← here]
        exact (Stream.at?_drop n k s.rest).symm
      · intro t alike
        apply first t _ (alike.mono (by omega))
        exact same _ (Source.Alike.after (m := n) (n := k + 1) alike scanned)
    | lex e =>
      have failed : (s.rest.drop n).error? = some e := rest
      rwa [Stream.error?_drop] at failed
    | nestingTooDeep limit position => trivial

/-- An error is one of whatever would come afterwards. -/
theorem Outcome.error {s : Source} {failure : ParseFailure} {mid : α → Prop} {takes : β → Prop}
    {runs : Source → Result β → Prop}
    {runs' : Source → Result α → Prop} (failed : Outcome mid runs' s (.error failure))
    (first : ∀ t failure, runs' t (.error failure) → runs t (.error failure)) :
    Outcome takes runs s (.error failure) := by
  obtain ⟨error, depth⟩ := failure
  cases error with
  | unexpectedToken wanted found position =>
    obtain ⟨k, here, same⟩ := failed
    exact ⟨k, here, fun t alike => first t _ (same t alike)⟩
  | lex e => exact failed
  | nestingTooDeep limit position => trivial

theorem Outcome.imp {s : Source} {result : Result α} {takes weak : α → Prop}
    {runs runs' : Source → Result α → Prop} (outcome : Outcome takes runs' s result)
    (weaker : ∀ a, weak a → takes a) (same : ∀ t result, t.Enough → runs' t result → runs t result) :
    Outcome weak runs s result := by
  cases result with
  | ok pair =>
    obtain ⟨n, moved, further, others⟩ := outcome
    exact ⟨n, moved, fun weakly => further (weaker pair.1 weakly),
      fun t alike => same t _ alike.enough (others t alike)⟩
  | error failure =>
    obtain ⟨error, depth⟩ := failure
    cases error with
    | unexpectedToken wanted found position =>
      obtain ⟨k, here, others⟩ := outcome
      exact ⟨k, here, fun t alike => same t _ alike.enough (others t alike)⟩
    | lex e => exact outcome
    | nestingTooDeep limit position => trivial

namespace Heeds

variable {takes : α → Prop} {p : Parser α}

/-! ## Sequences -/

theorem bind_of_ok {f : α → Parser β} {s s' : Source} {a : α} (done : p s = .ok (a, s')) :
    (p >>= f) s = f a s' := by
  simp only [Bind.bind, StateT.bind, Except.bind, done]

theorem bind_of_error {f : α → Parser β} {s : Source} {e : ParseFailure} (failed : p s = .error e) :
    (p >>= f) s = .error e := by
  simp only [Bind.bind, StateT.bind, Except.bind, failed]

theorem mono {weak : α → Prop} (heeds : Heeds takes p) (weaker : ∀ a, weak a → takes a) :
    Heeds weak p :=
  fun s enough => (heeds s enough).imp weaker fun _ _ _ => id

theorem lax (heeds : Heeds takes p) : Heeds (fun _ => False) p :=
  heeds.mono fun _ => False.elim

theorem pure {a : α} (nothing : ¬takes a) : Heeds takes (pure a) := by
  intro s _
  refine ⟨0, ?_, fun taken => absurd taken nothing, ?_⟩
  · simp only [Source.after, Stream.drop_zero]
  · intro t alike
    show Except.ok (a, t) = .ok (a, t.after 0 s.scanned)
    rw [← alike.scanned]
    simp only [Source.after, Stream.drop_zero]

/-- A token has been taken if one was taken first, or one afterwards. -/
theorem bind_cases {mid : α → Prop} {takes : β → Prop} {f : α → Parser β} (first : Heeds mid p)
    (rest : ∀ a, Heeds (fun b => takes b ∧ ¬mid a) (f a)) : Heeds takes (p >>= f) := by
  intro s enough
  have outcome := first s enough
  cases result : p s with
  | error error =>
    rw [result] at outcome
    rw [bind_of_error result]
    exact outcome.error fun _ _ => bind_of_error
  | ok pair =>
    obtain ⟨a, s'⟩ := pair
    rw [result] at outcome
    rw [bind_of_ok result]
    obtain ⟨n, moved, further, same⟩ := outcome
    rw [moved] at further ⊢
    -- The second parser begins where the first one has stopped, on this source and on all that are alike.
    apply (rest a _ (enough.after n s'.scanned)).after
    · intro b takesOne
      by_cases taken : mid a
      · exact .inr (further taken)
      · exact .inl ⟨takesOne, taken⟩
    · intro t result alike run
      rw [← run]
      exact bind_of_ok (same t alike)

theorem bind {takes : β → Prop} {f : α → Parser β} {mid : α → Prop} (first : Heeds mid p)
    (rest : ∀ a, Heeds takes (f a)) : Heeds takes (p >>= f) :=
  bind_cases first.lax fun a => (rest a).mono fun _ both => both.1

/-- The first parser has taken a token already. -/
theorem bind_taken {takes : β → Prop} {f : α → Parser β} (first : Heeds (fun _ => True) p)
    (rest : ∀ a, Heeds (fun _ => False) (f a)) : Heeds takes (p >>= f) :=
  bind_cases first fun a => (rest a).mono fun _ both => both.2 trivial

theorem map {f : α → β} (first : Heeds takes p) : Heeds (fun _ => False) (f <$> p) :=
  bind first fun _ => pure id

/-! ## Single tokens -/

/-- Parsers only look at what the streams agree on. -/
theorem peek_cases (s : Source) : (∃ e, peek s = .error ⟨.lex e, s.depth⟩ ∧ s.rest.error? = some e) ∨
    ∃ token start, peek s = .ok (token, s.after 0 start) ∧
      ∀ t, s.Alike 1 t → peek t = .ok (token, t.after 0 start) := by
  obtain ⟨rest, scanned, bound, depth⟩ := s
  cases rest with
  | lexeme first rest =>
    refine .inr ⟨first.token, first.start, rfl, ?_⟩
    intro ⟨rest', scanned', bound', depth'⟩ ⟨agree, _, _, _⟩
    cases agree with
    | lexeme _ _ => rfl
  | done stop =>
    refine .inr ⟨.eof, stop, rfl, ?_⟩
    intro ⟨rest', scanned', bound', depth'⟩ ⟨agree, _, _, _⟩
    cases agree with
    | done _ _ => rfl
  | failed e => exact .inl ⟨e, rfl, rfl⟩

theorem next_cases (s : Source) : (∃ e, next s = .error ⟨.lex e, s.depth⟩ ∧ s.rest.error? = some e) ∨
    ∃ token start, next s = .ok (token, s.after 1 start) ∧ s.rest.at? 0 = some (token, start) ∧
      (token ≠ .eof → (s.rest.drop 1).length < s.rest.length) ∧
      ∀ t, s.Alike 1 t → next t = .ok (token, t.after 1 start) := by
  obtain ⟨rest, scanned, bound, depth⟩ := s
  cases rest with
  | lexeme first rest =>
    refine .inr ⟨first.token, first.start, ?_, rfl, ?_, ?_⟩
    · simp only [Parser.next, Source.after, Stream.drop]
    · intro _
      simp only [Stream.drop, Stream.length]
      omega
    · intro ⟨rest', scanned', bound', depth'⟩ ⟨agree, _, _, _⟩
      cases agree with
      | lexeme _ _ => simp only [Parser.next, Source.after, Stream.drop]
  | done stop =>
    refine .inr ⟨.eof, stop, rfl, rfl, fun token => absurd rfl token, ?_⟩
    intro ⟨rest', scanned', bound', depth'⟩ ⟨agree, _, _, _⟩
    cases agree with
    | done _ _ => rfl
  | failed e => exact .inl ⟨e, rfl, rfl⟩

theorem peek : Heeds (fun _ => False) peek := by
  intro s _
  cases peek_cases s with
  | inl failed =>
    obtain ⟨e, failed, error⟩ := failed
    rw [failed]
    exact error
  | inr delivered =>
    obtain ⟨token, start, delivered, same⟩ := delivered
    rw [delivered]
    exact ⟨0, rfl, False.elim, same⟩

/-- What may be done with a token that has been taken. -/
inductive Answers (takes : β → Prop) (token : Token) : Parser β → Prop where
  | reject (wanted : Expected) : Answers takes token (unexpected wanted token)
  | accept {q : Parser β} (isToken : token ≠ .eof) : Heeds (fun _ => False) q → Answers takes token q
  | pass {q : Parser β} : Heeds takes q → Answers takes token q

theorem next_bind {takes : β → Prop} {f : Token → Parser β} (answers : ∀ token, Answers takes token (f token)) :
    Heeds takes (Parser.next >>= f) := by
  intro s enough
  cases next_cases s with
  | inl failed =>
    obtain ⟨e, failed, error⟩ := failed
    rw [bind_of_error failed]
    exact error
  | inr delivered =>
    obtain ⟨token, start, delivered, here, shorter, same⟩ := delivered
    rw [bind_of_ok delivered]
    have runs (t : Source) (result : Result β) (alike : s.Alike (1 + 1) t)
        (run : f token (t.after 1 start) = result) : (Parser.next >>= f) t = result := by
      rw [← run]
      exact bind_of_ok (same t (alike.mono (Nat.le_succ 1)))
    generalize answered : f token = q at runs
    cases answered ▸ answers token with
    | reject wanted =>
      refine ⟨0, here, ?_⟩
      intro t alike
      have depth : (t.after 1 start).depth = s.depth := alike.depth
      rw [bind_of_ok (same t alike), answered, unexpected, depth]
      rfl
    | accept isToken rest =>
      exact (rest _ (enough.after 1 start)).after (fun _ _ => .inr (shorter isToken)) runs
    | pass rest => exact (rest _ (enough.after 1 start)).after (fun _ => .inl) runs

theorem check (mark : Punctuator) : Heeds (fun _ => False) (check mark) := by
  apply bind peek
  intro token
  cases token <;> exact pure id

theorem checkKeyword (word : Keyword) : Heeds (fun _ => False) (checkKeyword word) := by
  apply bind peek
  intro token
  cases token <;> exact pure id

theorem checkEnd : Heeds (fun _ => False) checkEnd := by
  apply bind peek
  intro token
  cases token <;> exact pure id

/-- A token that is taken without a look at it. -/
theorem skip {q : Parser β} {takes : β → Prop} (rest : Heeds takes q) :
    Heeds takes (Parser.next >>= fun _ => q) :=
  next_bind fun _ => .pass rest

theorem eat (mark : Punctuator) : Heeds (fun _ => False) (eat mark) := by
  apply bind (check mark)
  intro found
  cases found with
  | true => exact skip (pure id)
  | false => exact pure id

theorem expect (mark : Punctuator) : Heeds (fun _ => True) (expect mark) := by
  apply next_bind
  intro token
  cases token with
  | punctuator found =>
    by_cases same : found = mark
    · simp only [same, if_true]
      exact .accept (by simp) (pure id)
    · simp only [same, if_false]
      exact .reject _
  | _ => exact .reject _

theorem expectKeyword (word : Keyword) : Heeds (fun _ => True) (expectKeyword word) := by
  apply next_bind
  intro token
  cases token with
  | keyword found =>
    by_cases same : found = word
    · simp only [same, if_true]
      exact .accept (by simp) (pure id)
    · simp only [same, if_false]
      exact .reject _
  | _ => exact .reject _

theorem expectIdentifier : Heeds (fun _ => True) expectIdentifier := by
  apply next_bind
  intro token
  cases token with
  | identifier name => exact .accept (by simp) (pure id)
  | _ => exact .reject _

/-! ## Repetition -/

section

variable {step : α → Parser (Option α)} (steps : ∀ a, Heeds (fun next => next.isSome = true) (step a))

include steps

/-- Each repetition takes a token, so it does not matter how many more there could be than tokens. -/
theorem iterateUpTo_outcome (n : Nat) (a : α) (s : Source) (more : s.rest.length < n) (enough : s.Enough) :
    Outcome (fun _ => False) (fun t result => ∀ m, t.rest.length < m → iterateUpTo step m a t = result) s
      (iterateUpTo step n a s) := by
  induction n generalizing a s with
  | zero => omega
  | succ n ih =>
    have outcome := steps a s enough
    cases result : step a s with
    | error error =>
      rw [result] at outcome
      rw [iterateUpTo, bind_of_error result]
      apply outcome.error
      intro t error failed m fuel
      cases m with
      | zero => omega
      | succ m => exact bind_of_error failed
    | ok pair =>
      obtain ⟨next, s'⟩ := pair
      rw [result] at outcome
      rw [iterateUpTo, bind_of_ok result]
      obtain ⟨k, moved, further, same⟩ := outcome
      cases next with
      | none =>
        refine ⟨k, moved, False.elim, ?_⟩
        intro t alike m fuel
        cases m with
        | zero => omega
        | succ m =>
          rw [iterateUpTo, bind_of_ok (same t alike)]
          rfl
      | some b =>
        rw [moved] at further ⊢
        have shorter := further rfl
        apply (ih b _ (by omega) (enough.after k s'.scanned)).after (fun _ => False.elim)
        intro t result alike run m fuel
        cases m with
        | zero => omega
        | succ m =>
          have stepped := same t alike
          rw [iterateUpTo, bind_of_ok stepped]
          apply run m
          have other := steps a t alike.enough
          rw [stepped] at other
          obtain ⟨_, _, shorter, _⟩ := other
          have := shorter rfl
          omega

theorem iterate (a : α) : Heeds (fun _ => False) (iterate step a) := by
  intro s enough
  apply (iterateUpTo_outcome steps s.bound a s enough enough).imp (fun _ => id)
  intro t result enough run
  exact run t.bound enough

/-- The repetitions end because a step finds nothing more. -/
theorem iterateUpTo_ends {n : Nat} {a b : α} {s s' : Source} (more : s.rest.length < n) (enough : s.Enough)
    (done : iterateUpTo step n a s = .ok (b, s')) : ∃ last, step b last = .ok (none, s') := by
  induction n generalizing a s with
  | zero => omega
  | succ n ih =>
    have outcome := steps a s enough
    cases result : step a s with
    | error error =>
      rw [iterateUpTo, bind_of_error result] at done
      cases done
    | ok pair =>
      obtain ⟨next, middle⟩ := pair
      rw [result] at outcome
      rw [iterateUpTo, bind_of_ok result] at done
      obtain ⟨k, moved, further, _⟩ := outcome
      cases next with
      | none =>
        cases done
        exact ⟨s, result⟩
      | some next =>
        have shorter := further rfl
        rw [moved] at done shorter
        exact ih (by omega) (enough.after k middle.scanned) done

theorem iterate_ends {a b : α} {s s' : Source} (enough : s.Enough)
    (done : Parser.iterate step a s = .ok (b, s')) : ∃ last, step b last = .ok (none, s') :=
  iterateUpTo_ends steps enough enough done

end

section

variable {item : Parser α} (each : Heeds (fun _ => True) item)

include each

/-- A repetition of `manyUntil`. -/
theorem until_step {stop : Parser Bool} (stops : Heeds (fun _ => False) stop) (read : List α) :
    Heeds (fun next => next.isSome = true) (do
      if ← stop then Pure.pure none else Pure.pure (some ((← item) :: read))) := by
  apply bind stops
  intro stopped
  cases stopped with
  | true => exact pure (by simp)
  | false => exact bind_taken each fun _ => pure id

theorem manyUntil {stop : Parser Bool} (stops : Heeds (fun _ => False) stop) :
    Heeds (fun _ => False) (manyUntil stop item) :=
  bind (iterate (until_step each stops) []) fun _ => pure id

/-- A repetition of `commaSeparated`. -/
theorem comma_step (read : List α) :
    Heeds (fun next => next.isSome = true) (do
      if ← Parser.eat .comma then Pure.pure (some ((← item) :: read)) else Pure.pure none) := by
  apply bind (eat .comma)
  intro more
  cases more with
  | true => exact bind_taken each fun _ => pure id
  | false => exact pure (by simp)

theorem commaSeparated : Heeds (fun _ => True) (commaSeparated item) := by
  apply bind_taken each
  intro first
  exact bind (iterate (comma_step each) [first]) fun _ => pure id

/-- A repetition of `bracketed`. -/
theorem bracket_step (close : Punctuator) (state : List α × Bool) :
    Heeds (fun next => next.isSome = true) (do
      if !state.2 then Pure.pure none
      else if ← Parser.check close then Pure.pure none
      else
        let found ← item
        Pure.pure (some (found :: state.1, ← Parser.eat .comma))) := by
  obtain ⟨read, more⟩ := state
  cases more with
  | false => exact pure (by simp)
  | true =>
    apply bind (check close)
    intro closed
    cases closed with
    | true => exact pure (by simp)
    | false => exact bind_taken each fun _ => bind (eat .comma) fun _ => pure id

theorem bracketed (close : Punctuator) : Heeds (fun _ => True) (bracketed close item) := by
  apply bind (iterate (bracket_step each close) ([], true))
  intro state
  exact bind_taken (expect close) fun _ => pure id

end

end Heeds

end Parser

end TinyScript
