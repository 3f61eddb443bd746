import TinyScript.Parser

/-! # Nested productions

What `Parser.nested` does with the counter, and what a new parser makes of a stream.
-/

namespace TinyScript

/-- The same source at another depth. -/
def Source.atDepth (s : Source) (depth : Nat) : Source := { s with depth }

/-- Where the parser begins. -/
abbrev Stream.source (s : Stream) : Source := ⟨s, .start, s.length + 1, 0⟩

namespace Parser

variable {α : Type} {p : Parser α} {s s' : Source} {a : α}

/-! ## Results -/

theorem Result.answer_eq_ok {result : Result α} (done : result.answer = .ok a) :
    ∃ s, result = .ok (a, s) := by
  cases result with
  | ok pair =>
    cases done
    exact ⟨pair.2, rfl⟩
  | error failure => cases done

theorem Result.answer_eq_error {result : Result α} {error : ParseError}
    (failed : result.answer = .error error) : ∃ depth, result = .error ⟨error, depth⟩ := by
  cases result with
  | ok pair => cases failed
  | error failure =>
    cases failed
    exact ⟨failure.depth, rfl⟩

theorem parse_eq_ok {tokens : Stream} (parsed : p.parse tokens = .ok a) :
    ∃ s', p tokens.source = .ok (a, s') :=
  Result.answer_eq_ok parsed

theorem parse_eq_error {tokens : Stream} {error : ParseError} (failed : p.parse tokens = .error error) :
    ∃ depth, p tokens.source = .error ⟨error, depth⟩ :=
  Result.answer_eq_error failed

/-! ## One level deeper -/

/-- The result of a production, with its level left again. -/
def Result.leave : Result α → Result α
  | .ok (a, s) => .ok (a, s.atDepth (s.depth - 1))
  | .error failure => .error { failure with depth := failure.depth - 1 }

theorem nested_of_lt (room : s.depth < nestingLimit) :
    nested p s = Result.leave (p (s.atDepth (s.depth + 1))) := by
  rw [nested, if_pos room]
  rfl

theorem nested_of_limit (full : nestingLimit ≤ s.depth) : nested p s = tooDeep s :=
  if_neg (Nat.not_lt.2 full)

theorem nested_of_ok (room : s.depth < nestingLimit) (done : p (s.atDepth (s.depth + 1)) = .ok (a, s')) :
    nested p s = .ok (a, s'.atDepth (s'.depth - 1)) := by
  rw [nested_of_lt room, done]
  rfl

theorem nested_of_error {failure : ParseFailure} (room : s.depth < nestingLimit)
    (failed : p (s.atDepth (s.depth + 1)) = .error failure) :
    nested p s = .error { failure with depth := failure.depth - 1 } := by
  rw [nested_of_lt room, failed]
  rfl

/-- What a nested production has read, it has read one level deeper. -/
theorem nested_eq_ok (done : nested p s = .ok (a, s')) :
    ∃ inner, p (s.atDepth (s.depth + 1)) = .ok (a, inner) ∧ s' = inner.atDepth (inner.depth - 1) := by
  rcases Nat.lt_or_ge s.depth nestingLimit with room | full
  · rw [nested_of_lt room] at done
    cases result : p (s.atDepth (s.depth + 1)) with
    | ok pair =>
      rw [result] at done
      cases done
      exact ⟨pair.2, rfl, rfl⟩
    | error failure =>
      rw [result] at done
      cases done
  · rw [nested_of_limit full] at done
    cases done

end Parser

end TinyScript
