import TinyScript.Parser.Basic

/-! # What parsers yield

`Yields ok post p` says that the parser `p`, given only tokens that are `ok`, succeeds only with
results that have the property `post`, and leaves only such tokens.  Each combinator has a rule, so
that the proof for a production has the shape of the production.
-/

namespace TinyScript

/-- All tokens of a stream have a property. -/
def Stream.All (ok : Token → Prop) : Stream → Prop
  | .lexeme first rest => ok first.token ∧ rest.All ok
  | .done _ => True
  | .failed _ => True

namespace Parser

variable {α β : Type} {ok : Token → Prop}

def Yields (ok : Token → Prop) (post : α → Prop) (p : Parser α) : Prop :=
  ∀ s a s', s.rest.All ok → p s = .ok (a, s') → post a ∧ s'.rest.All ok

namespace Yields

variable {post : α → Prop} {p : Parser α}

/-! ## Sequences -/

theorem pure {a : α} (holds : post a) : Yields ok post (pure a) := by
  intro s b s' tokens done
  cases done
  exact ⟨holds, tokens⟩

theorem bind {mid : α → Prop} {post : β → Prop} {f : α → Parser β} (first : Yields ok mid p)
    (rest : ∀ a, mid a → Yields ok post (f a)) : Yields ok post (p >>= f) := by
  intro s b s' tokens done
  simp only [Bind.bind, StateT.bind, Except.bind] at done
  cases result : p s with
  | error e =>
    rw [result] at done
    cases done
  | ok pair =>
    obtain ⟨a, middle⟩ := pair
    rw [result] at done
    obtain ⟨holds, left⟩ := first s a middle tokens result
    exact rest a holds middle b s' left done

theorem map {post : β → Prop} {f : α → β} (first : Yields ok (fun a => post (f a)) p) :
    Yields ok post (f <$> p) := by
  intro s b s' tokens done
  simp only [Functor.map, StateT.map, Bind.bind, Except.bind, Pure.pure, Except.pure] at done
  cases result : p s with
  | error e =>
    rw [result] at done
    cases done
  | ok pair =>
    rw [result] at done
    cases done
    exact first s pair.1 pair.2 tokens result

theorem mono {weak : α → Prop} (holds : Yields ok post p) (weaker : ∀ a, post a → weak a) :
    Yields ok weak p := by
  intro s a s' tokens done
  obtain ⟨strong, left⟩ := holds s a s' tokens done
  exact ⟨weaker a strong, left⟩

theorem unexpected (wanted : Expected) (found : Token) :
    Yields ok post (unexpected wanted found) := by
  intro s a s' tokens done
  cases done

/-! ## Single tokens -/

/-- A token that is `ok`, or the end of the text. -/
def Delivered (ok : Token → Prop) (token : Token) : Prop := ok token ∨ token = .eof

theorem peek : Yields ok (Delivered ok) peek := by
  intro s a s' tokens done
  unfold Parser.peek at done
  split at done
  · next rest =>
    cases done
    rw [rest] at tokens
    exact ⟨.inl tokens.1, by simpa only [rest] using tokens⟩
  · cases done
    exact ⟨.inr rfl, tokens⟩
  · cases done

theorem next : Yields ok (Delivered ok) next := by
  intro s a s' tokens done
  unfold Parser.next at done
  split at done
  · next rest =>
    cases done
    rw [rest] at tokens
    exact ⟨.inl tokens.1, tokens.2⟩
  · cases done
    exact ⟨.inr rfl, tokens⟩
  · cases done

theorem check (mark : Punctuator) : Yields ok (fun _ => True) (check mark) := by
  refine .bind .peek fun token _ => ?_
  cases token <;> exact .pure trivial

theorem checkKeyword (word : Keyword) : Yields ok (fun _ => True) (checkKeyword word) := by
  refine .bind .peek fun token _ => ?_
  cases token <;> exact .pure trivial

theorem checkEnd : Yields ok (fun _ => True) checkEnd := by
  refine .bind .peek fun token _ => ?_
  cases token <;> exact .pure trivial

theorem eat (mark : Punctuator) : Yields ok (fun _ => True) (eat mark) := by
  refine .bind (.check mark) fun found _ => ?_
  cases found with
  | true => exact .bind .next fun _ _ => .pure trivial
  | false => exact .pure trivial

theorem expect (mark : Punctuator) : Yields ok (fun _ => True) (expect mark) := by
  refine .bind .next fun token _ => ?_
  cases token with
  | punctuator found =>
    show Yields ok _ (if found = mark then _ else _)
    split
    · exact .pure trivial
    · exact .unexpected _ _
  | _ => exact .unexpected _ _

theorem expectKeyword (word : Keyword) : Yields ok (fun _ => True) (expectKeyword word) := by
  refine .bind .next fun token _ => ?_
  cases token with
  | keyword found =>
    show Yields ok _ (if found = word then _ else _)
    split
    · exact .pure trivial
    · exact .unexpected _ _
  | _ => exact .unexpected _ _

theorem expectIdentifier : Yields ok (fun name => ok (.identifier name)) expectIdentifier := by
  refine .bind .next fun token delivered => ?_
  cases token with
  | identifier name => exact .pure (delivered.resolve_right (by simp))
  | _ => exact .unexpected _ _

/-! ## Repetition -/

/-- What each repetition preserves, all of them do. -/
theorem iterateUpTo {inv : α → Prop} {step : α → Parser (Option α)}
    (preserves : ∀ a, inv a → Yields ok (fun next => ∀ b, next = some b → inv b) (step a)) (n : Nat)
    {a : α} (holds : inv a) : Yields ok inv (iterateUpTo step n a) := by
  induction n generalizing a with
  | zero => exact .pure holds
  | succ n ih =>
    refine .bind (preserves a holds) fun next more => ?_
    cases next with
    | some b => exact ih (more b rfl)
    | none => exact .pure holds

theorem iterate {inv : α → Prop} {step : α → Parser (Option α)}
    (preserves : ∀ a, inv a → Yields ok (fun next => ∀ b, next = some b → inv b) (step a))
    {a : α} (holds : inv a) : Yields ok inv (iterate step a) :=
  fun s b s' tokens done => iterateUpTo preserves s.bound holds s b s' tokens done

theorem some {inv : α → Prop} {a : α} (holds : inv a) :
    Yields ok (fun next => ∀ b, next = some b → inv b) (Pure.pure (some a)) := by
  refine .pure fun b eq => ?_
  cases eq
  exact holds

theorem none {inv : α → Prop} :
    Yields ok (fun next => ∀ b, next = Option.some b → inv b) (Pure.pure Option.none) :=
  .pure fun _ eq => nomatch eq

theorem manyUntil {stop : Parser Bool} {item : Parser α} (ends : Yields ok (fun _ => True) stop)
    (each : Yields ok post item) :
    Yields ok (fun items => ∀ a ∈ items, post a) (manyUntil stop item) := by
  have step (read : List α) (all : ∀ a ∈ read, post a) :
      Yields ok (fun next => ∀ items, next = Option.some items → ∀ a ∈ items, post a) (do
        if ← stop then Pure.pure Option.none else Pure.pure (Option.some ((← item) :: read))) := by
    refine .bind ends fun stopped _ => ?_
    cases stopped with
    | true => exact .none
    | false =>
      refine .bind each fun a holds => .some ?_
      simpa using ⟨holds, all⟩
  refine .bind (.iterate step (by simp)) fun items all => .pure ?_
  simpa using all

theorem commaSeparated {item : Parser α} (each : Yields ok post item) :
    Yields ok (fun items => ∀ a ∈ items, post a) (commaSeparated item) := by
  have step (read : List α) (all : ∀ a ∈ read, post a) :
      Yields ok (fun next => ∀ items, next = Option.some items → ∀ a ∈ items, post a) (do
        if ← Parser.eat .comma then Pure.pure (Option.some ((← item) :: read))
        else Pure.pure Option.none) := by
    refine .bind (.eat .comma) fun more _ => ?_
    cases more with
    | false => exact .none
    | true =>
      refine .bind each fun a holds => .some ?_
      simpa using ⟨holds, all⟩
  refine .bind each fun a holds => .bind (.iterate step ?_) fun items all => .pure ?_
  · simpa using holds
  · simpa using all

theorem bracketed {item : Parser α} (close : Punctuator) (each : Yields ok post item) :
    Yields ok (fun items => ∀ a ∈ items, post a) (bracketed close item) := by
  have step (state : List α × Bool) (all : ∀ a ∈ state.1, post a) :
      Yields ok (fun next => ∀ state', next = Option.some state' → ∀ a ∈ state'.1, post a) (do
        if !state.2 then Pure.pure Option.none
        else if ← Parser.check close then Pure.pure Option.none
        else
          let found ← item
          Pure.pure (Option.some (found :: state.1, ← Parser.eat .comma))) := by
    cases state.2 with
    | false => exact .none
    | true =>
      refine .bind (.check close) fun closed _ => ?_
      cases closed with
      | true => exact .none
      | false =>
        refine .bind each fun a holds => .bind (.eat .comma) fun more _ => .some ?_
        simpa using ⟨holds, all⟩
  refine .bind (.iterate step (by simp)) fun state all => ?_
  exact .bind (.expect close) fun _ _ => .pure (by simpa using all)

end Yields

end Parser

end TinyScript
