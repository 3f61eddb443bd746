import TinyScript.Proofs.Parser.Embedding
import TinyScript.Proofs.Parser.RoundTrip

/-! # Single expressions

`Single levels ts e` says that the tokens `ts` are those of the expression `e` and nothing more.  That is so
if they are read as a program of one expression statement and do not end in a semicolon
(`single_of_program`).  Before template text, such tokens are read as they are by themselves (`Single.reads`).
-/

namespace TinyScript

/-! ## Lists of one item -/

namespace Parser

variable {α : Type}

/-- One more item of a list, if it has not come to its end. -/
def untilStep (stop : Parser Bool) (item : Parser α) (read : List α) : Parser (Option (List α)) := do
  if ← stop then pure none else pure (some ((← item) :: read))

theorem manyUntil_eq (stop : Parser Bool) (item : Parser α) :
    manyUntil stop item = iterate (untilStep stop item) [] >>= fun items => pure items.reverse := rfl

section

variable {stop : Parser Bool} {item : Parser α} {n : Nat} {read items : List α} {s s' : Source}

/-- A list has come to its end, or goes on with another item. -/
theorem until_cases (done : iterateUpTo (untilStep stop item) (n + 1) read s = .ok (items, s')) :
    (items = read ∧ stop s = .ok (true, s')) ∨ ∃ s₁ a s₂, stop s = .ok (false, s₁) ∧
      item s₁ = .ok (a, s₂) ∧ untilStep stop item read s = .ok (some (a :: read), s₂) ∧
      iterateUpTo (untilStep stop item) n (a :: read) s₂ = .ok (items, s') := by
  obtain ⟨found, middle, stepped, rest⟩ := Heeds.bind_eq_ok done
  obtain ⟨stopped, before, checked, result⟩ := Heeds.bind_eq_ok stepped
  cases stopped with
  | true =>
    cases result
    cases rest
    exact .inl ⟨rfl, checked⟩
  | false =>
    obtain ⟨a, after, itemRead, result⟩ := Heeds.bind_eq_ok result
    cases result
    exact .inr ⟨before, a, middle, checked, itemRead, stepped, rest⟩

/-- Items are only added. -/
theorem suffix_of_until (done : iterateUpTo (untilStep stop item) n read s = .ok (items, s')) :
    read <:+ items := by
  induction n generalizing read s with
  | zero =>
    cases done
    exact List.suffix_rfl
  | succ n ih =>
    obtain ⟨rfl, _⟩ | ⟨_, a, _, _, _, _, rest⟩ := until_cases done
    · exact List.suffix_rfl
    · exact (List.suffix_cons a read).trans (ih rest)

/-- A list of a single item. -/
theorem manyUntil_singleton (takes : Takes (untilStep stop item)) (enough : s.Enough) {a : α}
    (done : manyUntil stop item s = .ok ([a], s')) :
    ∃ s₁ s₂, stop s = .ok (false, s₁) ∧ item s₁ = .ok (a, s₂) ∧ stop s₂ = .ok (true, s') := by
  rw [manyUntil_eq] at done
  obtain ⟨items, middle, iterated, finished⟩ := Heeds.bind_eq_ok done
  obtain ⟨reversed, rfl⟩ := Prod.mk.inj (Except.ok.inj finished)
  obtain rfl : items = [a] := by simpa using congrArg List.reverse reversed
  have iterated : iterateUpTo (untilStep stop item) s.bound [] s = .ok ([a], middle) := iterated
  obtain ⟨n, bound⟩ := Nat.exists_eq_succ_of_ne_zero (Nat.ne_of_gt (Nat.zero_lt_of_lt enough))
  rw [bound] at iterated
  obtain ⟨impossible, _⟩ | ⟨s₁, b, s₂, goes, first, stepped, rest⟩ := until_cases iterated
  · cases impossible
  have shorter := takes [] [b] s s₂ enough stepped
  have left : s.rest.length < n + 1 := by rw [← Nat.succ_eq_add_one, ← bound]; exact enough
  obtain ⟨m, rfl⟩ := Nat.exists_eq_succ_of_ne_zero (show n ≠ 0 by omega)
  obtain ⟨same, stops⟩ | ⟨_, c, _, _, _, _, more⟩ := until_cases rest
  · cases same
    exact ⟨s₁, s₂, goes, first, stops⟩
  · have two := (suffix_of_until more).length_le
    simp at two

end

end Parser

/-! ## Expression statements -/

/-- A word that begins a statement of its own kind. -/
def Token.opensOther : Token → Bool
  | .keyword word => word ≠ .elseK ∧ word ≠ .trueK ∧ word ≠ .falseK
  | _ => false

def Stmt.isExpression : Stmt → Bool
  | .expression _ => true
  | _ => false

namespace Parser

/-- What can be read from the tokens is all that is read from them. -/
theorem Reads.result {α : Type} {p : Parser α} {ts us : List Token} {a b : α} (reads : Reads p ts a us True)
    {s s' : Source} (here : s.Holds ts) (done : p s = .ok (b, s')) : b = a ∧ s'.Holds us := by
  obtain ⟨s₁, read, left⟩ := reads.run here
  obtain ⟨rfl, rfl⟩ := Prod.mk.inj (Except.ok.inj (done.symm.trans read))
  exact ⟨rfl, left⟩

/-- The parser reads no expression statement. -/
def Other (p : Parser Stmt) : Prop := ∀ s stmt s', p s = .ok (stmt, s') → stmt.isExpression = false

namespace Other

theorem pure {stmt : Stmt} (other : stmt.isExpression = false) : Other (pure stmt) := by
  intro s found s' done
  cases done
  exact other

theorem bind {α : Type} {p : Parser α} {f : α → Parser Stmt} (rest : ∀ a, Other (f a)) : Other (p >>= f) := by
  intro s stmt s' done
  obtain ⟨a, middle, _, result⟩ := Heeds.bind_eq_ok done
  exact rest a middle stmt s' result

variable (expr : Parser Expr) (block : Parser (List Stmt))

theorem declaration : Other (declaration expr) :=
  .bind fun _ => .bind fun _ => .bind fun _ => .bind fun _ => .bind fun _ => .pure rfl

theorem functionDeclaration : Other (functionDeclaration block) := by
  refine .bind fun _ => .bind fun name => .bind fun _ => .bind fun closed => ?_
  cases closed <;> exact .bind fun _ => .bind fun _ => .bind fun _ => .pure rfl

theorem ifStatement : Other (ifStatement expr block) := by
  refine .bind fun _ => .bind fun _ => .bind fun _ => .bind fun more => ?_
  cases more with
  | true => exact .bind fun _ => .bind fun _ => .pure rfl
  | false => exact .pure rfl

theorem forStatement : Other (forStatement expr block) :=
  .bind fun _ => .bind fun _ => .bind fun _ => .bind fun _ => .bind fun _ => .bind fun _ => .pure rfl

theorem whileStatement : Other (whileStatement expr block) :=
  .bind fun _ => .bind fun _ => .bind fun _ => .pure rfl

theorem returnStatement : Other (returnStatement expr) := by
  refine .bind fun _ => .bind fun token => ?_
  split <;> exact .bind fun _ => .bind fun _ => .pure rfl

end Other

/-- An expression statement begins with no other word and is read as one. -/
theorem expressionStatement_of_statementWith {expr : Parser Expr} {block : Parser (List Stmt)} {s s' : Source}
    {ts : List Token} (here : s.Holds ts) {e : Expr}
    (done : statementWith expr block s = .ok (.expression e, s')) :
    (upcoming ts).opensOther = false ∧ ∃ s₁, s₁.Holds ts ∧
      expressionStatement expr s₁ = .ok (.expression e, s') := by
  obtain ⟨token, s₁, peeked, rest⟩ := Heeds.bind_eq_ok done
  obtain ⟨isNext, left⟩ := (Reads.peek ts).result here peeked
  have impossible {p : Parser Stmt} (other : Other p) (result : p s₁ = .ok (.expression e, s')) : False := by
    cases other s₁ _ s' result
  rw [← isNext]
  cases token with
  | keyword word =>
    cases word with
    | letK | constK => exact (impossible (.declaration expr) rest).elim
    | functionK => exact (impossible (.functionDeclaration block) rest).elim
    | ifK => exact (impossible (.ifStatement expr block) rest).elim
    | forK => exact (impossible (.forStatement expr block) rest).elim
    | whileK => exact (impossible (.whileStatement expr block) rest).elim
    | returnK => exact (impossible (.returnStatement expr) rest).elim
    | elseK | trueK | falseK => exact ⟨rfl, s₁, left, rest⟩
  | _ => exact ⟨rfl, s₁, left, rest⟩

/-! ## Tokens of one expression -/

/-- Tokens that are a single expression, by themselves and without a semicolon. -/
structure Single (levels : Nat) (ts : List Token) (e : Expr) : Prop where
  opens : (upcoming ts).opensOther = false
  nonempty : (upcoming ts).isEnd = false
  balanced : Shifts 0 0 ts
  read : ∃ s s', s.Holds ts ∧ s'.Holds [] ∧ expression levels s = .ok (e, s')

theorem eq_nil_of_isEnd {ts : List Token} (tokens : .eof ∉ ts) (isEnd : (upcoming ts).isEnd = true) :
    ts = [] := by
  cases ts with
  | nil => rfl
  | cons t ts =>
    cases t with
    | eof => exact absurd List.mem_cons_self tokens
    | _ => cases isEnd

/-- A text that is read as a program of one expression statement, and does not end in a semicolon, is a single
expression. -/
theorem single_of_program {levels : Nat} {s s' : Source} {ts : List Token} (here : s.Holds ts)
    (tokens : .eof ∉ ts) (plain : ∀ us, ts ≠ us ++ [.punctuator .semicolon]) {e : Expr}
    (done : programWithin levels s = .ok ([.expression e], s')) : Single levels ts e := by
  have takes : Takes (untilStep checkEnd (statement levels)) :=
    Heeds.takes (Heeds.until_step (Heeds.statementAt levels) Heeds.checkEnd)
  obtain ⟨s₁, s₂, goes, statementRead, stops⟩ := manyUntil_singleton takes here.enough done
  obtain ⟨nonempty, here⟩ := (Reads.checkEnd ts).result here goes
  rw [statement_eq] at statementRead
  obtain ⟨opens, s₃, here, asExpression⟩ := expressionStatement_of_statementWith here statementRead
  obtain ⟨value, s₄, read, behind⟩ := Heeds.bind_eq_ok asExpression
  obtain ⟨semicolon, s₅, eaten, result⟩ := Heeds.bind_eq_ok behind
  cases result
  have embeds : Embeds [] False 0 0 (expression levels) (expression levels) := .expression rfl levels
  have compared := embeds s₃ s₃ ts here (by rwa [List.append_nil])
  rw [read] at compared
  obtain ⟨own, us, split, balanced, left, _⟩ := compared
  have complete : us = [] := by
    rw [split, List.mem_append, not_or] at tokens
    cases isMark : (upcoming us).isMark .semicolon with
    | true =>
      obtain ⟨vs, rfl⟩ := eq_cons_of_isMark isMark
      obtain ⟨_, left⟩ := (Reads.eat .semicolon vs).result left eaten
      obtain ⟨isEnd, _⟩ := (Reads.checkEnd vs).result left stops
      obtain rfl := eq_nil_of_isEnd (fun member => tokens.2 (List.mem_cons_of_mem _ member)) isEnd.symm
      exact absurd split (plain own)
    | false =>
      obtain ⟨_, left⟩ := (Reads.eat_other isMark).result left eaten
      obtain ⟨isEnd, _⟩ := (Reads.checkEnd us).result left stops
      exact eq_nil_of_isEnd tokens.2 isEnd.symm
  subst complete
  rw [List.append_nil] at split
  subst split
  exact ⟨opens, nonempty.symm, balanced, s₃, s₄, here, left, read⟩

/-- What the tokens of an expression are read as with one level less. -/
theorem Single.reads {levels : Nat} {ts : List Token} {e : Expr} (single : Single (levels + 1) ts e)
    (tail : List Token) (ends : (upcoming tail).endsCode = true) :
    Reads (expression levels) (ts ++ tail) e tail (∃ s r, s.Holds ts ∧ expression levels s = .ok r) := by
  obtain ⟨s, s', here, left, read⟩ := single.read
  have alone : s.Holds (ts ++ []) := by rwa [List.append_nil]
  have shallow : Embeds [] True 0 0 (expression (levels + 1)) (expression levels) :=
    .expression_shallow rfl trivial levels
  have compared := shallow s s ts here alone
  rw [read] at compared
  obtain ⟨_, us, _, _, holds, outcome⟩ := compared
  obtain rfl := holds.stream.unique left.stream
  intro t there
  have behind : Embeds tail False 0 0 (expression levels) (expression levels) := .expression ends levels
  have transferred := behind s t ts here there
  obtain ⟨s₁, shorter, left⟩ | ⟨_, position, depth, failed⟩ := outcome
  · rw [shorter] at transferred
    obtain ⟨_, us, _, _, holds, ⟨t', result, left'⟩ | ⟨impossible, _⟩⟩ := transferred
    · obtain rfl := holds.stream.unique left.stream
      exact .inl ⟨⟨s, _, here, shorter⟩, t', result, left'⟩
    · exact impossible.elim
  · rw [failed] at transferred
    refine .inr ⟨?_, transferred⟩
    rintro ⟨s₁, r, here₁, fits⟩
    have itself : Embeds [] False 0 0 (expression levels) (expression levels) := .expression rfl levels
    have refused := itself s s₁ ts here (by rwa [List.append_nil])
    rw [failed, fits] at refused
    obtain ⟨_, _, impossible⟩ := refused
    cases impossible

/-- A program of one expression statement. -/
theorem reads_program {levels : Nat} {ts : List Token} {e : Expr} {fits : Prop}
    (opens : (upcoming ts).opensOther = false) (nonempty : (upcoming ts).isEnd = false)
    (reads : Reads (expression levels) ts e [] fits) :
    Reads (programWithin levels) ts [.expression e] [] fits := by
  have asExpression : Reads (expressionStatement (expression levels)) ts (.expression e) [] fits :=
    .finish reads (.step (.eat_other rfl) (.pure _))
  have asStatement : Reads (statement levels) ts (.expression e) [] fits := by
    rw [statement_eq]
    refine .step (.peek ts) ?_
    generalize upcoming ts = token at opens ⊢
    split
    iterate 7 cases opens
    exact asExpression
  have goes := Reads.checkEnd ts
  rw [nonempty] at goes
  have shorter : ([] : List Token).length < ts.length := by
    cases ts with
    | nil => cases nonempty
    | cons t ts => exact Nat.succ_pos _
  have nothing : Repeats (untilStep checkEnd (statement levels)) [.expression e] [] [.expression e] [] True :=
    .stop (.step (.checkEnd []) (.pure none))
  have one : Repeats (untilStep checkEnd (statement levels)) [] ts [.expression e] [] (fits ∧ True) :=
    .more (.step goes (.finish asStatement (.pure _))) shorter nothing
  exact .finish (.iterate (one.congr (iff_of_eq (and_true fits)))) (.pure _)

end Parser

end TinyScript
