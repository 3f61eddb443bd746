import TinyScript.Proofs.Bytecode.Layout

/-! # Where the code of statements begins

The length of generated code does not depend on the constants and jump targets in it, so the index at
which the code of a statement begins can be told from the program: `Program.places` lists it for every
statement, at any depth.
-/

namespace TinyScript

/-! ## Lengths -/

mutual

/-- The length of the code that pushes the value of an expression. -/
def Expr.codeSize : Expr → Nat
  | .literal _ | .identifier _ => 1
  | .binary _ left right => left.codeSize + right.codeSize + 1
  | .assign op _ value => value.codeSize + if op.binary?.isSome then 4 else 2
  | .call _ arguments => Expr.codeSizeAll arguments + 1
  | .member .. | .array _ | .object _ => 0

def Expr.codeSizeAll : List Expr → Nat
  | [] => 0
  | e :: rest => e.codeSize + Expr.codeSizeAll rest

end

/-- The length of a clause of a loop: its code and the instruction that takes its value. -/
def Expr.codeSizeOfClause : Option Expr → Nat
  | none => 0
  | some e => e.codeSize + 1

mutual

/-- The length of the code of a statement. -/
def Stmt.codeSize (keep : Bool) : Stmt → Nat
  | .declare _ _ init => init.codeSize + 1
  | .expression value => if keep then value.codeSize else value.codeSize + 1
  | .ifElse test consequent none => test.codeSize + 1 + Stmt.codeSizeAll consequent
  | .ifElse test consequent (some alternate) =>
    test.codeSize + 1 + Stmt.codeSizeAll consequent + 1 + Stmt.codeSizeAll alternate
  | .whileLoop test body => test.codeSize + 1 + Stmt.codeSizeAll body + 1
  | .forLoop init test update body =>
    Stmt.codeSizeOfClause init + Expr.codeSizeOfClause test + Stmt.codeSizeAll body +
      Expr.codeSizeOfClause update + 1
  | .function .. | .ret _ => 0

def Stmt.codeSizeAll : List Stmt → Nat
  | [] => 0
  | s :: rest => s.codeSize false + Stmt.codeSizeAll rest

def Stmt.codeSizeOfClause : Option Stmt → Nat
  | none => 0
  | some s => s.codeSize false

end

/-! ## Places -/

mutual

/-- A statement whose code begins at `base` and the statements in it, each with the index at which
its code begins. -/
def Stmt.places (base : Nat) : Stmt → List (Nat × Stmt)
  | .ifElse test consequent none =>
    (base, .ifElse test consequent none) ::
      Stmt.placesAll (base + test.codeSize + 1) consequent
  | .ifElse test consequent (some alternate) =>
    let start := base + test.codeSize + 1
    (base, .ifElse test consequent (some alternate)) :: (Stmt.placesAll start consequent ++
      Stmt.placesAll (start + Stmt.codeSizeAll consequent + 1) alternate)
  | .whileLoop test body =>
    (base, .whileLoop test body) :: Stmt.placesAll (base + test.codeSize + 1) body
  | .forLoop init test update body =>
    let again := base + Stmt.codeSizeOfClause init
    (base, .forLoop init test update body) :: (Stmt.placesOfClause base init ++
      Stmt.placesAll (again + Expr.codeSizeOfClause test) body)
  | other => [(base, other)]

def Stmt.placesAll (base : Nat) : List Stmt → List (Nat × Stmt)
  | [] => []
  | s :: rest => s.places base ++ Stmt.placesAll (base + s.codeSize false) rest

def Stmt.placesOfClause (base : Nat) : Option Stmt → List (Nat × Stmt)
  | none => []
  | some s => s.places base

end

/-- Every statement of a program with the index at which its code begins. -/
def Program.places (p : Program) : List (Nat × Stmt) := Stmt.placesAll 0 p

section

variable {loads : Nat → Literal → Prop}

mutual

theorem ExprCode.length_eq {e : Expr} {code : List Instr} (made : ExprCode loads e code) :
    code.length = e.codeSize := by
  cases made with
  | literal _ => rfl
  | identifier name => rfl
  | binary left right => simp [Expr.codeSize, left.length_eq, right.length_eq, Nat.add_assoc]
  | assign plain value => simp [Expr.codeSize, value.length_eq, plain]
  | compound combined value => simp [Expr.codeSize, value.length_eq, combined]
  | function arguments => simp [Expr.codeSize, arguments.length_eq]
  | method arguments => simp [Expr.codeSize, arguments.length_eq]

theorem ArgumentsCode.length_eq {es : List Expr} {code : List Instr}
    (made : ArgumentsCode loads es code) : code.length = Expr.codeSizeAll es := by
  cases made with
  | nil => rfl
  | cons first rest =>
    rw [List.length_append, first.length_eq, rest.length_eq, Expr.codeSizeAll]

end

theorem TestCode.length_eq {test : Option Expr} {code : Nat → List Instr}
    (made : TestCode loads test code) (exit : Nat) : (code exit).length = (code 0).length := by
  cases made with
  | none => rfl
  | some test => simp

theorem TestCode.length_zero {test : Option Expr} {code : Nat → List Instr}
    (made : TestCode loads test code) : (code 0).length = Expr.codeSizeOfClause test := by
  cases made with
  | none => rfl
  | some test => simp [Expr.codeSizeOfClause, test.length_eq]

theorem EffectCode.length_eq {e : Option Expr} {code : List Instr}
    (made : EffectCode loads e code) : code.length = Expr.codeSizeOfClause e := by
  cases made with
  | none => rfl
  | some e => simp [Expr.codeSizeOfClause, e.length_eq]

mutual

theorem StmtCode.length_eq {base : Nat} {keep : Bool} {s : Stmt} {code : List Instr}
    (made : StmtCode loads base keep s code) : code.length = s.codeSize keep := by
  cases made with
  | declare init => simp [Stmt.codeSize, init.length_eq]
  | kept value => simp [Stmt.codeSize, value.length_eq]
  | dropped value => simp [Stmt.codeSize, value.length_eq]
  | ifThen test consequent =>
    simp only [Stmt.codeSize, List.length_append, List.length_cons, test.length_eq, consequent.length_eq]
    omega
  | ifElse test consequent middle alternate =>
    simp only [Stmt.codeSize, List.append_assoc, List.cons_append, List.length_append, List.length_cons,
      test.length_eq, consequent.length_eq, alternate.length_eq]
    omega
  | whileLoop test body =>
    simp only [Stmt.codeSize, Expr.codeSizeOfClause, List.append_assoc, List.length_append,
      List.length_cons, List.length_nil, Nat.zero_add, test.length_eq, test.length_zero, body.length_eq]
    omega
  | forLoop init again test start body update =>
    simp only [Stmt.codeSize, List.append_assoc, List.length_append, List.length_cons, List.length_nil,
      Nat.zero_add, init.length_eq, test.length_eq, test.length_zero, body.length_eq, update.length_eq]
    omega

theorem BlockCode.length_eq {base : Nat} {block : List Stmt} {code : List Instr}
    (made : BlockCode loads base block code) : code.length = Stmt.codeSizeAll block := by
  cases made with
  | nil => rfl
  | cons first rest =>
    rw [List.length_append, first.length_eq, rest.length_eq, Stmt.codeSizeAll]

theorem ClauseCode.length_eq {base : Nat} {clause : Option Stmt} {code : List Instr}
    (made : ClauseCode loads base clause code) : code.length = Stmt.codeSizeOfClause clause := by
  cases made with
  | none => rfl
  | some s => exact s.length_eq

end

/-- A statement is placed where its own code begins. -/
theorem Stmt.self_mem_places (s : Stmt) (base : Nat) : (base, s) ∈ s.places base := by
  cases s with
  | ifElse test consequent alternate => cases alternate <;> simp [Stmt.places]
  | _ => simp [Stmt.places]

/-- The expressions of a statement are no statements. -/
theorem Node.stmt_not_mem_exprs {t : Stmt} {es : List Expr} : Node.stmt t ∉ es.map Node.expr := by
  simp

mutual

/-- Programs with stack code have no statements but those that are placed. -/
theorem StmtCode.mem_places {base : Nat} {keep : Bool} {s t : Stmt} {code : List Instr}
    (made : StmtCode loads base keep s code) (member : .stmt t ∈ s.nodes) :
    ∃ index, (index, t) ∈ s.places base := by
  cases made with
  | declare | kept | dropped =>
    simp only [Stmt.nodes, List.mem_cons, Node.stmt.injEq, Node.stmt_not_mem_exprs, or_false] at member
    exact ⟨base, member ▸ Stmt.self_mem_places _ base⟩
  | ifThen test consequent =>
    simp only [Stmt.nodes, Stmt.nodesOfBranch, List.mem_cons, List.mem_append, Node.stmt.injEq,
      Node.stmt_not_mem_exprs, false_or, List.not_mem_nil, or_false] at member
    rcases member with rfl | inside
    · exact ⟨base, Stmt.self_mem_places _ base⟩
    · obtain ⟨index, placed⟩ := consequent.mem_places inside
      rw [test.length_eq] at placed
      exact ⟨index, by simp [Stmt.places, placed]⟩
  | ifElse test consequent middle alternate =>
    simp only [Stmt.nodes, Stmt.nodesOfBranch, List.mem_cons, List.mem_append, Node.stmt.injEq,
      Node.stmt_not_mem_exprs, false_or] at member
    rcases member with rfl | inside | inside
    · exact ⟨base, Stmt.self_mem_places _ base⟩
    · obtain ⟨index, placed⟩ := consequent.mem_places inside
      rw [test.length_eq] at placed
      exact ⟨index, by simp [Stmt.places, placed]⟩
    · obtain ⟨index, placed⟩ := alternate.mem_places inside
      rw [middle, test.length_eq, consequent.length_eq] at placed
      exact ⟨index, by simp [Stmt.places, placed]⟩
  | whileLoop test body =>
    simp only [Stmt.nodes, List.mem_cons, List.mem_append, Node.stmt.injEq, Node.stmt_not_mem_exprs,
      false_or] at member
    rcases member with rfl | inside
    · exact ⟨base, Stmt.self_mem_places _ base⟩
    · obtain ⟨index, placed⟩ := body.mem_places inside
      rw [test.length_zero, Expr.codeSizeOfClause, ← Nat.add_assoc] at placed
      exact ⟨index, by simp [Stmt.places, placed]⟩
  | forLoop init again test start body update =>
    simp only [Stmt.nodes, List.mem_cons, List.mem_append, Node.stmt.injEq, Node.stmt_not_mem_exprs,
      false_or] at member
    rcases member with rfl | inside | inside
    · exact ⟨base, Stmt.self_mem_places _ base⟩
    · obtain ⟨index, placed⟩ := init.mem_places inside
      exact ⟨index, by simp [Stmt.places, placed]⟩
    · obtain ⟨index, placed⟩ := body.mem_places inside
      rw [start, again, test.length_zero, init.length_eq] at placed
      exact ⟨index, by simp [Stmt.places, placed]⟩

theorem BlockCode.mem_places {base : Nat} {block : List Stmt} {t : Stmt} {code : List Instr}
    (made : BlockCode loads base block code) (member : .stmt t ∈ Stmt.nodesAll block) :
    ∃ index, (index, t) ∈ Stmt.placesAll base block := by
  cases made with
  | nil => simp [Stmt.nodesAll] at member
  | cons first rest =>
    rw [Stmt.nodesAll, List.mem_append] at member
    rcases member with inside | inside
    · obtain ⟨index, placed⟩ := first.mem_places inside
      exact ⟨index, List.mem_append_left _ placed⟩
    · obtain ⟨index, placed⟩ := rest.mem_places inside
      rw [first.length_eq] at placed
      exact ⟨index, List.mem_append_right _ placed⟩

theorem ClauseCode.mem_places {base : Nat} {clause : Option Stmt} {t : Stmt} {code : List Instr}
    (made : ClauseCode loads base clause code) (member : .stmt t ∈ Stmt.nodesOfClause clause) :
    ∃ index, (index, t) ∈ Stmt.placesOfClause base clause := by
  cases made with
  | none => simp [Stmt.nodesOfClause] at member
  | some s => exact s.mem_places member

end

theorem ProgramCode.mem_places {base : Nat} {p : Program} {t : Stmt} {code : List Instr}
    (made : ProgramCode loads base p code) (member : .stmt t ∈ p.nodes) :
    ∃ index, (index, t) ∈ Stmt.placesAll base p := by
  induction made with
  | nil => simp [Program.nodes, Stmt.nodesAll] at member
  | last s =>
    obtain ⟨index, placed⟩ := s.mem_places (by simpa [Program.nodes, Stmt.nodesAll] using member)
    exact ⟨index, List.mem_append_left _ placed⟩
  | cons _ first _ ih =>
    rw [Program.nodes, Stmt.nodesAll, List.mem_append] at member
    rcases member with inside | inside
    · obtain ⟨index, placed⟩ := first.mem_places inside
      exact ⟨index, List.mem_append_left _ placed⟩
    · obtain ⟨index, placed⟩ := ih inside
      rw [first.length_eq] at placed
      exact ⟨index, List.mem_append_right _ placed⟩

end

end TinyScript
