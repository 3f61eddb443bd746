import Mathlib.Data.Nat.Basic
import TinyScript.Proofs.Bytecode.Dispatch
import TinyScript.Proofs.Bytecode.Places

/-! # The height of the operand stack

Each instruction of generated code is dispatched at one height of the operand stack, whichever way the
run has taken to it.  The height of an index is what a scan of the code in front of it adds up to
(`Chunk.height`), jumps or not: code jumps only at height zero, and only to where the scan is at zero
as well.

* `Covered`: every instruction finds its operands, and jumps leave nothing;
* `Disciplined`: a piece of code is covered and jumps to level places only;
* `Program.stack_discipline`: what follows for every run of a generated chunk.
-/

namespace TinyScript

/-- The height that a scan of code adds up to. -/
def heightAfter (height : Nat) (code : List Instr) : Nat :=
  code.foldl Instr.after height

/-- The height at which the instruction with the given index is dispatched. -/
def Chunk.height (chunk : Chunk) (index : Nat) : Nat :=
  heightAfter 0 (chunk.code.toList.take index)

/-! ## Covered code -/

/-- Every instruction finds its operands, and a jump leaves an empty stack. -/
def Covered (height : Nat) : List Instr → Prop
  | [] => True
  | i :: rest => i.needs ≤ height ∧ (∀ target, i.target? = some target → i.after height = 0) ∧
      Covered (i.after height) rest

@[simp] theorem heightAfter_nil (height : Nat) : heightAfter height [] = height := rfl

@[simp] theorem heightAfter_cons (height : Nat) (i : Instr) (rest : List Instr) :
    heightAfter height (i :: rest) = heightAfter (i.after height) rest := rfl

@[simp] theorem heightAfter_append (height : Nat) (left right : List Instr) :
    heightAfter height (left ++ right) = heightAfter (heightAfter height left) right :=
  List.foldl_append

@[simp] theorem covered_nil (height : Nat) : Covered height [] := trivial

@[simp] theorem covered_append {height : Nat} {left right : List Instr} :
    Covered height (left ++ right) ↔
      Covered height left ∧ Covered (heightAfter height left) right := by
  induction left generalizing height with
  | nil => simp
  | cons i left ih => simp only [List.cons_append, Covered, ih, heightAfter_cons, and_assoc]

/-- What is covered at an index, and the height behind it. -/
theorem Covered.at {height index : Nat} {code : List Instr} {i : Instr}
    (covered : Covered height code) (found : code[index]? = some i) :
    i.needs ≤ heightAfter height (code.take index) ∧
      (∀ target, i.target? = some target → i.after (heightAfter height (code.take index)) = 0) ∧
      heightAfter height (code.take (index + 1)) =
        i.after (heightAfter height (code.take index)) := by
  induction code generalizing height index with
  | nil => simp at found
  | cons first rest ih =>
    obtain ⟨needs, level, covered⟩ := covered
    cases index with
    | zero =>
      cases found
      exact ⟨needs, level, rfl⟩
    | succ index => exact ih covered found

/-! ## Expressions -/

/-- Code that pushes a number of values at any height, and does not jump. -/
structure Pushes (count : Nat) (code : List Instr) : Prop where
  covered : ∀ height, Covered height code
  height : ∀ height, heightAfter height code = height + count
  straight : ∀ i ∈ code, i.target? = none

namespace Pushes

variable {m n : Nat} {left right code : List Instr}

theorem nil : Pushes 0 [] := ⟨fun _ => trivial, fun _ => rfl, by simp⟩

theorem append (first : Pushes m left) (second : Pushes n right) :
    Pushes (m + n) (left ++ right) where
  covered height := covered_append.2 ⟨first.covered height, second.covered _⟩
  height height := by rw [heightAfter_append, first.height, second.height, Nat.add_assoc]
  straight i member := by
    rcases List.mem_append.1 member with early | late
    · exact first.straight i early
    · exact second.straight i late

/-- An instruction behind the operands that it takes. -/
theorem apply {i : Instr} (operands : Pushes m code) (needs : i.needs ≤ m)
    (after : ∀ height, i.after (height + m) = height + n) (plain : i.target? = none) :
    Pushes n (code ++ [i]) where
  covered height := by
    rw [covered_append, operands.height]
    refine ⟨operands.covered height, by omega, fun target jumps => ?_, trivial⟩
    rw [plain] at jumps
    cases jumps
  height height := by
    rw [heightAfter_append, operands.height]
    exact after height
  straight j member := by
    rcases List.mem_append.1 member with early | late
    · exact operands.straight j early
    · rw [List.mem_singleton.1 late, plain]

/-- A test and the jump that takes its value. -/
theorem branch_height (test : Pushes 1 code) (target : Nat) :
    heightAfter 0 (code ++ [.jumpIfFalse target]) = 0 := by
  rw [heightAfter_append, test.height]
  rfl

end Pushes

section

variable {loads : Nat → Literal → Prop}

mutual

theorem ExprCode.pushes {e : Expr} {code : List Instr} (made : ExprCode loads e code) :
    Pushes 1 code := by
  cases made with
  | literal _ => exact Pushes.nil.apply (Nat.zero_le _) (fun _ => rfl) rfl
  | identifier name => exact Pushes.nil.apply (Nat.zero_le _) (fun _ => rfl) rfl
  | binary left right =>
    exact (left.pushes.append right.pushes).apply (Nat.le_refl 2) (fun _ => rfl) rfl
  | @assign _ target _ code _ value =>
    have doubled : Pushes 2 (code ++ [Instr.dup]) :=
      value.pushes.apply (Nat.le_refl 1) (fun _ => rfl) rfl
    have stored : Pushes 1 (code ++ [Instr.dup] ++ [Instr.storeVar target]) :=
      doubled.apply (Nat.le_succ 1) (fun _ => rfl) rfl
    simpa using stored
  | @compound _ combine target _ code _ value =>
    have old : Pushes 1 [Instr.loadVar target] := Pushes.nil.apply (Nat.zero_le _) (fun _ => rfl) rfl
    have combined : Pushes 1 ([Instr.loadVar target] ++ code ++ [Instr.binary combine]) :=
      (old.append value.pushes).apply (Nat.le_refl 2) (fun _ => rfl) rfl
    have doubled : Pushes 2
        ([Instr.loadVar target] ++ code ++ [Instr.binary combine] ++ [Instr.dup]) :=
      combined.apply (Nat.le_refl 1) (fun _ => rfl) rfl
    have stored : Pushes 1 ([Instr.loadVar target] ++ code ++ [Instr.binary combine] ++ [Instr.dup] ++
        [Instr.storeVar target]) :=
      doubled.apply (Nat.le_succ 1) (fun _ => rfl) rfl
    simpa using stored
  | function arguments =>
    exact arguments.pushes.apply (Nat.le_refl _) (fun _ => by simp [Instr.after]) rfl
  | method arguments =>
    exact arguments.pushes.apply (Nat.le_refl _) (fun _ => by simp [Instr.after]) rfl

theorem ArgumentsCode.pushes {es : List Expr} {code : List Instr}
    (made : ArgumentsCode loads es code) : Pushes es.length code := by
  cases made with
  | nil => exact .nil
  | @cons _ rest _ _ first others =>
    rw [List.length_cons, Nat.add_comm]
    exact first.pushes.append others.pushes

end

end

/-! ## Statements -/

/-- A place of code that begins at `base`, with the code behind it, where a scan is at zero. -/
def Level (base : Nat) (code : List Instr) (index : Nat) (behind : List Instr) : Prop :=
  ∃ front, code = front ++ behind ∧ index = base + front.length ∧ heightAfter 0 front = 0

namespace Level

variable {base index : Nat} {code front behind more : List Instr}

theorem first (base : Nat) (code : List Instr) : Level base code base code :=
  ⟨[], rfl, rfl, rfl⟩

theorem last (zero : heightAfter 0 code = 0) (eq : index = base + code.length) :
    Level base code index [] :=
  ⟨code, by simp, eq, zero⟩

theorem append (level : Level base code index behind) (more : List Instr) :
    Level base (code ++ more) index (behind ++ more) := by
  obtain ⟨front, rfl, rfl, zero⟩ := level
  exact ⟨front, List.append_assoc .., rfl, zero⟩

theorem prepend (zero : heightAfter 0 front = 0)
    (level : Level (base + front.length) code index behind) :
    Level base (front ++ code) index behind := by
  obtain ⟨between, rfl, rfl, zero'⟩ := level
  refine ⟨front ++ between, (List.append_assoc ..).symm, ?_, ?_⟩
  · rw [List.length_append, Nat.add_assoc]
  · rw [heightAfter_append, zero, zero']

end Level

/-- Covered code that begins at `base` at height zero, ends at a given height, and jumps to level
places of its own and to some exits. -/
structure Disciplined (base : Nat) (code : List Instr) (final : Nat) (exits : List Nat) : Prop where
  covered : Covered 0 code
  ends : heightAfter 0 code = final
  aimed : ∀ i ∈ code, ∀ target, i.target? = some target →
    target ∈ exits ∨ ∃ behind, Level base code target behind

namespace Disciplined

variable {base final count : Nat} {code left right : List Instr} {exits exits' : List Nat}

theorem ofPushes (pushes : Pushes count code) : Disciplined base code count exits where
  covered := pushes.covered 0
  ends := by rw [pushes.height, Nat.zero_add]
  aimed i member target jumps := by
    rw [pushes.straight i member] at jumps
    cases jumps

theorem nil : Disciplined base [] 0 exits := ofPushes .nil

theorem append {middle : Nat} (first : Disciplined base left 0 exits)
    (second : Disciplined middle right final exits) (eq : middle = base + left.length) :
    Disciplined base (left ++ right) final exits where
  covered := by
    rw [covered_append, first.ends]
    exact ⟨first.covered, second.covered⟩
  ends := by rw [heightAfter_append, first.ends, second.ends]
  aimed i member target jumps := by
    rcases List.mem_append.1 member with early | late
    · rcases first.aimed i early target jumps with leaves | ⟨behind, level⟩
      · exact .inl leaves
      · exact .inr ⟨_, level.append right⟩
    · rcases second.aimed i late target jumps with leaves | ⟨behind, level⟩
      · exact .inl leaves
      · exact .inr ⟨_, (eq ▸ level).prepend first.ends⟩

theorem weaken (holds : Disciplined base code final exits) (more : ∀ exit ∈ exits, exit ∈ exits') :
    Disciplined base code final exits' :=
  { holds with
    aimed := fun i member target jumps => (holds.aimed i member target jumps).imp_left (more target) }

/-- Exits that turn out to be level places of the code itself. -/
theorem close (holds : Disciplined base code final exits)
    (inside : ∀ exit ∈ exits, ∃ behind, Level base code exit behind) :
    Disciplined base code final [] :=
  { holds with
    aimed := fun i member target jumps =>
      .inr ((holds.aimed i member target jumps).elim (inside target) id) }

/-- An instruction that takes all that has been pushed, and may jump to an exit. -/
theorem takeAll {i : Instr} (operands : Pushes count code) (needs : i.needs ≤ count)
    (after : i.after count = 0) (aimed : ∀ target, i.target? = some target → target ∈ exits) :
    Disciplined base (code ++ [i]) 0 exits where
  covered := by
    rw [covered_append, operands.height, Nat.zero_add]
    exact ⟨operands.covered 0, needs, fun _ _ => after, trivial⟩
  ends := by
    rw [heightAfter_append, operands.height, Nat.zero_add]
    exact after
  aimed j member target jumps := by
    rcases List.mem_append.1 member with early | late
    · rw [operands.straight j early] at jumps
      cases jumps
    · rw [List.mem_singleton.1 late] at jumps
      exact .inl (aimed target jumps)

theorem jump {target : Nat} (member : target ∈ exits) :
    Disciplined base [.jump target] 0 exits := by
  show Disciplined base ([] ++ [Instr.jump target]) 0 exits
  refine takeAll .nil (Nat.le_refl 0) rfl fun other jumps => ?_
  cases jumps
  exact member

theorem branch {target : Nat} (test : Pushes 1 code) (member : target ∈ exits) :
    Disciplined base (code ++ [.jumpIfFalse target]) 0 exits := by
  refine takeAll test (Nat.le_refl 1) rfl fun other jumps => ?_
  cases jumps
  exact member

end Disciplined

/-- The number of values that a statement leaves on the stack. -/
def Stmt.leaves (keep : Bool) : Stmt → Nat
  | .expression _ => if keep then 1 else 0
  | _ => 0

theorem Stmt.leaves_false (s : Stmt) : s.leaves false = 0 := by
  cases s <;> rfl

section

variable {loads : Nat → Literal → Prop}

theorem TestCode.disciplined {base exit : Nat} {exits : List Nat} {test : Option Expr}
    {code : Nat → List Instr} (made : TestCode loads test code) (member : exit ∈ exits) :
    Disciplined base (code exit) 0 exits := by
  cases made with
  | none => exact .nil
  | some test => exact .branch test.pushes member

theorem TestCode.height {test : Option Expr} {code : Nat → List Instr}
    (made : TestCode loads test code) (exit : Nat) : heightAfter 0 (code exit) = 0 := by
  cases made with
  | none => rfl
  | some test => exact test.pushes.branch_height exit

theorem EffectCode.disciplined {base : Nat} {exits : List Nat} {e : Option Expr}
    {code : List Instr} (made : EffectCode loads e code) : Disciplined base code 0 exits := by
  cases made with
  | none => exact .nil
  | some e =>
    refine .takeAll e.pushes (Nat.le_refl 1) rfl fun target jumps => ?_
    cases jumps

mutual

theorem StmtCode.disciplined {base : Nat} {keep : Bool} {s : Stmt} {code : List Instr}
    (made : StmtCode loads base keep s code) : Disciplined base code (s.leaves keep) [] := by
  cases made with
  | declare init =>
    refine .takeAll init.pushes (Nat.le_refl 1) rfl fun target jumps => ?_
    cases jumps
  | kept value => exact .ofPushes value.pushes
  | dropped value =>
    refine .takeAll value.pushes (Nat.le_refl 1) rfl fun target jumps => ?_
    cases jumps
  | @ifThen _ _ _ _ testCode code test consequent =>
    -- Piece by piece, with the end as an exit; once the whole is there, its end is a place of its own.
    generalize target : base + testCode.length + 1 + code.length = exit
    have skips : Disciplined base (testCode ++ [.jumpIfFalse exit]) 0 [exit] :=
      .branch test.pushes (by simp)
    have whole := skips.append (consequent.disciplined.weaken (by simp)) (by simp [Nat.add_assoc])
    rw [List.append_cons]
    refine whole.close fun other member => ?_
    rw [List.mem_singleton.1 member]
    exact ⟨[], .last whole.ends (by simp; omega)⟩
  | @ifElse _ middle _ _ _ _ testCode code alternateCode test consequent eq alternate =>
    generalize target : middle + alternateCode.length = exit
    have skips : Disciplined base (testCode ++ [.jumpIfFalse middle]) 0 [middle, exit] :=
      .branch test.pushes (by simp)
    have block := skips.append (consequent.disciplined.weaken (by simp)) (by simp [Nat.add_assoc])
    have front := block.append (.jump (List.mem_cons_of_mem _ (List.mem_singleton_self exit))) rfl
    have whole := front.append (alternate.disciplined.weaken (by simp)) (by simp; omega)
    rw [List.append_cons testCode, List.append_cons _ (Instr.jump exit)]
    refine whole.close fun other member => ?_
    rcases List.mem_cons.1 member with rfl | last
    · exact ⟨_, (Level.last front.ends (by simp; omega)).append alternateCode⟩
    · rw [List.mem_singleton.1 last]
      exact ⟨[], .last whole.ends (by simp; omega)⟩
  | @whileLoop _ _ _ _ testCode code test body =>
    generalize target : base + (testCode 0).length + code.length + 1 = exit
    have length := test.length_eq exit
    have tested : Disciplined base (testCode exit) 0 [exit, base] := test.disciplined (by simp)
    have block := tested.append (body.disciplined.weaken (by simp)) (by rw [length])
    have whole := block.append (.jump (List.mem_cons_of_mem _ (List.mem_singleton_self base))) rfl
    refine whole.close fun other member => ?_
    rcases List.mem_cons.1 member with rfl | last
    · exact ⟨[], .last whole.ends (by simp; omega)⟩
    · rw [List.mem_singleton.1 last]
      exact ⟨_, .first _ _⟩
  | @forLoop _ again start _ _ _ _ _ testCode initCode code updateCode init eq test eq' body update =>
    generalize target : start + code.length + updateCode.length + 1 = exit
    have length := test.length_eq exit
    have entered : Disciplined base initCode 0 [exit, again] := init.disciplined.weaken (by simp)
    have tested := entered.append (test.disciplined (List.mem_cons_self ..)) rfl
    have block := tested.append (body.disciplined.weaken (by simp)) (by simp; omega)
    have updated := block.append update.disciplined rfl
    have whole := updated.append (.jump (List.mem_cons_of_mem _ (List.mem_singleton_self again))) rfl
    refine whole.close fun other member => ?_
    rcases List.mem_cons.1 member with rfl | last
    · exact ⟨[], .last whole.ends (by simp; omega)⟩
    · rw [List.mem_singleton.1 last]
      exact ⟨_, (((Level.last entered.ends eq).append _).append _).append _ |>.append _⟩

theorem BlockCode.disciplined {base : Nat} {block : List Stmt} {code : List Instr}
    (made : BlockCode loads base block code) : Disciplined base code 0 [] := by
  cases made with
  | nil => exact .nil
  | cons first rest =>
    have firstHolds := first.disciplined
    rw [Stmt.leaves_false] at firstHolds
    exact firstHolds.append rest.disciplined rfl

theorem ClauseCode.disciplined {base : Nat} {clause : Option Stmt} {code : List Instr}
    (made : ClauseCode loads base clause code) : Disciplined base code 0 [] := by
  cases made with
  | none => exact .nil
  | some s =>
    have holds := s.disciplined
    rwa [Stmt.leaves_false] at holds

end

end

/-! ## Where statements begin -/

section

variable {loads : Nat → Literal → Prop}

/-- The code of a statement begins at an index of other code, at a level place of it. -/
def Placed (loads : Nat → Literal → Prop) (base : Nat) (code : List Instr) (place : Nat × Stmt) :
    Prop :=
  ∃ keep own more, StmtCode loads place.1 keep place.2 own ∧ Level base code place.1 (own ++ more)

namespace Placed

variable {base middle : Nat} {front code : List Instr} {place : Nat × Stmt}

theorem self {keep : Bool} {s : Stmt} (made : StmtCode loads base keep s code) :
    Placed loads base code (base, s) :=
  ⟨keep, code, [], made, by simpa using Level.first base code⟩

theorem append (placed : Placed loads base code place) (more : List Instr) :
    Placed loads base (code ++ more) place := by
  obtain ⟨keep, own, rest, made, level⟩ := placed
  exact ⟨keep, own, rest ++ more, made, by simpa using level.append more⟩

theorem prepend (placed : Placed loads middle code place) (eq : middle = base + front.length)
    (zero : heightAfter 0 front = 0) : Placed loads base (front ++ code) place := by
  obtain ⟨keep, own, rest, made, level⟩ := placed
  exact ⟨keep, own, rest, made, (eq ▸ level).prepend zero⟩

end Placed

mutual

/-- The code of every statement inside a statement begins where it is placed. -/
theorem StmtCode.placed {base : Nat} {keep : Bool} {s : Stmt} {code : List Instr}
    (made : StmtCode loads base keep s code) :
    ∀ place ∈ s.places base, Placed loads base code place := by
  have whole : Placed loads base code (base, s) := .self made
  intro place member
  cases made with
  | declare init =>
    rw [List.mem_singleton.1 member]
    exact whole
  | kept value =>
    rw [List.mem_singleton.1 member]
    exact whole
  | dropped value =>
    rw [List.mem_singleton.1 member]
    exact whole
  | @ifThen _ _ _ _ testCode code test consequent =>
    rw [Stmt.places, List.mem_cons, ← test.length_eq] at member
    rcases member with rfl | inside
    · exact whole
    · rw [List.append_cons]
      exact (consequent.placed place inside).prepend (by simp [Nat.add_assoc])
        (test.pushes.branch_height _)
  | @ifElse _ middle _ _ _ _ testCode code alternateCode test consequent eq alternate =>
    simp only [Stmt.places, List.mem_cons, List.mem_append, ← test.length_eq,
      ← consequent.length_eq, ← eq] at member
    have tested := test.pushes.branch_height middle
    rcases member with rfl | inside | inside
    · exact whole
    · rw [List.append_cons testCode]
      refine ((consequent.placed place inside).prepend ?_ tested).append _
      simp [Nat.add_assoc]
    · rw [List.append_cons testCode, List.append_cons _ (Instr.jump _)]
      refine (alternate.placed place inside).prepend (by simp; omega) ?_
      rw [heightAfter_append, heightAfter_append, tested, consequent.disciplined.ends]
      rfl
  | @whileLoop _ _ _ _ testCode code test body =>
    have placed : base + (testCode 0).length = base + Expr.codeSizeOfClause (some _) :=
      congrArg (base + ·) test.length_zero
    rw [Stmt.places, List.mem_cons] at member
    rcases member with rfl | inside
    · exact whole
    · -- The test is as long whatever its jump is aimed at, so its exit may be taken to be zero.
      rw [Expr.codeSizeOfClause, ← Nat.add_assoc] at placed
      rw [← placed] at inside
      refine ((body.placed place inside).prepend ?_ (test.height _)).append _
      exact congrArg (base + ·) (test.length_eq _).symm
  | @forLoop _ again start _ _ _ _ _ testCode initCode code updateCode init eq test eq' body update =>
    simp only [Stmt.places, List.mem_cons, List.mem_append, ← init.length_eq, ← eq,
      ← test.length_zero, ← eq'] at member
    rcases member with rfl | inside | inside
    · exact whole
    · exact ((((init.placed place inside).append _).append _).append _).append _
    · refine (((body.placed place inside).prepend ?_ ?_).append _).append _
      · rw [List.length_append, test.length_eq]
        omega
      · rw [heightAfter_append, init.disciplined.ends, test.height]

theorem BlockCode.placed {base : Nat} {block : List Stmt} {code : List Instr}
    (made : BlockCode loads base block code) :
    ∀ place ∈ Stmt.placesAll base block, Placed loads base code place := by
  intro place member
  cases made with
  | nil => cases member
  | cons first rest =>
    rw [Stmt.placesAll, List.mem_append, ← first.length_eq] at member
    rcases member with inside | inside
    · exact (first.placed place inside).append _
    · have level := first.disciplined.ends
      rw [Stmt.leaves_false] at level
      exact (rest.placed place inside).prepend rfl level

theorem ClauseCode.placed {base : Nat} {clause : Option Stmt} {code : List Instr}
    (made : ClauseCode loads base clause code) :
    ∀ place ∈ Stmt.placesOfClause base clause, Placed loads base code place := by
  intro place member
  cases made with
  | none => cases member
  | some s => exact s.placed place member

end

end

/-! ## Programs -/

section

variable {loads : Nat → Literal → Prop}

theorem ProgramCode.disciplined {base : Nat} {p : Program} {code : List Instr}
    (made : ProgramCode loads base p code) :
    Disciplined base code (if p.endsInExpression then 1 else 0) [] := by
  induction made with
  | nil => exact .nil
  | @last _ s _ made =>
    have holds := made.disciplined
    cases s <;> exact holds
  | cons more first _ ih =>
    have holds := first.disciplined
    rw [Stmt.leaves_false] at holds
    rw [Program.endsInExpression_cons more]
    exact holds.append ih rfl

theorem ProgramCode.placed {base : Nat} {p : Program} {code : List Instr}
    (made : ProgramCode loads base p code) :
    ∀ place ∈ Stmt.placesAll base p, Placed loads base code place := by
  induction made with
  | nil =>
    intro place member
    cases member
  | last made =>
    intro place member
    rw [Stmt.placesAll, Stmt.placesAll, List.append_nil] at member
    exact made.placed place member
  | cons _ first _ ih =>
    intro place member
    rw [Stmt.placesAll, List.mem_append, ← first.length_eq] at member
    rcases member with inside | inside
    · exact (first.placed place inside).append _
    · have level := first.disciplined.ends
      rw [Stmt.leaves_false] at level
      exact (ih place inside).prepend rfl level

end

/-! ## Runs -/

namespace Chunk

/-- Code that is covered, jumps to indices of height zero only, and ends in `halt`. -/
structure Leveled (chunk : Chunk) : Prop where
  covered : Covered 0 chunk.code.toList
  aimed : ∀ i ∈ chunk.code.toList, ∀ target, i.target? = some target →
    target < chunk.code.size ∧ chunk.height target = 0
  halts : chunk.code[chunk.code.size - 1]? = some .halt

/-- A state of a run at the height of its instruction. -/
def AtHeight (chunk : Chunk) (c : Config) : Prop :=
  c.index < chunk.code.size ∧ c.stack.length = chunk.height c.index

variable {chunk : Chunk} {functions : NameMap HostFunction} {c d : Config} {i : Instr}

theorem Leveled.enough (leveled : chunk.Leveled) (here : chunk.AtHeight c)
    (found : chunk.code[c.index]? = some i) : i.needs ≤ c.stack.length := by
  rw [← Array.getElem?_toList] at found
  rw [here.2]
  exact (leveled.covered.at found).1

theorem Leveled.step (leveled : chunk.Leveled) (here : chunk.AtHeight c)
    (found : chunk.code[c.index]? = some i)
    (dispatched : c.dispatch functions chunk.constants i = .ok (some d)) : chunk.AtHeight d := by
  obtain ⟨_, height, leads⟩ := Config.dispatch_effect dispatched
  have foundList : chunk.code.toList[c.index]? = some i := by rw [Array.getElem?_toList, found]
  obtain ⟨_, level, next⟩ := leveled.covered.at foundList
  rw [here.2] at height
  rcases leads with eq | jumps
  · refine ⟨?_, by rw [height, eq]; exact next.symm⟩
    have last : c.index ≠ chunk.code.size - 1 := by
      intro eqLast
      rw [eqLast, leveled.halts] at found
      cases found
      cases dispatched
    have := here.1
    omega
  · obtain ⟨bound, zero⟩ := leveled.aimed i (List.mem_of_getElem? foundList) _ jumps
    exact ⟨bound, by rw [height, zero]; exact level _ jumps⟩

theorem Leveled.reaches (leveled : chunk.Leveled) (here : chunk.AtHeight c)
    (reaches : chunk.Reaches functions c d) : chunk.AtHeight d := by
  induction reaches with
  | refl => exact here
  | step found dispatched _ ih => exact ih (leveled.step here found dispatched)

theorem Leveled.start (leveled : chunk.Leveled) (vm : Vm) : chunk.AtHeight vm.start := by
  refine ⟨?_, rfl⟩
  have := (Array.getElem?_eq_some_iff.1 leveled.halts).1
  show 0 < chunk.code.size
  omega

end Chunk

theorem Disciplined.leveled {code : List Instr} {final : Nat} {constants : Array Scalar}
    (holds : Disciplined 0 code final []) :
    Chunk.Leveled ⟨(code ++ [Instr.halt]).toArray, constants⟩ where
  covered := by
    rw [covered_append]
    refine ⟨holds.covered, Nat.zero_le _, fun target jumps => ?_, trivial⟩
    cases jumps
  aimed i member target jumps := by
    rcases List.mem_append.1 member with inside | last
    · obtain ⟨behind, front, rfl, rfl, zero⟩ :=
        (holds.aimed i inside target jumps).resolve_left (by simp)
      refine ⟨by simp, ?_⟩
      simp [Chunk.height, zero]
    · rw [List.mem_singleton.1 last] at jumps
      cases jumps
  halts := by simp

/-- Every instruction of generated code is dispatched at its own height of the operand stack, on any
machine and however far the run goes, and finds its operands there. So no run reports a stack that is
too short, if no registered function feigns it; statements begin at height zero; and the last `halt`
stands at height one if the program ends in an expression, and else at zero. -/
theorem Program.stack_discipline (p : Program) (chunk : Chunk) (generated : p.generate = .ok chunk) :
    (∀ (vm : Vm) (c : Config) (i : Instr), chunk.Reaches vm.functions vm.start c →
      chunk.code[c.index]? = some i →
      c.stack.length = chunk.height c.index ∧ i.needs ≤ c.stack.length) ∧
    (∀ (vm vm' : Vm) (patience index : Nat),
      Unfeigned vm.functions (.stackUnderflow index) →
      vm.run patience chunk ≠ some (.error (.stackUnderflow index), vm')) ∧
    (∀ s, .stmt s ∈ p.nodes → ∃ index, (index, s) ∈ p.places) ∧
    (∀ index s, (index, s) ∈ p.places → chunk.height index = 0 ∧
      ∃ keep code, StmtCode (Pooled chunk.constants) index keep s code ∧
        chunk.CodeAt index code) ∧
    chunk.code[chunk.code.size - 1]? = some .halt ∧
    chunk.height (chunk.code.size - 1) = if p.endsInExpression then 1 else 0 := by
  obtain ⟨code, eq, made, _, _⟩ := p.generate_code generated
  obtain ⟨_, constants⟩ := chunk
  cases eq
  have holds := made.disciplined
  have leveled : Chunk.Leveled ⟨(code ++ [Instr.halt]).toArray, constants⟩ := holds.leveled
  refine ⟨fun vm c i reaches found => ?_, fun vm vm' patience index unfeigned ran => ?_,
    fun s member => made.mem_places member, fun index s member => ?_, leveled.halts, ?_⟩
  · have here := leveled.reaches (leveled.start vm) reaches
    exact ⟨here.2, leveled.enough here found⟩
  · obtain ⟨fault, eq⟩ | ⟨limit, eq⟩ | ⟨c, i, reaches, found, failed⟩ := Vm.run_error_cases ran
    · cases eq
    · cases eq
    have here := leveled.reaches (leveled.start vm) reaches
    exact Config.dispatch_underflow unfeigned (leveled.enough here found) failed
  · obtain ⟨keep, own, more, ownMade, front, rfl, place, zero⟩ := made.placed _ member
    have begins : index = front.length := place.trans (Nat.zero_add _)
    refine ⟨?_, keep, own, ownMade, ?_⟩
    · rw [begins]
      simp [Chunk.height, zero]
    · have all := Chunk.codeAt_toArray (front ++ (own ++ more) ++ [Instr.halt]) constants
      simp only [Chunk.codeAt_append, Nat.zero_add, ← begins] at all
      exact all.1.2.1
  · simp [Chunk.height, holds.ends]

/-- A declaration, a loop and a comparison, the value of which is left at the end. -/
theorem stack_discipline_of_loop :
    ∃ chunk, Program.generate [.declare .letD "x" (.literal (.boolean true)),
        .whileLoop (.identifier "x") [.expression (.assign .assign "x" (.literal (.boolean false)))],
        .expression (.binary .equal (.identifier "x") (.literal (.string "a")))] = .ok chunk ∧
      (List.range 13).map chunk.height = [0, 1, 0, 1, 0, 1, 2, 1, 0, 0, 1, 2, 1] ∧
      (∀ (vm : Vm) (c : Config) (i : Instr), chunk.Reaches vm.functions vm.start c →
        chunk.code[c.index]? = some i →
        c.stack.length = chunk.height c.index ∧ i.needs ≤ c.stack.length) ∧
      ∀ patience index vm',
        (Vm.new none).run patience chunk ≠ some (.error (.stackUnderflow index), vm') := by
  have generated : Program.generate [.declare .letD "x" (.literal (.boolean true)),
        .whileLoop (.identifier "x") [.expression (.assign .assign "x" (.literal (.boolean false)))],
        .expression (.binary .equal (.identifier "x") (.literal (.string "a")))] =
      .ok ⟨#[.loadConst 0, .storeVar "x", .loadVar "x", .jumpIfFalse 9, .loadConst 1, .dup,
        .storeVar "x", .pop, .jump 2, .loadVar "x", .loadConst 2, .binary .equal, .halt],
        #[.boolean true, .boolean false, .string "a"]⟩ := by
    decide +kernel
  obtain ⟨levels, enough, _⟩ := Program.stack_discipline _ _ generated
  exact ⟨_, generated, by decide, levels, fun patience index vm' =>
    enough (Vm.new none) vm' patience index (unfeigned_standard nofun)⟩

end TinyScript
