import TinyScript.Proofs.Bytecode.Generation
import TinyScript.Proofs.Bytecode.StepLimit
import TinyScript.Proofs.Evaluator.LoopFree

/-! # Code without loops runs forward

Generation aims a jump back only at the end of a loop, so all jumps in the code of a program without loops
lead forward (`Program.LoopFree.forward`).  In such code the index grows with every instruction, and a run
ends after no more instructions than there are (`Chunk.Forward.exists_endsIn`), whatever the host functions
do and the variables hold.
-/

namespace TinyScript

/-! ## Placed statements -/

section

variable {index : Nat} {t : Stmt}

mutual

/-- What is placed in the code of a statement is a part of the statement. -/
theorem Stmt.mem_nodes_of_mem_places {base : Nat} {s : Stmt} (placed : (index, t) ∈ s.places base) :
    .stmt t ∈ s.nodes := by
  cases s with
  | ifElse test consequent alternate =>
    cases alternate with
    | none =>
      rcases List.mem_cons.1 placed with self | inside
      · cases self
        simp
      · simp [Stmt.mem_nodesAll_of_mem_placesAll inside]
    | some alternate =>
      rcases List.mem_cons.1 placed with self | inside
      · cases self
        simp
      · rcases List.mem_append.1 inside with inside | inside
        · simp [Stmt.mem_nodesAll_of_mem_placesAll inside]
        · simp [Stmt.mem_nodesAll_of_mem_placesAll inside]
  | whileLoop test body =>
    rcases List.mem_cons.1 placed with self | inside
    · cases self
      simp
    · simp [Stmt.mem_nodesAll_of_mem_placesAll inside]
  | forLoop init test update body =>
    rcases List.mem_cons.1 placed with self | inside
    · cases self
      simp
    · rcases List.mem_append.1 inside with inside | inside
      · simp [Stmt.mem_nodesOfClause_of_mem_placesOfClause inside]
      · simp [Stmt.mem_nodesAll_of_mem_placesAll inside]
  | _ =>
    cases List.mem_singleton.1 placed
    simp

theorem Stmt.mem_nodesAll_of_mem_placesAll {base : Nat} {block : List Stmt}
    (placed : (index, t) ∈ Stmt.placesAll base block) : .stmt t ∈ Stmt.nodesAll block := by
  cases block with
  | nil => cases placed
  | cons s rest =>
    rcases List.mem_append.1 placed with first | later
    · exact List.mem_append_left _ (Stmt.mem_nodes_of_mem_places first)
    · exact List.mem_append_right _ (Stmt.mem_nodesAll_of_mem_placesAll later)

theorem Stmt.mem_nodesOfClause_of_mem_placesOfClause {base : Nat} {clause : Option Stmt}
    (placed : (index, t) ∈ Stmt.placesOfClause base clause) : .stmt t ∈ Stmt.nodesOfClause clause := by
  cases clause with
  | none => cases placed
  | some s => exact Stmt.mem_nodes_of_mem_places placed

end

end

/-- Only loops are repeated, so where there are none no instruction is in one. -/
theorem Program.LoopFree.not_inLoop {p : Program} (loopFree : p.LoopFree) (index again : Nat) :
    ¬InLoop p.places index again := by
  rintro ⟨base, loop, placed, repeated, _⟩
  have free := loopFree _ (Stmt.mem_nodesAll_of_mem_placesAll placed)
  cases loop with
  | whileLoop => cases free
  | forLoop => cases free
  | _ => cases repeated

/-! ## Jumps that lead forward -/

/-- Every jump leads to a later instruction. -/
def Chunk.Forward (chunk : Chunk) : Prop :=
  ∀ (index : Nat) (i : Instr) (target : Nat), chunk.code[index]? = some i → i.target? = some target →
    index < target

/-- A jump that leads back ends a loop. -/
theorem Program.LoopFree.forward {p : Program} (loopFree : p.LoopFree) {chunk : Chunk}
    (generated : p.generate = .ok chunk) : chunk.Forward := by
  obtain ⟨code, eq, isCode, _⟩ := p.generate_code generated
  have sound : SoundCode chunk.constants p.places code.length 0 code :=
    isCode.sound (fun _ => id) (by omega)
  intro index i target found jumps
  rw [eq] at found
  rcases sound.cases found with ⟨_, here⟩ | ⟨_, rfl⟩
  · cases i with
    | jumpIfFalse =>
      cases jumps
      exact here.1
    | jump =>
      cases jumps
      rcases here with ⟨later, _⟩ | back
      · exact later
      · exact absurd back (loopFree.not_inLoop _ _)
    | _ => cases jumps
  · cases jumps

namespace Chunk.Forward

variable {chunk : Chunk} {functions : NameMap HostFunction} {c d : Config} {i : Instr} {n : Nat}

theorem index_lt (forward : chunk.Forward) (found : chunk.code[c.index]? = some i)
    (dispatched : c.dispatch functions chunk.constants i = .ok (some d)) : c.index < d.index := by
  rcases (Config.dispatch_effect dispatched).2.2 with next | jumped
  · omega
  · exact forward _ _ _ found jumped

/-- The index grows at least as fast as the number of instructions. -/
theorem add_le_index (forward : chunk.Forward) (counted : chunk.ReachesIn functions n c d) :
    c.index + n ≤ d.index := by
  induction counted with
  | refl => exact Nat.le_refl _
  | step found dispatched _ ih =>
    have grows := forward.index_lt found dispatched
    omega

/-- There are no more instructions left to dispatch than stand behind the first. -/
theorem exists_endsIn (forward : chunk.Forward) (functions : NameMap HostFunction) (c : Config) :
    ∃ k progress, k ≤ chunk.code.size ∧ chunk.EndsIn functions k c progress := by
  rcases chunk.runFor_cases functions chunk.code.size c with ⟨d, counted, inside, _⟩ | ⟨k, few, ends⟩
  · have far := forward.add_le_index counted
    omega
  · exact ⟨k, _, few, ends⟩

end Chunk.Forward

namespace Vm

variable {vm last : Vm} {chunk : Chunk} {result : Except ExecutionError Scalar} {k patience : Nat}

/-- A run that ends by itself within the patience of its caller also ends there with a step limit, in time
or cut short. -/
theorem EndsAfter.exists_run (ends : (vm.limited none).EndsAfter chunk k result last)
    (enough : k ≤ patience) : ∃ outcome, vm.run patience chunk = some outcome := by
  have ends' := ends.limited vm.stepLimit
  by_cases allows : vm.Allows k
  · exact ⟨_, ends'.run allows enough⟩
  · simp only [Allows, not_forall, not_le] at allows
    obtain ⟨limit, limited, few⟩ := allows
    obtain ⟨_, exceeds⟩ := ends'.exceeds limited few
    refine ⟨_, exceeds.run fun bound same => ?_⟩
    cases limited.symm.trans same
    exact Nat.le_of_lt (Nat.lt_of_lt_of_le few enough)

/-- A run in which the index grows dispatches fewer instructions than there are before it comes to one that is
left, so it does not use up as many. -/
theorem not_exceeds_of_forward (forward : chunk.Forward) :
    ¬(vm.limited (some chunk.code.size)).Exceeds chunk result last := by
  rintro ⟨_, limited, counted, inside⟩
  cases limited
  have far := forward.add_le_index counted
  omega

end Vm

/-- In the code of a program without loops the index grows with every instruction that is dispatched, whatever
the machine is that runs it.  So every run ends, after as many instructions as the code has at the latest, and
no step limit from there on is ever exceeded: the run is the same as without one. -/
theorem Program.loopFree_code_runs_forward {p : Program} (loopFree : p.LoopFree) {chunk : Chunk}
    (generated : p.generate = .ok chunk) (vm : Vm) :
    (∀ (c d : Config) (i : Instr), chunk.code[c.index]? = some i →
      c.dispatch vm.functions chunk.constants i = .ok (some d) → c.index < d.index) ∧
    (∀ n c, chunk.ReachesIn vm.functions n vm.start c → n ≤ c.index) ∧
    (∀ patience, chunk.code.size ≤ patience → ∃ outcome, vm.run patience chunk = some outcome) ∧
    (∃ k result last, k ≤ chunk.code.size ∧ (vm.limited none).EndsAfter chunk k result last ∧
      ∀ limit patience, (∀ bound, limit = some bound → chunk.code.size ≤ bound) →
        chunk.code.size ≤ patience →
        (vm.limited limit).run patience chunk = some (result, last.limited limit)) ∧
    ∀ result last, ¬(vm.limited (some chunk.code.size)).Exceeds chunk result last := by
  have forward := loopFree.forward generated
  obtain ⟨_, _, _, _, valid⟩ := p.generate_code generated
  obtain ⟨k, progress, few, ended⟩ :=
    forward.exists_endsIn (vm.limited none).functions (vm.limited none).start
  obtain ⟨⟨result, last⟩, ending⟩ := Vm.ending?_of_endsIn ended
  have ends : (vm.limited none).EndsAfter chunk k result last := .valid valid ended ending
  refine ⟨fun c d i => forward.index_lt, fun n c counted => ?_,
    fun patience enough => ends.exists_run (Nat.le_trans few enough),
    ⟨k, result, last, few, ends, fun limit patience larger enough => ?_⟩,
    fun _ _ => Vm.not_exceeds_of_forward forward⟩
  · have far := forward.add_le_index counted
    exact Nat.le_trans (Nat.le_add_left n _) far
  · refine (ends.limited limit).run (fun bound same => ?_) (Nat.le_trans few enough)
    exact Nat.le_trans few (larger bound same)

/-- A conditional in a branch of another. -/
def nestedBranches : Program :=
  [.ifElse (.literal (.boolean true))
    [.ifElse (.literal (.string ""))
      [.expression (.literal (.string "a")), .expression (.literal (.string "b"))]
      (some [.expression (.literal (.string "c"))])]
    (some [.expression (.literal (.string "d"))])]

/-- All four of its jumps lead forward, and it never runs through its whole code. -/
theorem loopFree_code_runs_forward_of_branches :
    nestedBranches.LoopFree ∧ ∃ chunk, nestedBranches.generate = .ok chunk ∧ chunk.code.size = 15 ∧
      chunk.code.toList.filterMap Instr.target? = [12, 9, 11, 14] ∧
      (∀ patience, 15 ≤ patience → ∃ outcome, (Vm.new (some 4)).run patience chunk = some outcome) ∧
      ∀ result last, ¬((Vm.new none).limited (some 15)).Exceeds chunk result last := by
  have loopFree : nestedBranches.LoopFree := by decide
  have generated : nestedBranches.generate =
      .ok ⟨#[.loadConst 0, .jumpIfFalse 12, .loadConst 1, .jumpIfFalse 9, .loadConst 2, .pop, .loadConst 3,
        .pop, .jump 11, .loadConst 4, .pop, .jump 14, .loadConst 5, .pop, .halt],
        #[.boolean true, .string "", .string "a", .string "b", .string "c", .string "d"]⟩ := by cbv
  refine ⟨loopFree, _, generated, rfl, by decide, ?_, ?_⟩
  · exact (Program.loopFree_code_runs_forward loopFree generated (Vm.new (some 4))).2.2.1
  · exact (Program.loopFree_code_runs_forward loopFree generated (Vm.new none)).2.2.2.2

end TinyScript
