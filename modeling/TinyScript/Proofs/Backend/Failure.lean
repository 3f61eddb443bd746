import TinyScript.Proofs.Backend.Agreement
import TinyScript.Proofs.Typing.Session

/-! # Failures on both back ends

A portable program that fails for the evaluator, with operands or an argument of the wrong kind, fails
for a stack machine in the same way, and both have made the same assignments before
(`backends_fail_alike`).
-/

namespace TinyScript

variable {chunk : Chunk} {vm : Vm} {error : ExecutionError}

/-- A run that reaches an instruction that fails ends there. -/
theorem Vm.run_of_fails {d : Config} {i : Instr} (valid : chunk.validate = .ok ())
    (unlimited : vm.stepLimit = none) (reaches : chunk.Reaches vm.functions vm.start d)
    (found : chunk.code[d.index]? = some i)
    (failed : d.dispatch vm.functions chunk.constants i = .error error) :
    ∃ enough, ∀ steps, enough ≤ steps → vm.run steps chunk =
      some (.error error, vm.after (d.abandon vm.functions i)) := by
  obtain ⟨enough, ended⟩ := reaches.stops (Chunk.runFor_succ_error found failed)
  refine ⟨enough, fun steps more => ?_⟩
  simp only [Vm.run, valid, Vm.execute, unlimited, ended steps more]

/-- A state that has failed is related to none of stack code. -/
theorem Simulates.not_failed {leaves : Bool} {m : Machine} {c : Config}
    (related : Simulates chunk leaves m c) : m.control ≠ .halted (.error error) := by
  obtain ⟨control, frames, locals, depth, global, world⟩ := m
  intro failed
  cases failed
  cases related.point

namespace InStep

variable {i i' : Interpreter}

/-- Unless a name is at fault, the stack machine fails as the evaluator does. -/
theorem fail (inStep : InStep i vm) {source : String} {p : Program} {patience : Nat}
    (parsed : parseProgram source = .ok p) (generated : p.generate = .ok chunk) (portable : p.Portable)
    (ran : i.run patience p = some (.error error, i')) (kind : ¬error.IsOfNames) :
    ∃ vm', (∃ enough, ∀ steps, enough ≤ steps → vm.run steps chunk = some (.error error, vm')) ∧
      InStep i' vm' := by
  have placed := p.generate_at parsed generated portable
  obtain ⟨m, reached, halted, rfl⟩ := Interpreter.run_eq_some.1 ran
  rw [placed.numberAll_eq, inStep.table] at reached
  have start : Simulates chunk p.endsInExpression (i.start p) vm.start :=
    simulates_enterProgram placed inStep.agrees
  rcases start.run patience with ⟨last, _, related⟩ | ⟨error', failed, why⟩
  · rw [reached] at related
    exact absurd halted related.not_failed
  · rw [reached] at failed why
    cases failed.eq_of_halted halted
    rcases why with names | ⟨d, instr, reaches, found, dispatched, agrees⟩
    · exact absurd names kind
    · rw [← inStep.functions] at reaches dispatched
      obtain ⟨_, _, _, _, valid⟩ := p.generate_code generated
      rw [← d.abandon_globals vm.functions instr] at agrees
      exact ⟨_, Vm.run_of_fails valid inStep.unlimited reaches found dispatched, inStep.table,
        inStep.functions, inStep.unlimited, agrees⟩

end InStep

/-- If the back ends agree before a portable program, and the evaluator fails because operands or an
argument are of the wrong kind, then the stack machine fails with the same error, and they agree
again. -/
theorem backends_fail_alike {i i' : Interpreter} (reachable : i.Reachable)
    (functions : vm.functions = HostFunction.standard) (unlimited : vm.stepLimit = none)
    (libraries : ∀ name ∈ libraryNames, i.global? name = some (.library name))
    (others : ∀ name, name ∉ libraryNames → i.global? name = (vm.globals.get? name).map .scalar)
    {source : String} {p : Program} (parsed : parseProgram source = .ok p)
    (generated : p.generate = .ok chunk) (portable : p.Portable) {patience : Nat}
    (ran : i.run patience p = some (.error error, i'))
    (kind : (∃ operator left right, error = .typeMismatch operator left right) ∨
      ∃ function fault, error = .argument function fault) :
    ∃ vm', (∃ enough, ∀ steps, enough ≤ steps → vm.run steps chunk = some (.error error, vm')) ∧
      ∀ name, name ∉ libraryNames → i'.global? name = (vm'.globals.get? name).map .scalar := by
  have inStep : InStep i vm :=
    ⟨reachable.typed.table, functions, unlimited, reachable.typed.global, libraries, others⟩
  have notOfNames : ¬error.IsOfNames := by
    rcases kind with ⟨operator, left, right, rfl⟩ | ⟨function, fault, rfl⟩ <;> exact id
  obtain ⟨vm', fails, after⟩ := inStep.fail parsed generated portable ran notOfNames
  exact ⟨vm', fails, after.agrees.other⟩

set_option maxRecDepth 4000 in
/-- A string is no argument for a function of numbers; its name is bound by then. -/
theorem backends_fail_alike_on_string : ∃ (p : Program) (chunk : Chunk) (vm : Vm) (enough : Nat),
    parseProgram "let x = 'a'; x = Math.abs(x)" = .ok p ∧ p.generate = .ok chunk ∧
      (∀ steps, enough ≤ steps → (Vm.new none).run steps chunk =
        some (.error (.argument "Math.abs" (.wrongKind 0 .number .string)), vm)) ∧
      vm.globals.get? "x" = some (.string "a") := by
  have parsed : parseProgram "let x = 'a'; x = Math.abs(x)" =
      .ok [.declare .letD "x" (.literal (.string "a")),
        .expression (.assign .assign "x" (.call (.method "Math" "abs") [.identifier "x"]))] := by cbv
  have generated : Program.generate [.declare .letD "x" (.literal (.string "a")),
        .expression (.assign .assign "x" (.call (.method "Math" "abs") [.identifier "x"]))] =
      .ok ⟨#[.loadConst 0, .storeVar "x", .loadVar "x", .call "Math.abs" 1, .dup, .storeVar "x",
        .halt], #[.string "a"]⟩ := by cbv
  have portable : Program.Portable [.declare .letD "x" (.literal (.string "a")),
        .expression (.assign .assign "x" (.call (.method "Math" "abs") [.identifier "x"]))] := by
    have math : CallsMath "Math" "abs" 1 := ⟨rfl, _, rfl, rfl⟩
    simp [Program.Portable, Program.nodes, Stmt.nodesAll, Stmt.nodes, Expr.nodes, Expr.nodesAll,
      Callee.nodes, Node.Portable, math, libraryNames]
  have ran : (Interpreter.new.run 20 [.declare .letD "x" (.literal (.string "a")),
        .expression (.assign .assign "x" (.call (.method "Math" "abs") [.identifier "x"]))]).map
      (fun outcome => (outcome.1, outcome.2.global? "x")) =
      some (.error (.argument "Math.abs" (.wrongKind 0 .number .string)), some (.string "a")) := by cbv
  obtain ⟨⟨_, i⟩, ran, both⟩ := Option.map_eq_some_iff.1 ran
  obtain ⟨rfl, here⟩ := Prod.mk.inj both
  have others : ∀ name, name ∉ libraryNames →
      Interpreter.new.global? name = ((Vm.new none).globals.get? name).map .scalar := agrees_new.other
  obtain ⟨vm, ⟨enough, fails⟩, same⟩ := backends_fail_alike .new rfl rfl agrees_new.library others
    parsed generated portable ran (.inr ⟨_, _, rfl⟩)
  refine ⟨_, _, vm, enough, parsed, generated, fails, ?_⟩
  obtain ⟨x, found, eq⟩ := Option.map_eq_some_iff.1 ((same "x" (by decide)).symm.trans here)
  cases eq
  exact found

end TinyScript
