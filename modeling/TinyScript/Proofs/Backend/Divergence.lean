import TinyScript.Proofs.Backend.Agreement
import TinyScript.Proofs.Typing.Session

/-! # Runs without an end on both back ends

If the evaluator never comes to an end with a portable program, neither does a stack machine: it uses up
every number of steps that it is given (`backends_diverge_alike`).

That the states of both stay related is not enough for this, since the evaluator could go on forever
while the stack machine stands still.  It cannot: between two moves of the stack machine the evaluator
takes finitely many steps (`Simulates.moves`), and every move costs an instruction
(`Chunk.Moves.runFor_cases`).
-/

namespace TinyScript

/-- If the evaluator never halts, the stack machine uses up any number of steps. -/
theorem Simulates.cut {chunk : Chunk} {leaves : Bool} {m : Machine} {c : Config}
    (related : Simulates chunk leaves m c) (forever : ∀ n, (m.run .standard n).result? = none)
    (steps : Nat) : ∃ last, chunk.runFor HostFunction.standard steps c = .cut last := by
  -- A move may cost many instructions, so the induction is a strong one.
  induction steps using Nat.strongRecOn generalizing m c with
  | ind steps ih =>
    obtain ⟨k, d, moves, next⟩ := related.moves forever
    rcases moves.runFor_cases steps with cut | ⟨left, fewer, same⟩
    · exact cut
    · rw [same]
      refine ih left fewer next fun n => ?_
      rw [← Machine.run_add]
      exact forever (k + n)

/-! ## Whole runs -/

namespace Vm

variable {vm : Vm} {chunk : Chunk}

/-- A run that does not end within its limit fails for that reason. -/
theorem run_of_cut {limit patience : Nat} (valid : chunk.validate = .ok ())
    (cut : ∃ last, chunk.runFor vm.functions limit vm.start = .cut last) (enough : limit ≤ patience) :
    ∃ vm', { vm with stepLimit := some limit }.run patience chunk =
      some (.error (.stepLimitExceeded limit), vm') := by
  obtain ⟨last, cut⟩ := cut
  refine ⟨{ vm with stepLimit := some limit }.after last, ?_⟩
  have steps : min limit patience = limit := Nat.min_eq_left enough
  have cut' : chunk.runFor { vm with stepLimit := some limit }.functions limit
      { vm with stepLimit := some limit }.start = .cut last := cut
  simp only [Vm.run, valid, Vm.execute, steps, cut', if_pos enough]

theorem run_unlimited_of_cut {patience : Nat} (valid : chunk.validate = .ok ())
    (cut : ∃ last, chunk.runFor vm.functions patience vm.start = .cut last) :
    { vm with stepLimit := none }.run patience chunk = none := by
  obtain ⟨last, cut⟩ := cut
  have cut' : chunk.runFor { vm with stepLimit := none }.functions patience
      { vm with stepLimit := none }.start = .cut last := cut
  simp only [Vm.run, valid, Vm.execute, cut']

end Vm

/-- If the back ends agree before a portable program, and the evaluator never comes to a value or an
error, then the stack machine exceeds every step limit, and never ends if it has none. -/
theorem backends_diverge_alike {i : Interpreter} {vm : Vm} {chunk : Chunk} (reachable : i.Reachable)
    (functions : vm.functions = HostFunction.standard)
    (libraries : ∀ name ∈ libraryNames, i.global? name = some (.library name))
    (others : ∀ name, name ∉ libraryNames → i.global? name = (vm.globals.get? name).map .scalar)
    {source : String} {p : Program} (parsed : parseProgram source = .ok p)
    (generated : p.generate = .ok chunk) (portable : p.Portable)
    (forever : ∀ patience, i.run patience p = none) :
    (∀ limit patience, limit ≤ patience → ∃ vm', { vm with stepLimit := some limit }.run patience chunk =
      some (.error (.stepLimitExceeded limit), vm')) ∧
    ∀ patience, { vm with stepLimit := none }.run patience chunk = none := by
  have typed := reachable.typed
  have placed := p.generate_at parsed generated portable
  have start : Simulates chunk p.endsInExpression (i.start p) vm.start :=
    simulates_enterProgram placed ⟨typed.global, libraries, others⟩
  have running (n : Nat) : ((i.start p).run .standard n).result? = none := by
    have unfinished := Interpreter.run_eq_none.1 (forever n)
    rwa [placed.numberAll_eq, typed.table] at unfinished
  have cut (steps : Nat) : ∃ last, chunk.runFor vm.functions steps vm.start = .cut last := by
    rw [functions]
    exact start.cut running steps
  obtain ⟨_, _, _, _, valid⟩ := p.generate_code generated
  exact ⟨fun limit patience enough => Vm.run_of_cut valid (cut limit) enough,
    fun patience => Vm.run_unlimited_of_cut valid (cut patience)⟩

set_option maxRecDepth 4000 in
/-- A loop with no clauses and no body: all that is left of it is a jump to itself. -/
theorem backends_diverge_alike_on_empty_loop : ∃ (p : Program) (chunk : Chunk),
    parseProgram "for (;;) \x7b\x7d" = .ok p ∧ p.generate = .ok chunk ∧
      (∀ patience, Interpreter.new.run patience p = none) ∧
      ∀ limit, ∃ vm, (Vm.new (some limit)).run limit chunk =
        some (.error (.stepLimitExceeded limit), vm) := by
  have parsed : parseProgram "for (;;) \x7b\x7d" = .ok [.forLoop none none none []] := by cbv
  have generated : Program.generate [.forLoop none none none []] = .ok ⟨#[.jump 0, .halt], #[]⟩ := by cbv
  have portable : Program.Portable [.forLoop none none none []] := by
    simp [Program.Portable, Program.nodes, Stmt.nodesAll, Stmt.nodes, Stmt.nodesOfClause,
      Expr.nodesOfClause, Node.Portable]
  have repeats (n : Nat) (global : Scope) (world : World) :
      (Machine.run .standard n
        ⟨.give .undefined, [.forBody ⟨none, none, []⟩], none, 0, global, world⟩).result? = none := by
    induction n with
    | zero => rfl
    | succ n ih => exact ih
  have forever (patience : Nat) :
      Interpreter.new.run patience [.forLoop none none none []] = none := by
    rw [Interpreter.run_eq_none]
    cases patience with
    | zero => rfl
    | succ n => exact repeats n _ _
  have functions : (Vm.new none).functions = HostFunction.standard := rfl
  have agree := backends_diverge_alike .new functions agrees_new.library agrees_new.other parsed
    generated portable forever
  exact ⟨_, _, parsed, generated, forever, fun limit => agree.1 limit limit (Nat.le_refl limit)⟩

end TinyScript
