import TinyScript.Proofs.Backend.Simulation

/-! # Sessions on both back ends

The evaluator and a stack machine that agree still agree after a portable program has had a value for
the evaluator, and the stack machine then has that value too (`InStep.run`).  So they agree all along a
session of such programs (`backends_agree`).
-/

namespace TinyScript

/-- What there is to compare after a session on both back ends: as long as every text so far has had a
value for the evaluator, the stack machine, given enough steps, comes to the end of its code, no name
but those of libraries has different values, and the value of the code is that of the text if the text
ends in an expression, and `undefined` if it does not. -/
def SessionsAgree : List Request → Interpreter → Vm → Prop
  | [], _, _ => True
  | .collect :: rest, i, vm => SessionsAgree rest i.collectGarbage.2 vm
  | .eval source :: rest, i, vm =>
    ∀ patience value i', i.eval patience source = some (.ok value, i') →
      ∃ p chunk result vm', parseProgram source = .ok p ∧ p.generate = .ok chunk ∧
        (∃ enough, ∀ steps, enough ≤ steps → vm.run steps chunk = some (.ok result, vm')) ∧
        (∀ name, name ∉ libraryNames → i'.global? name = (vm'.globals.get? name).map .scalar) ∧
        (if p.endsInExpression then value = .scalar result else result = .undefined) ∧
        SessionsAgree rest i' vm'

/-- An interpreter and a stack machine with the same operations and the same variables. -/
structure InStep (i : Interpreter) (vm : Vm) : Prop where
  table : i.table = .standard
  functions : vm.functions = HostFunction.standard
  unlimited : vm.stepLimit = none
  agrees : Agrees i.global i.world.heap vm.globals

/-! ## One program -/

section

variable {chunk : Chunk} {leaves : Bool} {m : Machine} {c d : Config} {value : Value}

/-- Where the stack machine is once the evaluator has a value. -/
theorem Simulates.result (related : Simulates chunk leaves m c)
    (halted : m.control = .halted (.ok value)) : chunk.code[c.index]? = some .halt ∧
      if leaves then value = .scalar c.result else c.result = .undefined := by
  obtain ⟨control, frames, _, depth, global, world⟩ := m
  obtain ⟨index, stack, vars, clock⟩ := c
  obtain ⟨_, _, point⟩ := related
  cases halted
  cases point with
  | kept keeps halt =>
    rw [if_pos keeps]
    exact ⟨halt, rfl⟩
  | empty keeps halt =>
    rw [keeps]
    exact ⟨halt, rfl⟩

/-- A run that reaches `halt` ends there. -/
theorem Vm.run_of_reaches {vm : Vm} (valid : chunk.validate = .ok ()) (unlimited : vm.stepLimit = none)
    (reaches : chunk.Reaches vm.functions vm.start d) (halt : chunk.code[d.index]? = some .halt) :
    ∃ enough, ∀ steps, enough ≤ steps → vm.run steps chunk = some (.ok d.result, vm.after d) := by
  obtain ⟨enough, finished⟩ := reaches.stops (Chunk.runFor_succ_halt halt)
  refine ⟨enough, fun steps more => ?_⟩
  simp only [Vm.run, valid, Vm.execute, unlimited, finished steps more]

end

namespace InStep

variable {i i' : Interpreter} {vm : Vm}

theorem new : InStep .new (.new none) := ⟨rfl, rfl, rfl, agrees_new⟩

theorem collectGarbage (inStep : InStep i vm) : InStep i.collectGarbage.2 vm :=
  ⟨inStep.table, inStep.functions, inStep.unlimited, inStep.agrees.collect⟩

theorem run (inStep : InStep i vm) {source : String} {p : Program} {chunk : Chunk} {patience : Nat}
    {value : Value} (parsed : parseProgram source = .ok p) (generated : p.generate = .ok chunk)
    (portable : p.Portable) (ran : i.run patience p = some (.ok value, i')) :
    ∃ result vm', (∃ enough, ∀ steps, enough ≤ steps → vm.run steps chunk = some (.ok result, vm')) ∧
      (if p.endsInExpression then value = .scalar result else result = .undefined) ∧
      InStep i' vm' := by
  have placed := p.generate_at parsed generated portable
  obtain ⟨m, reached, halted, rfl⟩ := Interpreter.run_eq_some.1 ran
  rw [placed.numberAll_eq, inStep.table] at reached
  have start : Simulates chunk p.endsInExpression (i.start p) vm.start :=
    simulates_enterProgram placed inStep.agrees
  rcases start.run patience with ⟨last, reaches, related⟩ | ⟨error, failed, _⟩
  · rw [reached] at related
    obtain ⟨halt, result⟩ := related.result halted
    rw [← inStep.functions] at reaches
    obtain ⟨_, _, _, _, valid⟩ := p.generate_code generated
    exact ⟨last.result, vm.after last, Vm.run_of_reaches valid inStep.unlimited reaches halt, result,
      inStep.table, inStep.functions, inStep.unlimited, related.agrees⟩
  · rw [reached] at failed
    cases failed.eq_of_halted halted

/-! ## Sessions -/

theorem sessionsAgree (inStep : InStep i vm) (session : List Request)
    (accepted : ∀ source, .eval source ∈ session → ∃ p chunk, parseProgram source = .ok p ∧
      p.generate = .ok chunk ∧ p.Portable) : SessionsAgree session i vm := by
  induction session generalizing i vm with
  | nil => trivial
  | cons request rest ih =>
    have later (source : String) (member : .eval source ∈ rest) := accepted source (.tail _ member)
    cases request with
    | collect => exact ih inStep.collectGarbage later
    | eval source =>
      intro patience value i' evaluated
      obtain ⟨p, chunk, parsed, generated, portable⟩ := accepted source (.head _)
      obtain ⟨p', parsed', ran⟩ := Interpreter.eval_eq_ok.1 evaluated
      cases parsed.symm.trans parsed'
      obtain ⟨result, vm', runs, same, next⟩ := inStep.run parsed generated portable ran
      exact ⟨p, chunk, result, vm', parsed, generated, runs, next.agrees.other, same, ih next later⟩

end InStep

/-- The back ends agree all along a session of portable programs that stack code can express. -/
theorem backends_agree (session : List Request)
    (accepted : ∀ source, .eval source ∈ session → ∃ p chunk, parseProgram source = .ok p ∧
      p.generate = .ok chunk ∧ p.Portable) :
    SessionsAgree session .new (.new none) :=
  InStep.new.sessionsAgree session accepted

set_option maxRecDepth 4000 in
/-- A loop that ends when its test is no longer true. -/
theorem backends_agree_on_loop : ∃ (p : Program) (chunk : Chunk) (vm : Vm) (enough : Nat),
    parseProgram "let x = true; while (x) { x = false; } x" = .ok p ∧ p.generate = .ok chunk ∧
      ∀ steps, enough ≤ steps → (Vm.new none).run steps chunk = some (.ok (.boolean false), vm) := by
  have parsed : parseProgram "let x = true; while (x) { x = false; } x" =
      .ok [.declare .letD "x" (.literal (.boolean true)),
        .whileLoop (.identifier "x") [.expression (.assign .assign "x" (.literal (.boolean false)))],
        .expression (.identifier "x")] := by cbv
  have generated : Program.generate [.declare .letD "x" (.literal (.boolean true)),
        .whileLoop (.identifier "x") [.expression (.assign .assign "x" (.literal (.boolean false)))],
        .expression (.identifier "x")] =
      .ok ⟨#[.loadConst 0, .storeVar "x", .loadVar "x", .jumpIfFalse 9, .loadConst 1, .dup,
        .storeVar "x", .pop, .jump 2, .loadVar "x", .halt], #[.boolean true, .boolean false]⟩ := by cbv
  have ran : (Interpreter.new.eval 20 "let x = true; while (x) { x = false; } x").map (·.1) =
      some (.ok (.boolean false)) := by cbv
  obtain ⟨⟨_, i⟩, evaluated, rfl⟩ := Option.map_eq_some_iff.1 ran
  have agree := backends_agree [.eval "let x = true; while (x) { x = false; } x", .collect] (by
    intro source member
    cases (by simpa using member : source = "let x = true; while (x) { x = false; } x")
    refine ⟨_, _, parsed, generated, ?_⟩
    simp [Program.Portable, Program.nodes, Stmt.nodesAll, Stmt.nodes, Expr.nodes, Node.Portable,
      libraryNames])
  obtain ⟨p, chunk, result, vm, parsed', generated', ⟨enough, runs⟩, _, same, _⟩ :=
    agree 20 _ i evaluated
  cases parsed.symm.trans parsed'
  cases same
  exact ⟨_, chunk, vm, enough, parsed, generated', runs⟩

end TinyScript
