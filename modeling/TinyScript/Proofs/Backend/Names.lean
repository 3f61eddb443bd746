import TinyScript.Proofs.Backend.Failure
import TinyScript.Proofs.Bytecode.Splitting
import TinyScript.Proofs.Evaluator.Variables

/-! # Names that are not bound

The evaluator fails when a name is read or assigned that is not bound.  A stack machine fails in the same way
at the instruction that reads a name, but an assignment is to it what a declaration is: both store the value,
and the name is bound from then on.  So a program without calls that fails for the want of a name fails on both
back ends if it reads the name, and only for the evaluator if it stores a value under it
(`backends_on_missing_name`).
-/

namespace TinyScript

variable {chunk : Chunk} {leaves : Bool} {m : Machine} {c : Config} {name : String}

/-! ## The code of what fails -/

/-- No statement ends where an assignment waits for a value. -/
theorem GoesOn.not_assign {frames : List Frame} {index : Nat} (goes : GoesOn chunk leaves frames index)
    {combine : Option (BinaryOp × Value)} {rest : List Frame} : frames ≠ .assign name combine :: rest := by
  induction goes with
  | jump _ _ ih => exact ih
  | _ => simp

theorem Simulates.unbound (related : Simulates chunk leaves m c) (free : name ∉ libraryNames)
    (unbound : m.lookup? name = none) : c.globals.get? name = none := by
  obtain ⟨control, frames, _, depth, global, world⟩ := m
  obtain ⟨rfl, agrees, _⟩ := related
  have same := (agrees.other name free).symm.trans unbound
  simpa using same

/-- Where the evaluator reads a name, the stack machine loads it. -/
theorem Simulates.reads (related : Simulates chunk leaves m c)
    (control : m.control = .eval (.identifier name) ∨
      ∃ op combine value, AssignOp.binary? op = some combine ∧ m.control = .eval (.assign op name value)) :
    chunk.code[c.index]? = some (.loadVar name) := by
  obtain ⟨_, frames, _, depth, global, world⟩ := m
  obtain ⟨_, _, point⟩ := related
  rcases control with rfl | ⟨op, combine, value, combined, rfl⟩
  · cases point with
    | eval placed =>
      cases placed with
      | identifier _ load => exact load
  · cases point with
    | eval placed =>
      cases placed with
      | assign plain => cases combined.symm.trans plain
      | compound _ _ load => exact load

/-- Where the evaluator stores a value, the stack machine does, and keeps a copy. -/
theorem Simulates.stores (related : Simulates chunk leaves m c) {value : Scalar} {waiting : List Frame}
    (control : m.control = .give (.scalar value)) (frames : m.frames = .assign name none :: waiting)
    (functions : NameMap HostFunction) :
    chunk.Reaches functions c
      { c with index := c.index + 2, globals := c.globals.insert name value } := by
  obtain ⟨_, _, _, depth, global, world⟩ := m
  obtain ⟨index, stack, vars, clock⟩ := c
  obtain ⟨_, _, point⟩ := related
  cases control
  cases frames
  cases point with
  | ended goes => exact absurd rfl goes.not_assign
  | value takes =>
    cases takes with
    | drop _ goes => exact absurd rfl goes.not_assign
    | assign _ dup store _ => exact .step dup rfl (.one store rfl)

/-! ## Runs -/

/-- A run of a program without calls has another one beside it that the stack machine follows, if the back ends
agree on all names but those of the libraries: the one that has the libraries under their names. -/
theorem exists_follower {i : Interpreter} {vm : Vm} (typed : i.Typed)
    (others : ∀ name, name ∉ libraryNames → i.global? name = (vm.globals.get? name).map .scalar)
    {source : String} {p : Program} (parsed : parseProgram source = .ok p)
    (generated : p.generate = .ok chunk) (portable : p.Portable)
    (callFree : ∀ n ∈ p.nodes, n.CallFree) :
    ∃ m, Beside (i.start p) m ∧ Simulates chunk p.endsInExpression m vm.start := by
  have placed := p.generate_at parsed generated portable
  have simple : Block.Simple p := by
    refine Stmt.all_nodesAll.1 fun n member => ⟨?_, portable n member, callFree n member⟩
    rcases p.generate_cases with ⟨code, _⟩ | ⟨_, _, failed⟩
    · exact code n member
    · cases generated.symm.trans failed
  generalize libraries : Interpreter.bindLibraries libraryNames i.global i.world = both
  obtain ⟨global, world⟩ := both
  have bound : global.Bound world.heap := by
    have bound := bound_bindLibraries libraryNames i.global i.world typed.global
    rwa [libraries] at bound
  have found := lookup?_bindLibraries libraryNames i.global i.world typed.global
  simp only [libraries] at found
  -- Binding the libraries changes nothing but their own names.
  have same : SameVariables i.global i.world.heap global world.heap := by
    refine ⟨typed.global, bound, fun name free => (found name).trans (if_neg free), ?_⟩
    intro name free v here
    obtain ⟨a, _, rfl⟩ := Option.map_eq_some_iff.1 ((others name free).symm.trans here)
    exact ⟨a, rfl⟩
  have agrees : Agrees global world.heap vm.globals := by
    refine ⟨bound, fun name library => (found name).trans (if_pos library), fun name free => ?_⟩
    exact (same.same name free).trans (others name free)
  exact ⟨Machine.enter ⟨.give .undefined, [], none, i.depth, global, world⟩ p, .enter same (by simp) simple,
    simulates_enterProgram placed agrees⟩

/-- If the back ends agree on all names but those of the libraries, and the evaluator fails with a program
without calls because a name is not bound, then it fails either where it reads the name, and so does the stack
machine, or where it stores a value under the name, and there the stack machine binds the name and goes on.
In both cases they have made the same assignments before. -/
theorem backends_on_missing_name {i i' : Interpreter} {vm : Vm} {chunk : Chunk} (reachable : i.Reachable)
    (unlimited : vm.stepLimit = none)
    (others : ∀ name, name ∉ libraryNames → i.global? name = (vm.globals.get? name).map .scalar)
    {source : String} {p : Program} (parsed : parseProgram source = .ok p)
    (generated : p.generate = .ok chunk) (portable : p.Portable) (callFree : ∀ n ∈ p.nodes, n.CallFree)
    {patience : Nat} {name : String}
    (ran : i.run patience p = some (.error (.undefinedIdentifier name), i')) :
    ∃ k c, chunk.Reaches vm.functions vm.start c ∧ c.globals.get? name = none ∧
      (∀ other, other ∉ libraryNames → i'.global? other = (c.globals.get? other).map .scalar) ∧
      ((Machine.run i.table k (i.start p)).Reads name ∧
          (∃ enough, ∀ steps, enough ≤ steps →
            vm.run steps chunk = some (.error (.undefinedIdentifier name), vm.after c)) ∨
        ∃ value, (Machine.run i.table k (i.start p)).Stores name value ∧
          chunk.Reaches vm.functions c
            { c with index := c.index + 2, globals := c.globals.insert name value }) := by
  have typed := reachable.typed
  have placed := p.generate_at parsed generated portable
  obtain ⟨m', beside, start⟩ := exists_follower typed others parsed generated portable callFree
  obtain ⟨m, reached, halted, rfl⟩ := Interpreter.run_eq_some.1 ran
  rw [placed.numberAll_eq, typed.table] at reached
  rw [typed.table]
  rw [← reached] at halted
  obtain ⟨k, later, running, sameGlobal, sameWorld, misses⟩ := beside.run_error halted
  have misses := misses name rfl
  obtain ⟨free, unbound⟩ := later.misses misses
  rcases start.run k with ⟨c, reaches, related⟩ | ⟨error, failed, _⟩
  · have reaches := (Program.callFree generated callFree).reaches vm.functions reaches
    have missing := related.unbound free unbound
    refine ⟨k, c, reaches, missing, fun other free => ?_, ?_⟩
    · rw [reached] at sameGlobal sameWorld
      rw [Interpreter.global?, sameGlobal, sameWorld]
      exact (later.sameVariables.same other free).symm.trans (related.agrees.other other free)
    · rcases misses with reads | ⟨value, stores⟩
      · have load := related.reads (later.control_eq ▸ reads.control)
        have failed : c.dispatch vm.functions chunk.constants (.loadVar name) =
            .error (.undefinedIdentifier name) := by simp only [Config.dispatch, missing]
        obtain ⟨_, _, _, _, valid⟩ := p.generate_code generated
        exact .inl ⟨reads, Vm.run_of_fails valid unlimited reaches load failed⟩
      · obtain ⟨waiting, frames⟩ := stores.frames
        exact .inr ⟨value, stores, related.stores (later.control_eq.trans stores.control)
          (later.frames_eq.trans frames) vm.functions⟩
  · exact absurd failed (later.not_leaves error)

set_option maxRecDepth 4000 in
/-- An assignment to a name that has not been declared has a value for the stack machine, and no other. -/
theorem backends_on_missing_name_at_store : ∃ (p : Program) (chunk : Chunk) (i : Interpreter) (vm : Vm),
    parseProgram "x = true;" = .ok p ∧ p.generate = .ok chunk ∧
      Interpreter.new.run 5 p = some (.error (.undefinedIdentifier "x"), i) ∧
      (Vm.new none).run 4 chunk = some (.ok (.boolean true), vm) ∧
      ∃ k value, (Machine.run Interpreter.new.table k (Interpreter.new.start p)).Stores "x" value := by
  have parsed : parseProgram "x = true;" =
      .ok [.expression (.assign .assign "x" (.literal (.boolean true)))] := by cbv
  have generated : Program.generate [.expression (.assign .assign "x" (.literal (.boolean true)))] =
      .ok ⟨#[.loadConst 0, .dup, .storeVar "x", .halt], #[.boolean true]⟩ := by cbv
  have portable : Program.Portable [.expression (.assign .assign "x" (.literal (.boolean true)))] := by
    simp [Program.Portable, Program.nodes, Stmt.nodesAll, Stmt.nodes, Expr.nodes, Node.Portable,
      libraryNames]
  have callFree : ∀ n ∈ Program.nodes [.expression (.assign .assign "x" (.literal (.boolean true)))],
      n.CallFree := by
    simp [Program.nodes, Stmt.nodesAll, Stmt.nodes, Expr.nodes, Node.CallFree]
  have failed : (Interpreter.new.run 5
      [.expression (.assign .assign "x" (.literal (.boolean true)))]).map (·.1) =
        some (.error (.undefinedIdentifier "x")) := by cbv
  obtain ⟨⟨_, i⟩, ran, rfl⟩ := Option.map_eq_some_iff.1 failed
  have ends : ((Vm.new none).run 4 ⟨#[.loadConst 0, .dup, .storeVar "x", .halt], #[.boolean true]⟩).map
      (·.1) = some (.ok (.boolean true)) := by cbv
  obtain ⟨⟨_, vm⟩, ends, rfl⟩ := Option.map_eq_some_iff.1 ends
  have unlimited : (Vm.new none).stepLimit = none := rfl
  obtain ⟨k, _, _, _, _, ⟨_, enough, fails⟩ | ⟨value, stores, _⟩⟩ :=
    backends_on_missing_name .new unlimited agrees_new.other parsed generated portable callFree ran
  · have later := Vm.run_mono ends (Nat.le_max_left 4 enough)
    cases later.symm.trans (fails _ (Nat.le_max_right 4 enough))
  · exact ⟨_, _, i, vm, parsed, generated, ran, ends, k, value, stores⟩

end TinyScript
