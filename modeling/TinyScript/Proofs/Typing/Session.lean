import Mathlib
import TinyScript.Proofs.Typing.Machine

/-! # No handle dangles

An interpreter is `Reachable` if it comes out of a session with a fresh one: programs that have a value
or fail, and collections, in any order and at any time.  Between its programs and at every point of a run
all cells of all names are live bindings, and every handle of an array or object is that of a live one
(`handles_resolve`).

`cbv` evaluates the example at the end, by equations of library functions that are spread over Mathlib.
-/

namespace TinyScript

/-! ## Sessions -/

/-- What comes out of any session with the standard operations. -/
inductive Interpreter.Reachable : Interpreter → Prop where
  | new : Reachable .new
  /-- Time passes. -/
  | wait {i : Interpreter} (clock : Clock) : Reachable i →
      Reachable { i with world := { i.world with clock } }
  /-- A program runs, and has a value or fails. -/
  | run {i i' : Interpreter} {patience : Nat} {p : Program} {result : Except ExecutionError Value} :
      Reachable i → i.run patience p = some (result, i') → Reachable i'
  | collect {i : Interpreter} : Reachable i → Reachable i.collectGarbage.2

/-- A text that does not spell a program leaves the interpreter as it is. -/
theorem Interpreter.Reachable.eval {i i' : Interpreter} (reachable : i.Reachable) {patience : Nat}
    {source : String} {result : Except ScriptError Value}
    (evaluated : i.eval patience source = some (result, i')) : i'.Reachable := by
  rcases Interpreter.eval_cases evaluated with ⟨_, _, rfl⟩ | ⟨_, _, _, ran, _⟩
  · exact reachable
  · exact reachable.run ran

structure Interpreter.Typed (i : Interpreter) : Prop where
  table : i.table = .standard
  heap : i.world.heap.Typed
  global : i.global.Bound i.world.heap

theorem typed_bindLibraries (names : List String) (global : Scope) (world : World)
    (typed : world.heap.Typed) : (Interpreter.bindLibraries names global world).2.heap.Typed := by
  induction names generalizing global world with
  | nil => exact typed
  | cons name names ih =>
    rw [Interpreter.bindLibraries_cons]
    refine ih _ _ (typed.allocate fun v member => ?_)
    rw [List.mem_singleton.1 member]
    trivial

namespace Interpreter.Typed

variable {i i' : Interpreter}

theorem new : Interpreter.new.Typed where
  table := rfl
  heap := typed_bindLibraries BuiltinTable.standard.names .empty {} .empty
  global := bound_bindLibraries BuiltinTable.standard.names .empty {} Scope.bound_empty

theorem collectGarbage (typed : i.Typed) : i.collectGarbage.2.Typed :=
  ⟨typed.table, typed.heap.collect _, typed.global.collect⟩

/-- All along the run of a program the state is typed, and has the names of the interpreter. -/
theorem machine (typed : i.Typed) (p : Program) (n : Nat) :
    (Machine.run i.table n (i.start p)).Typed fun name => (i.global.get? name).isSome := by
  have fresh : Machine.Ready (fun name => (i.global.get? name).isSome)
      ⟨.give .undefined, [], none, i.depth, i.global, i.world⟩ :=
    ⟨typed.heap, by simp, by simp, typed.global, fun _ => id⟩
  rw [typed.table]
  exact (fresh.enter p).run n

theorem run (typed : i.Typed) {patience : Nat} {p : Program} {result : Except ExecutionError Value}
    (ran : i.run patience p = some (result, i')) : i'.Typed := by
  obtain ⟨m, reached, _, rfl⟩ := Interpreter.run_eq_some.1 ran
  have ended := typed.machine (Stmt.numberAll i.sites p).1 patience
  rw [reached] at ended
  exact ⟨typed.table, ended.heap, ended.global⟩

/-- A global name has a value, and no other name has one. -/
theorem global?_isSome (typed : i.Typed) (name : String) :
    (i.global? name).isSome = (i.global.get? name).isSome := by
  rw [Interpreter.global?, Scope.lookup?_eq]
  cases found : i.global.get? name with
  | none => rfl
  | some cell =>
    obtain ⟨value, here, _⟩ := typed.heap.cellValue? typed.global found
    rw [Option.bind_some, here, Option.isSome_some, Option.isSome_some]

end Interpreter.Typed

theorem Interpreter.Reachable.typed {i : Interpreter} (reachable : i.Reachable) : i.Typed := by
  induction reachable with
  | new => exact .new
  | wait clock _ ih => exact ⟨ih.table, ih.heap, ih.global⟩
  | run _ ran ih => exact ih.run ran
  | collect _ ih => exact ih.collectGarbage

/-! ## Handles -/

/-- Every cell of the scopes is that of a live binding, and every handle that a live object or one of
the values holds is that of a live array or record, as the value that holds it says. -/
structure HandlesResolve (h : Heap Object) (scopes : List Scope) (values : List Value) : Prop where
  cells : ∀ scope ∈ scopes, ∀ name cell, scope.get? name = some cell →
    ∃ value, h.get? cell = some (.binding value)
  stored : ∀ a o, h.get? a = some o → ∀ v ∈ o.values, v.Resolves h
  underWay : ∀ v ∈ values, v.Resolves h

theorem Interpreter.Typed.handlesResolve {i : Interpreter} (typed : i.Typed) :
    HandlesResolve i.world.heap [i.global] [] where
  cells scope member := by
    rw [List.mem_singleton.1 member]
    exact typed.global.live
  stored := typed.heap.values
  underWay := by simp

namespace Machine.Typed

variable {known : String → Prop} {m : Machine} {name : String}

theorem handlesResolve (typed : m.Typed known) : HandlesResolve m.world.heap m.scopes m.values :=
  ⟨fun scope member => (typed.scopes_bound scope member).live, typed.heap.values, typed.values_resolve⟩

/-- A name is not found only if no scope binds it. -/
theorem unbound_of_lookup? (typed : m.Typed known) (missing : m.lookup? name = none) :
    ∀ scope ∈ m.env, scope.get? name = none := by
  cases found : m.env.resolve? name with
  | none => exact List.findSome?_eq_none_iff.1 found
  | some cell =>
    obtain ⟨value, here, _⟩ := typed.heap.lookup? typed.env found
    rw [Machine.lookup?, here] at missing
    cases missing

theorem global_mem_env (m : Machine) : m.global ∈ m.env := by
  unfold Machine.env
  split <;> simp

/-- Of the global names of a state, none is lost from there on. -/
theorem knowing (typed : m.Typed known) : m.Typed fun name => (m.global.get? name).isSome where
  toReady := { typed.toReady with known := fun _ => id }
  handed := typed.handed
  unfreed := typed.unfreed

theorem lookup?_of_known (typed : m.Typed known) (name_known : known name) :
    (m.lookup? name).isSome := by
  rw [Option.isSome_iff_ne_none]
  intro missing
  have bound := typed.known name name_known
  rw [typed.unbound_of_lookup? missing _ (global_mem_env m)] at bound
  cases bound

end Machine.Typed

/-- No operation finds that an array has been freed, and no global name is lost. -/
theorem Interpreter.Typed.eval {i i' : Interpreter} (typed : i.Typed) {patience : Nat}
    {source : String} {outcome : Except ScriptError Value}
    (evaluated : i.eval patience source = some (outcome, i')) :
    (∀ name, outcome ≠ .error (.execution (.argument name .freedArray))) ∧
      ∀ name, (i.global? name).isSome → (i'.global? name).isSome := by
  rcases Interpreter.eval_cases evaluated with ⟨error, rfl, rfl⟩ | ⟨p, result, _, ran, rfl⟩
  · refine ⟨fun name eq => ?_, fun _ => id⟩
    cases error <;> cases eq
  · have typed' := typed.run ran
    obtain ⟨m, reached, halted, rfl⟩ := Interpreter.run_eq_some.1 ran
    have ended := typed.machine (Stmt.numberAll i.sites p).1 patience
    rw [reached] at ended
    refine ⟨fun name eq => ?_, fun name bound => ?_⟩
    · cases result with
      | ok value => cases eq
      | error error =>
        cases eq
        refine ended.unfreed (.argument name .freedArray) ?_ trivial
        rw [halted]
        rfl
    · rw [typed.global?_isSome] at bound
      rw [typed'.global?_isSome]
      exact ended.known name bound

/-- After any session and at every point of every run that follows, no handle dangles or is of the
wrong kind.  So no operation finds that an array has been freed, and names do not get lost: one that is
not found is bound in no scope, and global names stay bound. -/
theorem handles_resolve {i : Interpreter} (reachable : i.Reachable) :
    HandlesResolve i.world.heap [i.global] [] ∧
    (∀ p n m, Machine.run i.table n (i.start (Stmt.numberAll i.sites p).1) = m →
      HandlesResolve m.world.heap m.scopes m.values ∧
      (∀ name, m.lookup? name = none → ∀ scope ∈ m.env, scope.get? name = none) ∧
      ∀ name k, (m.global.get? name).isSome → ((m.run i.table k).lookup? name).isSome) ∧
    (∀ name, (i.global.get? name).isSome → (i.global? name).isSome) ∧
    (∀ patience source outcome i', i.eval patience source = some (outcome, i') →
      (∀ name, outcome ≠ .error (.execution (.argument name .freedArray))) ∧
      ∀ name, (i.global? name).isSome → (i'.global? name).isSome) ∧
    ∀ name, i.collectGarbage.2.global? name = i.global? name := by
  have typed := reachable.typed
  refine ⟨typed.handlesResolve, fun p n m reached => ?_, fun name bound => ?_,
    fun patience source outcome i' evaluated => typed.eval evaluated,
    fun name => typed.global.lookup?_collect name⟩
  · have typedM := typed.machine (Stmt.numberAll i.sites p).1 n
    rw [reached] at typedM
    refine ⟨typedM.handlesResolve, fun name => typedM.unbound_of_lookup?, fun name k bound => ?_⟩
    rw [typed.table]
    exact (typedM.knowing.run k).lookup?_of_known bound
  · rw [typed.global?_isSome]
    exact bound

set_option maxRecDepth 4000 in
/-- An array that holds itself survives a collection: there are four libraries, a cell and the array. -/
theorem handles_resolve_of_cycle : ∃ i : Interpreter,
    (Interpreter.new.eval 40 "let a = []; Array.push(a, a)").map (·.2.collectGarbage.2) = some i ∧
      i.Reachable ∧ i.liveObjects = 6 ∧ HandlesResolve i.world.heap [i.global] [] := by
  have ran : (Interpreter.new.eval 40 "let a = []; Array.push(a, a)").map
      (·.2.collectGarbage.2.liveObjects) = some 6 := by cbv
  obtain ⟨⟨outcome, i⟩, evaluated, live⟩ := Option.map_eq_some_iff.1 ran
  have reachable := (Interpreter.Reachable.new.eval evaluated).collect
  exact ⟨_, Option.map_eq_some_iff.2 ⟨_, evaluated, rfl⟩, reachable, live, (handles_resolve reachable).1⟩

end TinyScript
