import TinyScript.Interpreter
import TinyScript.Proofs.Scope

/-! # Runs of the evaluator

A machine that has halted stays as it is, and any other takes its steps one after the other.  What every
step either continues or ends goes on until it is over (`Machine.run_until`).  A program has run to its end
if its machine has halted (`Interpreter.run_eq_some`).

A session with an interpreter is a list of `Request`s.
-/

namespace TinyScript

variable {table : BuiltinTable} {m : Machine} {result : Except ExecutionError Value}

namespace Machine

theorem result?_eq_some : m.result? = some result ↔ m.control = .halted result := by
  obtain ⟨control, frames, locals, depth, global, world⟩ := m
  cases control <;> simp [result?]

theorem run_of_halted (halted : m.control = .halted result) (n : Nat) : m.run table n = m := by
  cases n with
  | zero => rfl
  | succ n => rw [Machine.run, halted]

theorem run_succ (running : m.result? = none) (n : Nat) :
    m.run table (n + 1) = (m.step table).run table n := by
  rw [Machine.run]
  split
  · next halted =>
    rw [result?_eq_some.2 halted] at running
    cases running
  · rfl

/-- A run goes on from where a shorter one has come to. -/
theorem run_add (m : Machine) (k n : Nat) : m.run table (k + n) = (m.run table k).run table n := by
  induction k generalizing m with
  | zero => rw [Nat.zero_add, Machine.run]
  | succ k ih =>
    cases halted : m.result? with
    | some result =>
      have stays := result?_eq_some.1 halted
      rw [run_of_halted stays, run_of_halted stays, run_of_halted stays]
    | none => rw [Nat.add_right_comm, run_succ halted, run_succ halted, ih]

/-- A longer run takes one more step, which does nothing if there is nothing left to do. -/
theorem run_succ_eq_step (table : BuiltinTable) (m : Machine) (n : Nat) :
    m.run table (n + 1) = (m.run table n).step table := by
  rw [run_add]
  cases ended : (m.run table n).result? with
  | none => rw [run_succ ended, Machine.run]
  | some result =>
    have halted := result?_eq_some.1 ended
    rw [run_of_halted halted, Machine.step, halted]

/-- What goes on until it is over does so all along, or comes to its end after some steps. -/
theorem run_until {P Q : Machine → Prop} (start : P m ∨ Q m)
    (step : ∀ k, P (m.run table k) → P ((m.run table k).step table) ∨ Q ((m.run table k).step table))
    (n : Nat) :
    (∀ k ≤ n, P (m.run table k)) ∨ ∃ k ≤ n, (∀ j < k, P (m.run table j)) ∧ Q (m.run table k) := by
  induction n with
  | zero =>
    cases start with
    | inl goes =>
      left
      intro k first
      rw [Nat.le_zero.1 first]
      exact goes
    | inr ended => exact .inr ⟨0, Nat.le_refl _, fun j early => absurd early (Nat.not_lt_zero j), ended⟩
  | succ n ih =>
    cases ih with
    | inr ended =>
      obtain ⟨k, early, ended⟩ := ended
      exact .inr ⟨k, Nat.le_succ_of_le early, ended⟩
    | inl goes =>
      have further := step n (goes n (Nat.le_refl n))
      rw [← run_succ_eq_step] at further
      cases further with
      | inl still =>
        left
        intro k early
        cases Nat.le_succ_iff.1 early with
        | inl before => exact goes k before
        | inr last => exact last ▸ still
      | inr ended =>
        exact .inr ⟨n + 1, Nat.le_refl _, fun j early => goes j (Nat.le_of_lt_succ early), ended⟩

/-! ## Errors on their way out -/

/-- An error is on its way out, or has come out. -/
def Leaves (m : Machine) (error : ExecutionError) : Prop :=
  m.control = .raise error ∨ m.control = .halted (.error error)

theorem step_raise (table : BuiltinTable) {error : ExecutionError} {frame : Frame} {frames : List Frame}
    (raising : m.control = .raise error) (top : m.frames = frame :: frames) :
    m.step table = { m with frames }.abandon frame := by
  rw [Machine.step, raising]
  simp only [top]

theorem step_raise_nil (table : BuiltinTable) {error : ExecutionError} (raising : m.control = .raise error)
    (empty : m.frames = []) : m.step table = { m with control := .halted (.error error) } := by
  rw [Machine.step, raising]
  simp only [empty]

theorem abandon_control (m : Machine) (frame : Frame) : (m.abandon frame).control = m.control := by
  cases frame <;> rfl

theorem abandon_frames (m : Machine) (frame : Frame) : (m.abandon frame).frames = m.frames := by
  cases frame <;> rfl

theorem abandon_outer (m : Machine) (frame : Frame) :
    (m.abandon frame).global = m.global ∧ (m.abandon frame).world = m.world := by
  cases frame <;> exact ⟨rfl, rfl⟩

/-- It comes out through all frames, and touches neither the global scope nor the world. -/
theorem Leaves.step {error : ExecutionError} (leaves : m.Leaves error) (table : BuiltinTable) :
    (m.step table).Leaves error ∧ (m.step table).global = m.global ∧ (m.step table).world = m.world := by
  cases leaves with
  | inl raising =>
    cases frames : m.frames with
    | nil =>
      rw [step_raise_nil table raising frames]
      exact ⟨.inr rfl, rfl, rfl⟩
    | cons frame rest =>
      rw [step_raise table raising frames]
      exact ⟨.inl ((abandon_control _ frame).trans raising), abandon_outer _ frame⟩
  | inr halted =>
    have stays : m.step table = m := by rw [Machine.step, halted]
    rw [stays]
    exact ⟨.inr halted, rfl, rfl⟩

theorem Leaves.run {error : ExecutionError} (leaves : m.Leaves error) (table : BuiltinTable) (n : Nat) :
    (m.run table n).Leaves error ∧ (m.run table n).global = m.global ∧
      (m.run table n).world = m.world := by
  induction n with
  | zero => exact ⟨leaves, rfl, rfl⟩
  | succ n ih =>
    rw [run_succ_eq_step]
    obtain ⟨further, global, world⟩ := ih.1.step table
    exact ⟨further, global.trans ih.2.1, world.trans ih.2.2⟩

/-- A run that has ended while an error was on its way out has ended with this error. -/
theorem Leaves.eq_of_halted {error : ExecutionError} (leaves : m.Leaves error)
    (halted : m.control = .halted result) : result = .error error := by
  cases leaves with
  | inl raising => cases raising.symm.trans halted
  | inr other =>
    cases other.symm.trans halted
    rfl

theorem Leaves.exists_halted {error : ExecutionError} (leaves : m.Leaves error) (table : BuiltinTable) :
    ∃ n, (m.run table n).control = .halted (.error error) := by
  cases leaves with
  | inr halted => exact ⟨0, halted⟩
  | inl raising =>
    induction frames : m.frames generalizing m with
    | nil =>
      refine ⟨1, ?_⟩
      rw [run_succ_eq_step, Machine.run, step_raise_nil table raising frames]
    | cons frame rest ih =>
      have running : m.result? = none := by rw [result?, raising]
      have further := step_raise table raising frames
      obtain ⟨n, halted⟩ := ih (m := m.step table) (by rw [further, abandon_control, raising])
        (by rw [further, abandon_frames])
      exact ⟨n + 1, (congrArg Machine.control (run_succ running n)).trans halted⟩

/-- A run ends but once. -/
theorem run_unique {result' : Except ExecutionError Value} {k n : Nat}
    (ended : (m.run table k).control = .halted result) (ended' : (m.run table n).control = .halted result') :
    m.run table k = m.run table n := by
  rw [← run_of_halted ended n, ← run_add, Nat.add_comm, run_add, run_of_halted ended']

end Machine

/-- What is asked of an interpreter in a session. -/
inductive Request where
  | eval (source : String)
  | collect

theorem Interpreter.bindLibraries_cons (name : String) (names : List String) (global : Scope) (world : World) :
    Interpreter.bindLibraries (name :: names) global world =
      Interpreter.bindLibraries names (global.define world.heap name (.library name)).1
        { world with heap := (global.define world.heap name (.library name)).2 } := rfl

theorem bound_bindLibraries (names : List String) (global : Scope) (world : World)
    (bound : global.Bound world.heap) :
    (Interpreter.bindLibraries names global world).1.Bound
      (Interpreter.bindLibraries names global world).2.heap := by
  induction names generalizing global world with
  | nil => exact bound
  | cons name names ih =>
    rw [Interpreter.bindLibraries_cons]
    exact ih _ _ (bound.define name _)

theorem Interpreter.run_eq_some {i i' : Interpreter} {patience : Nat} {p : Program} :
    i.run patience p = some (result, i') ↔
      ∃ m : Machine, Machine.run i.table patience (i.start (Stmt.numberAll i.sites p).1) = m ∧
        m.control = .halted result ∧
        i' = { i with
          global := m.global
          world := m.world
          depth := m.depth
          sites := (Stmt.numberAll i.sites p).2 } := by
  simp only [Interpreter.run]
  obtain ⟨control, frames, locals, depth, global, world⟩ :=
    Machine.run i.table patience (i.start (Stmt.numberAll i.sites p).1)
  cases control with
  | halted other =>
    constructor
    · intro eq
      cases eq
      exact ⟨_, rfl, rfl, rfl⟩
    · rintro ⟨_, rfl, halted, rfl⟩
      cases halted
      rfl
  | _ =>
    constructor
    · intro eq
      cases eq
    · rintro ⟨_, rfl, halted, _⟩
      cases halted

/-- A program has not come to its end if its machine has not halted. -/
theorem Interpreter.run_eq_none {i : Interpreter} {patience : Nat} {p : Program} :
    i.run patience p = none ↔
      (Machine.run i.table patience (i.start (Stmt.numberAll i.sites p).1)).result? = none := by
  simp only [Interpreter.run]
  obtain ⟨control, frames, locals, depth, global, world⟩ :=
    Machine.run i.table patience (i.start (Stmt.numberAll i.sites p).1)
  cases control <;> simp [Machine.result?]

/-- A text that does not spell a program leaves the interpreter as it is; any other is run. -/
theorem Interpreter.eval_cases {i i' : Interpreter} {patience : Nat} {source : String}
    {outcome : Except ScriptError Value} (evaluated : i.eval patience source = some (outcome, i')) :
    (∃ error, outcome = .error (.ofParse error) ∧ i' = i) ∨
      ∃ p result, parseProgram source = .ok p ∧ i.run patience p = some (result, i') ∧
        outcome = result.mapError .execution := by
  unfold Interpreter.eval at evaluated
  split at evaluated
  · cases evaluated
    exact .inl ⟨_, rfl, rfl⟩
  · next p parsed =>
    split at evaluated
    · next result _ ran =>
      cases evaluated
      exact .inr ⟨p, result, parsed, ran, rfl⟩
    · cases evaluated

theorem Interpreter.eval_eq_ok {i i' : Interpreter} {patience : Nat} {source : String} {value : Value} :
    i.eval patience source = some (.ok value, i') ↔
      ∃ p, parseProgram source = .ok p ∧ i.run patience p = some (.ok value, i') := by
  unfold Interpreter.eval
  cases parseProgram source with
  | error error => simp
  | ok p =>
    simp only [Except.ok.injEq, exists_eq_left']
    cases i.run patience p with
    | none => simp
    | some outcome =>
      obtain ⟨result, last⟩ := outcome
      cases result with
      | error error =>
        constructor
        · intro eq
          cases eq
        · intro eq
          cases eq
      | ok value =>
        constructor
        · intro eq
          cases eq
          rfl
        · intro eq
          cases eq
          rfl

end TinyScript
