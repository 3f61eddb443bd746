import TinyScript.Bytecode.Vm

/-! # Runs of the stack machine

`Chunk.Reaches` relates two states of a run between which every instruction succeeds.  A bounded run
stops in a state that is reached (`runFor_stopsWith`), and a state that is reached is where a run with
enough steps comes to (`Reaches.runFor`); with fewer it is cut short (`Reaches.runFor_cases`).

`Chunk.CodeAt` says that a piece of code stands at an index of a chunk.
-/

namespace TinyScript

/-! ## Instructions that find their operands -/

namespace Config

variable {functions : NameMap HostFunction} {constants : Array Scalar} {c d : Config}
  {top left right : Scalar} {rest : List Scalar} {name : String}

-- The equations of `dispatch` are made here once, and not by each lemma that waits for them.
attribute [local simp] Config.dispatch

theorem take_of_stack (stack : c.stack = top :: rest) : c.take = .ok (top, rest) := by
  simp only [Config.take, stack]

theorem dispatch_loadConst {constant : Nat} {value : Scalar}
    (found : constants[constant]? = some value) :
    c.dispatch functions constants (.loadConst constant) = .ok (some (c.advance (value :: c.stack))) := by
  simp only [Config.dispatch, found]

theorem dispatch_loadVar {value : Scalar} (known : c.globals.get? name = some value) :
    c.dispatch functions constants (.loadVar name) = .ok (some (c.advance (value :: c.stack))) := by
  simp only [Config.dispatch, known]

theorem dispatch_storeVar (stack : c.stack = top :: rest) :
    c.dispatch functions constants (.storeVar name) =
      .ok (some { c.advance rest with globals := c.globals.insert name top }) := by
  simp only [Config.dispatch, take_of_stack stack]
  rfl

theorem dispatch_dup (stack : c.stack = top :: rest) :
    c.dispatch functions constants .dup = .ok (some (c.advance (top :: top :: rest))) := by
  simp only [Config.dispatch, take_of_stack stack]
  rfl

theorem dispatch_pop (stack : c.stack = top :: rest) :
    c.dispatch functions constants .pop = .ok (some (c.advance rest)) := by
  simp only [Config.dispatch, take_of_stack stack]
  rfl

theorem dispatch_binary {op : BinaryOp} (stack : c.stack = right :: left :: rest) :
    c.dispatch functions constants (.binary op) =
      (Instr.combine op left right).map fun value => some (c.advance (value :: rest)) := by
  simp only [Config.dispatch, take_of_stack stack, bind, Except.bind]
  cases Instr.combine op left right <;> rfl

theorem dispatch_jumpIfFalse {target : Nat} (stack : c.stack = top :: rest) :
    c.dispatch functions constants (.jumpIfFalse target) =
      if top.isTruthy then .ok (some (c.advance rest))
      else .ok (some { c with index := target, stack := rest }) := by
  simp only [Config.dispatch, take_of_stack stack]
  rfl

/-- A call of a registered function with all its arguments on the stack. -/
theorem dispatch_call {function : HostFunction} (found : functions.get? name = some function)
    (enough : function.arity ≤ c.stack.length) :
    c.dispatch functions constants (.call name function.arity) =
      (c.callHost function.body (c.stack.take function.arity).reverse
        (c.stack.drop function.arity)).map some := by
  simp only [Config.dispatch, found]
  rw [if_neg (by simp), if_neg (Nat.not_lt.2 enough)]
  cases c.callHost function.body (c.stack.take function.arity).reverse
    (c.stack.drop function.arity) <;> rfl

/-- An instruction that fails has not changed any variable. -/
theorem abandon_globals (functions : NameMap HostFunction) (c : Config) (i : Instr) :
    (c.abandon functions i).globals = c.globals := by
  cases i with
  | call name argc =>
    unfold abandon
    repeat' split
    all_goals rfl
  | _ => rfl

end Config

namespace Chunk

/-! ## Pieces of code -/

/-- The instructions stand at an index. -/
def CodeAt (chunk : Chunk) (base : Nat) (code : List Instr) : Prop :=
  ∀ (k : Nat) (i : Instr), code[k]? = some i → chunk.code[base + k]? = some i

variable {chunk : Chunk} {base : Nat}

@[simp] theorem codeAt_nil : chunk.CodeAt base [] := by
  intro k i found
  simp at found

@[simp] theorem codeAt_cons {i : Instr} {code : List Instr} :
    chunk.CodeAt base (i :: code) ↔ chunk.code[base]? = some i ∧ chunk.CodeAt (base + 1) code := by
  constructor
  · intro all
    refine ⟨all 0 i rfl, fun k j found => ?_⟩
    rw [Nat.add_assoc, Nat.add_comm 1 k]
    exact all (k + 1) j found
  · rintro ⟨first, rest⟩ k j found
    cases k with
    | zero =>
      cases found
      exact first
    | succ k =>
      rw [Nat.add_comm k 1, ← Nat.add_assoc]
      exact rest k j found

@[simp] theorem codeAt_append {left right : List Instr} :
    chunk.CodeAt base (left ++ right) ↔
      chunk.CodeAt base left ∧ chunk.CodeAt (base + left.length) right := by
  induction left generalizing base with
  | nil => simp
  | cons i left ih =>
    rw [List.cons_append, codeAt_cons, codeAt_cons, ih, and_assoc, List.length_cons,
      Nat.add_assoc, Nat.add_comm 1]

theorem codeAt_of_eq {code : List Instr} (eq : chunk.code = code.toArray) : chunk.CodeAt 0 code := by
  intro k i found
  simpa [eq] using found

theorem codeAt_toArray (code : List Instr) (constants : Array Scalar) :
    CodeAt ⟨code.toArray, constants⟩ 0 code :=
  codeAt_of_eq rfl

/-! ## States of a run -/

/-- A run comes from one state to the other, and no instruction on the way fails. -/
inductive Reaches (chunk : Chunk) (functions : NameMap HostFunction) : Config → Config → Prop where
  | refl (c : Config) : Reaches chunk functions c c
  | step {c d e : Config} {i : Instr} : chunk.code[c.index]? = some i →
      c.dispatch functions chunk.constants i = .ok (some d) → Reaches chunk functions d e →
      Reaches chunk functions c e

variable {functions : NameMap HostFunction} {c d e : Config}

attribute [local simp] Chunk.runFor

theorem Reaches.trans (first : chunk.Reaches functions c d) (second : chunk.Reaches functions d e) :
    chunk.Reaches functions c e := by
  induction first with
  | refl => exact second
  | step found dispatched _ ih => exact .step found dispatched (ih second)

theorem Reaches.one {i : Instr} (found : chunk.code[c.index]? = some i)
    (dispatched : c.dispatch functions chunk.constants i = .ok (some d)) :
    chunk.Reaches functions c d :=
  .step found dispatched (.refl d)

theorem runFor_zero {i : Instr} (found : chunk.code[c.index]? = some i) :
    chunk.runFor functions 0 c = .cut c := by
  simp only [Chunk.runFor, found]

theorem runFor_succ {i : Instr} (found : chunk.code[c.index]? = some i)
    (dispatched : c.dispatch functions chunk.constants i = .ok (some d)) (n : Nat) :
    chunk.runFor functions (n + 1) c = chunk.runFor functions n d := by
  rw [Chunk.runFor, found]
  simp only [dispatched]

theorem runFor_succ_error {i : Instr} {error : ExecutionError}
    (found : chunk.code[c.index]? = some i)
    (dispatched : c.dispatch functions chunk.constants i = .error error) (n : Nat) :
    chunk.runFor functions (n + 1) c = .failed error (c.abandon functions i) := by
  rw [Chunk.runFor, found]
  simp only [dispatched]

theorem runFor_succ_halt (found : chunk.code[c.index]? = some .halt) (n : Nat) :
    chunk.runFor functions (n + 1) c = .finished c := by
  rw [Chunk.runFor, found]
  rfl

/-- A run that has come to an end comes to the same with more steps. -/
theorem runFor_mono {n m : Nat} (ended : ∀ last, chunk.runFor functions n c ≠ .cut last) (more : n ≤ m) :
    chunk.runFor functions m c = chunk.runFor functions n c := by
  induction n generalizing c m with
  | zero =>
    cases found : chunk.code[c.index]? with
    | none => simp only [Chunk.runFor, found]
    | some i => exact absurd (runFor_zero found) (ended c)
  | succ n ih =>
    obtain ⟨m, rfl⟩ := Nat.exists_eq_add_of_le' more
    cases found : chunk.code[c.index]? with
    | none => simp only [Chunk.runFor, found]
    | some i =>
      cases dispatched : c.dispatch functions chunk.constants i with
      | error error =>
        rw [← Nat.add_assoc, runFor_succ_error found dispatched, runFor_succ_error found dispatched]
      | ok next =>
        cases next with
        | none => simp only [← Nat.add_assoc, Chunk.runFor, found, dispatched]
        | some d =>
          rw [runFor_succ found dispatched] at ended
          rw [← Nat.add_assoc, runFor_succ found dispatched, runFor_succ found dispatched]
          exact ih ended (Nat.le_add_left n m)

/-- What is reached takes a number of instructions, and the run goes on from there. -/
theorem Reaches.runFor (reaches : chunk.Reaches functions c d) :
    ∃ k, ∀ n, chunk.runFor functions (k + n) c = chunk.runFor functions n d := by
  induction reaches with
  | refl => exact ⟨0, fun n => by rw [Nat.zero_add]⟩
  | step found dispatched _ ih =>
    obtain ⟨k, rest⟩ := ih
    refine ⟨k + 1, fun n => ?_⟩
    rw [Nat.add_right_comm, runFor_succ found dispatched]
    exact rest n

/-- A run that comes to where the next instruction ends it stops there, if it has enough steps. -/
theorem Reaches.stops (reaches : chunk.Reaches functions c d) {progress : Progress}
    (stops : ∀ n, chunk.runFor functions (n + 1) d = progress) :
    ∃ enough, ∀ n, enough ≤ n → chunk.runFor functions n c = progress := by
  obtain ⟨k, rest⟩ := reaches.runFor
  refine ⟨k + 1, fun n more => ?_⟩
  obtain ⟨n, rfl⟩ := Nat.exists_eq_add_of_le more
  rw [Nat.add_assoc, Nat.add_comm 1 n, rest, stops]

/-- A run is cut short on the way to a state, or it comes there. -/
theorem Reaches.runFor_cases (reaches : chunk.Reaches functions c d) (n : Nat) :
    (∃ last, chunk.runFor functions n c = .cut last) ∨
      ∃ left, left ≤ n ∧ chunk.runFor functions n c = chunk.runFor functions left d := by
  induction reaches generalizing n with
  | refl => exact .inr ⟨n, Nat.le_refl n, rfl⟩
  | step found dispatched _ ih =>
    cases n with
    | zero => exact .inl ⟨_, runFor_zero found⟩
    | succ n =>
      rw [runFor_succ found dispatched]
      rcases ih n with cut | ⟨left, bound, same⟩
      · exact .inl cut
      · exact .inr ⟨left, Nat.le_succ_of_le bound, same⟩

/-- At least one instruction, and none that fails. -/
def Moves (chunk : Chunk) (functions : NameMap HostFunction) (c d : Config) : Prop :=
  ∃ i e, chunk.code[c.index]? = some i ∧ c.dispatch functions chunk.constants i = .ok (some e) ∧
    chunk.Reaches functions e d

theorem Moves.one {i : Instr} (found : chunk.code[c.index]? = some i)
    (dispatched : c.dispatch functions chunk.constants i = .ok (some d)) :
    chunk.Moves functions c d :=
  ⟨i, d, found, dispatched, .refl d⟩

theorem Moves.reaches (moves : chunk.Moves functions c d) : chunk.Reaches functions c d := by
  obtain ⟨i, next, found, dispatched, rest⟩ := moves
  exact .step found dispatched rest

theorem Moves.trans (first : chunk.Moves functions c d) (second : chunk.Reaches functions d e) :
    chunk.Moves functions c e := by
  obtain ⟨i, next, found, dispatched, rest⟩ := first
  exact ⟨i, next, found, dispatched, rest.trans second⟩

/-- After a move there are fewer steps left than before. -/
theorem Moves.runFor_cases (moves : chunk.Moves functions c d) (n : Nat) :
    (∃ last, chunk.runFor functions n c = .cut last) ∨
      ∃ left, left < n ∧ chunk.runFor functions n c = chunk.runFor functions left d := by
  obtain ⟨i, next, found, dispatched, rest⟩ := moves
  cases n with
  | zero => exact .inl ⟨c, runFor_zero found⟩
  | succ n =>
    rw [runFor_succ found dispatched]
    rcases rest.runFor_cases n with cut | ⟨left, bound, same⟩
    · exact .inl cut
    · exact .inr ⟨left, Nat.lt_succ_of_le bound, same⟩

/-- Where a run that starts in a state has come to, and why it stopped there. -/
def StopsWith (chunk : Chunk) (functions : NameMap HostFunction) (c : Config) : Progress → Prop
  | .finished last => chunk.Reaches functions c last ∧
      (chunk.code[last.index]? = none ∨ ∃ i, chunk.code[last.index]? = some i ∧
        last.dispatch functions chunk.constants i = .ok none)
  | .failed error _ => ∃ d i, chunk.Reaches functions c d ∧ chunk.code[d.index]? = some i ∧
      d.dispatch functions chunk.constants i = .error error
  | .cut last => chunk.Reaches functions c last

theorem StopsWith.step {i : Instr} {progress : Progress} (found : chunk.code[c.index]? = some i)
    (dispatched : c.dispatch functions chunk.constants i = .ok (some d))
    (rest : chunk.StopsWith functions d progress) : chunk.StopsWith functions c progress := by
  cases progress with
  | finished last => exact ⟨.step found dispatched rest.1, rest.2⟩
  | failed error last =>
    obtain ⟨e, j, reaches, foundJ, failed⟩ := rest
    exact ⟨e, j, .step found dispatched reaches, foundJ, failed⟩
  | cut last => exact Reaches.step found dispatched rest

theorem runFor_stopsWith (chunk : Chunk) (functions : NameMap HostFunction) (n : Nat) (c : Config) :
    chunk.StopsWith functions c (chunk.runFor functions n c) := by
  induction n generalizing c with
  | zero =>
    cases found : chunk.code[c.index]? with
    | none =>
      simp only [Chunk.runFor, found]
      exact ⟨.refl c, .inl found⟩
    | some i =>
      rw [runFor_zero found]
      exact Reaches.refl c
  | succ n ih =>
    cases found : chunk.code[c.index]? with
    | none =>
      simp only [Chunk.runFor, found]
      exact ⟨.refl c, .inl found⟩
    | some i =>
      cases dispatched : c.dispatch functions chunk.constants i with
      | error error =>
        rw [runFor_succ_error found dispatched]
        exact ⟨c, i, .refl c, found, dispatched⟩
      | ok next =>
        cases next with
        | none =>
          simp only [Chunk.runFor, found, dispatched]
          exact ⟨.refl c, .inr ⟨i, found, dispatched⟩⟩
        | some d =>
          rw [runFor_succ found dispatched]
          exact (ih d).step found dispatched

end Chunk

/-! ## Whole runs -/

namespace Vm

/-- A run fails because the chunk is not valid, because it is cut short, or at an instruction. -/
theorem run_error_cases {vm vm' : Vm} {patience : Nat} {chunk : Chunk} {error : ExecutionError}
    (ran : vm.run patience chunk = some (.error error, vm')) :
    (∃ fault, error = .invalidBytecode fault) ∨ (∃ limit, error = .stepLimitExceeded limit) ∨
      ∃ c i, chunk.Reaches vm.functions vm.start c ∧ chunk.code[c.index]? = some i ∧
        c.dispatch vm.functions chunk.constants i = .error error := by
  unfold Vm.run at ran
  split at ran
  · next fault _ =>
    cases ran
    exact .inl ⟨fault, rfl⟩
  · unfold Vm.execute at ran
    cases limit : vm.stepLimit with
    | none =>
      have stops := chunk.runFor_stopsWith vm.functions patience vm.start
      simp only [limit] at ran
      split at ran
      · cases ran
      · next progress =>
        rw [progress] at stops
        cases ran
        exact .inr (.inr stops)
      · cases ran
    | some limit' =>
      have stops := chunk.runFor_stopsWith vm.functions (min limit' patience) vm.start
      simp only [limit] at ran
      split at ran
      · cases ran
      · next progress =>
        rw [progress] at stops
        cases ran
        exact .inr (.inr stops)
      · split at ran
        · cases ran
          exact .inr (.inl ⟨limit', rfl⟩)
        · cases ran

end Vm

end TinyScript
