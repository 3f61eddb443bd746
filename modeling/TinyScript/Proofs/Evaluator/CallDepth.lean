import TinyScript.Proofs.Evaluator.Frames

/-! # The depth of calls

An expression, a statement or a call that is evaluated on top of some frames leaves them as they are, and when
it is over, with a value or an error, the depth is what it was (`Machine.Begins.run_cases`).  An error passes
through the frames one after the other, and each call that it leaves brings the depth down by one.

So a run leaves the depth of an interpreter as it has found it, and since a new one begins with depth 0, the
depth is the number of active calls between any two steps of any run of a session (`Machine.Balanced`).
-/

namespace TinyScript

namespace Machine

variable {table : BuiltinTable} {caller m m' : Machine} {above below : List Frame} {d : Nat}

/-! ## One evaluation -/

/-- What is evaluated on top of the frames of a state. -/
inductive Begins (table : BuiltinTable) (caller : Machine) : Machine → Prop where
  | expression (e : Expr) : Begins table caller { caller with control := .eval e }
  | statement (s : Stmt) : Begins table caller { caller with control := .exec s }
  | block (statements : List Stmt) : Begins table caller (caller.enter statements)
  | call (code : Function) (args : List Value) : Begins table caller (caller.call code args)
  | builtin (library operation : String) (args : List Value) :
      Begins table caller (caller.callBuiltin table library operation args)

/-- The evaluation is not over: its frames lie on top of those of the caller, and every call among them
counts. -/
structure UnderWay (caller m : Machine) : Prop where
  running : m.result? = none
  frames : ∃ above, m.frames = above ++ caller.frames ∧
    m.depth = caller.depth + Frame.activeCalls above ∧ (m.Hands → above ≠ [])

/-- The evaluation is over: a value or an error comes to the frames of the caller, and the depth is that of
the caller. -/
structure Settles (caller m : Machine) : Prop where
  control : m.Hands
  frames : m.frames = caller.frames
  depth : m.depth = caller.depth

theorem underWay_or_settles (above : List Frame) (running : m.result? = none)
    (frames : m.frames = above ++ caller.frames) (depth : m.depth = caller.depth + Frame.activeCalls above) :
    caller.UnderWay m ∨ caller.Settles m := by
  by_cases ended : above = [] ∧ m.Hands
  · obtain ⟨rfl, hands⟩ := ended
    exact .inr ⟨hands, frames, depth⟩
  · exact .inl ⟨running, above, frames, depth, fun hands empty => ended ⟨empty, hands⟩⟩

theorem running_of_raise {error : ExecutionError} (raising : m.control = .raise error) :
    m.result? = none := by
  rw [result?, raising]

theorem Returns.running (returns : m.Returns) : m.result? = none := by
  cases returns with
  | value value control => rw [result?, control]
  | error error control => exact running_of_raise control

theorem Builds.running (builds : m.Builds table m') : m'.result? = none := by
  cases builds with
  | within more plain calm => exact calm.running
  | call above below plainAbove plainBelow shallow calm => exact calm.running
  | fail error more plain control => exact running_of_raise control

theorem Builds.underWay_or_settles (builds : m.Builds table m') (above : List Frame)
    (frames : m.frames = above ++ caller.frames)
    (depth : m.depth = caller.depth + Frame.activeCalls above) :
    caller.UnderWay m' ∨ caller.Settles m' := by
  have running := builds.running
  cases builds with
  | within more plain calm frames' depth' locals =>
    refine Machine.underWay_or_settles (more ++ above) running ?_ ?_
    · rw [frames', frames, List.append_assoc]
    · rw [depth', depth, Frame.activeCalls_append, plain, Nat.zero_add]
  | call upper lower plainUpper plainLower shallow calm frames' depth' locals =>
    refine Machine.underWay_or_settles (upper ++ .returnTo m.locals :: (lower ++ above)) running ?_ ?_
    · rw [frames', frames]
      simp only [List.append_assoc, List.cons_append]
    · simp only [depth', depth, Frame.activeCalls_append, Frame.activeCalls_returnTo, plainUpper, plainLower]
      omega
  | fail error more plain control frames' depth' locals cause =>
    refine Machine.underWay_or_settles (more ++ above) running ?_ ?_
    · rw [frames', frames, List.append_assoc]
    · rw [depth', depth, Frame.activeCalls_append, plain, Nat.zero_add]

theorem UnderWay.step (underWay : caller.UnderWay m) :
    caller.UnderWay (m.step table) ∨ caller.Settles (m.step table) := by
  obtain ⟨running, above, frames, depth, waits⟩ := underWay
  cases step_frames running with
  | onto control builds => exact builds.underWay_or_settles above frames depth
  | popped hands frame rest plain top builds =>
    cases above with
    | nil => exact absurd rfl (waits hands)
    | cons first above =>
      rw [top, List.cons_append, List.cons.injEq] at frames
      obtain ⟨rfl, frames⟩ := frames
      rw [Frame.activeCalls_cons plain] at depth
      exact builds.underWay_or_settles above frames depth
  | back hands locals rest after top eq returns =>
    cases above with
    | nil => exact absurd rfl (waits hands)
    | cons first above =>
      rw [top, List.cons_append, List.cons.injEq] at frames
      obtain ⟨rfl, frames⟩ := frames
      refine Machine.underWay_or_settles above returns.running (by rw [eq]; exact frames) ?_
      simp only [eq, depth, Frame.activeCalls_returnTo]
      omega
  | done hands result empty eq =>
    rw [empty] at frames
    exact absurd (List.append_eq_nil_iff.1 frames.symm).1 (waits hands)

theorem Begins.underWay_or_settles (begins : caller.Begins table m) :
    caller.UnderWay m ∨ caller.Settles m := by
  have zero : caller.depth = caller.depth + Frame.activeCalls [] := rfl
  cases begins with
  | expression e => exact Machine.underWay_or_settles [] rfl rfl zero
  | statement s => exact Machine.underWay_or_settles [] rfl rfl zero
  | block statements =>
    exact (caller.builds_enter table statements).underWay_or_settles [] rfl zero
  | call code args => exact (caller.builds_call table code args).underWay_or_settles [] rfl zero
  | builtin library operation args =>
    exact (caller.builds_callBuiltin table library operation args).underWay_or_settles [] rfl zero

/-- An evaluation is under way for as long as it is not over. -/
theorem Begins.run_cases (begins : caller.Begins table m) (n : Nat) :
    (∀ k ≤ n, caller.UnderWay (m.run table k)) ∨
      ∃ k ≤ n, (∀ j < k, caller.UnderWay (m.run table j)) ∧ caller.Settles (m.run table k) :=
  run_until begins.underWay_or_settles (fun _ underWay => underWay.step) n

/-! ## A whole run -/

/-- What holds between any two steps of a run that has begun with a depth. -/
structure Balanced (d : Nat) (m : Machine) : Prop where
  depth : m.depth = d + Frame.activeCalls m.frames
  bounded : d ≤ callLimit → m.depth ≤ callLimit
  nested : Frame.Nested m.locals m.frames
  ended : ∀ result, m.control = .halted result → m.frames = []

theorem not_halted_of_running (running : m.result? = none) (result : Except ExecutionError Value) :
    m.control ≠ .halted result := by
  intro halted
  rw [result?_eq_some.2 halted] at running
  cases running

theorem Balanced.builds (balanced : m.Balanced d) (builds : m.Builds table m') : m'.Balanced d := by
  have going (result : Except ExecutionError Value) (halted : m'.control = .halted result) :
      m'.frames = [] := absurd halted (not_halted_of_running builds.running result)
  cases builds with
  | within more plain calm frames depth locals =>
    refine ⟨?_, depth ▸ balanced.bounded, ?_, going⟩
    · rw [depth, frames, Frame.activeCalls_append, plain, Nat.zero_add, balanced.depth]
    · rw [frames, Frame.nested_append plain]
      exact balanced.nested.congr locals
  | call above below plainAbove plainBelow shallow calm frames depth locals =>
    refine ⟨?_, fun _ => depth ▸ shallow, ?_, going⟩
    · simp only [depth, frames, Frame.activeCalls_append, Frame.activeCalls_returnTo, plainAbove, plainBelow,
        balanced.depth]
      omega
    · rw [frames, Frame.nested_append plainAbove]
      exact ⟨locals, (Frame.nested_append plainBelow _ _).2 balanced.nested⟩
  | fail error more plain control frames depth locals cause =>
    refine ⟨?_, depth ▸ balanced.bounded, ?_, going⟩
    · rw [depth, frames, Frame.activeCalls_append, plain, Nat.zero_add, balanced.depth]
    · rw [frames, Frame.nested_append plain]
      exact balanced.nested.congr locals

theorem Balanced.pop (balanced : m.Balanced d) (running : m.result? = none) {frame : Frame}
    {frames : List Frame} (plain : frame.isCall = false) (top : m.frames = frame :: frames) :
    { m with frames }.Balanced d := by
  refine ⟨?_, balanced.bounded, ?_, fun result halted => absurd halted (not_halted_of_running running result)⟩
  · rw [balanced.depth, top, Frame.activeCalls_cons plain]
  · rw [← Frame.nested_cons plain, ← top]
    exact balanced.nested

theorem Balanced.step (balanced : m.Balanced d) : (m.step table).Balanced d := by
  cases running : m.result? with
  | some result =>
    have stays : m.step table = m := by rw [Machine.step, result?_eq_some.1 running]
    rw [stays]
    exact balanced
  | none =>
    cases step_frames running with
    | onto control builds => exact balanced.builds builds
    | popped hands frame rest plain top builds => exact (balanced.pop running plain top).builds builds
    | back hands locals rest after top eq returns =>
      have counted := balanced.depth
      have nested := balanced.nested
      rw [top] at counted nested
      rw [Frame.activeCalls_returnTo] at counted
      refine ⟨?_, fun shallow => ?_, ?_, fun result halted =>
        absurd halted (not_halted_of_running returns.running result)⟩
      · simp only [eq, counted]
        omega
      · rw [eq]
        exact (Nat.sub_le _ _).trans (balanced.bounded shallow)
      · rw [eq]
        exact nested.2
    | done hands result empty eq =>
      rw [eq]
      exact ⟨balanced.depth, balanced.bounded, balanced.nested, fun _ _ => empty⟩

theorem Balanced.run (balanced : m.Balanced d) (table : BuiltinTable) (n : Nat) : (m.run table n).Balanced d := by
  induction n with
  | zero => exact balanced
  | succ n ih =>
    rw [run_succ_eq_step]
    exact ih.step

theorem balanced_start (i : Interpreter) (p : Program) : (i.start p).Balanced i.depth := by
  have idle : Balanced i.depth ⟨.give .undefined, [], none, i.depth, i.global, i.world⟩ :=
    ⟨rfl, id, rfl, by simp⟩
  exact idle.builds (builds_enter i.table _ p)

/-- When the run has ended no call is active any more. -/
theorem Balanced.depth_of_halted (balanced : m.Balanced d) {result : Except ExecutionError Value}
    (halted : m.control = .halted result) : m.depth = d := by
  rw [balanced.depth, balanced.ended result halted, Frame.activeCalls_nil, Nat.add_zero]

/-- A move raises an error about the depth of calls only if no more of them are allowed. -/
theorem Builds.cause {limit : Nat} (builds : m.Builds table m')
    (raised : m'.control = .raise (.callDepthExceeded limit)) :
    m.control = .raise (.callDepthExceeded limit) ∨ table.Answers (.callDepthExceeded limit) ∨
      limit = callLimit ∧ callLimit ≤ m.depth := by
  cases builds with
  | within more plain calm => exact absurd raised (calm.not_raise _)
  | call above below plainAbove plainBelow shallow calm => exact absurd raised (calm.not_raise _)
  | fail error more plain control frames depth locals cause =>
    cases raised.symm.trans control
    exact cause.imp_right fun blamed => blamed limit rfl

theorem step_cause {limit : Nat} (raised : (m.step table).control = .raise (.callDepthExceeded limit)) :
    m.control = .raise (.callDepthExceeded limit) ∨ table.Answers (.callDepthExceeded limit) ∨
      limit = callLimit ∧ callLimit ≤ m.depth := by
  cases running : m.result? with
  | some result =>
    rw [Machine.step, result?_eq_some.1 running] at raised
    exact .inl raised
  | none =>
    cases step_frames running with
    | onto control builds => exact builds.cause raised
    | popped hands frame rest plain top builds => exact builds.cause raised
    | back hands locals rest after top eq returns passes =>
      rw [eq] at raised
      exact .inl (passes _ raised)
    | done hands result empty eq =>
      rw [eq] at raised
      cases raised

/-- A call cannot fail at its beginning but for its depth. -/
theorem call_eq_raise (m : Machine) (code : Function) (args : List Value) (error : ExecutionError) :
    (m.call code args).control = .raise error ↔
      callLimit ≤ m.depth ∧ error = .callDepthExceeded callLimit := by
  by_cases deep : callLimit ≤ m.depth
  · rw [m.call_of_le deep]
    simp only [Machine.fail, Control.raise.injEq, deep, true_and, eq_comm]
  · obtain ⟨calm, _⟩ := enter_frames _ code.body
    rw [← m.call_of_lt (Nat.lt_of_not_le deep) code args] at calm
    constructor
    · exact fun raised => absurd raised (calm.not_raise error)
    · exact fun tooDeep => absurd tooDeep.1 deep

end Machine

/-! ## Sessions -/

/-- What comes out of any session with these operations. -/
inductive Interpreter.ReachableWith (table : BuiltinTable) : Interpreter → Prop where
  | new : ReachableWith table (.withTable table)
  | wait {i : Interpreter} (clock : Clock) : ReachableWith table i →
      ReachableWith table { i with world := { i.world with clock } }
  | run {i i' : Interpreter} {patience : Nat} {p : Program} {result : Except ExecutionError Value} :
      ReachableWith table i → i.run patience p = some (result, i') → ReachableWith table i'
  | collect {i : Interpreter} : ReachableWith table i → ReachableWith table i.collectGarbage.2

namespace Interpreter

variable {i i' : Interpreter} {table : BuiltinTable} {patience : Nat} {p : Program}
  {result : Except ExecutionError Value}

theorem depth_of_run (ran : i.run patience p = some (result, i')) : i'.depth = i.depth := by
  obtain ⟨m, reached, halted, rfl⟩ := run_eq_some.1 ran
  have balanced := (Machine.balanced_start i (Stmt.numberAll i.sites p).1).run i.table patience
  rw [reached] at balanced
  exact balanced.depth_of_halted halted

theorem table_of_run (ran : i.run patience p = some (result, i')) : i'.table = i.table := by
  obtain ⟨m, reached, halted, rfl⟩ := run_eq_some.1 ran
  rfl

theorem ReachableWith.table_depth (reachable : i.ReachableWith table) : i.table = table ∧ i.depth = 0 := by
  induction reachable with
  | new => exact ⟨rfl, rfl⟩
  | wait clock _ ih => exact ih
  | run _ ran ih => exact ⟨(table_of_run ran).trans ih.1, (depth_of_run ran).trans ih.2⟩
  | collect _ ih => exact ih

end Interpreter

/-- Operations of the standard libraries do not complain about the depth of calls. -/
theorem BuiltinTable.standard_not_answers (limit : Nat) :
    ¬standard.Answers (.callDepthExceeded limit) := by
  intro ⟨library, operation, builtin, name, args, world, found, failed⟩
  obtain ⟨_, _, isArgument⟩ := standard_objects found name args world _ failed
  cases isArgument

/-- Whatever is evaluated on top of the frames of a state of whatever depth, the depth counts the calls that
it makes on top of those of the state, and is what it was when the evaluation ends, with a value or an error.
So a run leaves the depth as it has found it, and every run of a session begins with depth 0; between any two
of its steps the depth is the number of active calls, and no more than `callLimit` of them are ever active.  A
call that is made there fails at once exactly if as many are, and no step raises such an error but for such a
call, unless an operation that a host has added to the table gives it by itself. -/
theorem call_depth_balanced {table : BuiltinTable} {i : Interpreter} (reachable : i.ReachableWith table)
    (p : Program) (n : Nat) :
    let m : Machine := Machine.run table n (i.start p)
    (∀ caller inner : Machine, caller.Begins table inner → ∀ steps,
      (∀ k ≤ steps, caller.UnderWay (inner.run table k)) ∨
        ∃ k ≤ steps, (∀ j < k, caller.UnderWay (inner.run table j)) ∧
          caller.Settles (inner.run table k)) ∧
    (∀ (start last : Interpreter) patience q result,
      start.run patience q = some (result, last) → last.depth = start.depth) ∧
    i.depth = 0 ∧ m.Balanced 0 ∧ Frame.activeCalls m.frames ≤ callLimit ∧
    (∀ caller : Machine, m.SameScene caller → ∀ code args error,
      (caller.call code args).control = .raise error ↔
        Frame.activeCalls m.frames = callLimit ∧ error = .callDepthExceeded callLimit) ∧
    (∀ limit, (m.step table).control = .raise (.callDepthExceeded limit) →
      m.control = .raise (.callDepthExceeded limit) ∨ table.Answers (.callDepthExceeded limit) ∨
        limit = callLimit ∧ Frame.activeCalls m.frames = callLimit) ∧
    ∀ limit, ¬BuiltinTable.standard.Answers (.callDepthExceeded limit) := by
  intro m
  have idle := reachable.table_depth.2
  have balanced : m.Balanced 0 := idle ▸ (Machine.balanced_start i p).run table n
  have counted : m.depth = Frame.activeCalls m.frames := balanced.depth.trans (Nat.zero_add _)
  have bounded : Frame.activeCalls m.frames ≤ callLimit := counted ▸ balanced.bounded (Nat.zero_le _)
  refine ⟨fun caller inner begins steps => begins.run_cases steps,
    fun start last patience q result ran => Interpreter.depth_of_run ran, idle, balanced, bounded, ?calls,
    fun limit raised => ?cause, BuiltinTable.standard_not_answers⟩
  case calls =>
    intro caller scene code args error
    rw [Machine.call_eq_raise, scene.depth, counted]
    exact and_congr_left fun _ => ⟨fun deep => Nat.le_antisymm bounded deep, fun full => full.ge⟩
  case cause =>
    have blamed := Machine.step_cause raised
    rw [counted] at blamed
    exact blamed.imp_right (Or.imp_right (And.imp_right (Nat.le_antisymm bounded)))

/-- A function that does nothing but call itself. -/
def endless : Function where
  name := "f"
  params := []
  body := [.ret (some (.call (.function "f") []))]
  site := 0

/-- It is declared and called. -/
def recursing : Program :=
  [.function endless.name endless.params endless.body none, .expression (.call (.function "f") [])]

/-- The run at the beginning of the body, where so many calls wait for the innermost one. -/
def recursed (waiting : Nat) : Machine :=
  { Machine.run .standard 4 (Interpreter.new.start recursing) with
    control := .exec (.ret (some (.call (.function "f") [])))
    frames := (List.replicate waiting [.returnTo (some .empty), .giveBack]).flatten ++ [.returnTo none]
    locals := some .empty
    depth := waiting + 1 }

theorem lookup?_recursed (waiting : Nat) : ((recursed waiting).step .standard).lookup? "f" =
    some (.function endless) := by
  change Env.lookup? [.empty, (Machine.run .standard 4 (Interpreter.new.start recursing)).global]
    (Machine.run .standard 4 (Interpreter.new.start recursing)).world.heap "f" = _
  rfl

/-- Two steps are for one call. -/
theorem run_recursed (waiting : Nat) : (recursed waiting).run .standard 2 =
    ((recursed waiting).step .standard).call endless [] := by
  have evaluating : ((recursed waiting).step .standard).control = .eval (.call (.function "f") []) := rfl
  rw [Machine.run_succ rfl, Machine.run_succ rfl, Machine.run, Machine.step, evaluating]
  simp only [Machine.evalStep, Machine.evalCall, lookup?_recursed]
  rfl

theorem run_recursing {waiting : Nat} (shallow : waiting < callLimit) :
    Machine.run .standard (4 + 2 * waiting) (Interpreter.new.start recursing) = recursed waiting := by
  induction waiting with
  | zero => rfl
  | succ waiting ih =>
    have further : (recursed waiting).run .standard 2 = recursed (waiting + 1) := by
      rw [run_recursed, Machine.call_of_lt _ shallow]
      rfl
    rw [Nat.mul_succ, ← Nat.add_assoc, Machine.run_add, ih (Nat.lt_of_succ_lt shallow), further]

/-- One more call would be one too many.  The error comes out, and the interpreter is as shallow as
before. -/
theorem call_depth_balanced_of_recursing :
    let m (n : Nat) : Machine := Machine.run .standard n (Interpreter.new.start recursing)
    ∃ n, Frame.activeCalls (m n).frames = callLimit ∧
      (m (n + 1)).control = .raise (.callDepthExceeded callLimit) ∧ (m (n + 1)).depth = callLimit ∧
      ∃ last, (m last).control = .halted (.error (.callDepthExceeded callLimit)) ∧ (m last).depth = 0 := by
  intro m
  obtain ⟨waiting, full⟩ : ∃ waiting, waiting + 1 = callLimit := ⟨9999, rfl⟩
  have reached : m (4 + 2 * waiting) = recursed waiting := run_recursing (by omega)
  have last : m (4 + 2 * waiting + 1) = (recursed waiting).step .standard := by
    simp only [m, Machine.run_succ_eq_step]
    exact congrArg (Machine.step .standard) reached
  have failed : m (4 + 2 * waiting + 1 + 1) =
      ((recursed waiting).step .standard).fail (.callDepthExceeded callLimit) := by
    have deep : callLimit ≤ ((recursed waiting).step .standard).depth := full.ge
    rw [← Machine.call_of_le _ deep endless [], ← run_recursed, ← reached, ← Machine.run_add]
  have reachable : Interpreter.new.ReachableWith .standard := .new
  have raised : (m (4 + 2 * waiting + 1 + 1)).control = .raise (.callDepthExceeded callLimit) := by
    rw [failed]
    rfl
  have calm : (m (4 + 2 * waiting + 1)).control ≠ .raise (.callDepthExceeded callLimit) := by
    rw [last]
    exact nofun
  refine ⟨4 + 2 * waiting + 1, ?_, raised, ?_, ?_⟩
  · obtain ⟨_, _, _, _, _, _, cause, blameless⟩ :=
      call_depth_balanced reachable recursing (4 + 2 * waiting + 1)
    have stepped : ((m (4 + 2 * waiting + 1)).step .standard).control =
        .raise (.callDepthExceeded callLimit) :=
      (congrArg Machine.control (Machine.run_succ_eq_step .standard _ _)).symm.trans raised
    exact (((cause callLimit stepped).resolve_left calm).resolve_left (blameless callLimit)).2
  · rw [failed]
    exact full
  · obtain ⟨more, halted⟩ := Machine.Leaves.exists_halted (.inl raised) .standard
    rw [← Machine.run_add] at halted
    obtain ⟨_, _, _, balanced, _⟩ :=
      call_depth_balanced reachable recursing (4 + 2 * waiting + 1 + 1 + more)
    exact ⟨_, halted, balanced.depth_of_halted halted⟩

end TinyScript
