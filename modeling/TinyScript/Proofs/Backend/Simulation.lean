import TinyScript.Proofs.Backend.State

/-! # Stack code follows the evaluator

A state of the evaluator and one of a stack machine are related if what the evaluator is about to do
has its code at the index of the machine, and what its frames will do after that has its code behind
(`Simulates`).  The frames that wait for the value of an expression find it on the stack (`TakesValue`);
those that wait for the end of a statement find the stack empty (`GoesOn`).

Whenever the evaluator takes a step, the stack machine can follow (`Simulates.step`): it comes to a
related state, and if it has not moved, then the evaluator has less to do before it must (`weight`).
If the step fails, stack code fails in the same way, unless a name is at fault.
-/

namespace TinyScript

/-! ## Weights -/

/-- Twice the number of nodes of the clauses. -/
def Loop.weight (loop : Loop) : Nat :=
  2 * ((Expr.nodesOfClause loop.test).length + (Expr.nodesOfClause loop.update).length +
    (Stmt.nodesAll loop.body).length)

def Frame.weight : Frame → Nat
  | .leftOperand _ right => 2 * right.nodes.length
  | .argument _ _ rest => 2 * (Expr.nodesAll rest).length
  | .sequence rest => 2 * (Stmt.nodesAll rest).length + 1
  | .forInit loop => loop.weight + 1
  | .forBody loop => 2 * (Expr.nodesOfClause loop.update).length
  | _ => 0

def Control.weight : Control → Nat
  | .eval e => 2 * e.nodes.length
  | .exec s => 2 * s.nodes.length
  | .give _ => 1
  | .leave _ => 0
  | .raise _ => 0
  | .halted _ => 0

/-- More than the number of steps that the evaluator can take before stack code has to move. -/
def Machine.weight (m : Machine) : Nat := m.control.weight + (m.frames.map Frame.weight).sum

/-! ## Related states -/

section

variable (chunk : Chunk) (leaves : Bool)

/-- At the index, with nothing on the stack, begins the code of what the frames do once a statement
has ended. -/
inductive GoesOn : List Frame → Nat → Prop where
  | done {index : Nat} : leaves = false → chunk.code[index]? = some .halt → GoesOn [] index
  | jump {index target : Nat} {frames : List Frame} : chunk.code[index]? = some (.jump target) →
      GoesOn frames target → GoesOn frames index
  | block {index next : Nat} {rest : List Stmt} {frames : List Frame} :
      BlockAt chunk rest index next → GoesOn frames next → GoesOn (.sequence rest :: frames) index
  | program {index : Nat} {rest : Program} : ProgramAt chunk leaves rest index →
      GoesOn [.sequence rest] index
  | whileBody {index again next : Nat} {test : Expr} {body : List Stmt} {frames : List Frame} :
      chunk.code[index]? = some (.jump again) → LoopAt chunk ⟨some test, none, body⟩ again next →
      GoesOn frames next → GoesOn (.whileBody test body :: frames) index
  | forBody {index last again next : Nat} {loop : Loop} {frames : List Frame} :
      EffectAt chunk loop.update index last → chunk.code[last]? = some (.jump again) →
      LoopAt chunk loop again next → GoesOn frames next → GoesOn (.forBody loop :: frames) index
  | forInit {again next : Nat} {loop : Loop} {frames : List Frame} :
      LoopAt chunk loop again next → GoesOn frames next → GoesOn (.forInit loop :: frames) again

/-- At the index, with the value on top of the given stack, begins the code of what the frames do with
the value of an expression. -/
inductive TakesValue : List Frame → Nat → List Scalar → Prop where
  | leftOperand {index last : Nat} {op : BinaryOp} {right : Expr} {frames : List Frame}
      {stack : List Scalar} : ExprAt chunk right index last →
      chunk.code[last]? = some (.binary op) → TakesValue frames (last + 1) stack →
      TakesValue (.leftOperand op right :: frames) index stack
  | rightOperand {index : Nat} {op : BinaryOp} {left : Scalar} {frames : List Frame}
      {stack : List Scalar} : chunk.code[index]? = some (.binary op) →
      TakesValue frames (index + 1) stack →
      TakesValue (.rightOperand op (.scalar left) :: frames) index (left :: stack)
  | assign {index : Nat} {target : String} {frames : List Frame} {stack : List Scalar} :
      target ∉ libraryNames → chunk.code[index]? = some .dup →
      chunk.code[index + 1]? = some (.storeVar target) → TakesValue frames (index + 2) stack →
      TakesValue (.assign target none :: frames) index stack
  | compound {index : Nat} {target : String} {op : BinaryOp} {old : Scalar} {frames : List Frame}
      {stack : List Scalar} : target ∉ libraryNames → chunk.code[index]? = some (.binary op) →
      chunk.code[index + 1]? = some .dup → chunk.code[index + 2]? = some (.storeVar target) →
      TakesValue frames (index + 3) stack →
      TakesValue (.assign target (some (op, .scalar old)) :: frames) index (old :: stack)
  | argument {index last : Nat} {operation : String} {done : List Scalar} {rest : List Expr}
      {frames : List Frame} {stack : List Scalar} :
      CallsMath "Math" operation (done.length + 1 + rest.length) → ArgumentsAt chunk rest index last →
      chunk.code[last]? = some (.call ("Math." ++ operation) (done.length + 1 + rest.length)) →
      TakesValue frames (last + 1) stack →
      TakesValue (.argument (.builtin "Math" operation) (done.map .scalar) rest :: frames) index
        (done ++ stack)
  | declare {index : Nat} {name : String} {frames : List Frame} : name ∉ libraryNames →
      chunk.code[index]? = some (.storeVar name) → GoesOn chunk leaves frames (index + 1) →
      TakesValue (.declare name :: frames) index []
  | branch {index other stop stop' : Nat} {consequent : List Stmt} {alternate : Option (List Stmt)}
      {frames : List Frame} : chunk.code[index]? = some (.jumpIfFalse other) →
      BlockAt chunk consequent (index + 1) stop → GoesOn chunk leaves frames stop →
      BlockAt chunk (alternate.getD []) other stop' → GoesOn chunk leaves frames stop' →
      TakesValue (.branch consequent alternate :: frames) index []
  | whileTest {index post again next : Nat} {test : Expr} {body : List Stmt} {last : Value}
      {frames : List Frame} : chunk.code[index]? = some (.jumpIfFalse next) →
      BlockAt chunk body (index + 1) post → chunk.code[post]? = some (.jump again) →
      LoopAt chunk ⟨some test, none, body⟩ again next → GoesOn chunk leaves frames next →
      TakesValue (.whileTest test body last :: frames) index []
  | forTest {index post end_ again next : Nat} {loop : Loop} {last : Value} {frames : List Frame} :
      chunk.code[index]? = some (.jumpIfFalse next) → BlockAt chunk loop.body (index + 1) post →
      EffectAt chunk loop.update post end_ → chunk.code[end_]? = some (.jump again) →
      LoopAt chunk loop again next → GoesOn chunk leaves frames next →
      TakesValue (.forTest loop last :: frames) index []
  | forUpdate {index again next : Nat} {loop : Loop} {last : Value} {frames : List Frame} :
      chunk.code[index]? = some .pop → chunk.code[index + 1]? = some (.jump again) →
      LoopAt chunk loop again next → GoesOn chunk leaves frames next →
      TakesValue (.forUpdate loop last :: frames) index []
  /-- The value of an expression statement. -/
  | drop {index : Nat} {frames : List Frame} : chunk.code[index]? = some .pop →
      GoesOn chunk leaves frames (index + 1) → TakesValue frames index []
  /-- The value of a program. -/
  | keep {index : Nat} : leaves = true → chunk.code[index]? = some .halt → TakesValue [] index []

/-- What the evaluator is about to do has its code at the index. -/
inductive Point : Control → List Frame → Nat → List Scalar → Prop where
  | eval {e : Expr} {frames : List Frame} {index next : Nat} {stack : List Scalar} :
      ExprAt chunk e index next → TakesValue chunk leaves frames next stack →
      Point (.eval e) frames index stack
  | exec {s : Stmt} {frames : List Frame} {index next : Nat} : StmtAt chunk s index next →
      GoesOn chunk leaves frames next → Point (.exec s) frames index []
  | last {e : Expr} {index next : Nat} : ExprAt chunk e index next → leaves = true →
      chunk.code[next]? = some .halt → Point (.exec (.expression e)) [] index []
  | value {value : Scalar} {frames : List Frame} {index : Nat} {stack : List Scalar} :
      TakesValue chunk leaves frames index stack →
      Point (.give (.scalar value)) frames index (value :: stack)
  | ended {value : Value} {frames : List Frame} {index : Nat} : GoesOn chunk leaves frames index →
      Point (.give value) frames index []
  | kept {value : Scalar} {index : Nat} : leaves = true → chunk.code[index]? = some .halt →
      Point (.halted (.ok (.scalar value))) [] index [value]
  | empty {value : Value} {index : Nat} : leaves = false → chunk.code[index]? = some .halt →
      Point (.halted (.ok value)) [] index []

structure Simulates (m : Machine) (c : Config) : Prop where
  locals : m.locals = none
  agrees : Agrees m.global m.world.heap c.globals
  point : Point chunk leaves m.control m.frames c.index c.stack

end

/-- Errors about names. An assignment to a name that is not bound and a call of something that is no
function are no errors of stack code, or other ones. -/
def ExecutionError.IsOfNames : ExecutionError → Prop
  | .undefinedIdentifier _ | .functionNotFound _ | .notCallable _ | .notAnObject _ => True
  | _ => False

section

variable (chunk : Chunk) (leaves : Bool)

/-- A stack machine follows the evaluator to its next state. -/
def Follows (m m' : Machine) (c : Config) : Prop :=
  ∃ c', Simulates chunk leaves m' c' ∧
    (chunk.Moves HostFunction.standard c c' ∨ c' = c ∧ m'.weight < m.weight)

/-- The evaluator has failed, and so does the stack machine unless a name is at fault. -/
def FailsToo (m' : Machine) (c : Config) : Prop :=
  ∃ error, m'.Leaves error ∧ (error.IsOfNames ∨
    ∃ d i, chunk.Reaches HostFunction.standard c d ∧ chunk.code[d.index]? = some i ∧
      d.dispatch HostFunction.standard chunk.constants i = .error error ∧
      Agrees m'.global m'.world.heap d.globals)

/-- What can come of a step of the evaluator. -/
def Outcome (m m' : Machine) (c : Config) : Prop := Follows chunk leaves m m' c ∨ FailsToo chunk m' c

end

variable {chunk : Chunk} {leaves : Bool} {m m' : Machine} {c d : Config}

theorem FailsToo.after (reaches : chunk.Reaches HostFunction.standard c d)
    (rest : FailsToo chunk m' d) : FailsToo chunk m' c := by
  obtain ⟨error, failed, names | ⟨e, i, further, found, dispatched, agrees⟩⟩ := rest
  · exact ⟨error, failed, .inl names⟩
  · exact ⟨error, failed, .inr ⟨e, i, reaches.trans further, found, dispatched, agrees⟩⟩

/-- What a state that has failed is related to does not change while the error is on its way out. -/
theorem FailsToo.run (fails : FailsToo chunk m' c) (n : Nat) : FailsToo chunk (m'.run .standard n) c := by
  obtain ⟨error, leaves, why⟩ := fails
  obtain ⟨further, global, world⟩ := leaves.run .standard n
  refine ⟨error, further, ?_⟩
  rwa [global, world]

namespace Outcome

theorem stay (related : Simulates chunk leaves m' c) (less : m'.weight < m.weight) :
    Outcome chunk leaves m m' c :=
  .inl ⟨c, related, .inr ⟨rfl, less⟩⟩

theorem move (moves : chunk.Moves HostFunction.standard c d) (related : Simulates chunk leaves m' d) :
    Outcome chunk leaves m m' c :=
  .inl ⟨d, related, .inl moves⟩

theorem fail {error : ExecutionError} {i : Instr} (failed : m'.control = .raise error)
    (found : chunk.code[c.index]? = some i)
    (dispatched : c.dispatch HostFunction.standard chunk.constants i = .error error)
    (agrees : Agrees m'.global m'.world.heap c.globals) : Outcome chunk leaves m m' c :=
  .inr ⟨error, .inl failed, .inr ⟨c, i, .refl c, found, dispatched, agrees⟩⟩

theorem nameFault {error : ExecutionError} (failed : m'.control = .raise error)
    (names : error.IsOfNames) : Outcome chunk leaves m m' c :=
  .inr ⟨error, .inl failed, .inl names⟩

/-- What holds after a move of the stack machine holds before it. -/
theorem after (moves : chunk.Moves HostFunction.standard c d) (rest : Outcome chunk leaves m m' d) :
    Outcome chunk leaves m m' c := by
  rcases rest with ⟨e, related, further | ⟨rfl, _⟩⟩ | fails
  · exact .move (moves.trans further.reaches) related
  · exact .move moves related
  · exact .inr (fails.after moves.reaches)

end Outcome

/-! ## Blocks and loops -/

section

variable {control : Control} {frames : List Frame} {depth : Nat} {global : Scope} {world : World}
  {vars : NameMap Scalar} {clock : Clock} {index next : Nat} {stack : List Scalar}

theorem simulates_enter {block : List Stmt} (placed : BlockAt chunk block index next)
    (goes : GoesOn chunk leaves frames next) (agrees : Agrees global world.heap vars) :
    Simulates chunk leaves (Machine.enter ⟨control, frames, none, depth, global, world⟩ block)
      ⟨index, [], vars, clock⟩ := by
  cases placed with
  | nil => exact ⟨rfl, agrees, .ended goes⟩
  | @cons _ _ _ s rest first others =>
    cases rest with
    | nil =>
      cases others with
      | nil => exact ⟨rfl, agrees, .exec first goes⟩
    | cons second rest => exact ⟨rfl, agrees, .exec first (.block others goes)⟩

theorem weight_enter (block : List Stmt) :
    (Machine.enter ⟨control, frames, none, depth, global, world⟩ block).weight ≤
      2 * (Stmt.nodesAll block).length + 1 + (frames.map Frame.weight).sum := by
  match block with
  | [] => simp [Machine.enter, Machine.give, Machine.weight, Control.weight, Stmt.nodesAll]
  | [s] => simp [Machine.enter, Machine.weight, Control.weight, Stmt.nodesAll]
  | s :: second :: rest =>
    simp only [Machine.enter, Machine.weight, Control.weight, Frame.weight, Stmt.nodesAll, List.map_cons,
      List.sum_cons, List.length_append, ge_iff_le]
    omega

/-- Going on with a block is less than still having to. -/
theorem weight_enterAfter (value : Value) (block : List Stmt) :
    (Machine.enterAfter ⟨.give value, frames, none, depth, global, world⟩ value block).weight <
      Machine.weight ⟨.give value, .sequence block :: frames, none, depth, global, world⟩ := by
  simp only [Machine.weight, Control.weight, Frame.weight, List.map_cons, List.sum_cons]
  cases block with
  | nil =>
    simp only [Machine.enterAfter, Machine.give, Stmt.nodesAll, List.length_nil]
    omega
  | cons s rest =>
    refine Nat.lt_of_le_of_lt (weight_enter (s :: rest)) ?_
    omega

theorem simulates_enterProgram {p : Program} (placed : ProgramAt chunk leaves p index)
    (agrees : Agrees global world.heap vars) :
    Simulates chunk leaves (Machine.enter ⟨control, [], none, depth, global, world⟩ p)
      ⟨index, [], vars, clock⟩ := by
  cases placed with
  | nil halt => exact ⟨rfl, agrees, .ended (.done rfl halt)⟩
  | last value halt => exact ⟨rfl, agrees, .last value rfl halt⟩
  | @cons _ _ _ s rest first others =>
    cases rest with
    | nil =>
      cases others with
      | nil halt => exact ⟨rfl, agrees, .exec first (.done rfl halt)⟩
    | cons second rest => exact ⟨rfl, agrees, .exec first (.program others)⟩

theorem simulates_loopNext {loop : Loop} {last : Value} (placed : LoopAt chunk loop index next)
    (goes : GoesOn chunk leaves frames next) (agrees : Agrees global world.heap vars) :
    Simulates chunk leaves (Machine.loopNext ⟨control, frames, none, depth, global, world⟩ loop last)
      ⟨index, [], vars, clock⟩ := by
  have again := placed
  obtain ⟨test, update, body⟩ := loop
  cases placed with
  | intro tested repeated updated jump =>
    cases test with
    | some test =>
      cases tested with
      | some value branch =>
        exact ⟨rfl, agrees, .eval value (.forTest branch repeated updated jump again goes)⟩
    | none =>
      cases tested with
      | none => exact simulates_enter repeated (.forBody updated jump again goes) agrees

theorem simulates_whileTest {test : Expr} {body : List Stmt} {last : Value}
    (placed : LoopAt chunk ⟨some test, none, body⟩ index next) (goes : GoesOn chunk leaves frames next)
    (agrees : Agrees global world.heap vars) :
    Simulates chunk leaves (Machine.evalFor ⟨control, frames, none, depth, global, world⟩
      (.whileTest test body last) test) ⟨index, [], vars, clock⟩ := by
  have again := placed
  cases placed with
  | intro tested repeated updated back =>
    cases tested with
    | some value branch =>
      cases updated with
      | none => exact ⟨rfl, agrees, .eval value (.whileTest branch repeated back again goes)⟩

theorem weight_loopNext (loop : Loop) (last : Value) :
    (Machine.loopNext ⟨control, frames, none, depth, global, world⟩ loop last).weight ≤
      loop.weight + 1 + (frames.map Frame.weight).sum := by
  obtain ⟨test, update, body⟩ := loop
  cases test with
  | some test =>
    simp only [Machine.loopNext, Machine.evalFor, Machine.weight, Control.weight, Frame.weight,
      Loop.weight, Expr.nodesOfClause, List.map_cons, List.sum_cons]
    omega
  | none =>
    have inner : (Machine.loopNext ⟨control, frames, none, depth, global, world⟩
        ⟨none, update, body⟩ last).weight ≤ _ := weight_enter body
    simp only [List.map_cons, List.sum_cons, Frame.weight] at inner
    simp only [Loop.weight]
    omega

/-! ## The end of a statement -/

/-- The stack machine follows when a value is handed to frames that do not look at it. -/
theorem GoesOn.step (goes : GoesOn chunk leaves frames index) (value : Value)
    (agrees : Agrees global world.heap vars) :
    Outcome chunk leaves ⟨.give value, frames, none, depth, global, world⟩
      (Machine.step .standard ⟨.give value, frames, none, depth, global, world⟩)
      ⟨index, [], vars, clock⟩ := by
  -- By induction, since any number of jumps may come before the code of what the frames do.
  induction goes with
  | done none halt =>
    refine .stay ⟨rfl, agrees, .empty none halt⟩ ?_
    simp [Machine.step, Machine.weight, Control.weight]
  | jump found _ ih => exact .after (.one found rfl) ih
  | @block _ _ rest frames placed goes _ =>
    cases rest with
    | nil =>
      cases placed with
      | nil => exact .stay ⟨rfl, agrees, .ended goes⟩ (weight_enterAfter value [])
    | cons s rest =>
      exact .stay (simulates_enter placed goes agrees) (weight_enterAfter value (s :: rest))
  | @program _ rest placed =>
    cases rest with
    | nil =>
      cases placed with
      | nil halt =>
        exact .stay ⟨rfl, agrees, .ended (.done rfl halt)⟩ (weight_enterAfter value [])
    | cons s rest =>
      exact .stay (simulates_enterProgram placed agrees) (weight_enterAfter value (s :: rest))
  | whileBody jump placed goes _ =>
    exact .move (.one jump rfl) (simulates_whileTest placed goes agrees)
  | @forBody _ _ _ _ loop frames updated jump placed goes _ =>
    obtain ⟨test, update, body⟩ := loop
    cases updated with
    | none => exact .move (.one jump rfl) (simulates_loopNext placed goes agrees)
    | some effect pop =>
      refine .stay ⟨rfl, agrees, .eval effect (.forUpdate pop jump placed goes)⟩ ?_
      simp [Machine.step, Machine.resume, Machine.evalFor, Machine.weight, Control.weight,
        Frame.weight, Expr.nodesOfClause]
  | @forInit _ _ loop frames placed goes _ =>
    refine .stay (simulates_loopNext placed goes agrees) (Nat.lt_of_le_of_lt (weight_loopNext loop _) ?_)
    simp only [Machine.weight, Control.weight, Frame.weight, List.map_cons, List.sum_cons]
    omega

/-! ## The value of an expression -/

/-- The stack machine follows an assignment whose value is on top of the stack. -/
theorem assign_step {target : String} {value : Scalar} (free : target ∉ libraryNames)
    (dup : chunk.code[index]? = some .dup)
    (store : chunk.code[index + 1]? = some (.storeVar target))
    (takes : TakesValue chunk leaves frames (index + 2) stack)
    (agrees : Agrees global world.heap vars) :
    Outcome chunk leaves m
      (Machine.assign ⟨control, frames, none, depth, global, world⟩ target (.scalar value))
      ⟨index, value :: stack, vars, clock⟩ := by
  unfold Machine.assign
  split
  · exact .nameFault rfl trivial
  · next cell found =>
    have bound := (agrees.bound.cell?_eq_some).1 found
    have copied : chunk.Moves HostFunction.standard ⟨index, value :: stack, vars, clock⟩
        ⟨index + 1, value :: value :: stack, vars, clock⟩ := .one dup rfl
    have stored : chunk.Moves HostFunction.standard ⟨index + 1, value :: value :: stack, vars, clock⟩
        ⟨index + 2, value :: stack, vars.insert target value, clock⟩ := .one store rfl
    exact .move (copied.trans stored.reaches) ⟨rfl, agrees.update free bound value, .value takes⟩

theorem callBuiltin_math {operation : String} {f : MathFunction}
    (found : BuiltinTable.standard.find? "Math" operation = some (.ofMath f)) (m : Machine)
    (args : List Scalar) : m.callBuiltin .standard "Math" operation (args.map .scalar) =
      m.giveResult ((f.call (args.map Scalar.given)).map .number) := by
  have same : (args.map Value.scalar).map (fun a => (a.kind, a.number?)) = args.map Scalar.given := by
    rw [List.map_map]
    rfl
  simp only [Machine.callBuiltin, found, Builtin.ofMath, Builtin.ofArguments, same]
  cases f.call (args.map Scalar.given) <;> rfl

theorem dispatch_math {name : String} {host : HostFunction} {f : MathFunction} {constants : Array Scalar}
    (found : HostFunction.standard.get? name = some host) (does : host.Does f)
    {args : List Scalar} (enough : args.length = host.arity) (operands : c.stack = args ++ stack) :
    c.dispatch HostFunction.standard constants (.call name host.arity) =
      (f.call (args.reverse.map Scalar.given)).map fun x => some (c.advance (.number x :: stack)) := by
  have length : host.arity ≤ c.stack.length := by
    rw [operands, List.length_append]
    exact enough ▸ Nat.le_add_right _ _
  have dispatched := @Config.dispatch_call _ constants _ _ _ found length
  rw [operands, List.take_left' enough, List.drop_left' enough] at dispatched
  have answer := does c.clock args.reverse (by rw [List.length_reverse, enough])
  refine dispatched.trans ?_
  simp only [Config.callHost, answer]
  cases f.call (args.reverse.map Scalar.given) <;> rfl

theorem binary_cases {op : BinaryOp} (found : chunk.code[index]? = some (.binary op))
    (left right : Scalar) :
    (∃ error, op.onScalars left right = .error error ∧
      Config.dispatch HostFunction.standard chunk.constants ⟨index, right :: left :: stack, vars, clock⟩
        (.binary op) = .error error) ∨
    ∃ value, op.onScalars left right = .ok value ∧ chunk.Moves HostFunction.standard
      ⟨index, right :: left :: stack, vars, clock⟩ ⟨index + 1, value :: stack, vars, clock⟩ := by
  have dispatched : Config.dispatch HostFunction.standard chunk.constants
      ⟨index, right :: left :: stack, vars, clock⟩ (.binary op) = _ := Config.dispatch_binary rfl
  rw [Instr.combine_eq] at dispatched
  cases result : op.onScalars left right with
  | error error =>
    rw [result] at dispatched
    exact .inl ⟨error, rfl, dispatched⟩
  | ok value =>
    rw [result] at dispatched
    exact .inr ⟨value, rfl, .one found dispatched⟩

/-- The stack machine follows a call of `Math` whose arguments are on the stack, last first. -/
theorem callMath_step {operation : String} (done : List Scalar)
    (calls : CallsMath "Math" operation done.length)
    (found : chunk.code[index]? = some (.call ("Math." ++ operation) done.length))
    (takes : TakesValue chunk leaves frames (index + 1) stack)
    (agrees : Agrees global world.heap vars) :
    Outcome chunk leaves m (Machine.callBuiltin .standard
      ⟨control, frames, none, depth, global, world⟩ "Math" operation (done.map Value.scalar).reverse)
      ⟨index, done ++ stack, vars, clock⟩ := by
  obtain ⟨host, f, inTable, arity, does, builtin⟩ := calls.function
  rw [← List.map_reverse, callBuiltin_math builtin]
  have dispatched : Config.dispatch HostFunction.standard chunk.constants
      ⟨index, done ++ stack, vars, clock⟩ (.call ("Math." ++ operation) host.arity) = _ :=
    dispatch_math inTable does arity.symm rfl
  rw [← arity] at found
  cases result : f.call (done.reverse.map Scalar.given) with
  | error error =>
    rw [result] at dispatched
    exact .fail rfl found dispatched agrees
  | ok x =>
    rw [result] at dispatched
    exact .move (.one found dispatched) ⟨rfl, agrees, .value takes⟩

theorem moves_of_truthy {other : Nat} {value : Scalar}
    (found : chunk.code[index]? = some (.jumpIfFalse other)) (holds : value.isTruthy = true) :
    chunk.Moves HostFunction.standard ⟨index, value :: stack, vars, clock⟩
      ⟨index + 1, stack, vars, clock⟩ :=
  .one found ((Config.dispatch_jumpIfFalse rfl).trans (if_pos holds))

theorem moves_of_not_truthy {other : Nat} {value : Scalar}
    (found : chunk.code[index]? = some (.jumpIfFalse other)) (fails : ¬value.isTruthy = true) :
    chunk.Moves HostFunction.standard ⟨index, value :: stack, vars, clock⟩
      ⟨other, stack, vars, clock⟩ :=
  .one found ((Config.dispatch_jumpIfFalse rfl).trans (if_neg fails))

/-- The stack machine follows when the value on top of its stack is handed to the frames. -/
theorem TakesValue.step (takes : TakesValue chunk leaves frames index stack) (value : Scalar)
    (agrees : Agrees global world.heap vars) :
    Outcome chunk leaves ⟨.give (.scalar value), frames, none, depth, global, world⟩
      (Machine.step .standard ⟨.give (.scalar value), frames, none, depth, global, world⟩)
      ⟨index, value :: stack, vars, clock⟩ := by
  cases takes with
  | leftOperand right found takes =>
    refine .stay ⟨rfl, agrees, .eval right (.rightOperand found takes)⟩ ?_
    simp [Machine.step, Machine.resume, Machine.evalFor, Machine.weight, Control.weight,
      Frame.weight]
  | @rightOperand _ op left frames stack found takes =>
    have stepped : Machine.step .standard
        ⟨.give (.scalar value), .rightOperand op (.scalar left) :: frames, none, depth, global, world⟩ =
          Machine.giveResult ⟨.give (.scalar value), frames, none, depth, global, world⟩
            ((op.onScalars left value).map .scalar) := rfl
    rw [stepped]
    rcases binary_cases found left value with ⟨error, result, failed⟩ | ⟨value, result, moves⟩
    · rw [result]
      exact .fail rfl found failed agrees
    · rw [result]
      exact .move moves ⟨rfl, agrees, .value takes⟩
  | assign free dup store takes => exact assign_step free dup store takes agrees
  | @compound _ target op old frames stack free found dup store takes =>
    have value? : op.onValues world.heap (.scalar old) (.scalar value) =
        (op.onScalars old value).map .scalar := rfl
    simp only [Machine.step, Machine.resume, value?]
    rcases binary_cases found old value with ⟨error, result, failed⟩ | ⟨value, result, moves⟩
    · rw [result]
      exact .fail rfl found failed agrees
    · rw [result]
      exact .after moves (assign_step free dup store takes agrees)
  | @argument _ _ operation done rest frames stack calls placed found takes =>
    cases placed with
    | nil => exact callMath_step (value :: done) calls found takes agrees
    | @cons _ _ _ e rest first others =>
      have count : done.length + 1 + (e :: rest).length = (value :: done).length + 1 + rest.length := by
        simp only [List.length_cons]
        omega
      rw [count] at calls found
      refine .stay ⟨rfl, agrees, .eval first (.argument calls others found takes)⟩ ?_
      simp only [Machine.step, Machine.resume, Machine.argumentNext, Machine.evalFor, Machine.weight,
        Control.weight, Frame.weight, Expr.nodesAll, List.map_cons, List.sum_cons, List.length_append]
      omega
  | declare free found goes =>
    exact .move (.one found rfl) ⟨rfl, agrees.define free value, .ended goes⟩
  | @branch _ _ _ _ consequent alternate frames found placed goes placed' goes' =>
    simp only [Machine.step, Machine.resume]
    by_cases holds : (Value.scalar value).isTruthy = true
    · rw [if_pos holds]
      exact .move (moves_of_truthy found holds) (simulates_enter placed goes agrees)
    · rw [if_neg holds]
      refine .move (moves_of_not_truthy found holds) ?_
      cases alternate with
      | some block => exact simulates_enter placed' goes' agrees
      | none =>
        cases placed' with
        | nil => exact ⟨rfl, agrees, .ended goes'⟩
  | whileTest found placed jump again goes =>
    simp only [Machine.step, Machine.resume]
    by_cases holds : (Value.scalar value).isTruthy = true
    · rw [if_pos holds]
      exact .move (moves_of_truthy found holds)
        (simulates_enter placed (.whileBody jump again goes) agrees)
    · rw [if_neg holds]
      exact .move (moves_of_not_truthy found holds) ⟨rfl, agrees, .ended goes⟩
  | forTest found placed updated jump again goes =>
    simp only [Machine.step, Machine.resume]
    by_cases holds : (Value.scalar value).isTruthy = true
    · rw [if_pos holds]
      exact .move (moves_of_truthy found holds)
        (simulates_enter placed (.forBody updated jump again goes) agrees)
    · rw [if_neg holds]
      exact .move (moves_of_not_truthy found holds) ⟨rfl, agrees, .ended goes⟩
  | forUpdate pop jump again goes =>
    have popped : chunk.Moves HostFunction.standard ⟨index, [value], vars, clock⟩
        ⟨index + 1, [], vars, clock⟩ := .one pop rfl
    exact .move (popped.trans (.one jump rfl)) (simulates_loopNext again goes agrees)
  | drop pop goes => exact .after (.one pop rfl) (goes.step (.scalar value) agrees)
  | keep kept halt =>
    refine .stay ⟨rfl, agrees, .kept kept halt⟩ ?_
    simp [Machine.step, Machine.weight, Control.weight]

/-! ## Expressions and statements -/

/-- The value of a name that is no library. -/
theorem Agrees.lookup_cases {name : String} (agrees : Agrees global world.heap vars)
    (free : name ∉ libraryNames) :
    Machine.lookup? ⟨control, frames, none, depth, global, world⟩ name = none ∨
      ∃ value, Machine.lookup? ⟨control, frames, none, depth, global, world⟩ name =
        some (.scalar value) ∧ vars.get? name = some value := by
  have same : Machine.lookup? ⟨control, frames, none, depth, global, world⟩ name = _ :=
    agrees.other name free
  cases found : vars.get? name with
  | none =>
    rw [found] at same
    exact .inl same
  | some value =>
    rw [found] at same
    exact .inr ⟨value, same, rfl⟩

/-- Scalars have no methods. -/
theorem callMethod_step {property display : String} {args : List Expr} (receiver : Scalar) :
    Outcome chunk leaves m (Machine.callMethod .standard
      ⟨control, frames, none, depth, global, world⟩ (.scalar receiver) property display args) c := by
  cases receiver with
  | string text =>
    by_cases length : property = "length"
    · simp only [Machine.callMethod, readProperty, if_pos length]
      exact .nameFault rfl trivial
    · simp only [Machine.callMethod, readProperty, if_neg length]
      exact .nameFault rfl trivial
  | _ => exact .nameFault rfl trivial

theorem ExprAt.step {e : Expr} (placed : ExprAt chunk e index next)
    (takes : TakesValue chunk leaves frames next stack) (agrees : Agrees global world.heap vars) :
    Outcome chunk leaves ⟨.eval e, frames, none, depth, global, world⟩
      (Machine.step .standard ⟨.eval e, frames, none, depth, global, world⟩)
      ⟨index, stack, vars, clock⟩ := by
  simp only [Machine.step]
  cases placed with
  | literal found loads =>
    exact .move (.one found (Config.dispatch_loadConst loads)) ⟨rfl, agrees, .value takes⟩
  | @identifier _ name free found =>
    simp only [Machine.evalStep]
    rcases agrees.lookup_cases free with unbound | ⟨value, same, known⟩
    · rw [unbound]
      exact .nameFault rfl trivial
    · rw [same]
      exact .move (.one found (Config.dispatch_loadVar known)) ⟨rfl, agrees, .value takes⟩
  | binary left right found =>
    refine .stay ⟨rfl, agrees, .eval left (.leftOperand right found takes)⟩ ?_
    simp only [Machine.evalStep, Machine.evalFor, Machine.weight, Control.weight, Frame.weight, Expr.nodes,
      List.map_cons, List.sum_cons, List.length_cons, List.length_append]
    omega
  | assign plain free value dup store =>
    simp only [Machine.evalStep, plain]
    refine .stay ⟨rfl, agrees, .eval value (.assign free dup store takes)⟩ ?_
    simp [Machine.evalFor, Machine.weight, Control.weight, Frame.weight, Expr.nodes]
  | compound combined free load value found dup store =>
    simp only [Machine.evalStep, combined]
    rcases agrees.lookup_cases free with unbound | ⟨old, same, known⟩
    · rw [unbound]
      exact .nameFault rfl trivial
    · rw [same]
      exact .move (.one load (Config.dispatch_loadVar known))
        ⟨rfl, agrees, .eval value (.compound free found dup store takes)⟩
  | function free =>
    simp only [Machine.evalStep, Machine.evalCall]
    rcases agrees.lookup_cases free with unbound | ⟨value, same, _⟩
    · rw [unbound]
      exact .nameFault rfl trivial
    · rw [same]
      exact .nameFault rfl trivial
  | method free =>
    simp only [Machine.evalStep, Machine.evalCall]
    rcases agrees.lookup_cases free with unbound | ⟨value, same, _⟩
    · rw [unbound]
      exact .nameFault rfl trivial
    · rw [same]
      exact callMethod_step value
  | @math _ _ operation args calls arguments found =>
    obtain ⟨f, arity, host, builtin⟩ := calls.function
    have library : Machine.lookup? ⟨.eval (.call (.method "Math" operation) args), frames, none, depth,
        global, world⟩ "Math" = some (.library "Math") := agrees.library "Math" (by decide)
    simp only [Machine.evalStep, Machine.evalCall, library, Machine.callMethod, builtin]
    cases arguments with
    | nil => exact callMath_step [] calls found takes agrees
    | @cons _ _ _ e rest first others =>
      have count : (e :: rest).length = ([] : List Scalar).length + 1 + rest.length := by
        simp only [List.length_cons, List.length_nil]
        omega
      rw [count] at calls found
      refine .stay ⟨rfl, agrees, .eval first (.argument calls others found takes)⟩ ?_
      simp only [Machine.argumentNext, Machine.evalFor, Machine.weight, Control.weight, Frame.weight,
        Expr.nodes, Callee.nodes, Expr.nodesAll, List.nil_append, List.map_cons, List.sum_cons,
        List.length_cons, List.length_append]
      omega

theorem StmtAt.step {s : Stmt} (placed : StmtAt chunk s index next)
    (goes : GoesOn chunk leaves frames next) (agrees : Agrees global world.heap vars) :
    Outcome chunk leaves ⟨.exec s, frames, none, depth, global, world⟩
      (Machine.step .standard ⟨.exec s, frames, none, depth, global, world⟩)
      ⟨index, [], vars, clock⟩ := by
  -- The evaluator goes into the first part of the statement, whose code begins where that of the statement
  -- does.  The stack machine has nothing to do meanwhile, so the weight must go down.
  simp only [Machine.step]
  cases placed with
  | declare free init store =>
    refine .stay ⟨rfl, agrees, .eval init (.declare free store goes)⟩ ?_
    simp [Machine.execStep, Machine.evalFor, Machine.weight, Control.weight, Frame.weight, Stmt.nodes]
  | expression value pop =>
    refine .stay ⟨rfl, agrees, .eval value (.drop pop goes)⟩ ?_
    simp [Machine.execStep, Machine.weight, Control.weight, Stmt.nodes]
  | ifThen test branch consequent =>
    refine .stay ⟨rfl, agrees, .eval test (.branch branch consequent goes .nil goes)⟩ ?_
    simp only [Machine.execStep, Machine.evalFor, Machine.weight, Control.weight, Frame.weight,
      Stmt.nodes, List.map_cons, List.sum_cons, List.length_cons, List.length_append, List.length_map]
    omega
  | ifElse test branch consequent jump alternate =>
    refine .stay ⟨rfl, agrees, .eval test (.branch branch consequent (.jump jump goes) alternate goes)⟩ ?_
    simp only [Machine.execStep, Machine.evalFor, Machine.weight, Control.weight, Frame.weight,
      Stmt.nodes, List.map_cons, List.sum_cons, List.length_cons, List.length_append, List.length_map]
    omega
  | whileLoop placed =>
    refine .stay (simulates_whileTest placed goes agrees) ?_
    simp only [Machine.execStep, Machine.evalFor, Machine.weight, Control.weight, Frame.weight,
      Stmt.nodes, List.map_cons, List.sum_cons, List.length_cons, List.length_append, List.length_map]
    omega
  | forLoop init placed =>
    cases init with
    | none =>
      refine .stay (simulates_loopNext placed goes agrees)
        (Nat.lt_of_le_of_lt (weight_loopNext _ _) ?_)
      simp only [Machine.weight, Control.weight, Loop.weight, Stmt.nodes, Stmt.nodesOfClause,
        List.nil_append, List.length_cons, List.length_append, List.length_map]
      omega
    | some first =>
      refine .stay ⟨rfl, agrees, .exec first (.forInit placed goes)⟩ ?_
      simp only [Machine.execStep, Machine.weight, Control.weight, Frame.weight, Loop.weight, Stmt.nodes,
        Stmt.nodesOfClause, List.map_cons, List.sum_cons, List.length_cons, List.length_append,
        List.length_map]
      omega

/-- The stack machine follows every step of the evaluator. -/
theorem Simulates.step (related : Simulates chunk leaves m c) (running : m.result? = none) :
    Outcome chunk leaves m (m.step .standard) c := by
  obtain ⟨_, frames, _, depth, global, world⟩ := m
  obtain ⟨index, stack, vars, clock⟩ := c
  obtain ⟨rfl, agrees, point⟩ := related
  cases point with
  | eval placed takes => exact placed.step takes agrees
  | exec placed goes => exact placed.step goes agrees
  | last placed kept halt =>
    refine .stay ⟨rfl, agrees, .eval placed (.keep kept halt)⟩ ?_
    simp [Machine.step, Machine.execStep, Machine.weight, Control.weight, Stmt.nodes]
  | value takes => exact takes.step _ agrees
  | ended goes => exact goes.step _ agrees
  | kept => cases running
  | empty => cases running

end

/-! ## Whole runs -/

/-- However far the evaluator is run, the stack machine comes to a related state or fails as well. -/
theorem Simulates.run (related : Simulates chunk leaves m c) (n : Nat) :
    (∃ d, chunk.Reaches HostFunction.standard c d ∧
      Simulates chunk leaves (m.run .standard n) d) ∨ FailsToo chunk (m.run .standard n) c := by
  induction n generalizing m c with
  | zero => exact .inl ⟨c, .refl c, related⟩
  | succ n ih =>
    cases halted : m.result? with
    | some result =>
      rw [Machine.run_of_halted (Machine.result?_eq_some.1 halted)]
      exact .inl ⟨c, .refl c, related⟩
    | none =>
      rw [Machine.run_succ halted]
      rcases related.step halted with ⟨d, next, followed⟩ | fails
      · have reaches : chunk.Reaches HostFunction.standard c d := by
          rcases followed with moves | ⟨rfl, _⟩
          · exact moves.reaches
          · exact .refl _
        rcases ih next with ⟨e, further, last⟩ | fails
        · exact .inl ⟨e, reaches.trans further, last⟩
        · exact .inr (fails.after reaches)
      · exact .inr (fails.run n)

/-- If the evaluator never halts, the stack machine moves again and again. -/
theorem Simulates.moves (related : Simulates chunk leaves m c)
    (forever : ∀ n, (m.run .standard n).result? = none) :
    ∃ n d, chunk.Moves HostFunction.standard c d ∧ Simulates chunk leaves (m.run .standard n) d := by
  -- The evaluator cannot take steps of its own forever: its weight goes down with each.
  induction weight : m.weight using Nat.strongRecOn generalizing m with
  | ind weight ih =>
    have running : m.result? = none := forever 0
    rcases related.step running with ⟨d, next, moves | ⟨rfl, less⟩⟩ | ⟨error, failed, _⟩
    · refine ⟨1, d, moves, ?_⟩
      rw [Machine.run_succ running]
      exact next
    · have later (n : Nat) : ((m.step .standard).run .standard n).result? = none := by
        rw [← Machine.run_succ running]
        exact forever (n + 1)
      obtain ⟨n, d, moves, last⟩ := ih _ (weight ▸ less) next later rfl
      refine ⟨n + 1, d, moves, ?_⟩
      rw [Machine.run_succ running]
      exact last
    · obtain ⟨n, halted⟩ := failed.exists_halted .standard
      have stopped := forever (n + 1)
      rw [Machine.run_succ running, Machine.result?_eq_some.2 halted] at stopped
      cases stopped

end TinyScript
