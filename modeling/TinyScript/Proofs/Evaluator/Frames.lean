import TinyScript.Proofs.Evaluator.Effect

/-! # What a step does to the frames

A step does not look at the frames below the topmost one.  It takes off that one, if a value is handed to
it or an error comes to it, and leaves the others where they are, with new ones on top or not: in the same
call, or in one that it begins.

`Machine.step_frames` says so for every step and every table of operations.
-/

namespace TinyScript

/-! ## Active calls -/

namespace Frame

/-- The number of calls that are active while the frames wait. -/
def activeCalls (frames : List Frame) : Nat := frames.countP (·.isCall)

@[simp] theorem activeCalls_nil : activeCalls [] = 0 := rfl

@[simp] theorem activeCalls_returnTo (locals : Option Scope) (frames : List Frame) :
    activeCalls (.returnTo locals :: frames) = activeCalls frames + 1 := List.countP_cons_of_pos rfl

@[simp] theorem activeCalls_append (above below : List Frame) :
    activeCalls (above ++ below) = activeCalls above + activeCalls below := List.countP_append

theorem activeCalls_cons {frame : Frame} (plain : frame.isCall = false) (frames : List Frame) :
    activeCalls (frame :: frames) = activeCalls frames := by
  simp [activeCalls, plain]

/-- There is a scope of a call exactly where a call is active: in the state, and in the frame of each call
that another one has made. -/
def Nested : Option Scope → List Frame → Prop
  | locals, [] => locals = none
  | locals, .returnTo outer :: frames => locals.isSome ∧ Nested outer frames
  | locals, _ :: frames => Nested locals frames

theorem nested_cons {frame : Frame} (plain : frame.isCall = false) (locals : Option Scope)
    (frames : List Frame) : Nested locals (frame :: frames) ↔ Nested locals frames := by
  cases frame with
  | returnTo outer => cases plain
  | _ => rfl

theorem nested_append {more : List Frame} (plain : activeCalls more = 0) (locals : Option Scope)
    (frames : List Frame) : Nested locals (more ++ frames) ↔ Nested locals frames := by
  induction more with
  | nil => rfl
  | cons frame more ih =>
    have noCall : frame.isCall = false ∧ activeCalls more = 0 := by
      cases call : frame.isCall <;> simp_all [activeCalls]
    rw [List.cons_append, nested_cons noCall.1, ih noCall.2]

/-- What the scope is makes no difference, only that there is one. -/
theorem Nested.congr {locals locals' : Option Scope} {frames : List Frame} (nested : Nested locals frames)
    (same : locals'.isSome = locals.isSome) : Nested locals' frames := by
  induction frames with
  | nil =>
    simp only [Nested] at nested ⊢
    simpa [nested] using same
  | cons frame frames ih =>
    cases frame with
    | returnTo outer => exact ⟨same.trans nested.1, nested.2⟩
    | _ => exact ih nested

end Frame

/-! ## Errors -/

/-- An operator fails only for the kinds of its operands. -/
theorem BinaryOp.onValues_error {op : BinaryOp} {h : Heap Object} {left right : Value}
    {error : ExecutionError} (failed : op.onValues h left right = .error error) :
    ∃ k l, error = .typeMismatch op.symbol k l := by
  unfold BinaryOp.onValues at failed
  split at failed
  · next a b =>
    cases result : op.onScalars a b with
    | ok value => simp [result, Except.map] at failed
    | error wrong =>
      simp only [result, Except.map] at failed
      cases failed
      exact BinaryOp.onScalars_error result
  · split at failed
    · cases failed
    · cases failed
    · split at failed
      · cases failed
      · cases failed
        exact ⟨_, _, rfl⟩
    · cases failed
      exact ⟨_, _, rfl⟩

/-- A property is read of everything but what has none. -/
theorem readProperty_error {h : Heap Object} {receiver : Value} {property : String}
    {error : ExecutionError} (failed : readProperty h receiver property = .error error) :
    error = .notAnObject property := by
  unfold readProperty at failed
  repeat' split at failed
  all_goals cases failed
  rfl

/-! ## Moves -/

/-- Some operation of the table gives this error by itself. -/
def BuiltinTable.Answers (table : BuiltinTable) (error : ExecutionError) : Prop :=
  ∃ library operation builtin name args world, table.find? library operation = some builtin ∧
    (builtin name args world).1 = .error error

/-- The run has not ended, and no error is on its way. -/
def Machine.Calm (m : Machine) : Prop :=
  match m.control with
  | .raise _ | .halted _ => False
  | _ => True

/-- What a move makes of a state. -/
inductive Machine.Builds (table : BuiltinTable) (m m' : Machine) : Prop where
  /-- It goes on in the same call. -/
  | within (more : List Frame) (plain : Frame.activeCalls more = 0) (calm : m'.Calm)
      (frames : m'.frames = more ++ m.frames) (depth : m'.depth = m.depth)
      (locals : m'.locals.isSome = m.locals.isSome)
  /-- It begins a call. -/
  | call (above below : List Frame) (plainAbove : Frame.activeCalls above = 0)
      (plainBelow : Frame.activeCalls below = 0) (shallow : m.depth < callLimit) (calm : m'.Calm)
      (frames : m'.frames = above ++ .returnTo m.locals :: (below ++ m.frames))
      (depth : m'.depth = m.depth + 1) (locals : m'.locals.isSome)
  /-- It raises an error, or lets one pass. -/
  | fail (error : ExecutionError) (more : List Frame) (plain : Frame.activeCalls more = 0)
      (control : m'.control = .raise error) (frames : m'.frames = more ++ m.frames)
      (depth : m'.depth = m.depth) (locals : m'.locals.isSome = m.locals.isSome)
      (cause : m.control = .raise error ∨ ∀ limit, error = .callDepthExceeded limit →
        table.Answers error ∨ limit = callLimit ∧ callLimit ≤ m.depth)

namespace Machine

variable {table : BuiltinTable} {m m' : Machine}

theorem Calm.running (calm : m.Calm) : m.result? = none := by
  obtain ⟨control, frames, locals, depth, global, world⟩ := m
  cases control with
  | halted result => cases calm
  | _ => rfl

theorem Calm.not_raise (calm : m.Calm) (error : ExecutionError) : m.control ≠ .raise error := by
  intro raising
  rw [Calm, raising] at calm
  exact calm

/-- A frame that is put on top first is one more of those that are. -/
theorem Builds.of_push {frame : Frame} (plain : frame.isCall = false)
    (builds : { m with frames := frame :: m.frames }.Builds table m') : m.Builds table m' := by
  have single : Frame.activeCalls [frame] = 0 := Frame.activeCalls_cons plain []
  cases builds with
  | within more noCalls calm frames depth locals =>
    refine .within (more ++ [frame]) ?_ calm ?_ depth locals
    · rw [Frame.activeCalls_append, noCalls, single]
    · rw [frames, List.append_assoc, List.singleton_append]
  | call above below plainAbove plainBelow shallow calm frames depth locals =>
    refine .call above (below ++ [frame]) plainAbove ?_ shallow calm ?_ depth locals
    · rw [Frame.activeCalls_append, plainBelow, single]
    · rw [frames, List.append_assoc, List.singleton_append]
  | fail error more noCalls control frames depth locals cause =>
    refine .fail error (more ++ [frame]) ?_ control ?_ depth locals cause
    · rw [Frame.activeCalls_append, noCalls, single]
    · rw [frames, List.append_assoc, List.singleton_append]

/-- What the world is does not matter to the frames. -/
theorem Builds.of_world (world : World) (builds : { m with world }.Builds table m') :
    m.Builds table m' := by
  cases builds with
  | within more plain calm frames depth locals => exact .within more plain calm frames depth locals
  | call above below plainAbove plainBelow shallow calm frames depth locals =>
    exact .call above below plainAbove plainBelow shallow calm frames depth locals
  | fail error more plain control frames depth locals cause =>
    exact .fail error more plain control frames depth locals cause

section

variable (table : BuiltinTable) (m : Machine)

theorem builds_fail {error : ExecutionError} (other : ∀ limit, error ≠ .callDepthExceeded limit) :
    m.Builds table (m.fail error) :=
  .fail error [] rfl rfl rfl rfl rfl (.inr fun limit eq => absurd eq (other limit))

theorem builds_give (value : Value) : m.Builds table (m.give value) := .within [] rfl trivial rfl rfl rfl

theorem builds_onValues (op : BinaryOp) (left right : Value) :
    m.Builds table (m.giveResult (op.onValues m.world.heap left right)) := by
  cases combined : op.onValues m.world.heap left right with
  | ok value => exact m.builds_give table value
  | error error =>
    obtain ⟨k, l, rfl⟩ := BinaryOp.onValues_error combined
    exact m.builds_fail table (by simp)

theorem builds_readProperty (receiver : Value) (property : String) :
    m.Builds table (m.giveResult (readProperty m.world.heap receiver property)) := by
  cases read : readProperty m.world.heap receiver property with
  | ok value => exact m.builds_give table value
  | error error =>
    rw [readProperty_error read]
    exact m.builds_fail table (by simp)

theorem builds_evalFor {frame : Frame} (plain : frame.isCall = false) (e : Expr) :
    m.Builds table (m.evalFor frame e) :=
  .within [frame] (Frame.activeCalls_cons plain []) trivial rfl rfl rfl

/-- At most what is left of the block is put on top. -/
theorem enter_frames (block : List Stmt) : (m.enter block).Calm ∧
    ∃ more, Frame.activeCalls more = 0 ∧ (m.enter block).frames = more ++ m.frames := by
  match block with
  | [] => exact ⟨trivial, [], rfl, rfl⟩
  | [_] => exact ⟨trivial, [], rfl, rfl⟩
  | _ :: next :: rest => exact ⟨trivial, [.sequence (next :: rest)], rfl, rfl⟩

theorem builds_enter (block : List Stmt) : m.Builds table (m.enter block) := by
  obtain ⟨calm, more, plain, frames⟩ := m.enter_frames block
  have same := m.sameScene_enter block
  exact .within more plain calm frames same.depth (congrArg _ same.locals)

theorem builds_enterFor {frame : Frame} (plain : frame.isCall = false) (block : List Stmt) :
    m.Builds table (m.enterFor frame block) :=
  .of_push plain (builds_enter table _ block)

theorem builds_define (name : String) (value : Value) :
    m.Builds table ((m.define name value).give .undefined) := by
  obtain ⟨control, frames, locals, depth, global, world⟩ := m
  cases locals <;> exact .within [] rfl trivial rfl rfl rfl

theorem builds_assign (name : String) (value : Value) : m.Builds table (m.assign name value) := by
  unfold Machine.assign
  split
  · exact m.builds_fail table (by simp)
  · exact .within [] rfl trivial rfl rfl rfl

/-! ## Calls -/

theorem call_of_lt (shallow : m.depth < callLimit) (code : Function) (args : List Value) :
    m.call code args =
      { m with
        frames := .returnTo m.locals :: m.frames
        locals := some (Scope.defineAll .empty m.world.heap code.params args).1
        depth := m.depth + 1
        world := { m.world with heap := (Scope.defineAll .empty m.world.heap code.params args).2 }
        }.enter code.body := if_neg (Nat.not_le.2 shallow)

theorem builds_call (code : Function) (args : List Value) : m.Builds table (m.call code args) := by
  by_cases deep : callLimit ≤ m.depth
  · rw [m.call_of_le deep]
    refine .fail _ [] rfl rfl rfl rfl rfl (.inr fun limit eq => ?_)
    cases eq
    exact .inr ⟨rfl, deep⟩
  · have shallow := Nat.lt_of_not_le deep
    have same := m.sameScene_call shallow code args
    obtain ⟨calm, more, plain, frames⟩ := enter_frames _ code.body
    rw [← m.call_of_lt shallow code args] at calm frames
    exact .call more [] plain rfl shallow calm frames same.depth (congrArg _ same.locals)

theorem builds_allocate (o : Object) (value : Value) : m.Builds table ((m.allocate o).2.give value) :=
  .within [] rfl trivial rfl rfl rfl

theorem builds_giveArray (done : List Value) : m.Builds table (m.giveArray done) :=
  m.builds_allocate table _ _

theorem builds_mapNext (code : Function) (done rest : List Value) :
    m.Builds table (m.mapNext code done rest) := by
  cases rest with
  | nil => exact m.builds_giveArray table done
  | cons element rest =>
    have plain : (Frame.mapping code done rest).isCall = false := rfl
    exact .of_push plain (builds_call table _ code _)

theorem builds_reply (answer : Reply) : m.Builds table (m.reply answer) := by
  cases answer with
  | value result => exact m.builds_give table result
  | call code args => exact m.builds_call table code args
  | map code elements => exact m.builds_mapNext table code [] elements

theorem builds_callBuiltin (library operation : String) (args : List Value) :
    m.Builds table (m.callBuiltin table library operation args) := by
  unfold Machine.callBuiltin
  cases found : table.find? library operation with
  | none => exact m.builds_fail table (by simp)
  | some builtin =>
    obtain ⟨control, frames, locals, depth, global, world⟩ := m
    simp only
    cases answered : builtin (library ++ "." ++ operation) args world with
    | mk result world' =>
      cases result with
      | ok answer =>
        have builds := builds_reply table ⟨control, frames, locals, depth, global, world'⟩ answer
        exact .of_world world' builds
      | error error =>
        refine .fail error [] rfl rfl rfl rfl rfl (.inr fun limit eq => .inl ?_)
        exact ⟨library, operation, builtin, _, args, world, found, congrArg Prod.fst answered⟩

theorem builds_argumentNext (target : Target) (done : List Value) (rest : List Expr) :
    m.Builds table (m.argumentNext table target done rest) := by
  cases rest with
  | cons e rest => exact m.builds_evalFor table rfl e
  | nil =>
    cases target with
    | function code => exact m.builds_call table code _
    | builtin library operation => exact m.builds_callBuiltin table library operation _

theorem builds_callValue (value : Value) (display : String) (args : List Expr) :
    m.Builds table (m.callValue table value display args) := by
  cases value with
  | function code => exact m.builds_argumentNext table _ _ args
  | _ => exact m.builds_fail table (by simp)

theorem builds_callMethod (receiver : Value) (property display : String) (args : List Expr) :
    m.Builds table (m.callMethod table receiver property display args) := by
  unfold Machine.callMethod
  split
  · split
    · exact m.builds_argumentNext table _ _ args
    · exact m.builds_fail table (by simp)
  · split
    · exact m.builds_callValue table _ display args
    · next unread =>
      rw [readProperty_error unread]
      exact m.builds_fail table (by simp)

/-! ## Expressions -/

theorem builds_evalCall (callee : Callee) (args : List Expr) :
    m.Builds table (m.evalCall table callee args) := by
  cases callee with
  | function name =>
    simp only [Machine.evalCall]
    split
    · exact m.builds_callValue table _ name args
    · exact m.builds_fail table (by simp)
  | method receiver property =>
    simp only [Machine.evalCall]
    split
    · exact m.builds_callMethod table _ property _ args
    · exact m.builds_fail table (by simp)
  | computed target => cases target <;> exact m.builds_evalFor table rfl _

theorem builds_elementNext (done : List Value) (rest : List Expr) :
    m.Builds table (m.elementNext done rest) := by
  cases rest with
  | cons e rest => exact m.builds_evalFor table rfl e
  | nil => exact m.builds_giveArray table done

theorem builds_fieldNext (done : NameMap Value) (rest : List (String × Expr)) :
    m.Builds table (m.fieldNext done rest) := by
  cases rest with
  | cons field rest => exact m.builds_evalFor table rfl field.2
  | nil => exact m.builds_allocate table _ _

theorem builds_evalStep (e : Expr) : m.Builds table (m.evalStep table e) := by
  cases e with
  | literal value => exact m.builds_give table _
  | identifier name =>
    simp only [Machine.evalStep]
    split
    · exact m.builds_give table _
    · exact m.builds_fail table (by simp)
  | binary op left right => exact m.builds_evalFor table rfl left
  | assign op target value =>
    simp only [Machine.evalStep]
    split
    · exact m.builds_evalFor table rfl value
    · split
      · exact m.builds_evalFor table rfl value
      · exact m.builds_fail table (by simp)
  | call callee args => exact m.builds_evalCall table callee args
  | member receiver property => exact m.builds_evalFor table rfl receiver
  | array elements => exact m.builds_elementNext table [] elements
  | object fields => exact m.builds_fieldNext table .empty fields

/-! ## Statements and frames -/

theorem builds_loopNext (loop : Loop) (last : Value) : m.Builds table (m.loopNext loop last) := by
  unfold Machine.loopNext
  split
  · exact m.builds_evalFor table rfl _
  · exact m.builds_enterFor table rfl loop.body

theorem builds_execStep (s : Stmt) : m.Builds table (m.execStep s) := by
  cases s with
  | declare kind name init => exact m.builds_evalFor table rfl init
  | function name params body site => exact m.builds_define table name _
  | ifElse test consequent alternate => exact m.builds_evalFor table rfl test
  | forLoop init test update body =>
    cases init with
    | none => exact m.builds_loopNext table _ _
    | some init => exact .within [.forInit ⟨test, update, body⟩] rfl trivial rfl rfl rfl
  | whileLoop test body => exact m.builds_evalFor table rfl test
  | ret argument =>
    cases argument with
    | none => exact .within [] rfl trivial rfl rfl rfl
    | some argument => exact m.builds_evalFor table rfl argument
  | expression value => exact .within [] rfl trivial rfl rfl rfl

theorem builds_enterAfter (value : Value) (rest : List Stmt) :
    m.Builds table (m.enterAfter value rest) := by
  cases rest with
  | nil => exact m.builds_give table value
  | cons s rest => exact m.builds_enter table (s :: rest)

theorem builds_resume {frame : Frame} (plain : frame.isCall = false) (value : Value) :
    m.Builds table (m.resume table frame value) := by
  cases frame with
  | leftOperand op right => exact m.builds_evalFor table rfl right
  | rightOperand op left => exact m.builds_onValues table op left value
  | assign target combine =>
    cases combine with
    | none => exact m.builds_assign table target value
    | some combine =>
      simp only [Machine.resume]
      split
      · exact m.builds_assign table target _
      · next failed =>
        obtain ⟨k, l, rfl⟩ := BinaryOp.onValues_error failed
        exact m.builds_fail table (by simp)
  | property name => exact m.builds_readProperty table value name
  | element done rest => exact m.builds_elementNext table _ rest
  | field done key rest => exact m.builds_fieldNext table _ rest
  | callee display args => exact m.builds_callValue table value display args
  | method property display args => exact m.builds_callMethod table value property display args
  | argument target done rest => exact m.builds_argumentNext table target _ rest
  | mapping code done rest => exact m.builds_mapNext table code _ rest
  | returnTo locals => cases plain
  | declare name => exact m.builds_define table name value
  | branch consequent alternate =>
    simp only [Machine.resume]
    split
    · exact m.builds_enter table consequent
    · split
      · exact m.builds_enter table _
      · exact m.builds_give table _
  | sequence rest => exact m.builds_enterAfter table value rest
  | whileTest test body last =>
    simp only [Machine.resume]
    split
    · exact m.builds_enterFor table rfl body
    · exact m.builds_give table last
  | whileBody test body => exact m.builds_evalFor table rfl test
  | forInit loop => exact m.builds_loopNext table loop _
  | forTest loop last =>
    simp only [Machine.resume]
    split
    · exact m.builds_enterFor table rfl loop.body
    · exact m.builds_give table last
  | forBody loop =>
    simp only [Machine.resume]
    split
    · exact m.builds_evalFor table rfl _
    · exact m.builds_loopNext table loop value
  | forUpdate loop last => exact m.builds_loopNext table loop last
  | giveBack => exact .within [] rfl trivial rfl rfl rfl

theorem builds_unwind {frame : Frame} (plain : frame.isCall = false) {value : Value}
    (leaving : m.control = .leave value) : m.Builds table (m.unwind frame value) := by
  have calm : m.Calm := by simp only [Calm, leaving]
  cases frame with
  | returnTo locals => cases plain
  | forInit loop => exact m.builds_loopNext table loop _
  | _ => exact .within [] rfl calm rfl rfl rfl

theorem builds_abandon {frame : Frame} (plain : frame.isCall = false) {error : ExecutionError}
    (raising : m.control = .raise error) : m.Builds table (m.abandon frame) := by
  rw [m.abandon_plain plain]
  exact .fail error [] rfl raising rfl rfl rfl (.inl raising)

end

/-! ## Steps -/

/-- A value or an error is on its way to the topmost frame. -/
inductive Hands (m : Machine) : Prop where
  | give (value : Value) (control : m.control = .give value)
  | leave (value : Value) (control : m.control = .leave value)
  | raise (error : ExecutionError) (control : m.control = .raise error)

theorem not_hands_eval (m : Machine) (e : Expr) : ¬Hands { m with control := .eval e } := by
  intro hands
  cases hands with
  | _ _ control => cases control

theorem not_hands_exec (m : Machine) (s : Stmt) : ¬Hands { m with control := .exec s } := by
  intro hands
  cases hands with
  | _ _ control => cases control

/-- What a step can do to the frames. -/
inductive Stepped (table : BuiltinTable) (m m' : Machine) : Prop where
  /-- It leaves all of them where they are. -/
  | onto (control : ¬m.Hands) (builds : m.Builds table m')
  /-- It takes the topmost one off, which is not that of a call. -/
  | popped (control : m.Hands) (frame : Frame) (rest : List Frame) (plain : frame.isCall = false)
      (frames : m.frames = frame :: rest) (builds : { m with frames := rest }.Builds table m')
  /-- It comes back from a call. -/
  | back (control : m.Hands) (locals : Option Scope) (rest : List Frame) (after : Control)
      (frames : m.frames = .returnTo locals :: rest)
      (eq : m' = { m with control := after, frames := rest, locals, depth := m.depth - 1 })
      (returns : m'.Returns) (passes : ∀ error, after = .raise error → m.control = .raise error)
  /-- It ends the run. -/
  | done (control : m.Hands) (result : Except ExecutionError Value) (frames : m.frames = [])
      (eq : m' = { m with control := .halted result })

theorem step_frames (running : m.result? = none) : m.Stepped table (m.step table) := by
  obtain ⟨control, frames, locals, depth, global, world⟩ := m
  cases control with
  | eval e =>
    exact .onto (not_hands_eval ⟨.eval e, frames, locals, depth, global, world⟩ e) (builds_evalStep table _ e)
  | exec s =>
    exact .onto (not_hands_exec ⟨.exec s, frames, locals, depth, global, world⟩ s) (builds_execStep table _ s)
  | give value =>
    cases frames with
    | nil => exact .done (.give value rfl) (.ok value) rfl rfl
    | cons frame frames =>
      by_cases call : frame.isCall = true
      · cases frame with
        | returnTo outer =>
          exact .back (.give value rfl) outer frames (.give .undefined) rfl rfl (.value _ rfl) (by simp)
        | _ => cases call
      · rw [Bool.not_eq_true] at call
        exact .popped (.give value rfl) frame frames call rfl (builds_resume table _ call value)
  | leave value =>
    cases frames with
    | nil => exact .done (.leave value rfl) (.ok value) rfl rfl
    | cons frame frames =>
      by_cases call : frame.isCall = true
      · cases frame with
        | returnTo outer =>
          exact .back (.leave value rfl) outer frames (.give value) rfl rfl (.value _ rfl) (by simp)
        | _ => cases call
      · rw [Bool.not_eq_true] at call
        exact .popped (.leave value rfl) frame frames call rfl (builds_unwind table _ call rfl)
  | raise error =>
    cases frames with
    | nil => exact .done (.raise error rfl) (.error error) rfl rfl
    | cons frame frames =>
      by_cases call : frame.isCall = true
      · cases frame with
        | returnTo outer =>
          exact .back (.raise error rfl) outer frames (.raise error) rfl rfl (.error _ rfl) fun _ => id
        | _ => cases call
      · rw [Bool.not_eq_true] at call
        exact .popped (.raise error rfl) frame frames call rfl (builds_abandon table _ call rfl)
  | halted result => cases running

end Machine

end TinyScript
