import TinyScript.Proofs.Builtin
import TinyScript.Proofs.Evaluator.Run

/-! # What a step can do

Whatever a step of the evaluator is about, it does one of a few things to the state.  Inside of a call it
may change the heap in one place and the frames above that of the call; it may bind a name in the innermost
scope, begin a call, or come back from one.

`Machine.step_effect` says so for every step.  What all steps preserve is shown from there, without another
look at the kinds of expressions, statements and frames.
-/

namespace TinyScript

/-! ## Effects -/

/-- The frame of a call. -/
def Frame.isCall : Frame → Bool
  | .returnTo _ => true
  | _ => false

/-- The frames from that of the innermost call on. -/
def Frame.calls (frames : List Frame) : List Frame := frames.dropWhile (!·.isCall)

theorem Frame.calls_cons {frame : Frame} (plain : frame.isCall = false) (frames : List Frame) :
    Frame.calls (frame :: frames) = Frame.calls frames := by
  simp [Frame.calls, plain]

/-- What a step inside of a call can do to the heap; names are looked up in `env`. -/
inductive Heap.Effect (env : Env) (h : Heap Object) : Heap Object → Prop where
  | unchanged : Effect env h h
  | allocate (o : Object) : Effect env h (h.allocate o).2
  /-- The value of a name is overwritten. -/
  | assign {name : String} {cell : Handle} (found : env.cell? h name = some cell) (value : Value) :
      Effect env h (h.update cell fun _ => .binding value)
  /-- The elements of an array change in place. -/
  | modify (a : Handle) (f : Array Value → Array Value) :
      Effect env h (h.update a (Builtin.modifyElements f))

/-- Two states that differ only in what they are about to do inside of the innermost call. -/
structure Machine.SameScene (m n : Machine) : Prop where
  calls : Frame.calls n.frames = Frame.calls m.frames
  locals : n.locals = m.locals
  depth : n.depth = m.depth
  global : n.global = m.global
  heap : n.world.heap = m.world.heap

/-- A call has come back with a value or an error. -/
inductive Machine.Returns (m : Machine) : Prop where
  | value (value : Value) (control : m.control = .give value)
  | error (error : ExecutionError) (control : m.control = .raise error)

/-- What a step can do to a state. -/
inductive Machine.Effect (m m' : Machine) : Prop where
  /-- Scopes and calls are as they were. -/
  | inside (calls : Frame.calls m'.frames = Frame.calls m.frames) (locals : m'.locals = m.locals)
      (depth : m'.depth = m.depth) (global : m'.global = m.global)
      (heap : Heap.Effect m.env m.world.heap m'.world.heap)
  /-- A name is bound in the scope of the innermost call. -/
  | defineLocal (scope : Scope) (name : String) (value : Value)
      (calls : Frame.calls m'.frames = Frame.calls m.frames) (here : m.locals = some scope)
      (locals : m'.locals = some (scope.define m.world.heap name value).1) (depth : m'.depth = m.depth)
      (global : m'.global = m.global) (heap : m'.world.heap = (scope.define m.world.heap name value).2)
  /-- A name is bound in the global scope, since no call is active. -/
  | defineGlobal (name : String) (value : Value)
      (calls : Frame.calls m'.frames = Frame.calls m.frames) (here : m.locals = none)
      (locals : m'.locals = none) (depth : m'.depth = m.depth)
      (global : m'.global = (m.global.define m.world.heap name value).1)
      (heap : m'.world.heap = (m.global.define m.world.heap name value).2)
  /-- A call begins. -/
  | call (code : Function) (args : List Value) (frames : List Frame) (shallow : m.depth < callLimit)
      (calls : Frame.calls m'.frames = .returnTo m.locals :: frames)
      (below : Frame.calls frames = Frame.calls m.frames)
      (locals : m'.locals = some (Scope.defineAll .empty m.world.heap code.params args).1)
      (depth : m'.depth = m.depth + 1) (global : m'.global = m.global)
      (heap : m'.world.heap = (Scope.defineAll .empty m.world.heap code.params args).2)
  /-- A call comes back with a value or an error. -/
  | back (locals : Option Scope) (frames : Frame.calls m.frames = .returnTo locals :: m'.frames)
      (control : m'.Returns) (restored : m'.locals = locals) (depth : m'.depth = m.depth - 1)
      (global : m'.global = m.global) (heap : m'.world.heap = m.world.heap)

namespace Machine

variable {m n m' : Machine}

theorem abandon_plain (m : Machine) {frame : Frame} (plain : frame.isCall = false) :
    m.abandon frame = m := by
  cases frame with
  | returnTo locals => cases plain
  | _ => rfl

theorem SameScene.env (same : SameScene m n) : n.env = m.env := by
  simp only [Machine.env, same.locals, same.global]

/-- An effect on a state is one on every other of the same scene. -/
theorem Effect.of_same (same : SameScene m n) (effect : n.Effect m') : m.Effect m' := by
  cases effect with
  | inside calls locals depth global heap =>
    rw [same.env, same.heap] at heap
    exact .inside (calls.trans same.calls) (locals.trans same.locals) (depth.trans same.depth)
      (global.trans same.global) heap
  | defineLocal scope name value calls here locals depth global heap =>
    rw [same.heap] at locals heap
    exact .defineLocal scope name value (calls.trans same.calls) (same.locals.symm.trans here) locals
      (depth.trans same.depth) (global.trans same.global) heap
  | defineGlobal name value calls here locals depth global heap =>
    rw [same.heap, same.global] at global heap
    exact .defineGlobal name value (calls.trans same.calls) (same.locals.symm.trans here) locals
      (depth.trans same.depth) global heap
  | call code args frames shallow calls below locals depth global heap =>
    rw [same.depth] at shallow depth
    rw [same.heap] at locals heap
    rw [same.locals] at calls
    exact .call code args frames shallow calls (below.trans same.calls) locals depth
      (global.trans same.global) heap
  | back locals frames control restored depth global heap =>
    rw [same.depth] at depth
    exact .back locals (same.calls.symm.trans frames) control restored depth
      (global.trans same.global) (heap.trans same.heap)

end Machine

/-! ## Builtin operations -/

/-- An operation that changes at most the elements of one array, and then answers with a value. -/
def Builtin.Confined (builtin : Builtin) : Prop :=
  ∀ name args world, (builtin name args world).2.heap = world.heap ∨
    ∃ value a f, (builtin name args world).1 = .ok (.value value) ∧
      (builtin name args world).2.heap = world.heap.update a (modifyElements f)

theorem Builtin.confined_changeArray (reply : Handle → Array Value → Value)
    (change : List Value → Array Value → Array Value) : (changeArray reply change).Confined := by
  intro name args world
  unfold changeArray
  cases elementsOf name args world.heap with
  | error e => exact .inl rfl
  | ok found => exact .inr ⟨_, found.1, change args, rfl, rfl⟩

theorem BuiltinTable.standard_confined {library operation : String} {builtin : Builtin}
    (found : standard.find? library operation = some builtin) : builtin.Confined := by
  apply forall_standard _ _ _ _ found
  · intro f name args world
    exact .inl rfl
  · refine ⟨Builtin.confined_changeArray _ _, Builtin.confined_changeArray _ _, ?_, ?_⟩ <;>
      exact fun name args world => .inl rfl
  · refine ⟨?_, ?_, ?_, ?_⟩
    · exact fun name args world => .inl rfl
    · exact fun name args world => .inl rfl
    · exact fun name args world => .inl rfl
    · exact fun f name args world => .inl rfl
  · exact fun name args world => .inl rfl

namespace Machine

variable {m n m' : Machine}

/-! ## Moves -/

section

variable (m : Machine)

theorem effect_fail (error : ExecutionError) : m.Effect (m.fail error) :=
  .inside rfl rfl rfl rfl .unchanged

theorem effect_give (value : Value) : m.Effect (m.give value) := .inside rfl rfl rfl rfl .unchanged

theorem effect_giveResult (result : Except ExecutionError Value) : m.Effect (m.giveResult result) := by
  cases result with
  | ok value => exact m.effect_give value
  | error error => exact m.effect_fail error

theorem effect_evalFor {frame : Frame} (plain : frame.isCall = false) (e : Expr) :
    m.Effect (m.evalFor frame e) :=
  .inside (Frame.calls_cons plain m.frames) rfl rfl rfl .unchanged

/-- A block changes what is to be done and nothing else. -/
theorem sameScene_enter (block : List Stmt) : SameScene m (m.enter block) := by
  cases block with
  | nil => exact ⟨rfl, rfl, rfl, rfl, rfl⟩
  | cons s rest => cases rest <;> exact ⟨rfl, rfl, rfl, rfl, rfl⟩

theorem SameScene.effect (same : SameScene m m') : m.Effect m' := by
  have heap : Heap.Effect m.env m.world.heap m'.world.heap := by
    rw [same.heap]
    exact .unchanged
  exact .inside same.calls same.locals same.depth same.global heap

theorem effect_enter (block : List Stmt) : m.Effect (m.enter block) :=
  (m.sameScene_enter block).effect

theorem sameScene_push (frame : Frame) (plain : frame.isCall = false) :
    SameScene m { m with frames := frame :: m.frames } :=
  ⟨Frame.calls_cons plain m.frames, rfl, rfl, rfl, rfl⟩

theorem effect_enterFor {frame : Frame} (plain : frame.isCall = false) (block : List Stmt) :
    m.Effect (m.enterFor frame block) :=
  .of_same (m.sameScene_push frame plain) (effect_enter _ block)

theorem effect_allocate (o : Object) (value : Value) : m.Effect ((m.allocate o).2.give value) :=
  .inside rfl rfl rfl rfl (.allocate o)

theorem effect_define (name : String) (value : Value) :
    m.Effect ((m.define name value).give .undefined) := by
  obtain ⟨control, frames, locals, depth, global, world⟩ := m
  cases locals with
  | some scope => exact .defineLocal scope name value rfl rfl rfl rfl rfl rfl
  | none => exact .defineGlobal name value rfl rfl rfl rfl rfl rfl

theorem effect_assign (name : String) (value : Value) : m.Effect (m.assign name value) := by
  unfold Machine.assign
  cases found : m.env.cell? m.world.heap name with
  | none => exact m.effect_fail _
  | some cell => exact .inside rfl rfl rfl rfl (.assign found value)

/-! ## Calls -/

theorem call_of_le (deep : callLimit ≤ m.depth) (code : Function) (args : List Value) :
    m.call code args = m.fail (.callDepthExceeded callLimit) := if_pos deep

/-- The body of a function begins in the scene of its call. -/
theorem sameScene_call (shallow : m.depth < callLimit) (code : Function) (args : List Value) :
    SameScene
      { m with
        frames := .returnTo m.locals :: m.frames
        locals := some (Scope.defineAll .empty m.world.heap code.params args).1
        depth := m.depth + 1
        world := { m.world with heap := (Scope.defineAll .empty m.world.heap code.params args).2 } }
      (m.call code args) := by
  unfold Machine.call
  rw [if_neg (Nat.not_le.2 shallow)]
  exact sameScene_enter _ code.body

theorem effect_call (code : Function) (args : List Value) : m.Effect (m.call code args) := by
  by_cases deep : callLimit ≤ m.depth
  · rw [m.call_of_le deep]
    exact m.effect_fail _
  · have shallow := Nat.lt_of_not_le deep
    have same := m.sameScene_call shallow code args
    exact .call code args m.frames shallow same.calls rfl same.locals same.depth same.global same.heap

theorem effect_giveArray (done : List Value) : m.Effect (m.giveArray done) :=
  m.effect_allocate _ _

theorem effect_mapNext (code : Function) (done rest : List Value) :
    m.Effect (m.mapNext code done rest) := by
  cases rest with
  | nil => exact m.effect_giveArray done
  | cons element rest =>
    have same := m.sameScene_push (.mapping code done rest) rfl
    exact .of_same same (effect_call _ code _)

theorem effect_reply (answer : Reply) : m.Effect (m.reply answer) := by
  cases answer with
  | value result => exact m.effect_give result
  | call code args => exact m.effect_call code args
  | map code elements => exact m.effect_mapNext code [] elements

theorem effect_callBuiltin (library operation : String) (args : List Value) :
    m.Effect (m.callBuiltin .standard library operation args) := by
  unfold Machine.callBuiltin
  cases found : BuiltinTable.standard.find? library operation with
  | none => exact m.effect_fail _
  | some builtin =>
    obtain ⟨control, frames, locals, depth, global, world⟩ := m
    have confined := BuiltinTable.standard_confined found (library ++ "." ++ operation) args world
    simp only
    generalize builtin (library ++ "." ++ operation) args world = outcome at confined
    obtain ⟨result, world'⟩ := outcome
    -- An operation that has changed an array answers with a value, so whatever is called is called in the
    -- same scene.
    cases confined with
    | inl untouched =>
      have same : SameScene ⟨control, frames, locals, depth, global, world⟩
          ⟨control, frames, locals, depth, global, world'⟩ := ⟨rfl, rfl, rfl, rfl, untouched⟩
      cases result with
      | ok answer => exact .of_same same (effect_reply _ answer)
      | error error => exact .of_same same (effect_fail _ error)
    | inr changed =>
      obtain ⟨value, a, f, answered, modified⟩ := changed
      simp only at answered modified
      subst answered
      have heap (env : Env) : Heap.Effect env world.heap world'.heap := by
        rw [modified]
        exact .modify a f
      exact .inside rfl rfl rfl rfl (heap _)

theorem effect_argumentNext (target : Target) (done : List Value) (rest : List Expr) :
    m.Effect (m.argumentNext .standard target done rest) := by
  cases rest with
  | cons e rest => exact m.effect_evalFor rfl e
  | nil =>
    cases target with
    | function code => exact m.effect_call code _
    | builtin library operation => exact m.effect_callBuiltin library operation _

theorem effect_callValue (value : Value) (display : String) (args : List Expr) :
    m.Effect (m.callValue .standard value display args) := by
  cases value with
  | function code => exact m.effect_argumentNext _ _ args
  | _ => exact m.effect_fail _

theorem effect_callMethod (receiver : Value) (property display : String) (args : List Expr) :
    m.Effect (m.callMethod .standard receiver property display args) := by
  unfold Machine.callMethod
  split
  · split
    · exact m.effect_argumentNext _ _ args
    · exact m.effect_fail _
  · split
    · exact m.effect_callValue _ display args
    · exact m.effect_fail _

/-! ## Expressions -/

theorem effect_evalCall (callee : Callee) (args : List Expr) :
    m.Effect (m.evalCall .standard callee args) := by
  cases callee with
  | function name =>
    simp only [Machine.evalCall]
    split
    · exact m.effect_callValue _ name args
    · exact m.effect_fail _
  | method receiver property =>
    simp only [Machine.evalCall]
    split
    · exact m.effect_callMethod _ property _ args
    · exact m.effect_fail _
  | computed target => cases target <;> exact m.effect_evalFor rfl _

theorem effect_elementNext (done : List Value) (rest : List Expr) :
    m.Effect (m.elementNext done rest) := by
  cases rest with
  | cons e rest => exact m.effect_evalFor rfl e
  | nil => exact m.effect_giveArray done

theorem effect_fieldNext (done : NameMap Value) (rest : List (String × Expr)) :
    m.Effect (m.fieldNext done rest) := by
  cases rest with
  | cons field rest => exact m.effect_evalFor rfl field.2
  | nil => exact m.effect_allocate _ _

theorem effect_evalStep (e : Expr) : m.Effect (m.evalStep .standard e) := by
  cases e with
  | literal value => exact m.effect_give _
  | identifier name =>
    simp only [Machine.evalStep]
    split
    · exact m.effect_give _
    · exact m.effect_fail _
  | binary op left right => exact m.effect_evalFor rfl left
  | assign op target value =>
    simp only [Machine.evalStep]
    split
    · exact m.effect_evalFor rfl value
    · split
      · exact m.effect_evalFor rfl value
      · exact m.effect_fail _
  | call callee args => exact m.effect_evalCall callee args
  | member receiver property => exact m.effect_evalFor rfl receiver
  | array elements => exact m.effect_elementNext [] elements
  | object fields => exact m.effect_fieldNext .empty fields

/-! ## Statements and frames -/

theorem effect_loopNext (loop : Loop) (last : Value) : m.Effect (m.loopNext loop last) := by
  unfold Machine.loopNext
  split
  · exact m.effect_evalFor rfl _
  · exact m.effect_enterFor rfl loop.body

theorem effect_execStep (s : Stmt) : m.Effect (m.execStep s) := by
  cases s with
  | declare kind name init => exact m.effect_evalFor rfl init
  | function name params body site => exact m.effect_define name _
  | ifElse test consequent alternate => exact m.effect_evalFor rfl test
  | forLoop init test update body =>
    cases init with
    | none => exact m.effect_loopNext _ _
    | some init => exact .inside rfl rfl rfl rfl .unchanged
  | whileLoop test body => exact m.effect_evalFor rfl test
  | ret argument =>
    cases argument with
    | none => exact .inside rfl rfl rfl rfl .unchanged
    | some argument => exact m.effect_evalFor rfl argument
  | expression value => exact .inside rfl rfl rfl rfl .unchanged

theorem effect_enterAfter (value : Value) (rest : List Stmt) : m.Effect (m.enterAfter value rest) := by
  cases rest with
  | nil => exact m.effect_give value
  | cons s rest => exact m.effect_enter (s :: rest)

theorem effect_resume {frame : Frame} (plain : frame.isCall = false) (value : Value) :
    m.Effect (m.resume .standard frame value) := by
  cases frame with
  | leftOperand op right => exact m.effect_evalFor rfl right
  | rightOperand op left => exact m.effect_giveResult _
  | assign target combine =>
    cases combine with
    | none => exact m.effect_assign target value
    | some combine =>
      simp only [Machine.resume]
      split
      · exact m.effect_assign target _
      · exact m.effect_fail _
  | property name => exact m.effect_giveResult _
  | element done rest => exact m.effect_elementNext _ rest
  | field done key rest => exact m.effect_fieldNext _ rest
  | callee display args => exact m.effect_callValue value display args
  | method property display args => exact m.effect_callMethod value property display args
  | argument target done rest => exact m.effect_argumentNext target _ rest
  | mapping code done rest => exact m.effect_mapNext code _ rest
  | returnTo locals => cases plain
  | declare name => exact m.effect_define name value
  | branch consequent alternate =>
    simp only [Machine.resume]
    split
    · exact m.effect_enter consequent
    · split
      · exact m.effect_enter _
      · exact m.effect_give _
  | sequence rest => exact m.effect_enterAfter value rest
  | whileTest test body last =>
    simp only [Machine.resume]
    split
    · exact m.effect_enterFor rfl body
    · exact m.effect_give last
  | whileBody test body => exact m.effect_evalFor rfl test
  | forInit loop => exact m.effect_loopNext loop _
  | forTest loop last =>
    simp only [Machine.resume]
    split
    · exact m.effect_enterFor rfl loop.body
    · exact m.effect_give last
  | forBody loop =>
    simp only [Machine.resume]
    split
    · exact m.effect_evalFor rfl _
    · exact m.effect_loopNext loop value
  | forUpdate loop last => exact m.effect_loopNext loop last
  | giveBack => exact .inside rfl rfl rfl rfl .unchanged

theorem effect_unwind {frame : Frame} (plain : frame.isCall = false) (value : Value) :
    m.Effect (m.unwind frame value) := by
  cases frame with
  | returnTo locals => cases plain
  | forInit loop => exact m.effect_loopNext loop _
  | _ => exact .inside rfl rfl rfl rfl .unchanged

theorem effect_abandon {frame : Frame} (plain : frame.isCall = false) : m.Effect (m.abandon frame) := by
  rw [m.abandon_plain plain]
  exact .inside rfl rfl rfl rfl .unchanged

end

/-! ## Steps -/

theorem sameScene_pop {frame : Frame} {frames : List Frame} (top : m.frames = frame :: frames)
    (plain : frame.isCall = false) : SameScene m { m with frames := frames } := by
  refine ⟨?_, rfl, rfl, rfl, rfl⟩
  rw [top, Frame.calls_cons plain]

theorem step_effect (m : Machine) : m.Effect (m.step .standard) := by
  obtain ⟨control, frames, locals, depth, global, world⟩ := m
  cases control with
  | eval e => exact effect_evalStep _ e
  | exec s => exact effect_execStep _ s
  | give value =>
    cases frames with
    | nil => exact .inside rfl rfl rfl rfl .unchanged
    | cons frame frames =>
      by_cases call : frame.isCall = true
      · cases frame with
        | returnTo locals => exact .back locals rfl (.value .undefined rfl) rfl rfl rfl rfl
        | _ => cases call
      · rw [Bool.not_eq_true] at call
        exact .of_same (sameScene_pop rfl call) (effect_resume _ call value)
  | leave value =>
    cases frames with
    | nil => exact .inside rfl rfl rfl rfl .unchanged
    | cons frame frames =>
      by_cases call : frame.isCall = true
      · cases frame with
        | returnTo locals => exact .back locals rfl (.value value rfl) rfl rfl rfl rfl
        | _ => cases call
      · rw [Bool.not_eq_true] at call
        exact .of_same (sameScene_pop rfl call) (effect_unwind _ call value)
  | raise error =>
    cases frames with
    | nil => exact .inside rfl rfl rfl rfl .unchanged
    | cons frame frames =>
      by_cases call : frame.isCall = true
      · cases frame with
        | returnTo locals => exact .back locals rfl (.error error rfl) rfl rfl rfl rfl
        | _ => cases call
      · rw [Bool.not_eq_true] at call
        exact .of_same (sameScene_pop rfl call) (effect_abandon _ call)
  | halted result => exact .inside rfl rfl rfl rfl .unchanged

end Machine

/-! ## Heaps -/

theorem Heap.WellFormed.effect {env : Env} {h k : Heap Object} (wellFormed : h.WellFormed)
    (effect : Heap.Effect env h k) : k.WellFormed := by
  cases effect with
  | unchanged => exact wellFormed
  | allocate o => exact wellFormed.allocate o
  | assign found value => exact wellFormed.update _ _
  | modify a f => exact wellFormed.update _ _

theorem Heap.WellFormed.defineAll {h : Heap Object} (wellFormed : h.WellFormed) (scope : Scope)
    (names : List String) (values : List Value) : (scope.defineAll h names values).2.WellFormed := by
  induction names generalizing scope h values with
  | nil => exact wellFormed
  | cons name names ih => exact ih (wellFormed.allocate _) _ _

namespace Machine

variable {m m' : Machine}

theorem Effect.wellFormed (effect : m.Effect m') (before : m.world.heap.WellFormed) :
    m'.world.heap.WellFormed := by
  cases effect with
  | inside calls locals depth global heap => exact before.effect heap
  | defineLocal scope name value calls here locals depth global heap =>
    rw [heap]
    exact before.allocate _
  | defineGlobal name value calls here locals depth global heap =>
    rw [heap]
    exact before.allocate _
  | call code args frames shallow calls below locals depth global heap =>
    rw [heap]
    exact before.defineAll _ _ _
  | back locals frames control restored depth global heap =>
    rw [heap]
    exact before

theorem wellFormed_run (before : m.world.heap.WellFormed) (n : Nat) :
    (m.run .standard n).world.heap.WellFormed := by
  induction n with
  | zero => exact before
  | succ n ih =>
    rw [run_succ_eq_step]
    exact (step_effect _).wellFormed ih

end Machine

end TinyScript
