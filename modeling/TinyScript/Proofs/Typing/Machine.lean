import TinyScript.Proofs.Evaluator.Run
import TinyScript.Proofs.Typing.Builtin

/-! # Typed states of the evaluator

A state is `Typed` if its heap is, the scopes of all active calls have live cells, and every value that
is under way (handed on, held by a frame, or the result) resolves.  Steps keep it so
(`Machine.Typed.step`), and runs do (`Machine.Typed.run`).

On the way no global name is ever lost, so the invariant is stated for a set of `known` global names.
-/

namespace TinyScript

/-! ## What a state holds -/

/-- The values that a frame holds. -/
def Frame.values : Frame → List Value
  | .rightOperand _ left => [left]
  | .assign _ (some (_, old)) => [old]
  | .element done _ => done
  | .field done _ _ => done.values
  | .argument _ done _ => done
  | .mapping _ done rest => done ++ rest
  | .whileTest _ _ last => [last]
  | .forTest _ last => [last]
  | .forUpdate _ last => [last]
  | _ => []

/-- The scope of the caller, in the frame of a call. -/
def Frame.scopes : Frame → List Scope
  | .returnTo locals => locals.toList
  | _ => []

/-- The values that are handed on. -/
def Control.values : Control → List Value
  | .give value => [value]
  | .leave value => [value]
  | .halted (.ok value) => [value]
  | _ => []

/-- The error that is on its way out, or has come out. -/
def Control.error? : Control → Option ExecutionError
  | .raise error => some error
  | .halted (.error error) => some error
  | _ => none

/-- The global scope and those of all active calls. -/
def Machine.scopes (m : Machine) : List Scope :=
  m.global :: (m.locals.toList ++ m.frames.flatMap (·.scopes))

/-- The values that are under way. -/
def Machine.values (m : Machine) : List Value :=
  m.control.values ++ m.frames.flatMap (·.values)

structure Frame.Typed (h : Heap Object) (frame : Frame) : Prop where
  values : ∀ v ∈ frame.values, v.Resolves h
  scopes : ∀ scope ∈ frame.scopes, scope.Bound h

/-- Typed but for what is about to be done. -/
structure Machine.Ready (known : String → Prop) (m : Machine) : Prop where
  heap : m.world.heap.Typed
  frames : ∀ frame ∈ m.frames, frame.Typed m.world.heap
  locals : ∀ scope ∈ m.locals, scope.Bound m.world.heap
  global : m.global.Bound m.world.heap
  known : ∀ name, known name → (m.global.get? name).isSome

structure Machine.Typed (known : String → Prop) (m : Machine) : Prop extends Machine.Ready known m where
  handed : ∀ v ∈ m.control.values, v.Resolves m.world.heap
  /-- No run fails because an array has been freed. -/
  unfreed : ∀ error ∈ m.control.error?, ¬error.IsFreedArray

namespace Frame.Typed

variable {h k : Heap Object} {frame : Frame}

/-- A frame of no call. -/
theorem inside (scopes : frame.scopes = []) (values : ∀ v ∈ frame.values, v.Resolves h) :
    frame.Typed h := ⟨values, by simp [scopes]⟩

theorem plain (scopes : frame.scopes = []) (values : frame.values = []) : frame.Typed h :=
  inside scopes (by simp [values])

theorem holding (scopes : frame.scopes = []) {v : Value} (values : frame.values = [v])
    (value : v.Resolves h) : frame.Typed h := inside scopes (by simpa [values] using value)

theorem extend (typed : frame.Typed h) (wellFormed : k.WellFormed) (more : h.Extends k) :
    frame.Typed k where
  values v member := more.resolves (typed.values v member)
  scopes scope member := more.bound wellFormed (typed.scopes scope member)

end Frame.Typed

namespace Machine.Ready

variable {known : String → Prop} {m : Machine} {v : Value}

/-! ## Changes of state -/

/-- The machine with another heap, on which everything is still there. -/
theorem extend (ready : m.Ready known) {h : Heap Object} (typed : h.Typed)
    (more : m.world.heap.Extends h) :
    Ready known { m with world := { m.world with heap := h } } where
  heap := typed
  frames frame member := (ready.frames frame member).extend typed.wellFormed more
  locals scope member := more.bound typed.wellFormed (ready.locals scope member)
  global := more.bound typed.wellFormed ready.global
  known := ready.known

theorem withFrames (ready : m.Ready known) {frames : List Frame}
    (all : ∀ frame ∈ frames, frame.Typed m.world.heap) : Ready known { m with frames := frames } :=
  ⟨ready.heap, all, ready.locals, ready.global, ready.known⟩

theorem push (ready : m.Ready known) (frame : Frame) (top : frame.Typed m.world.heap) :
    Ready known { m with frames := frame :: m.frames } :=
  ready.withFrames (List.forall_mem_cons.2 ⟨top, ready.frames⟩)

theorem withLocals (ready : m.Ready known) (locals : Option Scope)
    (bound : ∀ scope ∈ locals, scope.Bound m.world.heap) (depth : Nat) :
    Ready known { m with locals := locals, depth := depth } :=
  ⟨ready.heap, ready.frames, bound, ready.global, ready.known⟩

/-- Only what is about to be done is left to look at. -/
theorem withControl (ready : m.Ready known) {control : Control}
    (handed : ∀ v ∈ control.values, v.Resolves m.world.heap)
    (unfreed : ∀ error ∈ control.error?, ¬error.IsFreedArray) :
    Typed known { m with control := control } :=
  ⟨⟨ready.heap, ready.frames, ready.locals, ready.global, ready.known⟩, handed, unfreed⟩

/-! ## Moves -/

theorem fail (ready : m.Ready known) {error : ExecutionError} (unfreed : ¬error.IsFreedArray) :
    (m.fail error).Typed known := by
  apply ready.withControl
  · simp [Control.values]
  · simpa [Control.error?] using unfreed

theorem hand (ready : m.Ready known) (value : v.Resolves m.world.heap) {control : Control}
    (carries : control.values = [v]) : Typed known { m with control := control } := by
  apply ready.withControl
  · simpa [carries] using value
  · intro error raised
    unfold Control.error? at raised
    split at raised
    · cases carries
    · cases carries
    · cases raised

theorem give (ready : m.Ready known) (value : v.Resolves m.world.heap) : (m.give v).Typed known :=
  ready.hand value rfl

theorem leave (ready : m.Ready known) (value : v.Resolves m.world.heap) :
    Typed known { m with control := .leave v } :=
  ready.hand value rfl

theorem giveResult (ready : m.Ready known) {result : Except ExecutionError Value}
    (safe : Safe (·.Resolves m.world.heap) result) : (m.giveResult result).Typed known := by
  cases result with
  | ok value => exact ready.give safe
  | error error => exact ready.fail safe

theorem evalFor (ready : m.Ready known) (frame : Frame) (top : frame.Typed m.world.heap) (e : Expr) :
    (m.evalFor frame e).Typed known := by
  apply (ready.push frame top).withControl <;> simp [Control.values, Control.error?]

theorem exec (ready : m.Ready known) (s : Stmt) : Typed known { m with control := .exec s } := by
  apply ready.withControl <;> simp [Control.values, Control.error?]

theorem enter (ready : m.Ready known) (block : List Stmt) : (m.enter block).Typed known := by
  cases block with
  | nil => exact ready.give (Value.resolves_undefined _)
  | cons s rest =>
    cases rest with
    | nil => exact ready.exec s
    | cons next rest => exact (ready.push (.sequence (next :: rest)) (.plain rfl rfl)).exec s

theorem enterFor (ready : m.Ready known) (frame : Frame) (top : frame.Typed m.world.heap)
    (block : List Stmt) : (m.enterFor frame block).Typed known :=
  (ready.push frame top).enter block

/-! ## Names -/

theorem env (ready : m.Ready known) : ∀ scope ∈ m.env, scope.Bound m.world.heap := by
  have locals := ready.locals
  unfold Machine.env
  cases bound : m.locals with
  | none => simpa using ready.global
  | some scope => simpa [ready.global] using locals scope bound

theorem resolves_of_lookup? (ready : m.Ready known) {name : String}
    (found : m.lookup? name = some v) : v.Resolves m.world.heap :=
  ready.heap.resolves_of_lookup? ready.env found

theorem assign (ready : m.Ready known) (name : String) (value : v.Resolves m.world.heap) :
    (m.assign name v).Typed known := by
  unfold Machine.assign
  cases found : m.env.cell? m.world.heap name with
  | none => exact ready.fail id
  | some cell =>
    have binding (o : Object) (here : m.world.heap.get? cell = some o) :
        o.Alike (.binding v) := by
      unfold Env.cell? at found
      split at found
      · split at found
        · next held =>
          cases found
          simp only [Env.cellValue?, here] at held
          split at held
          · next eq =>
            cases eq
            exact .binding _ _
          · cases held
        · cases found
      · cases found
    have more := Heap.Extends.update cell binding
    have typed := ready.heap.update cell binding fun o _ w member => by
      rw [List.mem_singleton.1 member]
      exact value
    exact (ready.extend typed more).give (more.resolves value)

/-- A name is bound on the way to something that has no value. -/
theorem define (ready : m.Ready known) (name : String) (value : v.Resolves m.world.heap) :
    ((m.define name v).give .undefined).Typed known := by
  obtain ⟨control, frames, locals, depth, global, world⟩ := m
  have exact := ready.heap.wellFormed.toFreeListExact
  have typed := ready.heap.allocate (o := .binding v) (by simpa [Object.values] using value)
  have after := ready.extend typed (.allocate exact _)
  cases locals with
  | some scope =>
    have bound := (ready.locals scope rfl).define name v
    have locals : ∀ other ∈ some (scope.define world.heap name v).1,
        other.Bound (scope.define world.heap name v).2 := by simpa using bound
    exact (after.withLocals _ locals depth).give trivial
  | none =>
    have bound := ready.global.define name v
    have names (other : String) (old : known other) :
        ((global.define world.heap name v).1.get? other).isSome := by
      simp only [Scope.define, NameMap.get?_insert]
      split
      · rfl
      · exact ready.known other old
    have outside : Ready known ⟨control, frames, none, depth, (global.define world.heap name v).1,
        { world with heap := (global.define world.heap name v).2 }⟩ :=
      ⟨typed, after.frames, after.locals, bound, names⟩
    exact outside.give trivial

/-! ## Calls -/

theorem call (ready : m.Ready known) (code : Function) {args : List Value}
    (all : ∀ v ∈ args, v.Resolves m.world.heap) : (m.call code args).Typed known := by
  unfold Machine.call
  split
  · exact ready.fail id
  · have empty : Scope.Bound .empty m.world.heap :=
      ⟨ready.heap.wellFormed, by simp, by simp⟩
    obtain ⟨typed, more, bound⟩ := ready.heap.defineAll empty code.params all
    have after := ready.extend typed more
    have caller : (Frame.returnTo m.locals).Typed _ :=
      ⟨by simp [Frame.values], by simpa [Frame.scopes] using after.locals⟩
    have inside := (after.push (.returnTo m.locals) caller).withLocals (some _) (by simpa using bound) (m.depth + 1)
    exact inside.enter code.body

theorem giveArray (ready : m.Ready known) {done : List Value}
    (all : ∀ v ∈ done, v.Resolves m.world.heap) : (m.giveArray done).Typed known := by
  have typed := ready.heap.allocate (o := .array done.reverse.toArray)
    (by simpa [Object.values] using all)
  have after := ready.extend typed (.allocate ready.heap.wellFormed.toFreeListExact _)
  exact after.give ⟨_, ready.heap.get?_allocate_self _⟩

theorem mapNext (ready : m.Ready known) (code : Function) {done rest : List Value}
    (all : ∀ v ∈ done, v.Resolves m.world.heap) (others : ∀ v ∈ rest, v.Resolves m.world.heap) :
    (m.mapNext code done rest).Typed known := by
  cases rest with
  | nil => exact ready.giveArray all
  | cons element rest =>
    obtain ⟨first, others⟩ := List.forall_mem_cons.1 others
    have under := ready.push (.mapping code done rest)
      (.inside rfl (List.forall_mem_append.2 ⟨all, others⟩))
    exact under.call code (List.forall_mem_cons.2 ⟨first, by simp [Value.number, Value.Resolves]⟩)

theorem reply (ready : m.Ready known) {answer : Reply}
    (all : ∀ v ∈ answer.values, v.Resolves m.world.heap) : (m.reply answer).Typed known := by
  cases answer with
  | value result => exact ready.give (all result (by simp [Reply.values]))
  | call code args => exact ready.call code all
  | map code elements => exact ready.mapNext code (by simp) all

theorem callBuiltin (ready : m.Ready known) (library operation : String) {args : List Value}
    (all : ∀ v ∈ args, v.Resolves m.world.heap) :
    (m.callBuiltin .standard library operation args).Typed known := by
  obtain ⟨control, frames, locals, depth, global, world⟩ := m
  unfold Machine.callBuiltin
  cases found : BuiltinTable.standard.find? library operation with
  | none => exact ready.fail id
  | some builtin =>
    obtain ⟨typed, more, safe⟩ :=
      BuiltinTable.standard_typed found (library ++ "." ++ operation) args world ready.heap all
    simp only
    generalize builtin (library ++ "." ++ operation) args world = outcome at typed more safe
    obtain ⟨result, world'⟩ := outcome
    have after := ready.extend typed more
    have ready' : Ready known ⟨control, frames, locals, depth, global, world'⟩ :=
      ⟨typed, after.frames, after.locals, after.global, after.known⟩
    cases result with
    | ok answer => exact ready'.reply safe
    | error error => exact ready'.fail safe

theorem argumentNext (ready : m.Ready known) (target : Target) {done : List Value}
    (all : ∀ v ∈ done, v.Resolves m.world.heap) (rest : List Expr) :
    (m.argumentNext .standard target done rest).Typed known := by
  cases rest with
  | cons e rest => exact ready.evalFor (.argument target done rest) (.inside rfl all) e
  | nil =>
    have arguments : ∀ v ∈ done.reverse, v.Resolves m.world.heap := by simpa using all
    cases target with
    | function code => exact ready.call code arguments
    | builtin library operation => exact ready.callBuiltin library operation arguments

theorem callValue (ready : m.Ready known) (value : Value) (display : String) (args : List Expr) :
    (m.callValue .standard value display args).Typed known := by
  cases value with
  | function code => exact ready.argumentNext (.function code) (by simp) args
  | _ => exact ready.fail id

theorem callMethod (ready : m.Ready known) (receiver : Value) (property display : String)
    (args : List Expr) : (m.callMethod .standard receiver property display args).Typed known := by
  have safe := ready.heap.readProperty receiver property
  unfold Machine.callMethod
  split
  · split
    · exact ready.argumentNext _ (by simp) args
    · exact ready.fail id
  · split
    · exact ready.callValue _ display args
    · next error read =>
      rw [read] at safe
      exact ready.fail safe

/-! ## Expressions -/

theorem evalCall (ready : m.Ready known) (callee : Callee) (args : List Expr) :
    (m.evalCall .standard callee args).Typed known := by
  cases callee with
  | function name =>
    simp only [Machine.evalCall]
    split
    · exact ready.callValue _ name args
    · exact ready.fail id
  | method receiver property =>
    simp only [Machine.evalCall]
    split
    · exact ready.callMethod _ property _ args
    · exact ready.fail id
  | computed target =>
    cases target with
    | member receiver property => exact ready.evalFor (.method property _ args) (.plain rfl rfl) receiver
    | _ => exact ready.evalFor (.callee _ args) (.plain rfl rfl) _

theorem elementNext (ready : m.Ready known) {done : List Value}
    (all : ∀ v ∈ done, v.Resolves m.world.heap) (rest : List Expr) :
    (m.elementNext done rest).Typed known := by
  cases rest with
  | cons e rest => exact ready.evalFor (.element done rest) (.inside rfl all) e
  | nil => exact ready.giveArray all

theorem fieldNext (ready : m.Ready known) {done : NameMap Value}
    (all : ∀ v ∈ done.values, v.Resolves m.world.heap) (rest : List (String × Expr)) :
    (m.fieldNext done rest).Typed known := by
  cases rest with
  | cons field rest => exact ready.evalFor (.field done field.1 rest) (.inside rfl all) field.2
  | nil =>
    have typed := ready.heap.allocate (o := .record done) all
    have after := ready.extend typed (.allocate ready.heap.wellFormed.toFreeListExact _)
    exact after.give ⟨_, ready.heap.get?_allocate_self _⟩

theorem evalStep (ready : m.Ready known) (e : Expr) : (m.evalStep .standard e).Typed known := by
  cases e with
  | literal value => exact ready.give trivial
  | identifier name =>
    simp only [Machine.evalStep]
    split
    · next found => exact ready.give (ready.resolves_of_lookup? found)
    · exact ready.fail id
  | binary op left right => exact ready.evalFor (.leftOperand op right) (.plain rfl rfl) left
  | assign op target value =>
    simp only [Machine.evalStep]
    split
    · exact ready.evalFor (.assign target none) (.plain rfl rfl) value
    · split
      · next found =>
        have old := ready.resolves_of_lookup? found
        exact ready.evalFor (.assign target (some (_, _))) (.holding rfl rfl old) value
      · exact ready.fail id
  | call callee args => exact ready.evalCall callee args
  | member receiver property => exact ready.evalFor (.property property) (.plain rfl rfl) receiver
  | array elements => exact ready.elementNext (by simp) elements
  | object fields => exact ready.fieldNext (by simp [NameMap.values, NameMap.empty]) fields

/-! ## Statements -/

theorem loopNext (ready : m.Ready known) (loop : Loop) (last : v.Resolves m.world.heap) :
    (m.loopNext loop v).Typed known := by
  unfold Machine.loopNext
  split
  · exact ready.evalFor (.forTest loop v) (.holding rfl rfl last) _
  · exact ready.enterFor (.forBody loop) (.plain rfl rfl) loop.body

theorem execStep (ready : m.Ready known) (s : Stmt) : (m.execStep s).Typed known := by
  cases s with
  | declare kind name init => exact ready.evalFor (.declare name) (.plain rfl rfl) init
  | function name params body site => exact ready.define name trivial
  | ifElse test consequent alternate => exact ready.evalFor (.branch consequent alternate) (.plain rfl rfl) test
  | forLoop init test update body =>
    cases init with
    | none => exact ready.loopNext _ trivial
    | some init => exact (ready.push (.forInit _) (.plain rfl rfl)).exec init
  | whileLoop test body =>
    exact ready.evalFor (.whileTest test body .undefined)
      (.holding rfl rfl (Value.resolves_undefined _)) test
  | ret argument =>
    cases argument with
    | none => exact ready.leave trivial
    | some argument => exact ready.evalFor .giveBack (.plain rfl rfl) argument
  | expression value => apply ready.withControl <;> simp [Control.values, Control.error?]

/-! ## Frames -/

theorem enterAfter (ready : m.Ready known) (value : v.Resolves m.world.heap) (block : List Stmt) :
    (m.enterAfter v block).Typed known := by
  cases block with
  | nil => exact ready.give value
  | cons s rest => exact ready.enter (s :: rest)

/-- Back in the scope of the caller. -/
theorem returnTo (ready : m.Ready known) {locals : Option Scope}
    (caller : (Frame.returnTo locals).Typed m.world.heap) (value : v.Resolves m.world.heap) :
    Typed known { m with control := .give v, locals := locals, depth := m.depth - 1 } := by
  have scopes : ∀ scope ∈ locals, scope.Bound m.world.heap := by
    simpa [Frame.scopes] using caller.scopes
  exact (ready.withLocals locals scopes (m.depth - 1)).give value

theorem resume (ready : m.Ready known) {frame : Frame} (top : frame.Typed m.world.heap)
    (value : v.Resolves m.world.heap) : (m.resume .standard frame v).Typed known := by
  have values := top.values
  have onto {vs : List Value} (all : ∀ w ∈ vs, w.Resolves m.world.heap) :
      ∀ w ∈ v :: vs, w.Resolves m.world.heap := List.forall_mem_cons.2 ⟨value, all⟩
  cases frame with
  | leftOperand op right =>
    exact ready.evalFor (.rightOperand op v) (.holding rfl rfl value) right
  | rightOperand op left => exact ready.giveResult (op.onValues_safe _ left v)
  | assign target combine =>
    cases combine with
    | none => exact ready.assign target value
    | some combine =>
      obtain ⟨op, old⟩ := combine
      have safe := op.onValues_safe m.world.heap old v
      simp only [Machine.resume]
      split
      · next eq =>
        rw [eq] at safe
        exact ready.assign target safe
      · next eq =>
        rw [eq] at safe
        exact ready.fail safe
  | property name => exact ready.giveResult (ready.heap.readProperty v name)
  | element done rest => exact ready.elementNext (onto values) rest
  | field done key rest =>
    refine ready.fieldNext (fun w member => ?_) rest
    rcases NameMap.mem_values_insert member with rfl | old
    · exact value
    · exact values w old
  | callee display args => exact ready.callValue v display args
  | method property display args => exact ready.callMethod v property display args
  | argument target done rest => exact ready.argumentNext target (onto values) rest
  | mapping code done rest =>
    obtain ⟨done, rest⟩ := List.forall_mem_append.1 values
    exact ready.mapNext code (onto done) rest
  | returnTo locals => exact ready.returnTo top trivial
  | declare name => exact ready.define name value
  | branch consequent alternate =>
    simp only [Machine.resume]
    split
    · exact ready.enter consequent
    · split
      · exact ready.enter _
      · exact ready.give trivial
  | sequence rest => exact ready.enterAfter value rest
  | whileTest test body last =>
    simp only [Machine.resume]
    split
    · exact ready.enterFor (.whileBody test body) (.plain rfl rfl) body
    · exact ready.give (values last (by simp [Frame.values]))
  | whileBody test body =>
    exact ready.evalFor (.whileTest test body v) (.holding rfl rfl value) test
  | forInit loop => exact ready.loopNext loop trivial
  | forTest loop last =>
    simp only [Machine.resume]
    split
    · exact ready.enterFor (.forBody loop) (.plain rfl rfl) loop.body
    · exact ready.give (values last (by simp [Frame.values]))
  | forBody loop =>
    simp only [Machine.resume]
    split
    · exact ready.evalFor (.forUpdate loop v) (.holding rfl rfl value) _
    · exact ready.loopNext loop value
  | forUpdate loop last => exact ready.loopNext loop (values last (by simp [Frame.values]))
  | giveBack => exact ready.leave value

/-- A return that is on its way passes all frames but that of the call. -/
theorem unwind (ready : m.Ready known) {frame : Frame} (top : frame.Typed m.world.heap)
    (value : v.Resolves m.world.heap) (control : m.control = .leave v) :
    (m.unwind frame v).Typed known := by
  have on := ready.leave value
  rw [← control] at on
  cases frame with
  | returnTo locals => exact ready.returnTo top value
  | forInit loop => exact ready.loopNext loop trivial
  | _ => exact on

/-- An error passes all frames. -/
theorem abandon (ready : m.Ready known) {frame : Frame} (top : frame.Typed m.world.heap)
    {error : ExecutionError} (unfreed : ¬error.IsFreedArray) (raising : m.control = .raise error) :
    (m.abandon frame).Typed known := by
  have on : (m.fail error).Typed known := ready.fail unfreed
  rw [Machine.fail, ← raising] at on
  cases frame with
  | returnTo locals =>
    have outer := ready.withLocals locals (fun scope member => top.scopes scope (by
      simpa [Frame.scopes] using member)) (m.depth - 1)
    exact ⟨outer, on.handed, on.unfreed⟩
  | _ => exact on

end Machine.Ready

/-! ## Steps and runs -/

namespace Machine.Typed

variable {known : String → Prop} {m : Machine}

theorem step (typed : m.Typed known) : (m.step .standard).Typed known := by
  have ready := typed.toReady
  have handed := typed.handed
  obtain ⟨control, frames, locals, depth, global, world⟩ := m
  cases control with
  | eval e => exact ready.evalStep e
  | exec s => exact ready.execStep s
  | give value =>
    have value := handed value (by simp [Control.values])
    cases frames with
    | nil => exact ready.hand value rfl
    | cons top rest =>
      obtain ⟨top, rest⟩ := List.forall_mem_cons.1 ready.frames
      exact (ready.withFrames rest).resume top value
  | leave value =>
    have value := handed value (by simp [Control.values])
    cases frames with
    | nil => exact ready.hand value rfl
    | cons top rest =>
      obtain ⟨top, rest⟩ := List.forall_mem_cons.1 ready.frames
      exact (ready.withFrames rest).unwind top value rfl
  | raise error =>
    have unfreed := typed.unfreed error rfl
    cases frames with
    | nil => exact ready.withControl (by simp [Control.values]) (by simpa [Control.error?] using unfreed)
    | cons top rest =>
      obtain ⟨top, rest⟩ := List.forall_mem_cons.1 ready.frames
      exact (ready.withFrames rest).abandon top unfreed rfl
  | halted result => exact typed

theorem run (typed : m.Typed known) (n : Nat) : (m.run .standard n).Typed known := by
  induction n generalizing m with
  | zero => exact typed
  | succ n ih =>
    cases ended : m.result? with
    | none =>
      rw [run_succ ended]
      exact ih typed.step
    | some result =>
      rw [run_of_halted (result?_eq_some.1 ended)]
      exact typed

theorem scopes_bound (typed : m.Typed known) : ∀ scope ∈ m.scopes, scope.Bound m.world.heap := by
  intro scope member
  simp only [Machine.scopes, List.mem_cons, List.mem_append, Option.mem_toList, List.mem_flatMap]
    at member
  rcases member with rfl | here | ⟨frame, member, here⟩
  · exact typed.global
  · exact typed.locals scope here
  · exact (typed.frames frame member).scopes scope here

theorem values_resolve (typed : m.Typed known) : ∀ v ∈ m.values, v.Resolves m.world.heap := by
  intro v member
  simp only [Machine.values, List.mem_append, List.mem_flatMap] at member
  rcases member with here | ⟨frame, member, here⟩
  · exact typed.handed v here
  · exact (typed.frames frame member).values v here

end Machine.Typed

end TinyScript
