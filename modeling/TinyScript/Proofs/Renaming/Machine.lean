import TinyScript.Proofs.Evaluator.Run
import TinyScript.Proofs.Renaming.Builtin

/-! # Runs up to the names of handles

Two states of the evaluator are `Renamed` if they differ in paired handles only: what they are about to
do, what their frames hold, which cells their names have and what is on their heaps.  Such states take
such steps as long as nobody reads the clock (`Machine.Alike.step`); each new handle on one side is
paired with the new handle on the other.
-/

namespace TinyScript

/-! ## Renamed states -/

inductive Frame.Renamed (ρ : Renaming) : Frame → Frame → Prop where
  | leftOperand (op : BinaryOp) (right : Expr) : Renamed ρ (.leftOperand op right) (.leftOperand op right)
  | rightOperand (op : BinaryOp) {v v' : Value} : v.Renamed ρ v' →
      Renamed ρ (.rightOperand op v) (.rightOperand op v')
  | assign (target : String) : Renamed ρ (.assign target none) (.assign target none)
  | compound (target : String) (op : BinaryOp) {v v' : Value} : v.Renamed ρ v' →
      Renamed ρ (.assign target (some (op, v))) (.assign target (some (op, v')))
  | property (name : String) : Renamed ρ (.property name) (.property name)
  | element {done done' : List Value} (rest : List Expr) :
      List.Forall₂ (Value.Renamed ρ) done done' → Renamed ρ (.element done rest) (.element done' rest)
  | field {done done' : NameMap Value} (key : String) (rest : List (String × Expr)) :
      done.Related (Value.Renamed ρ) done' → Renamed ρ (.field done key rest) (.field done' key rest)
  | callee (display : String) (args : List Expr) : Renamed ρ (.callee display args) (.callee display args)
  | method (property display : String) (args : List Expr) :
      Renamed ρ (.method property display args) (.method property display args)
  | argument (target : Target) {done done' : List Value} (rest : List Expr) :
      List.Forall₂ (Value.Renamed ρ) done done' →
      Renamed ρ (.argument target done rest) (.argument target done' rest)
  | mapping (code : Function) {done done' rest rest' : List Value} :
      List.Forall₂ (Value.Renamed ρ) done done' → List.Forall₂ (Value.Renamed ρ) rest rest' →
      Renamed ρ (.mapping code done rest) (.mapping code done' rest')
  | returnTo {locals locals' : Option Scope} : Option.Rel (NameMap.Related ρ) locals locals' →
      Renamed ρ (.returnTo locals) (.returnTo locals')
  | declare (name : String) : Renamed ρ (.declare name) (.declare name)
  | branch (consequent : List Stmt) (alternate : Option (List Stmt)) :
      Renamed ρ (.branch consequent alternate) (.branch consequent alternate)
  | sequence (rest : List Stmt) : Renamed ρ (.sequence rest) (.sequence rest)
  | whileTest (test : Expr) (body : List Stmt) {v v' : Value} : v.Renamed ρ v' →
      Renamed ρ (.whileTest test body v) (.whileTest test body v')
  | whileBody (test : Expr) (body : List Stmt) : Renamed ρ (.whileBody test body) (.whileBody test body)
  | forInit (loop : Loop) : Renamed ρ (.forInit loop) (.forInit loop)
  | forTest (loop : Loop) {v v' : Value} : v.Renamed ρ v' → Renamed ρ (.forTest loop v) (.forTest loop v')
  | forBody (loop : Loop) : Renamed ρ (.forBody loop) (.forBody loop)
  | forUpdate (loop : Loop) {v v' : Value} : v.Renamed ρ v' →
      Renamed ρ (.forUpdate loop v) (.forUpdate loop v')
  | giveBack : Renamed ρ .giveBack .giveBack

inductive Control.Renamed (ρ : Renaming) : Control → Control → Prop where
  | eval (e : Expr) : Renamed ρ (.eval e) (.eval e)
  | exec (s : Stmt) : Renamed ρ (.exec s) (.exec s)
  | give {v v' : Value} : v.Renamed ρ v' → Renamed ρ (.give v) (.give v')
  | leave {v v' : Value} : v.Renamed ρ v' → Renamed ρ (.leave v) (.leave v')
  | raise (error : ExecutionError) : Renamed ρ (.raise error) (.raise error)
  | halted {result result' : Except ExecutionError Value} :
      SameResult (Value.Renamed ρ) result result' → Renamed ρ (.halted result) (.halted result')

/-- Machines that are renamed but for what they are about to do. -/
structure Machine.Matched (ρ : Renaming) (m m' : Machine) : Prop where
  frames : List.Forall₂ (Frame.Renamed ρ) m.frames m'.frames
  locals : Option.Rel (NameMap.Related ρ) m.locals m'.locals
  depth : m.depth = m'.depth
  global : NameMap.Related ρ m.global m'.global
  heap : m.world.heap.Renamed ρ m'.world.heap

structure Machine.Renamed (ρ : Renaming) (m m' : Machine) : Prop extends Machine.Matched ρ m m' where
  control : m.control.Renamed ρ m'.control

/-- Nothing has read the clock from the first state to the second. -/
def Machine.Quiet (m m' : Machine) : Prop := m'.world.clock.readings = m.world.clock.readings

/-- None of the first `n` steps reads the clock. -/
def Machine.quietFor : (n : Nat) → Machine → Bool
  | 0, _ => true
  | n + 1, m => (m.step .standard).world.clock.readings == m.world.clock.readings &&
      (m.step .standard).quietFor n

/-- Renamed by some renaming. -/
def Machine.Alike (m m' : Machine) : Prop := ∃ ρ, Machine.Renamed ρ m m'

section

variable {ρ σ : Renaming}

theorem forall₂_mono {vs vs' : List Value} (renamed : List.Forall₂ (Value.Renamed ρ) vs vs')
    (more : ∀ a b, ρ a b → σ a b) : List.Forall₂ (Value.Renamed σ) vs vs' :=
  renamed.imp fun _ _ value => value.mono more

theorem locals_mono {scope scope' : Option Scope}
    (renamed : Option.Rel (NameMap.Related ρ) scope scope') (more : ∀ a b, ρ a b → σ a b) :
    Option.Rel (NameMap.Related σ) scope scope' := by
  cases renamed with
  | some names => exact .some (names.mono more)
  | none => exact .none

theorem Frame.Renamed.mono {frame frame' : Frame} (renamed : frame.Renamed ρ frame')
    (more : ∀ a b, ρ a b → σ a b) : frame.Renamed σ frame' := by
  cases renamed with
  | rightOperand op value => exact .rightOperand op (value.mono more)
  | compound target op value => exact .compound target op (value.mono more)
  | element rest done => exact .element rest (forall₂_mono done more)
  | field key rest done => exact .field key rest (done.mono fun _ _ value => value.mono more)
  | argument target rest done => exact .argument target rest (forall₂_mono done more)
  | mapping code done rest => exact .mapping code (forall₂_mono done more) (forall₂_mono rest more)
  | returnTo locals => exact .returnTo (locals_mono locals more)
  | whileTest test body value => exact .whileTest test body (value.mono more)
  | forTest loop value => exact .forTest loop (value.mono more)
  | forUpdate loop value => exact .forUpdate loop (value.mono more)
  | _ => constructor

/-! ## Scopes -/

theorem resolve?_renamed {env env' : Env} (scopes : List.Forall₂ (NameMap.Related ρ) env env')
    (name : String) : Option.Rel ρ (env.resolve? name) (env'.resolve? name) := by
  unfold Env.resolve?
  induction scopes with
  | nil => exact .none
  | @cons scope scope' _ _ first _ ih =>
    have cells := first.get? name
    rw [List.findSome?_cons, List.findSome?_cons]
    generalize scope.get? name = x at cells ⊢
    generalize scope'.get? name = y at cells ⊢
    cases cells with
    | some pair => exact .some pair
    | none => exact ih

theorem cellValue?_renamed {h h' : Heap Object} (heaps : h.Renamed ρ h') {a b : Handle}
    (pair : ρ a b) : Option.Rel (Value.Renamed ρ) (Env.cellValue? h a) (Env.cellValue? h' b) := by
  obtain ⟨x, x', found, found', renamed⟩ := heaps.objects a b pair
  simp only [Env.cellValue?, found, found']
  cases renamed with
  | binding value => exact .some value
  | _ => exact .none

theorem lookup?_renamed {env env' : Env} {h h' : Heap Object}
    (scopes : List.Forall₂ (NameMap.Related ρ) env env') (heaps : h.Renamed ρ h') (name : String) :
    Option.Rel (Value.Renamed ρ) (env.lookup? h name) (env'.lookup? h' name) := by
  have cells := resolve?_renamed scopes name
  unfold Env.lookup?
  generalize env.resolve? name = x at cells ⊢
  generalize env'.resolve? name = y at cells ⊢
  cases cells with
  | some pair => exact cellValue?_renamed heaps pair
  | none => exact .none

theorem defineAll_renamed {scope scope' : Scope} {h h' : Heap Object} (names : List String)
    {values values' : List Value} (scopes : scope.Related ρ scope') (heaps : h.Renamed ρ h')
    (same : List.Forall₂ (Value.Renamed ρ) values values') :
    ∃ σ : Renaming, (∀ a b, ρ a b → σ a b) ∧
      (scope.defineAll h names values).1.Related σ (scope'.defineAll h' names values').1 ∧
      (scope.defineAll h names values).2.Renamed σ (scope'.defineAll h' names values').2 := by
  induction names generalizing ρ scope scope' h h' values values' with
  | nil => exact ⟨ρ, fun _ _ pair => pair, scopes, heaps⟩
  | cons name names ih =>
    have first : (values.headD .undefined).Renamed ρ (values'.headD .undefined) := by
      cases same with
      | nil => exact .undefined
      | cons value _ => exact value
    have others : List.Forall₂ (Value.Renamed ρ) values.tail values'.tail := by
      cases same with
      | nil => exact .nil
      | cons _ rest => exact rest
    obtain ⟨σ, more, pair, after⟩ := heaps.allocate (.binding first)
    obtain ⟨τ, further, bound, last⟩ :=
      ih ((scopes.mono more).insert name pair) after (forall₂_mono others more)
    exact ⟨τ, fun a b old => further a b (more a b old), bound, last⟩

end

namespace Machine.Matched

variable {ρ : Renaming} {m m' : Machine} {v v' w w' : Value}

/-- The machine with another heap, on which some more handles are paired. -/
theorem extend {σ : Renaming} (matched : m.Matched ρ m') (more : ∀ a b, ρ a b → σ a b)
    {h h' : Heap Object} (heaps : h.Renamed σ h') :
    Matched σ { m with world := { m.world with heap := h } }
      { m' with world := { m'.world with heap := h' } } :=
  ⟨matched.frames.imp fun _ _ frame => frame.mono more, locals_mono matched.locals more,
    matched.depth, matched.global.mono more, heaps⟩

theorem withFrames (matched : m.Matched ρ m') {frames frames' : List Frame}
    (same : List.Forall₂ (Frame.Renamed ρ) frames frames') :
    Matched ρ { m with frames := frames } { m' with frames := frames' } :=
  ⟨same, matched.locals, matched.depth, matched.global, matched.heap⟩

/-! ## Moves -/

theorem fail (matched : m.Matched ρ m') (error : ExecutionError) :
    (m.fail error).Alike (m'.fail error) :=
  ⟨ρ, ⟨matched.frames, matched.locals, matched.depth, matched.global, matched.heap⟩, .raise error⟩

theorem give (matched : m.Matched ρ m') (value : v.Renamed ρ v') : (m.give v).Alike (m'.give v') :=
  ⟨ρ, ⟨matched.frames, matched.locals, matched.depth, matched.global, matched.heap⟩, .give value⟩

theorem giveResult (matched : m.Matched ρ m') {result result' : Except ExecutionError Value}
    (same : SameResult (Value.Renamed ρ) result result') :
    (m.giveResult result).Alike (m'.giveResult result') := by
  cases same with
  | ok value => exact matched.give value
  | error error => exact matched.fail error

theorem evalFor (matched : m.Matched ρ m') {frame frame' : Frame} (top : frame.Renamed ρ frame')
    (e : Expr) : (m.evalFor frame e).Alike (m'.evalFor frame' e) :=
  ⟨ρ, ⟨.cons top matched.frames, matched.locals, matched.depth, matched.global, matched.heap⟩, .eval e⟩

theorem enter (matched : m.Matched ρ m') (block : List Stmt) :
    (m.enter block).Alike (m'.enter block) := by
  match block with
  | [] => exact matched.give .undefined
  | [s] =>
    exact ⟨ρ, ⟨matched.frames, matched.locals, matched.depth, matched.global, matched.heap⟩, .exec s⟩
  | s :: next :: rest =>
    exact ⟨ρ, ⟨.cons (.sequence _) matched.frames, matched.locals, matched.depth, matched.global,
      matched.heap⟩, .exec s⟩

theorem enterFor (matched : m.Matched ρ m') {frame frame' : Frame} (top : frame.Renamed ρ frame')
    (block : List Stmt) : (m.enterFor frame block).Alike (m'.enterFor frame' block) :=
  (matched.withFrames (.cons top matched.frames)).enter block

/-! ## Names -/

theorem env (matched : m.Matched ρ m') : List.Forall₂ (NameMap.Related ρ) m.env m'.env := by
  have locals := matched.locals
  unfold Machine.env
  generalize m.locals = x at locals ⊢
  generalize m'.locals = y at locals ⊢
  cases locals with
  | some names => exact .cons names (.cons matched.global .nil)
  | none => exact .cons matched.global .nil

theorem lookup? (matched : m.Matched ρ m') (name : String) :
    Option.Rel (Value.Renamed ρ) (m.lookup? name) (m'.lookup? name) :=
  lookup?_renamed matched.env matched.heap name

theorem cell? (matched : m.Matched ρ m') (name : String) :
    Option.Rel ρ (m.env.cell? m.world.heap name) (m'.env.cell? m'.world.heap name) := by
  have cells := resolve?_renamed matched.env name
  unfold Env.cell?
  generalize m.env.resolve? name = x at cells ⊢
  generalize m'.env.resolve? name = y at cells ⊢
  cases cells with
  | none => exact .none
  | @some a b pair =>
    have values := cellValue?_renamed matched.heap pair
    simp only
    generalize Env.cellValue? m.world.heap a = x at values ⊢
    generalize Env.cellValue? m'.world.heap b = y at values ⊢
    cases values with
    | some => exact .some pair
    | none => exact .none

theorem assign (matched : m.Matched ρ m') (name : String) (value : v.Renamed ρ v') :
    (m.assign name v).Alike (m'.assign name v') := by
  have cells := matched.cell? name
  unfold Machine.assign
  generalize m.env.cell? m.world.heap name = x at cells ⊢
  generalize m'.env.cell? m'.world.heap name = y at cells ⊢
  cases cells with
  | none => exact matched.fail _
  | some pair =>
    exact ⟨ρ, ⟨matched.frames, matched.locals, matched.depth, matched.global,
      matched.heap.update pair fun _ _ _ => .binding value⟩, .give value⟩

/-- A name is bound on the way to something that has no value. -/
theorem define (matched : m.Matched ρ m') (name : String) (value : v.Renamed ρ v') :
    ((m.define name v).give .undefined).Alike ((m'.define name v').give .undefined) := by
  obtain ⟨control, frames, locals, depth, global, world⟩ := m
  obtain ⟨control', frames', locals', depth', global', world'⟩ := m'
  obtain ⟨σ, more, pair, heaps⟩ := matched.heap.allocate (.binding value)
  have frames := matched.frames.imp fun _ _ (frame : Frame.Renamed ρ _ _) => frame.mono more
  cases matched.locals with
  | some names =>
    exact ⟨σ, ⟨frames, .some ((names.mono more).insert name pair), matched.depth,
      matched.global.mono more, heaps⟩, .give .undefined⟩
  | none =>
    exact ⟨σ, ⟨frames, .none, matched.depth, (matched.global.mono more).insert name pair, heaps⟩,
      .give .undefined⟩

/-! ## Calls -/

theorem call (matched : m.Matched ρ m') (code : Function) {args args' : List Value}
    (arguments : List.Forall₂ (Value.Renamed ρ) args args') :
    (m.call code args).Alike (m'.call code args') := by
  unfold Machine.call
  by_cases limit : m.depth ≥ callLimit
  · rw [if_pos limit, if_pos (matched.depth ▸ limit)]
    exact matched.fail _
  · rw [if_neg limit, if_neg (matched.depth ▸ limit)]
    obtain ⟨σ, more, names, heaps⟩ :=
      defineAll_renamed code.params NameMap.Related.empty matched.heap arguments
    have after := matched.extend more heaps
    have inside : Matched σ
        ⟨m.control, .returnTo m.locals :: m.frames, some _, m.depth + 1, m.global, { m.world with heap := _ }⟩
        ⟨m'.control, .returnTo m'.locals :: m'.frames, some _, m'.depth + 1, m'.global,
          { m'.world with heap := _ }⟩ :=
      ⟨.cons (.returnTo after.locals) after.frames, .some names, congrArg (· + 1) matched.depth,
        after.global, heaps⟩
    exact inside.enter code.body

theorem giveArray (matched : m.Matched ρ m') {done done' : List Value}
    (values : List.Forall₂ (Value.Renamed ρ) done done') :
    (m.giveArray done).Alike (m'.giveArray done') := by
  have elements : Object.Renamed ρ (.array done.reverse.toArray) (.array done'.reverse.toArray) :=
    .array (List.rel_reverse values)
  obtain ⟨σ, more, pair, heaps⟩ := matched.heap.allocate elements
  exact (matched.extend more heaps).give (.array pair)

theorem mapNext (matched : m.Matched ρ m') (code : Function) {done done' rest rest' : List Value}
    (values : List.Forall₂ (Value.Renamed ρ) done done')
    (others : List.Forall₂ (Value.Renamed ρ) rest rest') :
    (m.mapNext code done rest).Alike (m'.mapNext code done' rest') := by
  cases others with
  | nil => exact matched.giveArray values
  | cons element others =>
    simp only [Machine.mapNext, values.length_eq]
    have under := matched.withFrames (.cons (.mapping code values others) matched.frames)
    exact under.call code (.cons element (.cons (.scalar _) .nil))

theorem reply (matched : m.Matched ρ m') {answer answer' : Reply}
    (same : answer.Renamed ρ answer') : (m.reply answer).Alike (m'.reply answer') := by
  cases same with
  | value value => exact matched.give value
  | call code arguments => exact matched.call code arguments
  | map code elements => exact matched.mapNext code .nil elements

theorem callBuiltin (matched : m.Matched ρ m') (library operation : String) {args args' : List Value}
    (arguments : List.Forall₂ (Value.Renamed ρ) args args')
    (quiet : m'.Quiet (m'.callBuiltin .standard library operation args')) :
    (m.callBuiltin .standard library operation args).Alike
      (m'.callBuiltin .standard library operation args') := by
  obtain ⟨control, frames, locals, depth, global, world⟩ := m
  obtain ⟨control', frames', locals', depth', global', world'⟩ := m'
  unfold Machine.callBuiltin at quiet ⊢
  cases found : BuiltinTable.standard.find? library operation with
  | none => exact matched.fail _
  | some builtin =>
    simp only [found] at quiet ⊢
    rcases BuiltinTable.standard_respects found with respects | rfl
    · obtain ⟨same, heaps⟩ := respects ρ (library ++ "." ++ operation) args args' world world' arguments
        matched.heap
      generalize builtin (library ++ "." ++ operation) args world = outcome at same heaps ⊢
      generalize builtin (library ++ "." ++ operation) args' world' = outcome' at same heaps ⊢
      obtain ⟨result, after⟩ := outcome
      obtain ⟨result', after'⟩ := outcome'
      have matched : Matched ρ ⟨control, frames, locals, depth, global, after⟩
          ⟨control', frames', locals', depth', global', after'⟩ :=
        ⟨matched.frames, matched.locals, matched.depth, matched.global, heaps⟩
      cases same with
      | ok answer => exact matched.reply answer
      | error error => exact matched.fail error
    · exact absurd quiet (Nat.succ_ne_self _)

theorem argumentNext (matched : m.Matched ρ m') (target : Target) {done done' : List Value}
    (values : List.Forall₂ (Value.Renamed ρ) done done') (rest : List Expr)
    (quiet : m'.Quiet (m'.argumentNext .standard target done' rest)) :
    (m.argumentNext .standard target done rest).Alike (m'.argumentNext .standard target done' rest) := by
  cases rest with
  | cons e rest => exact matched.evalFor (.argument target rest values) e
  | nil =>
    cases target with
    | function code => exact matched.call code (List.rel_reverse values)
    | builtin library operation => exact matched.callBuiltin library operation (List.rel_reverse values) quiet

theorem callValue (matched : m.Matched ρ m') (value : v.Renamed ρ v') (display : String)
    (args : List Expr) (quiet : m'.Quiet (m'.callValue .standard v' display args)) :
    (m.callValue .standard v display args).Alike (m'.callValue .standard v' display args) := by
  cases value with
  | function code => exact matched.argumentNext (.function code) .nil args quiet
  | _ => exact matched.fail _

theorem callMethod (matched : m.Matched ρ m') (receiver : v.Renamed ρ v') (property display : String)
    (args : List Expr) (quiet : m'.Quiet (m'.callMethod .standard v' property display args)) :
    (m.callMethod .standard v property display args).Alike
      (m'.callMethod .standard v' property display args) := by
  have read := matched.heap.readProperty receiver property
  unfold Machine.callMethod at quiet ⊢
  cases receiver with
  | library library =>
    cases found : BuiltinTable.standard.find? library property with
    | some builtin =>
      simp only [found] at quiet ⊢
      exact matched.argumentNext (.builtin library property) .nil args quiet
    | none =>
      simp only [found]
      exact matched.fail _
  | _ =>
    simp only at quiet ⊢
    generalize readProperty m.world.heap _ property = x at read quiet ⊢
    generalize readProperty m'.world.heap _ property = y at read quiet ⊢
    cases read with
    | ok value => exact matched.callValue value display args quiet
    | error error => exact matched.fail error

/-! ## Expressions -/

theorem evalCall (matched : m.Matched ρ m') (callee : Callee) (args : List Expr)
    (quiet : m'.Quiet (m'.evalCall .standard callee args)) :
    (m.evalCall .standard callee args).Alike (m'.evalCall .standard callee args) := by
  cases callee with
  | function name =>
    have found := matched.lookup? name
    simp only [Machine.evalCall] at quiet ⊢
    generalize m.lookup? name = x at found ⊢
    generalize m'.lookup? name = y at found quiet ⊢
    cases found with
    | some value => exact matched.callValue value name args quiet
    | none => exact matched.fail _
  | method receiver property =>
    have found := matched.lookup? receiver
    simp only [Machine.evalCall] at quiet ⊢
    generalize m.lookup? receiver = x at found ⊢
    generalize m'.lookup? receiver = y at found quiet ⊢
    cases found with
    | some value => exact matched.callMethod value property _ args quiet
    | none => exact matched.fail _
  | computed target =>
    cases target with
    | member receiver property => exact matched.evalFor (.method property _ args) receiver
    | _ => exact matched.evalFor (.callee _ args) _

theorem elementNext (matched : m.Matched ρ m') {done done' : List Value}
    (values : List.Forall₂ (Value.Renamed ρ) done done') (rest : List Expr) :
    (m.elementNext done rest).Alike (m'.elementNext done' rest) := by
  cases rest with
  | cons e rest => exact matched.evalFor (.element rest values) e
  | nil => exact matched.giveArray values

theorem fieldNext (matched : m.Matched ρ m') {done done' : NameMap Value}
    (fields : done.Related (Value.Renamed ρ) done') (rest : List (String × Expr)) :
    (m.fieldNext done rest).Alike (m'.fieldNext done' rest) := by
  cases rest with
  | cons field rest => exact matched.evalFor (.field field.1 rest fields) field.2
  | nil =>
    obtain ⟨σ, more, pair, heaps⟩ := matched.heap.allocate (.record fields)
    exact (matched.extend more heaps).give (.object pair)

theorem evalStep (matched : m.Matched ρ m') (e : Expr) (quiet : m'.Quiet (m'.evalStep .standard e)) :
    (m.evalStep .standard e).Alike (m'.evalStep .standard e) := by
  cases e with
  | literal value => exact matched.give (.scalar _)
  | identifier name =>
    have found := matched.lookup? name
    simp only [Machine.evalStep]
    generalize m.lookup? name = x at found ⊢
    generalize m'.lookup? name = y at found ⊢
    cases found with
    | some value => exact matched.give value
    | none => exact matched.fail _
  | binary op left right => exact matched.evalFor (.leftOperand op right) left
  | assign op target value =>
    have found := matched.lookup? target
    simp only [Machine.evalStep]
    cases op.binary? with
    | none => exact matched.evalFor (.assign target) value
    | some op =>
      simp only
      generalize m.lookup? target = x at found ⊢
      generalize m'.lookup? target = y at found ⊢
      cases found with
      | some old => exact matched.evalFor (.compound target op old) value
      | none => exact matched.fail _
  | call callee args => exact matched.evalCall callee args quiet
  | member receiver property => exact matched.evalFor (.property property) receiver
  | array elements => exact matched.elementNext .nil elements
  | object fields => exact matched.fieldNext .empty fields

/-! ## Statements -/

theorem loopNext (matched : m.Matched ρ m') (loop : Loop) (last : v.Renamed ρ v') :
    (m.loopNext loop v).Alike (m'.loopNext loop v') := by
  obtain ⟨test, update, body⟩ := loop
  cases test with
  | some test => exact matched.evalFor (.forTest _ last) test
  | none => exact matched.enterFor (.forBody _) body

theorem leave (matched : m.Matched ρ m') (value : v.Renamed ρ v') :
    Alike { m with control := .leave v } { m' with control := .leave v' } :=
  ⟨ρ, ⟨matched.frames, matched.locals, matched.depth, matched.global, matched.heap⟩, .leave value⟩

theorem execStep (matched : m.Matched ρ m') (s : Stmt) : (m.execStep s).Alike (m'.execStep s) := by
  cases s with
  | declare kind name init => exact matched.evalFor (.declare name) init
  | function name params body site => exact matched.define name (.function _)
  | ifElse test consequent alternate => exact matched.evalFor (.branch consequent alternate) test
  | forLoop init test update body =>
    cases init with
    | none => exact matched.loopNext _ .undefined
    | some init =>
      exact ⟨ρ, ⟨.cons (.forInit _) matched.frames, matched.locals, matched.depth, matched.global,
        matched.heap⟩, .exec init⟩
  | whileLoop test body => exact matched.evalFor (.whileTest test body .undefined) test
  | ret argument =>
    cases argument with
    | none => exact matched.leave .undefined
    | some argument => exact matched.evalFor .giveBack argument
  | expression value =>
    exact ⟨ρ, ⟨matched.frames, matched.locals, matched.depth, matched.global, matched.heap⟩,
      .eval value⟩

/-! ## Frames -/

theorem enterAfter (matched : m.Matched ρ m') (value : v.Renamed ρ v') (block : List Stmt) :
    (m.enterAfter v block).Alike (m'.enterAfter v' block) := by
  cases block with
  | nil => exact matched.give value
  | cons s rest => exact matched.enter (s :: rest)

/-- Back in the scope of the caller. -/
theorem returnTo (matched : m.Matched ρ m') {locals locals' : Option Scope}
    (scopes : Option.Rel (NameMap.Related ρ) locals locals') (value : v.Renamed ρ v') :
    Alike { m with control := .give v, locals := locals, depth := m.depth - 1 }
      { m' with control := .give v', locals := locals', depth := m'.depth - 1 } :=
  ⟨ρ, ⟨matched.frames, scopes, congrArg (· - 1) matched.depth, matched.global, matched.heap⟩,
    .give value⟩

theorem resume (matched : m.Matched ρ m') {frame frame' : Frame} (top : frame.Renamed ρ frame')
    (value : v.Renamed ρ v') (quiet : m'.Quiet (m'.resume .standard frame' v')) :
    (m.resume .standard frame v).Alike (m'.resume .standard frame' v') := by
  cases top with
  | leftOperand op right => exact matched.evalFor (.rightOperand op value) right
  | rightOperand op left => exact matched.giveResult (matched.heap.onValues op left value)
  | assign target => exact matched.assign target value
  | @compound target op old old' left =>
    have combined := matched.heap.onValues op left value
    simp only [Machine.resume]
    generalize op.onValues m.world.heap old v = x at combined ⊢
    generalize op.onValues m'.world.heap old' v' = y at combined ⊢
    cases combined with
    | ok value => exact matched.assign target value
    | error error => exact matched.fail error
  | property name => exact matched.giveResult (matched.heap.readProperty value name)
  | element rest done => exact matched.elementNext (.cons value done) rest
  | field key rest done => exact matched.fieldNext (done.insert key value) rest
  | callee display args => exact matched.callValue value display args quiet
  | method property display args => exact matched.callMethod value property display args quiet
  | argument target rest done => exact matched.argumentNext target (.cons value done) rest quiet
  | mapping code done rest => exact matched.mapNext code (.cons value done) rest
  | returnTo locals => exact matched.returnTo locals .undefined
  | declare name => exact matched.define name value
  | branch consequent alternate =>
    simp only [Machine.resume, value.isTruthy_eq]
    split
    · exact matched.enter consequent
    · cases alternate with
      | some alternate => exact matched.enter alternate
      | none => exact matched.give .undefined
  | sequence rest => exact matched.enterAfter value rest
  | whileTest test body last =>
    simp only [Machine.resume, value.isTruthy_eq]
    split
    · exact matched.enterFor (.whileBody test body) body
    · exact matched.give last
  | whileBody test body => exact matched.evalFor (.whileTest test body value) test
  | forInit loop => exact matched.loopNext loop .undefined
  | forTest loop last =>
    simp only [Machine.resume, value.isTruthy_eq]
    split
    · exact matched.enterFor (.forBody loop) loop.body
    · exact matched.give last
  | forBody loop =>
    obtain ⟨test, update, body⟩ := loop
    cases update with
    | some update => exact matched.evalFor (.forUpdate _ value) update
    | none => exact matched.loopNext _ value
  | forUpdate loop last => exact matched.loopNext loop last
  | giveBack => exact matched.leave value

/-- A return that is on its way passes all frames but that of the call. -/
theorem unwind (matched : m.Matched ρ m') {frame frame' : Frame} (top : frame.Renamed ρ frame')
    (value : v.Renamed ρ v') (control : m.control = .leave v) (control' : m'.control = .leave v') :
    (m.unwind frame v).Alike (m'.unwind frame' v') := by
  have on : m.Alike m' := ⟨ρ, matched, by rw [control, control']; exact .leave value⟩
  cases top with
  | returnTo locals => exact matched.returnTo locals value
  | forInit loop => exact matched.loopNext loop .undefined
  | _ => exact on

/-- An error passes all frames. -/
theorem abandon (matched : m.Matched ρ m') {frame frame' : Frame} (top : frame.Renamed ρ frame')
    {error : ExecutionError} (control : m.control = .raise error) (control' : m'.control = .raise error) :
    (m.abandon frame).Alike (m'.abandon frame') := by
  have same : m.control.Renamed ρ m'.control := by
    rw [control, control']
    exact .raise error
  cases top with
  | returnTo locals =>
    exact ⟨ρ, ⟨matched.frames, locals, congrArg (· - 1) matched.depth, matched.global, matched.heap⟩, same⟩
  | _ => exact ⟨ρ, matched, same⟩

end Machine.Matched

/-! ## Steps and runs -/

namespace Machine

variable {m m' : Machine}

theorem Alike.step (alike : m.Alike m') (quiet : m'.Quiet (m'.step .standard)) :
    (m.step .standard).Alike (m'.step .standard) := by
  obtain ⟨ρ, matched, control⟩ := alike
  obtain ⟨_, frames, locals, depth, global, world⟩ := m
  obtain ⟨_, frames', locals', depth', global', world'⟩ := m'
  cases control with
  | eval e => exact matched.evalStep e quiet
  | exec s => exact matched.execStep s
  | give value =>
    cases matched.frames with
    | nil =>
      exact ⟨ρ, ⟨.nil, matched.locals, matched.depth, matched.global, matched.heap⟩,
        .halted (.ok value)⟩
    | cons top rest => exact (matched.withFrames rest).resume top value quiet
  | leave value =>
    cases matched.frames with
    | nil =>
      exact ⟨ρ, ⟨.nil, matched.locals, matched.depth, matched.global, matched.heap⟩,
        .halted (.ok value)⟩
    | cons top rest => exact (matched.withFrames rest).unwind top value rfl rfl
  | raise error =>
    cases matched.frames with
    | nil =>
      exact ⟨ρ, ⟨.nil, matched.locals, matched.depth, matched.global, matched.heap⟩,
        .halted (.error error)⟩
    | cons top rest => exact (matched.withFrames rest).abandon top rfl rfl
  | halted result => exact ⟨ρ, matched, .halted result⟩

theorem Alike.result?_eq_none (alike : m.Alike m') : m.result? = none ↔ m'.result? = none := by
  obtain ⟨ρ, _, control⟩ := alike
  unfold Machine.result?
  generalize m.control = x at control ⊢
  generalize m'.control = y at control ⊢
  cases control <;> simp

theorem Alike.run (alike : m.Alike m') {n : Nat} (quiet : m'.quietFor n = true) :
    (m.run .standard n).Alike (m'.run .standard n) := by
  induction n generalizing m m' with
  | zero => exact alike
  | succ n ih =>
    simp only [quietFor, Bool.and_eq_true, beq_iff_eq] at quiet
    cases ended : m'.result? with
    | none =>
      rw [run_succ (alike.result?_eq_none.2 ended), run_succ ended]
      exact ih (alike.step quiet.1) quiet.2
    | some result' =>
      obtain ⟨result, ended'⟩ : ∃ result, m.result? = some result := by
        rw [← Option.ne_none_iff_exists']
        intro none
        rw [alike.result?_eq_none.1 none] at ended
        cases ended
      rw [run_of_halted (result?_eq_some.1 ended), run_of_halted (result?_eq_some.1 ended')]
      exact alike

end Machine

end TinyScript
