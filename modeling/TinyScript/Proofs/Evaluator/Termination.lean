import TinyScript.Proofs.Evaluator.LoopFree
import TinyScript.Proofs.Evaluator.Run
import TinyScript.Proofs.Renaming.Session

/-! # Programs without loops come to an end

Three inductions, one inside of the other, carry the proof.  The outermost is on the number of calls that
may still be made: a function that calls itself without end runs into `callLimit`.  The next is on the
syntax of what is evaluated, and the innermost on the elements that are left of an array that is mapped.
These were read before the first of them was handed to the function, so it does not matter what the
function does to the array.

What is still to be done with a value is a list of frames.  Of these it is enough to know that they
`Finish`: any value that is handed to them leads to the end of the run.  An expression or a statement
`Ends` if it leads to the end in front of all frames that finish.
-/

namespace TinyScript

namespace Machine

/-! ## Runs that end -/

/-- The run comes to its end, and leaves no loops on the heap. -/
def Ends (m : Machine) : Prop :=
  ∃ n result, (m.run .standard n).control = .halted result ∧ (m.run .standard n).world.heap.LoopFree

variable {m : Machine}

theorem Ends.of_step (running : m.result? = none) (ends : (m.step .standard).Ends) : m.Ends := by
  obtain ⟨n, result, halted, free⟩ := ends
  refine ⟨n + 1, result, ?_⟩
  rw [run_succ running]
  exact ⟨halted, free⟩

theorem ends_of_halted {result : Except ExecutionError Value} (halted : m.control = .halted result)
    (free : m.world.heap.LoopFree) : m.Ends :=
  ⟨0, result, halted, free⟩

end Machine

/-- Whatever value is handed to the frames, the run comes to its end. -/
def Frame.Finish (depth : Nat) (frames : List Frame) : Prop :=
  ∀ (locals : Option Scope) (global : Scope) (world : World) (v : Value), world.heap.LoopFree →
    v.LoopFree → (Machine.mk (.give v) frames locals depth global world).Ends ∧
      (Machine.mk (.leave v) frames locals depth global world).Ends

/-- In a state with a number of active calls, all that is left to be done afterwards leads to the end. -/
structure Machine.Poised (active : Nat) (m : Machine) : Prop where
  depth : m.depth = active
  heap : m.world.heap.LoopFree
  finish : Frame.Finish active m.frames

/-- The evaluation of the expression leads to the end. -/
def Expr.Ends (depth : Nat) (e : Expr) : Prop :=
  ∀ m : Machine, m.Poised depth → (Machine.Ends { m with control := .eval e })

def Stmt.Ends (depth : Nat) (s : Stmt) : Prop :=
  ∀ m : Machine, m.Poised depth → (Machine.Ends { m with control := .exec s })

/-- Calls of the function lead to the end. -/
def Function.Ends (depth : Nat) (code : Function) : Prop :=
  ∀ (m : Machine) (args : List Value), m.Poised depth → (∀ v ∈ args, v.LoopFree) → (m.call code args).Ends

/-- With so many active calls, a call of whatever function leads to the end. -/
def CallsEnd (depth : Nat) : Prop := ∀ code : Function, code.LoopFree → code.Ends depth

/-- Lets a return pass. -/
def Frame.isPlain : Frame → Bool
  | .returnTo _ => false
  | .forInit _ => false
  | _ => true

theorem Frame.finish_nil (depth : Nat) : Frame.Finish depth [] := by
  intro locals global world v free _
  constructor
  · exact .of_step rfl (Machine.ends_of_halted rfl free)
  · exact .of_step rfl (Machine.ends_of_halted rfl free)

/-- Behind a call, there is one active call less. -/
theorem Frame.finish_returnTo {depth : Nat} {frames : List Frame} (finish : Frame.Finish depth frames)
    (locals : Option Scope) : Frame.Finish (depth + 1) (.returnTo locals :: frames) := by
  intro _ global world v free value
  constructor
  · exact .of_step rfl (finish locals global world .undefined free trivial).1
  · exact .of_step rfl (finish locals global world v free value).1

namespace Machine.Poised

variable {d : Nat} {m : Machine} {v : Value}

/-! ## Moves -/

theorem fail (poised : m.Poised d) (error : ExecutionError) : (m.fail error).Ends := by
  obtain ⟨n, halted⟩ := Leaves.exists_halted (m := m.fail error) (.inl rfl) .standard
  obtain ⟨_, _, world⟩ := Leaves.run (m := m.fail error) (.inl rfl) .standard n
  refine ⟨n, _, halted, ?_⟩
  rw [world]
  exact poised.heap

theorem give (poised : m.Poised d) (value : v.LoopFree) : (m.give v).Ends := by
  have finish := (poised.finish m.locals m.global m.world v poised.heap value).1
  rw [← poised.depth] at finish
  exact finish

theorem leave (poised : m.Poised d) (value : v.LoopFree) : Ends { m with control := .leave v } := by
  have finish := (poised.finish m.locals m.global m.world v poised.heap value).2
  rw [← poised.depth] at finish
  exact finish

theorem giveResult (poised : m.Poised d) {result : Except ExecutionError Value}
    (gives : Gives Value.LoopFree result) : (m.giveResult result).Ends := by
  cases result with
  | ok v => exact poised.give (gives v rfl)
  | error error => exact poised.fail error

theorem withHeap (poised : m.Poised d) {h : Heap Object} (free : h.LoopFree) :
    Poised d { m with world := { m.world with heap := h } } :=
  ⟨poised.depth, free, poised.finish⟩

/-- A frame may be put on top if it leads to the end whatever the value is that it is waiting for. -/
theorem push (poised : m.Poised d) {frame : Frame} (plain : frame.isPlain = true)
    (resumes : ∀ (n : Machine) (v : Value), n.Poised d → v.LoopFree → (n.resume .standard frame v).Ends) :
    Poised d { m with frames := frame :: m.frames } := by
  refine ⟨poised.depth, poised.heap, ?_⟩
  intro locals global world v free value
  constructor
  · exact .of_step rfl (resumes ⟨.give v, m.frames, locals, d, global, world⟩ v
      ⟨rfl, free, poised.finish⟩ value)
  · apply Ends.of_step rfl
    have passed := (poised.finish locals global world v free value).2
    cases frame with
    | returnTo locals => cases plain
    | forInit loop => cases plain
    | _ => exact passed

theorem evalFor (poised : m.Poised d) {e : Expr} (ends : e.Ends d) {frame : Frame}
    (plain : frame.isPlain = true)
    (resumes : ∀ (n : Machine) (v : Value), n.Poised d → v.LoopFree → (n.resume .standard frame v).Ends) :
    (m.evalFor frame e).Ends :=
  ends _ (poised.push plain resumes)

/-- The statements that are left of a block wait for the one before them. -/
theorem enter (poised : m.Poised d) {block : List Stmt} (ends : ∀ s ∈ block, s.Ends d) :
    (m.enter block).Ends := by
  induction block generalizing m with
  | nil => exact poised.give trivial
  | cons s rest ih =>
    obtain ⟨first, others⟩ := List.forall_mem_cons.1 ends
    cases rest with
    | nil => exact first _ poised
    | cons next rest =>
      apply first _ (poised.push rfl _)
      intro n v poised _
      exact ih poised others

theorem define (poised : m.Poised d) (name : String) (value : v.LoopFree) :
    ((m.define name v).give .undefined).Ends := by
  obtain ⟨control, frames, locals, depth, global, world⟩ := m
  cases locals with
  | some scope =>
    have free := poised.heap.define scope name value
    exact give ⟨poised.depth, free, poised.finish⟩ trivial
  | none =>
    have free := poised.heap.define global name value
    exact give ⟨poised.depth, free, poised.finish⟩ trivial

theorem assign (poised : m.Poised d) (name : String) (value : v.LoopFree) : (m.assign name v).Ends := by
  unfold Machine.assign
  cases m.env.cell? m.world.heap name with
  | none => exact poised.fail _
  | some cell =>
    have free : (m.world.heap.update cell fun _ => .binding v).LoopFree := by
      apply poised.heap.update
      intro o _
      exact List.forall_mem_singleton.2 value
    exact (poised.withHeap free).give value

theorem giveArray (poised : m.Poised d) {done : List Value} (values : ∀ v ∈ done, v.LoopFree) :
    (m.giveArray done).Ends := by
  have free : (m.world.heap.allocate (.array done.reverse.toArray)).2.LoopFree := by
    apply poised.heap.allocate
    intro v member
    simp only [Object.values, List.mem_reverse] at member
    exact values v member
  exact (poised.withHeap free).give trivial

/-! ## Calls -/

section

variable (calls : CallsEnd d)

include calls

/-- The elements that are left wait for the call with the one before them. -/
theorem mapNext (poised : m.Poised d) {code : Function} (free : code.LoopFree) {done rest : List Value}
    (results : ∀ v ∈ done, v.LoopFree) (elements : ∀ v ∈ rest, v.LoopFree) :
    (m.mapNext code done rest).Ends := by
  induction rest generalizing m done with
  | nil => exact poised.giveArray results
  | cons element rest ih =>
    obtain ⟨first, others⟩ := List.forall_mem_cons.1 elements
    apply calls code free
    · apply poised.push rfl
      intro n v poised value
      exact ih poised (List.forall_mem_cons.2 ⟨value, results⟩) others
    · simp only [List.forall_mem_cons, List.not_mem_nil, false_implies, implies_true, and_true]
      exact ⟨first, trivial⟩

theorem reply (poised : m.Poised d) {answer : Reply} (held : ∀ v ∈ answer.held, v.LoopFree) :
    (m.reply answer).Ends := by
  cases answer with
  | value result => exact poised.give (held result List.mem_cons_self)
  | call code args =>
    obtain ⟨callee, args⟩ := List.forall_mem_cons.1 held
    exact calls code callee m _ poised args
  | map code elements =>
    obtain ⟨callee, elements⟩ := List.forall_mem_cons.1 held
    exact poised.mapNext calls callee (by simp) elements

theorem callBuiltin (poised : m.Poised d) (library operation : String) {args : List Value}
    (values : ∀ v ∈ args, v.LoopFree) : (m.callBuiltin .standard library operation args).Ends := by
  unfold Machine.callBuiltin
  cases found : BuiltinTable.standard.find? library operation with
  | none => exact poised.fail _
  | some builtin =>
    obtain ⟨control, frames, locals, depth, global, world⟩ := m
    have spec := BuiltinTable.standard_loopFree found (library ++ "." ++ operation) args world
      poised.heap values
    simp only
    generalize builtin (library ++ "." ++ operation) args world = outcome at spec
    obtain ⟨result, world'⟩ := outcome
    obtain ⟨free, gives⟩ := spec
    have after : Poised d ⟨control, frames, locals, depth, global, world'⟩ :=
      ⟨poised.depth, free, poised.finish⟩
    cases result with
    | ok answer => exact after.reply calls (gives answer rfl)
    | error error => exact after.fail error

/-- What a call is made of is known to be without loops before its arguments are evaluated. -/
theorem argumentNext (poised : m.Poised d) {target : Target}
    (callee : ∀ code, target = .function code → code.LoopFree) {done : List Value}
    (values : ∀ v ∈ done, v.LoopFree) {rest : List Expr} (ends : ∀ e ∈ rest, e.Ends d) :
    (m.argumentNext .standard target done rest).Ends := by
  induction rest generalizing m done with
  | nil =>
    have reversed : ∀ v ∈ done.reverse, v.LoopFree := by
      intro v member
      exact values v (List.mem_reverse.1 member)
    cases target with
    | function code => exact calls code (callee code rfl) m _ poised reversed
    | builtin library operation => exact poised.callBuiltin calls library operation reversed
  | cons e rest ih =>
    obtain ⟨first, others⟩ := List.forall_mem_cons.1 ends
    apply poised.evalFor first rfl
    intro n v poised value
    exact ih poised (List.forall_mem_cons.2 ⟨value, values⟩) others

theorem callValue (poised : m.Poised d) (value : v.LoopFree) (display : String) {args : List Expr}
    (ends : ∀ e ∈ args, e.Ends d) : (m.callValue .standard v display args).Ends := by
  cases v with
  | function code =>
    apply poised.argumentNext calls _ (by simp) ends
    intro other same
    cases same
    exact value
  | _ => exact poised.fail _

theorem callMethod (poised : m.Poised d) (receiver : Value) (property display : String)
    {args : List Expr} (ends : ∀ e ∈ args, e.Ends d) :
    (m.callMethod .standard receiver property display args).Ends := by
  unfold Machine.callMethod
  split
  · split
    · exact poised.argumentNext calls (by simp) (by simp) ends
    · exact poised.fail _
  · split
    · next v read =>
      exact poised.callValue calls (poised.heap.readProperty receiver property v read) display ends
    · exact poised.fail _

end

/-! ## Elements and fields -/

theorem elementNext (poised : m.Poised d) {done : List Value} (values : ∀ v ∈ done, v.LoopFree)
    {rest : List Expr} (ends : ∀ e ∈ rest, e.Ends d) : (m.elementNext done rest).Ends := by
  induction rest generalizing m done with
  | nil => exact poised.giveArray values
  | cons e rest ih =>
    obtain ⟨first, others⟩ := List.forall_mem_cons.1 ends
    apply poised.evalFor first rfl
    intro n v poised value
    exact ih poised (List.forall_mem_cons.2 ⟨value, values⟩) others

theorem fieldNext (poised : m.Poised d) {done : NameMap Value} (values : ∀ v ∈ done.values, v.LoopFree)
    {rest : List (String × Expr)} (ends : ∀ f ∈ rest, f.2.Ends d) : (m.fieldNext done rest).Ends := by
  induction rest generalizing m done with
  | nil =>
    have free : (m.world.heap.allocate (.record done)).2.LoopFree := poised.heap.allocate values
    exact (poised.withHeap free).give trivial
  | cons field rest ih =>
    obtain ⟨first, others⟩ := List.forall_mem_cons.1 ends
    apply poised.evalFor first rfl
    intro n v poised value
    apply ih poised _ others
    intro w member
    cases NameMap.mem_values_insert member with
    | inl same => exact same ▸ value
    | inr old => exact values w old

end Machine.Poised

/-! ## Syntax -/

variable {d : Nat}

theorem Expr.ends_of_evalStep {e : Expr}
    (ends : ∀ m : Machine, m.Poised d → (m.evalStep .standard e).Ends) : e.Ends d := by
  intro m poised
  apply Machine.Ends.of_step rfl
  exact ends _ ⟨poised.depth, poised.heap, poised.finish⟩

theorem Stmt.ends_of_execStep {s : Stmt} (ends : ∀ m : Machine, m.Poised d → (m.execStep s).Ends) :
    s.Ends d := by
  intro m poised
  apply Machine.Ends.of_step rfl
  exact ends _ ⟨poised.depth, poised.heap, poised.finish⟩

mutual

theorem Expr.ends (calls : CallsEnd d) (e : Expr) : e.Ends d := by
  apply Expr.ends_of_evalStep
  intro n here
  cases e with
  | literal value => exact here.give trivial
  | identifier name =>
    simp only [Machine.evalStep]
    split
    · next found => exact here.give (here.heap.lookup? found)
    · exact here.fail _
  | binary op left right =>
    apply here.evalFor (Expr.ends calls left) rfl
    intro n v here _
    apply here.evalFor (Expr.ends calls right) rfl
    intro n w here _
    exact here.giveResult (op.onValues_loopFree _ v w)
  | assign op target value =>
    simp only [Machine.evalStep]
    cases op.binary? with
    | none =>
      apply here.evalFor (Expr.ends calls value) rfl
      intro n v here free
      exact here.assign target free
    | some combine =>
      cases n.lookup? target with
      | none => exact here.fail _
      | some old =>
        apply here.evalFor (Expr.ends calls value) rfl
        intro n v here _
        simp only [Machine.resume]
        split
        · next w combined => exact here.assign target (combine.onValues_loopFree _ old v w combined)
        · exact here.fail _
  | call callee args => exact Callee.ends calls callee n here (Expr.ends_all calls args)
  | member receiver property =>
    apply here.evalFor (Expr.ends calls receiver) rfl
    intro n v here _
    exact here.giveResult (here.heap.readProperty v property)
  | array elements => exact here.elementNext (by simp) (Expr.ends_all calls elements)
  | object fields =>
    have none : ∀ v ∈ (NameMap.empty : NameMap Value).values, v.LoopFree := by
      simp [NameMap.values, NameMap.empty]
    exact here.fieldNext none (Expr.ends_fields calls fields)

theorem Callee.ends (calls : CallsEnd d) (callee : Callee) (m : Machine) (here : m.Poised d)
    {args : List Expr} (ends : ∀ e ∈ args, e.Ends d) : (m.evalCall .standard callee args).Ends := by
  cases callee with
  | function name =>
    simp only [Machine.evalCall]
    split
    · next found => exact here.callValue calls (here.heap.lookup? found) name ends
    · exact here.fail _
  | method receiver property =>
    simp only [Machine.evalCall]
    split
    · exact here.callMethod calls _ property _ ends
    · exact here.fail _
  | computed target =>
    cases target with
    | member receiver property =>
      apply here.evalFor (Expr.ends calls receiver) rfl
      intro n v here _
      exact here.callMethod calls v property _ ends
    | _ =>
      apply here.evalFor (Expr.ends calls _) rfl
      intro n v here free
      exact here.callValue calls free _ ends

theorem Expr.ends_all (calls : CallsEnd d) (es : List Expr) :
    ∀ e ∈ es, e.Ends d := by
  cases es with
  | nil => simp
  | cons e rest => exact List.forall_mem_cons.2 ⟨Expr.ends calls e, Expr.ends_all calls rest⟩

theorem Expr.ends_fields (calls : CallsEnd d) (fields : List (String × Expr)) :
    ∀ f ∈ fields, f.2.Ends d := by
  cases fields with
  | nil => simp
  | cons field rest =>
    obtain ⟨key, e⟩ := field
    exact List.forall_mem_cons.2 ⟨Expr.ends calls e, Expr.ends_fields calls rest⟩

end

mutual

theorem Stmt.ends (calls : CallsEnd d) (s : Stmt) (free : s.LoopFree) : s.Ends d := by
  apply Stmt.ends_of_execStep
  intro m here
  cases s with
  | declare kind name init =>
    apply here.evalFor (Expr.ends calls init) rfl
    intro n v here value
    exact here.define name value
  | function name params body site =>
    exact here.define name (Stmt.all_function.1 free).2
  | ifElse test consequent alternate =>
    obtain ⟨_, _, first, second⟩ := Stmt.all_ifElse.1 free
    apply here.evalFor (Expr.ends calls test) rfl
    intro n v here _
    simp only [Machine.resume]
    split
    · exact here.enter (Stmt.ends_all calls consequent first)
    · cases alternate with
      | none => exact here.give trivial
      | some block => exact here.enter (Stmt.ends_all calls block (second block rfl))
  | forLoop init test update body => cases (Stmt.all_forLoop.1 free).1
  | whileLoop test body => cases (Stmt.all_whileLoop.1 free).1
  | ret argument =>
    cases argument with
    | none => exact here.leave trivial
    | some argument =>
      apply here.evalFor (Expr.ends calls argument) rfl
      intro n v here value
      exact here.leave value
  | expression value => exact Expr.ends calls value m here

theorem Stmt.ends_all (calls : CallsEnd d) (block : List Stmt) (free : ∀ s ∈ block, s.LoopFree) :
    ∀ s ∈ block, s.Ends d := by
  cases block with
  | nil => simp
  | cons s rest =>
    obtain ⟨first, others⟩ := List.forall_mem_cons.1 free
    exact List.forall_mem_cons.2 ⟨Stmt.ends calls s first, Stmt.ends_all calls rest others⟩

end

/-! ## The number of active calls -/

/-- The body of a function runs with one more active call. -/
theorem CallsEnd.of_succ (inner : d < callLimit → CallsEnd (d + 1)) : CallsEnd d := by
  intro code free m args poised values
  unfold Machine.call
  by_cases deep : m.depth ≥ callLimit
  · rw [if_pos deep]
    exact poised.fail _
  · rw [if_neg deep]
    have shallow : d < callLimit := by
      have same := poised.depth
      omega
    have heap := poised.heap.defineAll .empty code.params values
    have finish := Frame.finish_returnTo poised.finish m.locals
    apply Machine.Poised.enter ⟨congrArg (· + 1) poised.depth, heap, finish⟩
    exact Stmt.ends_all (inner shallow) code.body free

theorem callsEnd (d : Nat) : CallsEnd d := by
  -- The induction is on the number of calls that may still be made.
  induction left : callLimit - d generalizing d with
  | zero =>
    apply CallsEnd.of_succ
    intro shallow
    omega
  | succ left ih =>
    apply CallsEnd.of_succ
    intro shallow
    apply ih
    omega

/-! ## Sessions -/

namespace Interpreter

/-- Every text of the session is done after enough steps, whatever the time is at which each of them is
evaluated. -/
def Finishes : List Request → Interpreter → Prop
  | [], _ => True
  | .collect :: rest, i => Finishes rest i.collectGarbage.2
  | .eval source :: rest, i => ∀ clock, ∃ enough outcome i',
      (∀ patience ≥ enough, (i.withClock clock).eval patience source = some (outcome, i')) ∧
        Finishes rest i'

/-- No function that a program can get hold of has loops. -/
structure LoopFree (i : Interpreter) : Prop where
  table : i.table = .standard
  heap : i.world.heap.LoopFree

theorem loopFree_bindLibraries (names : List String) (global : Scope) (world : World)
    (free : world.heap.LoopFree) : (bindLibraries names global world).2.heap.LoopFree := by
  induction names generalizing global world with
  | nil => exact free
  | cons name names ih =>
    rw [bindLibraries_cons]
    exact ih _ _ (free.define global name trivial)

namespace LoopFree

variable {i : Interpreter}

theorem new : Interpreter.new.LoopFree where
  table := rfl
  heap := loopFree_bindLibraries BuiltinTable.standard.names .empty {} .empty

/-- After the last step there is nothing left to do, so more patience makes no difference. -/
theorem run (free : i.LoopFree) {p : Program} (loopFree : p.LoopFree) : ∃ enough result i',
    (∀ patience ≥ enough, i.run patience p = some (result, i')) ∧ i'.LoopFree := by
  have numbered := Stmt.LoopFree.numberAll (Program.loopFree_iff.1 loopFree) i.sites
  have start : Machine.Poised i.depth ⟨.give .undefined, [], none, i.depth, i.global, i.world⟩ :=
    ⟨rfl, free.heap, Frame.finish_nil i.depth⟩
  obtain ⟨enough, result, halted, heap⟩ := start.enter (Stmt.ends_all (callsEnd i.depth) _ numbered)
  generalize last : Machine.run .standard enough _ = m at halted heap
  refine ⟨enough, result, { i with
    global := m.global, world := m.world, depth := m.depth, sites := (Stmt.numberAll i.sites p).2 }, ?_, free.table, heap⟩
  intro patience long
  apply Interpreter.run_eq_some.2
  refine ⟨m, ?_, halted, rfl⟩
  obtain ⟨more, rfl⟩ := Nat.exists_eq_add_of_le long
  rw [free.table, Machine.run_add, Interpreter.start, last]
  exact Machine.run_of_halted halted more

theorem eval (free : i.LoopFree) {source : String}
    (loopFree : ∀ p, parseProgram source = .ok p → p.LoopFree) : ∃ enough outcome i',
    (∀ patience ≥ enough, i.eval patience source = some (outcome, i')) ∧ i'.LoopFree := by
  cases parsed : parseProgram source with
  | error e =>
    refine ⟨0, .error (.ofParse e), i, ?_, free⟩
    intro patience _
    rw [Interpreter.eval, parsed]
  | ok p =>
    obtain ⟨enough, result, i', ran, after⟩ := free.run (loopFree p parsed)
    refine ⟨enough, result.mapError .execution, i', ?_, after⟩
    intro patience long
    simp only [Interpreter.eval, parsed, ran patience long]

theorem finishes (free : i.LoopFree) (session : List Request)
    (loopFree : ∀ source ∈ sources session, ∀ p, parseProgram source = .ok p → p.LoopFree) :
    i.Finishes session := by
  induction session generalizing i with
  | nil => trivial
  | cons request rest ih =>
    cases request with
    | collect => exact ih ⟨free.table, free.heap.collect _⟩ loopFree
    | eval source =>
      obtain ⟨first, others⟩ := List.forall_mem_cons.1 loopFree
      intro clock
      obtain ⟨enough, outcome, i', evaluated, after⟩ :=
        LoopFree.eval (i := i.withClock clock) ⟨free.table, free.heap⟩ first
      exact ⟨enough, outcome, i', evaluated, ih after others⟩

end LoopFree

end Interpreter

/-- In a session of programs without loops, every program comes to its end, with a value or an error. -/
theorem loopFree_session_finishes (session : List Request)
    (loopFree : ∀ source ∈ sources session, ∀ p, parseProgram source = .ok p → p.LoopFree) :
    Interpreter.new.Finishes session :=
  Interpreter.LoopFree.new.finishes session loopFree

/-- A function that calls itself without end, for the elements of an array that each call makes longer. -/
def recursion : List Request :=
  [.eval "let a = [true]; function f(x) \x7b Array.push(a, f); return Array.map(a, f); \x7d", .collect,
    .eval "f(a)"]

set_option maxRecDepth 4000 in
theorem loopFree_session_finishes_on_recursion :
    ((sources recursion).all fun source => (parseProgram source).toOption.any (decide <| Program.LoopFree ·)) ∧
      Interpreter.new.Finishes recursion := by
  have checked : (sources recursion).all fun source =>
      (parseProgram source).toOption.any (decide <| Program.LoopFree ·) := by decide +kernel
  refine ⟨checked, loopFree_session_finishes recursion ?_⟩
  intro source member p parsed
  have free := List.all_eq_true.1 checked source member
  simpa [parsed, Except.toOption] using free

end TinyScript
