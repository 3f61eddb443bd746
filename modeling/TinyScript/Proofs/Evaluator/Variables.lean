import TinyScript.Proofs.Backend.Placed
import TinyScript.Proofs.Builtin
import TinyScript.Proofs.Bytecode.CallFree
import TinyScript.Proofs.Bytecode.Generation
import TinyScript.Proofs.Evaluator.Run

/-! # Programs of scalars

A program that has stack code, no calls, and none of the names of the libraries, works on scalars only, and
what the libraries are does not matter to it: started side by side in two scopes with the same variables,
it does the same in both (`Beside.step`).

Such a program fails for the want of a name in two ways only (`Machine.Misses`).  It reads a name that is
not bound, or it stores a value under one.  An assignment with an operator does the first and never the second:
it has read the name before, and no name is lost while its value is computed.
-/

namespace TinyScript

/-! ## Simple code -/

/-- A node of stack code without calls that leaves the libraries alone. -/
structure Node.Simple (n : Node) : Prop where
  code : n.HasStackCode
  portable : n.Portable
  callFree : n.CallFree

def Block.Simple (block : List Stmt) : Prop := ∀ s ∈ block, s.All Node.Simple

structure Loop.Simple (loop : Loop) : Prop where
  test : ∀ e, loop.test = some e → e.All Node.Simple
  update : ∀ e, loop.update = some e → e.All Node.Simple
  body : Block.Simple loop.body

def Value.IsScalar (v : Value) : Prop := ∃ a, v = .scalar a

/-- What waits for a value in a run of simple code, with `known` names. -/
inductive Frame.Simple (known : String → Prop) : Frame → Prop where
  | leftOperand {op : BinaryOp} {right : Expr} : right.All Node.Simple →
      Simple known (.leftOperand op right)
  | rightOperand (op : BinaryOp) (left : Scalar) : Simple known (.rightOperand op (.scalar left))
  | assign {target : String} : target ∉ libraryNames → Simple known (.assign target none)
  /-- The old value has been read, so the name is bound. -/
  | compound {target : String} {op : BinaryOp} (old : Scalar) : target ∉ libraryNames → known target →
      Simple known (.assign target (some (op, .scalar old)))
  | declare {name : String} : name ∉ libraryNames → Simple known (.declare name)
  | branch {consequent : List Stmt} {alternate : Option (List Stmt)} : Block.Simple consequent →
      (∀ block, alternate = some block → Block.Simple block) →
      Simple known (.branch consequent alternate)
  | sequence {rest : List Stmt} : Block.Simple rest → Simple known (.sequence rest)
  | whileTest {test : Expr} {body : List Stmt} (last : Scalar) : test.All Node.Simple →
      Block.Simple body → Simple known (.whileTest test body (.scalar last))
  | whileBody {test : Expr} {body : List Stmt} : test.All Node.Simple → Block.Simple body →
      Simple known (.whileBody test body)
  | forInit {loop : Loop} : loop.Simple → Simple known (.forInit loop)
  | forTest {loop : Loop} (last : Scalar) : loop.Simple → Simple known (.forTest loop (.scalar last))
  | forBody {loop : Loop} : loop.Simple → Simple known (.forBody loop)
  | forUpdate {loop : Loop} (last : Scalar) : loop.Simple →
      Simple known (.forUpdate loop (.scalar last))

theorem Frame.Simple.mono {known known' : String → Prop} {frame : Frame} (simple : frame.Simple known)
    (more : ∀ name, known name → known' name) : frame.Simple known' := by
  cases simple with
  | leftOperand right => exact .leftOperand right
  | rightOperand op left => exact .rightOperand op left
  | assign free => exact .assign free
  | compound old free bound => exact .compound old free (more _ bound)
  | declare free => exact .declare free
  | branch consequent alternate => exact .branch consequent alternate
  | sequence rest => exact .sequence rest
  | whileTest last test body => exact .whileTest last test body
  | whileBody test body => exact .whileBody test body
  | forInit loop => exact .forInit loop
  | forTest last loop => exact .forTest last loop
  | forBody loop => exact .forBody loop
  | forUpdate last loop => exact .forUpdate last loop

inductive Control.Simple : Control → Prop where
  | eval {e : Expr} : e.All Node.Simple → Simple (.eval e)
  | exec {s : Stmt} : s.All Node.Simple → Simple (.exec s)
  | give (value : Scalar) : Simple (.give (.scalar value))
  | halted (value : Scalar) : Simple (.halted (.ok (.scalar value)))

/-! ## The same variables -/

/-- Two scopes have the same variables, and all of them are scalars; libraries may differ. -/
structure SameVariables (global : Scope) (h : Heap Object) (global' : Scope) (h' : Heap Object) :
    Prop where
  bound : global.Bound h
  bound' : global'.Bound h'
  same : ∀ name, name ∉ libraryNames → Env.lookup? [global'] h' name = Env.lookup? [global] h name
  scalar : ∀ name, name ∉ libraryNames → ∀ v, Env.lookup? [global] h name = some v → v.IsScalar

namespace SameVariables

variable {global global' : Scope} {h h' : Heap Object} {name : String}

theorem define (same : SameVariables global h global' h') (name : String) (value : Scalar) :
    SameVariables (global.define h name (.scalar value)).1 (global.define h name (.scalar value)).2
      (global'.define h' name (.scalar value)).1 (global'.define h' name (.scalar value)).2 where
  bound := same.bound.define name _
  bound' := same.bound'.define name _
  same key free := by
    rw [same.bound.lookup?_define, same.bound'.lookup?_define, same.same key free]
  scalar key free v found := by
    rw [same.bound.lookup?_define] at found
    split at found
    · cases found
      exact ⟨value, rfl⟩
    · exact same.scalar key free v found

theorem update (same : SameVariables global h global' h') {cell cell' : Handle}
    (found : global.get? name = some cell) (found' : global'.get? name = some cell') (value : Scalar) :
    SameVariables global (h.update cell fun _ => .binding (.scalar value)) global'
      (h'.update cell' fun _ => .binding (.scalar value)) where
  bound := same.bound.update cell _
  bound' := same.bound'.update cell' _
  same key free := by
    rw [same.bound.lookup?_update found, same.bound'.lookup?_update found', same.same key free]
  scalar key free v found' := by
    rw [same.bound.lookup?_update found] at found'
    split at found'
    · cases found'
      exact ⟨value, rfl⟩
    · exact same.scalar key free v found'

end SameVariables

/-- A name has no cell if it has no value. -/
theorem Env.cell?_eq_none {env : Env} {h : Heap Object} {name : String} :
    env.cell? h name = none ↔ env.lookup? h name = none := by
  unfold Env.cell? Env.lookup?
  cases env.resolve? name with
  | none => simp
  | some cell => simp

/-- The name is bound. -/
def Known (global : Scope) (world : World) (name : String) : Prop :=
  (Env.lookup? [global] world.heap name).isSome = true

/-- Two states of one run of simple code, over the same variables. -/
inductive Beside : Machine → Machine → Prop where
  | mk {control : Control} {frames : List Frame} {depth depth' : Nat} {global global' : Scope}
      {world world' : World} : SameVariables global world.heap global' world'.heap → control.Simple →
      (∀ frame ∈ frames, frame.Simple (Known global world)) →
      Beside ⟨control, frames, none, depth, global, world⟩ ⟨control, frames, none, depth', global', world'⟩

/-- The next step reads a name that is not bound. -/
structure Machine.Reads (name : String) (m : Machine) : Prop where
  unbound : m.lookup? name = none
  control : m.control = .eval (.identifier name) ∨
    ∃ op combine value, AssignOp.binary? op = some combine ∧ m.control = .eval (.assign op name value)

/-- The next step stores a value under a name that is not bound, and has not read it before. -/
structure Machine.Stores (name : String) (value : Scalar) (m : Machine) : Prop where
  unbound : m.lookup? name = none
  control : m.control = .give (.scalar value)
  frames : ∃ waiting, m.frames = .assign name none :: waiting

/-- The next step needs a name that is not bound. -/
def Machine.Misses (name : String) (m : Machine) : Prop := m.Reads name ∨ ∃ value, m.Stores name value

/-! ## Steps -/

section

variable {global global' : Scope} {world world' : World} {depth depth' : Nat} {frames : List Frame}
  {control control' : Control} {table : BuiltinTable}

theorem Beside.enter (same : SameVariables global world.heap global' world'.heap)
    (waiting : ∀ frame ∈ frames, frame.Simple (Known global world)) {block : List Stmt}
    (simple : Block.Simple block) :
    Beside (Machine.enter ⟨control, frames, none, depth, global, world⟩ block)
      (Machine.enter ⟨control', frames, none, depth', global', world'⟩ block) := by
  match block with
  | [] => exact .mk same (.give .undefined) waiting
  | [s] => exact .mk same (.exec (simple s (by simp))) waiting
  | s :: next :: rest =>
    refine .mk same (.exec (simple s (by simp))) ?_
    rw [List.forall_mem_cons]
    exact ⟨.sequence fun s member => simple s (.tail _ member), waiting⟩

theorem Beside.evalFor (same : SameVariables global world.heap global' world'.heap)
    (waiting : ∀ frame ∈ frames, frame.Simple (Known global world)) {frame : Frame} {e : Expr}
    (takes : frame.Simple (Known global world)) (simple : e.All Node.Simple) :
    Beside (Machine.evalFor ⟨control, frames, none, depth, global, world⟩ frame e)
      (Machine.evalFor ⟨control', frames, none, depth', global', world'⟩ frame e) := by
  refine .mk same (.eval simple) ?_
  rw [List.forall_mem_cons]
  exact ⟨takes, waiting⟩

theorem Beside.loopNext (same : SameVariables global world.heap global' world'.heap)
    (waiting : ∀ frame ∈ frames, frame.Simple (Known global world)) {loop : Loop} (simple : loop.Simple)
    (last : Scalar) :
    Beside (Machine.loopNext ⟨control, frames, none, depth, global, world⟩ loop (.scalar last))
      (Machine.loopNext ⟨control', frames, none, depth', global', world'⟩ loop (.scalar last)) := by
  unfold Machine.loopNext
  split
  · next test tested => exact .evalFor same waiting (.forTest last simple) (simple.test _ tested)
  · refine .enter same ?_ simple.body
    rw [List.forall_mem_cons]
    exact ⟨.forBody simple, waiting⟩

/-- What can come of a step. -/
def Onward (m next next' : Machine) : Prop :=
  Beside next next' ∨
    ∃ error, next.control = .raise error ∧ next.global = m.global ∧ next.world = m.world ∧
      ∀ name, error = .undefinedIdentifier name → m.Misses name

theorem evalStep_onward (same : SameVariables global world.heap global' world'.heap)
    (waiting : ∀ frame ∈ frames, frame.Simple (Known global world)) {e : Expr}
    (simple : e.All Node.Simple) :
    Onward ⟨.eval e, frames, none, depth, global, world⟩
      (Machine.evalStep table ⟨.eval e, frames, none, depth, global, world⟩ e)
      (Machine.evalStep table ⟨.eval e, frames, none, depth', global', world'⟩ e) := by
  have self : Node.Simple (.expr e) := simple e e.self_mem_nodes
  cases e with
  | literal value => exact .inl (.mk same (.give _) waiting)
  | identifier name =>
    have agree : Machine.lookup? ⟨.eval (.identifier name), frames, none, depth', global', world'⟩ name =
        Machine.lookup? ⟨.eval (.identifier name), frames, none, depth, global, world⟩ name :=
      same.same name self.portable
    simp only [Machine.evalStep, agree]
    split
    · next v found =>
      obtain ⟨a, rfl⟩ := same.scalar name self.portable v found
      exact .inl (.mk same (.give a) waiting)
    · next unbound =>
      refine .inr ⟨_, rfl, rfl, rfl, fun other eq => ?_⟩
      cases eq
      exact .inl ⟨unbound, .inl rfl⟩
  | binary op left right =>
    obtain ⟨_, leftSimple, rightSimple⟩ := Expr.all_binary.1 simple
    exact .inl (.evalFor same waiting (.leftOperand rightSimple) leftSimple)
  | assign op target value =>
    obtain ⟨_, valueSimple⟩ := Expr.all_assign.1 simple
    have agree : Machine.lookup? ⟨.eval (.assign op target value), frames, none, depth', global', world'⟩
        target = Machine.lookup? ⟨.eval (.assign op target value), frames, none, depth, global, world⟩
          target := same.same target self.portable
    simp only [Machine.evalStep, agree]
    split
    · exact .inl (.evalFor same waiting (.assign self.portable) valueSimple)
    · next combine combined =>
      split
      · next old found =>
        obtain ⟨a, rfl⟩ := same.scalar target self.portable old found
        have known : Known global world target := Option.isSome_iff_exists.2 ⟨_, found⟩
        exact .inl (.evalFor same waiting (.compound a self.portable known) valueSimple)
      · next unbound =>
        refine .inr ⟨_, rfl, rfl, rfl, fun other eq => ?_⟩
        cases eq
        exact .inl ⟨unbound, .inr ⟨op, combine, value, combined, rfl⟩⟩
  | call => exact self.callFree.elim
  | member => exact self.code.elim
  | array => exact self.code.elim
  | object => exact self.code.elim

theorem execStep_beside (same : SameVariables global world.heap global' world'.heap)
    (waiting : ∀ frame ∈ frames, frame.Simple (Known global world)) {s : Stmt}
    (simple : s.All Node.Simple) :
    Beside (Machine.execStep ⟨.exec s, frames, none, depth, global, world⟩ s)
      (Machine.execStep ⟨.exec s, frames, none, depth', global', world'⟩ s) := by
  cases s with
  | declare kind name init =>
    obtain ⟨self, initSimple⟩ := Stmt.all_declare.1 simple
    exact .evalFor same waiting (.declare self.portable) initSimple
  | function => exact (Stmt.all_function.1 simple).1.code.elim
  | ifElse test consequent alternate =>
    obtain ⟨_, testSimple, consequentSimple, alternateSimple⟩ := Stmt.all_ifElse.1 simple
    exact .evalFor same waiting (.branch consequentSimple alternateSimple) testSimple
  | forLoop init test update body =>
    obtain ⟨_, initSimple, testSimple, updateSimple, bodySimple⟩ := Stmt.all_forLoop.1 simple
    have loop : Loop.Simple ⟨test, update, body⟩ := ⟨testSimple, updateSimple, bodySimple⟩
    cases init with
    | none => exact .loopNext same waiting loop .undefined
    | some first =>
      refine .mk same (.exec (initSimple first rfl)) ?_
      rw [List.forall_mem_cons]
      exact ⟨.forInit loop, waiting⟩
  | whileLoop test body =>
    obtain ⟨_, testSimple, bodySimple⟩ := Stmt.all_whileLoop.1 simple
    exact .evalFor same waiting (.whileTest .undefined testSimple bodySimple) testSimple
  | ret => exact (Stmt.all_ret.1 simple).1.code.elim
  | expression value => exact .mk same (.eval (Stmt.all_expression.1 simple).2) waiting

/-- An operator does the same with two scalars over every heap, and it misses no name. -/
theorem BinaryOp.onValues_scalar_cases (op : BinaryOp) (left right : Scalar) :
    (∃ a, ∀ h, op.onValues h (.scalar left) (.scalar right) = .ok (.scalar a)) ∨
    ∃ error, (∀ h, op.onValues h (.scalar left) (.scalar right) = .error error) ∧
      ∀ name, error ≠ .undefinedIdentifier name := by
  have combined (h : Heap Object) : op.onValues h (.scalar left) (.scalar right) =
      (op.onScalars left right).map .scalar := rfl
  simp only [combined]
  cases result : op.onScalars left right with
  | ok a => exact .inl ⟨a, fun _ => rfl⟩
  | error error =>
    obtain ⟨k, l, rfl⟩ := BinaryOp.onScalars_error result
    exact .inr ⟨_, fun _ => rfl, fun name eq => by cases eq⟩

/-- No name is lost where one is bound. -/
theorem Known.define (bound : global.Bound world.heap) {name key : String} {value : Value}
    (known : Known global world key) :
    Known (global.define world.heap name value).1
      { world with heap := (global.define world.heap name value).2 } key := by
  rw [Known, bound.lookup?_define]
  split
  · rfl
  · exact known

theorem Known.update (bound : global.Bound world.heap) {name key : String} {cell : Handle} {value : Value}
    (found : global.get? name = some cell) (known : Known global world key) :
    Known global { world with heap := world.heap.update cell fun _ => .binding value } key := by
  rw [Known, bound.lookup?_update found]
  split
  · rfl
  · exact known

/-- A value is stored in both, or there is nothing to store it in. -/
theorem assign_cases (same : SameVariables global world.heap global' world'.heap)
    (waiting : ∀ frame ∈ frames, frame.Simple (Known global world)) {name : String}
    (free : name ∉ libraryNames) (value : Scalar) :
    (Env.lookup? [global] world.heap name = none ∧
      Machine.assign ⟨control, frames, none, depth, global, world⟩ name (.scalar value) =
        Machine.fail ⟨control, frames, none, depth, global, world⟩ (.undefinedIdentifier name)) ∨
    Beside (Machine.assign ⟨control, frames, none, depth, global, world⟩ name (.scalar value))
      (Machine.assign ⟨control', frames, none, depth', global', world'⟩ name (.scalar value)) := by
  cases found : Env.lookup? [global] world.heap name with
  | none =>
    have noCell := Env.cell?_eq_none.2 found
    exact .inl ⟨rfl, by simp only [Machine.assign, Machine.env, noCell]⟩
  | some old =>
    obtain ⟨cell, here⟩ : ∃ cell, Env.cell? [global] world.heap name = some cell := by
      rw [← Option.ne_none_iff_exists', Ne, Env.cell?_eq_none, found]
      simp
    obtain ⟨cell', here'⟩ : ∃ cell, Env.cell? [global'] world'.heap name = some cell := by
      rw [← Option.ne_none_iff_exists', Ne, Env.cell?_eq_none, same.same name free, found]
      simp
    have isCell := same.bound.cell?_eq_some.1 here
    have isCell' := same.bound'.cell?_eq_some.1 here'
    refine .inr ?_
    simp only [Machine.assign, Machine.env, here, here']
    exact .mk (same.update isCell isCell' value) (.give value)
      fun frame member => (waiting frame member).mono fun _ => Known.update same.bound isCell

theorem resume_onward (same : SameVariables global world.heap global' world'.heap)
    (waiting : ∀ frame ∈ frames, frame.Simple (Known global world)) {frame : Frame}
    (takes : frame.Simple (Known global world)) (value : Scalar) :
    Onward ⟨.give (.scalar value), frame :: frames, none, depth, global, world⟩
      (Machine.resume table ⟨.give (.scalar value), frames, none, depth, global, world⟩ frame
        (.scalar value))
      (Machine.resume table ⟨.give (.scalar value), frames, none, depth', global', world'⟩ frame
        (.scalar value)) := by
  cases takes with
  | leftOperand right => exact .inl (.evalFor same waiting (.rightOperand _ value) right)
  | rightOperand op left =>
    rcases op.onValues_scalar_cases left value with ⟨a, combined⟩ | ⟨error, combined, other⟩
    · simp only [Machine.resume, combined]
      exact .inl (.mk same (.give a) waiting)
    · simp only [Machine.resume, combined]
      exact .inr ⟨error, rfl, rfl, rfl, fun name eq => absurd eq (other name)⟩
  | assign free =>
    rcases assign_cases same waiting free value with ⟨unbound, failed⟩ | beside
    · rw [Machine.resume, failed]
      refine .inr ⟨_, rfl, rfl, rfl, fun name eq => ?_⟩
      cases eq
      exact .inr ⟨value, unbound, rfl, _, rfl⟩
    · exact .inl beside
  | @compound target op old free known =>
    rcases op.onValues_scalar_cases old value with ⟨a, combined⟩ | ⟨error, combined, other⟩
    · simp only [Machine.resume, combined]
      rcases assign_cases same waiting free a with ⟨unbound, _⟩ | beside
      · rw [Known, unbound] at known
        cases known
      · exact .inl beside
    · simp only [Machine.resume, combined]
      exact .inr ⟨error, rfl, rfl, rfl, fun name eq => absurd eq (other name)⟩
  | @declare name free =>
    exact .inl (.mk (same.define name value) (.give .undefined)
      fun frame member => (waiting frame member).mono fun _ => Known.define same.bound)
  | @branch consequent alternate simple simple' =>
    simp only [Machine.resume]
    split
    · exact .inl (.enter same waiting simple)
    · split
      · next block => exact .inl (.enter same waiting (simple' block rfl))
      · exact .inl (.mk same (.give .undefined) waiting)
  | @sequence rest simple =>
    cases rest with
    | nil => exact .inl (.mk same (.give value) waiting)
    | cons s rest => exact .inl (.enter same waiting simple)
  | whileTest last test body =>
    simp only [Machine.resume]
    split
    · refine .inl (.enter same ?_ body)
      rw [List.forall_mem_cons]
      exact ⟨.whileBody test body, waiting⟩
    · exact .inl (.mk same (.give last) waiting)
  | whileBody test body => exact .inl (.evalFor same waiting (.whileTest value test body) test)
  | forInit loop => exact .inl (.loopNext same waiting loop .undefined)
  | forTest last loop =>
    simp only [Machine.resume]
    split
    · refine .inl (.enter same ?_ loop.body)
      rw [List.forall_mem_cons]
      exact ⟨.forBody loop, waiting⟩
    · exact .inl (.mk same (.give last) waiting)
  | @forBody loop simple =>
    simp only [Machine.resume]
    split
    · next update updated =>
      exact .inl (.evalFor same waiting (.forUpdate value simple) (simple.update _ updated))
    · exact .inl (.loopNext same waiting simple value)
  | forUpdate last loop => exact .inl (.loopNext same waiting loop last)

end

namespace Beside

variable {m m' : Machine} {table : BuiltinTable}

/-- Two runs of simple code over the same variables go on side by side, or fail. -/
theorem step (beside : Beside m m') (running : m.result? = none) (table : BuiltinTable) :
    Onward m (m.step table) (m'.step table) := by
  cases beside with
  | @mk _ frames _ _ _ _ _ _ same simple waiting =>
    cases simple with
    | eval simple => exact evalStep_onward same waiting simple
    | exec simple => exact .inl (execStep_beside same waiting simple)
    | give value =>
      cases frames with
      | nil => exact .inl (.mk same (.halted value) waiting)
      | cons frame frames =>
        rw [List.forall_mem_cons] at waiting
        exact resume_onward same waiting.2 waiting.1 value
    | halted => cases running

theorem not_failed (beside : Beside m m') (error : ExecutionError) : m.control ≠ .halted (.error error) := by
  cases beside with
  | mk _ simple _ =>
    rintro rfl
    cases simple

theorem not_leaves (beside : Beside m m') (error : ExecutionError) : ¬m'.Leaves error := by
  cases beside with
  | mk _ simple _ =>
    rintro (rfl | rfl) <;> cases simple

theorem control_eq (beside : Beside m m') : m'.control = m.control := by
  cases beside
  rfl

theorem frames_eq (beside : Beside m m') : m'.frames = m.frames := by
  cases beside
  rfl

theorem result?_eq (beside : Beside m m') : m'.result? = m.result? := by
  cases beside
  rfl

theorem sameVariables (beside : Beside m m') :
    SameVariables m.global m.world.heap m'.global m'.world.heap := by
  cases beside with
  | mk same => exact same

/-- How a run of simple code fails: up to the last step another one has gone on beside it. -/
theorem run_error (beside : Beside m m') {n : Nat} {error : ExecutionError}
    (failed : (m.run table n).control = .halted (.error error)) :
    ∃ k, Beside (m.run table k) (m'.run table k) ∧ (m.run table k).result? = none ∧
      (m.run table n).global = (m.run table k).global ∧ (m.run table n).world = (m.run table k).world ∧
      ∀ name, error = .undefinedIdentifier name → (m.run table k).Misses name := by
  induction n generalizing m m' with
  | zero => exact absurd failed (beside.not_failed error)
  | succ n ih =>
    cases halted : m.result? with
    | some result =>
      have stays := Machine.result?_eq_some.1 halted
      rw [Machine.run_of_halted stays] at failed
      exact absurd failed (beside.not_failed error)
    | none =>
      rw [Machine.run_succ halted] at failed ⊢
      rcases beside.step halted table with next | ⟨error', raised, global, world, misses⟩
      · obtain ⟨k, later, running, same, misses⟩ := ih next failed
        refine ⟨k + 1, ?_⟩
        rw [Machine.run_succ halted, Machine.run_succ (beside.result?_eq.trans halted)]
        exact ⟨later, running, same, misses⟩
      · obtain ⟨leaves, sameGlobal, sameWorld⟩ := Machine.Leaves.run (.inl raised) table n
        cases leaves.eq_of_halted failed
        exact ⟨0, beside, halted, sameGlobal.trans global, sameWorld.trans world, misses⟩

/-- What one of them misses is no library, and the other one misses it, too. -/
theorem misses (beside : Beside m m') {name : String} (misses : m.Misses name) :
    name ∉ libraryNames ∧ m'.lookup? name = none := by
  cases beside with
  | mk same simple waiting =>
    have agree (free : name ∉ libraryNames) (unbound : Env.lookup? _ _ name = none) :=
      (same.same name free).trans unbound
    rcases misses with ⟨unbound, read | ⟨op, combine, value, _, combined⟩⟩ | ⟨value, unbound, _, _, assign⟩
    · cases read
      cases simple with
      | eval simple =>
        have free : name ∉ libraryNames := (simple _ (Expr.self_mem_nodes _)).portable
        exact ⟨free, agree free unbound⟩
    · cases combined
      cases simple with
      | eval simple =>
        have free : name ∉ libraryNames := (simple _ (Expr.self_mem_nodes _)).portable
        exact ⟨free, agree free unbound⟩
    · cases assign
      cases waiting _ (List.mem_cons_self) with
      | assign free => exact ⟨free, agree free unbound⟩

end Beside

end TinyScript
