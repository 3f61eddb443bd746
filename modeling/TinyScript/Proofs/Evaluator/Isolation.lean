import TinyScript.Proofs.Evaluator.Effect
import TinyScript.Proofs.Typing.Session

/-! # Calls are isolated

A call runs in a scope of its own that lies directly inside the global one.  So the names that it can
assign to have global cells, or cells that did not exist when it began, and all that its caller can see of
it are the values of global names, the elements of arrays and new objects (`calls_isolated`).

Two invariants carry the proof, both of them shown from `Machine.step_effect`.  Between its beginning and its
end a call is `Inside`: its frames lie on top of those of the caller, and the scopes that are in use there
are fresh.  In every state the scopes of active calls are `Apart` from the global one: a local name and a
global name never share a cell.
-/

namespace TinyScript

/-! ## Heaps that spare what was there -/

/-- Everything is still there and as it was, but for the elements of arrays and the values of cells that are
`shared`. -/
def Heap.Spares (shared : Handle → Prop) (h k : Heap Object) : Prop :=
  ∀ a o, h.get? a = some o → k.get? a = some o ∨
    (∃ xs ys, o = .array xs ∧ k.get? a = some (.array ys)) ∨
    ∃ v w, shared a ∧ o = .binding v ∧ k.get? a = some (.binding w)

/-- No cell of the scope is on the heap. -/
def Scope.Fresh (h : Heap Object) (scope : Scope) : Prop :=
  ∀ name cell, scope.get? name = some cell → h.get? cell = none

/-- A name that can be assigned to has a cell in some scope, and the cell is a live binding. -/
theorem Env.binding_of_cell? {env : Env} {h : Heap Object} {name : String} {cell : Handle}
    (found : env.cell? h name = some cell) :
    (∃ scope ∈ env, scope.get? name = some cell) ∧ ∃ value, h.get? cell = some (.binding value) := by
  unfold Env.cell? at found
  split at found
  · next other resolved =>
    split at found
    · next live =>
      cases found
      unfold Env.cellValue? at live
      split at live
      · next value here => exact ⟨Env.resolve?_eq_some resolved, value, here⟩
      · cases live
    · cases found
  · cases found

namespace Heap.Spares

variable {shared : Handle → Prop} {h k : Heap Object}

theorem refl (shared : Handle → Prop) (h : Heap Object) : h.Spares shared h :=
  fun _ _ found => .inl found

/-- Nothing is freed, so what is not there now was not there before. -/
theorem absent (spares : h.Spares shared k) {a : Handle} (missing : k.get? a = none) :
    h.get? a = none := by
  cases found : h.get? a with
  | none => rfl
  | some o =>
    rcases spares a o found with same | ⟨_, _, _, there⟩ | ⟨_, _, _, _, there⟩
    · rw [missing] at same
      cases same
    · rw [missing] at there
      cases there
    · rw [missing] at there
      cases there

/-- A change to the heap is seen only at handles that were there before. -/
theorem of_get?_eq (spares : h.Spares shared k) {l : Heap Object}
    (same : ∀ a o, h.get? a = some o → l.get? a = k.get? a) : h.Spares shared l := by
  intro a o found
  rw [same a o found]
  exact spares a o found

theorem allocate (spares : h.Spares shared k) (exact : k.FreeListExact) (o : Object) :
    h.Spares shared (k.allocate o).2 := by
  apply spares.of_get?_eq
  intro a p found
  have unused := spares.absent (get?_allocate_fst exact o)
  have other : a ≠ (k.allocate o).1 := by
    intro eq
    rw [eq, unused] at found
    cases found
  rw [get?_allocate exact, if_neg other]

/-- A binding is overwritten that is shared, or was not there before. -/
theorem assign (spares : h.Spares shared k) {cell : Handle} {old : Value}
    (here : k.get? cell = some (.binding old)) (allowed : shared cell ∨ h.get? cell = none)
    (value : Value) : h.Spares shared (k.update cell fun _ => .binding value) := by
  intro a o found
  by_cases eq : a = cell
  · subst eq
    have isShared : shared a := by
      apply allowed.resolve_right
      simp [found]
    have after : (k.update a fun _ => Object.binding value).get? a = some (.binding value) := by
      simp [get?_update, here]
    rcases spares a o found with same | ⟨_, _, _, there⟩ | ⟨v, _, _, rfl, _⟩
    · rw [here] at same
      cases same
      exact .inr (.inr ⟨old, value, isShared, rfl, after⟩)
    · rw [here] at there
      cases there
    · exact .inr (.inr ⟨v, value, isShared, rfl, after⟩)
  · rw [get?_update_of_ne k _ eq]
    exact spares a o found

theorem modify (spares : h.Spares shared k) (a : Handle) (f : Array Value → Array Value) :
    h.Spares shared (k.update a (Builtin.modifyElements f)) := by
  intro b o found
  rw [get?_update]
  by_cases eq : b = a
  · subst eq
    rw [if_pos rfl]
    rcases spares b o found with same | ⟨xs, ys, rfl, there⟩ | ⟨v, w, isShared, rfl, there⟩
    · rw [same]
      cases o with
      | array elements => exact .inr (.inl ⟨elements, f elements, rfl, rfl⟩)
      | binding value => exact .inl rfl
      | record fields => exact .inl rfl
    · rw [there]
      exact .inr (.inl ⟨xs, f ys, rfl, rfl⟩)
    · rw [there]
      exact .inr (.inr ⟨v, w, isShared, rfl, rfl⟩)
  · rw [if_neg eq]
    exact spares b o found

/-- Names that can be assigned to are shared or new. -/
theorem effect (spares : h.Spares shared k) (exact : k.FreeListExact) {env : Env}
    (names : ∀ scope ∈ env, ∀ name cell, scope.get? name = some cell → shared cell ∨ h.get? cell = none)
    {l : Heap Object} (effect : Heap.Effect env k l) : h.Spares shared l := by
  cases effect with
  | unchanged => exact spares
  | allocate o => exact spares.allocate exact o
  | assign found value =>
    obtain ⟨⟨scope, member, bound⟩, old, here⟩ := Env.binding_of_cell? found
    exact spares.assign here (names scope member _ _ bound) value
  | modify a f => exact spares.modify a f

end Heap.Spares

/-! ## Scopes of calls -/

/-- A scope that gets one more name gets one more cell, which is new. -/
theorem Scope.get?_define {scope : Scope} {h : Heap Object} (exact : h.FreeListExact) {name other : String}
    {value : Value} {cell : Handle} (found : (scope.define h name value).1.get? other = some cell) :
    scope.get? other = some cell ∨ h.get? cell = none := by
  simp only [Scope.define, NameMap.get?_insert] at found
  split at found
  · cases found
    exact .inr (Heap.get?_allocate_fst exact _)
  · exact .inl found

/-- The cells of parameters are new, whatever else is on the heap. -/
theorem Scope.get?_defineAll {h : Heap Object} (wellFormed : h.WellFormed) (scope : Scope)
    (names : List String) (values : List Value) {name : String} {cell : Handle}
    (found : (scope.defineAll h names values).1.get? name = some cell) :
    scope.get? name = some cell ∨ h.get? cell = none := by
  induction names generalizing scope h values with
  | nil => exact .inl found
  | cons param names ih =>
    have exact := wellFormed.toFreeListExact
    have rest := ih (wellFormed.allocate _) (scope.define h param (values.headD .undefined)).1
      values.tail found
    cases rest with
    | inl bound => exact Scope.get?_define exact bound
    | inr missing =>
      right
      rw [Heap.get?_allocate exact] at missing
      split at missing
      · cases missing
      · exact missing

/-- A call begins with cells of its own. -/
theorem Scope.fresh_defineAll {h : Heap Object} (wellFormed : h.WellFormed) (names : List String)
    (values : List Value) : (Scope.defineAll .empty h names values).1.Fresh h := by
  intro name cell found
  apply (Scope.get?_defineAll wellFormed .empty names values found).resolve_left
  simp

/-- What is fresh now was fresh before, since nothing is freed. -/
theorem Scope.Fresh.of_spares {shared : Handle → Prop} {h k : Heap Object} {scope : Scope}
    (fresh : scope.Fresh k) (spares : h.Spares shared k) : scope.Fresh h := by
  intro name cell found
  exact spares.absent (fresh name cell found)

theorem Scope.Fresh.define {shared : Handle → Prop} {h k : Heap Object} {scope : Scope}
    (fresh : scope.Fresh h) (spares : h.Spares shared k) (exact : k.FreeListExact) (name : String)
    (value : Value) : (scope.define k name value).1.Fresh h := by
  intro other cell found
  cases Scope.get?_define exact found with
  | inl old => exact fresh other cell old
  | inr missing => exact spares.absent missing

theorem Heap.Spares.defineAll {shared : Handle → Prop} {h k : Heap Object} (spares : h.Spares shared k)
    (wellFormed : k.WellFormed) (scope : Scope) (names : List String) (values : List Value) :
    h.Spares shared (scope.defineAll k names values).2 := by
  induction names generalizing scope k values with
  | nil => exact spares
  | cons param names ih =>
    exact ih (spares.allocate wellFormed.toFreeListExact _) (wellFormed.allocate _) _ _

/-- The scopes of the calls that are active. -/
def Machine.callScopes (m : Machine) : List Scope := m.locals.toList ++ m.frames.flatMap (·.scopes)

theorem Frame.flatMap_scopes_calls (frames : List Frame) :
    (Frame.calls frames).flatMap (·.scopes) = frames.flatMap (·.scopes) := by
  induction frames with
  | nil => rfl
  | cons frame frames ih =>
    cases frame with
    | returnTo locals => rfl
    | _ => exact ih

theorem Frame.flatMap_scopes_eq {frames frames' : List Frame}
    (same : Frame.calls frames' = Frame.calls frames) :
    frames'.flatMap (·.scopes) = frames.flatMap (·.scopes) := by
  rw [← Frame.flatMap_scopes_calls, same, Frame.flatMap_scopes_calls]

/-- The global scope has no cell in common with the scopes of calls. -/
def Machine.Apart (m : Machine) : Prop :=
  ∀ scope ∈ m.callScopes, ∀ name other cell, scope.get? name = some cell →
    m.global.get? other ≠ some cell

namespace Machine.Apart

variable {known : String → Prop} {m m' : Machine}

theorem callScopes_eq (calls : Frame.calls m'.frames = Frame.calls m.frames)
    (locals : m'.locals = m.locals) : m'.callScopes = m.callScopes := by
  rw [callScopes, callScopes, locals, Frame.flatMap_scopes_eq calls]

theorem effect (apart : m.Apart) (typed : m.Typed known) (effect : m.Effect m') : m'.Apart := by
  have wellFormed := typed.heap.wellFormed
  have live (scope : Scope) (member : scope ∈ m.callScopes) (name : String) (cell : Handle)
      (found : scope.get? name = some cell) : m.world.heap.get? cell ≠ none := by
    obtain ⟨value, here⟩ := (typed.scopes_bound scope (.tail _ member)).live name cell found
    simp [here]
  have liveGlobal (name : String) (cell : Handle) (found : m.global.get? name = some cell) :
      m.world.heap.get? cell ≠ none := by
    obtain ⟨value, here⟩ := typed.global.live name cell found
    simp [here]
  intro scope member name other cell bound clash
  cases effect with
  | inside calls locals depth global heap =>
    rw [callScopes_eq calls locals] at member
    rw [global] at clash
    exact apart scope member name other cell bound clash
  | defineLocal inner key value calls here locals depth global heap =>
    rw [global] at clash
    simp only [callScopes, locals, Frame.flatMap_scopes_eq calls, Option.toList_some, List.mem_append,
      List.mem_singleton] at member
    cases member with
    | inl same =>
      subst same
      have innermost : inner ∈ m.callScopes := by simp [callScopes, here]
      cases Scope.get?_define wellFormed.toFreeListExact bound with
      | inl old => exact apart inner innermost name other cell old clash
      | inr missing => exact liveGlobal other cell clash missing
    | inr further => exact apart scope (List.mem_append_right _ further) name other cell bound clash
  | defineGlobal key value calls here locals depth global heap =>
    rw [callScopes_eq calls (locals.trans here.symm)] at member
    rw [global] at clash
    cases Scope.get?_define wellFormed.toFreeListExact clash with
    | inl old => exact apart scope member name other cell bound old
    | inr missing => exact live scope member name cell bound missing
  | call code args frames shallow calls below locals depth global heap =>
    rw [global] at clash
    have outer : m'.frames.flatMap (·.scopes) = m.callScopes := by
      rw [← Frame.flatMap_scopes_calls, calls, List.flatMap_cons, Frame.flatMap_scopes_eq below]
      rfl
    simp only [callScopes, locals, outer, Option.toList_some, List.mem_append, List.mem_singleton]
      at member
    cases member with
    | inl same =>
      subst same
      exact liveGlobal other cell clash (Scope.fresh_defineAll wellFormed _ _ name cell bound)
    | inr further => exact apart scope (by simpa [callScopes] using further) name other cell bound clash
  | back locals frames control restored depth global heap =>
    rw [global] at clash
    have outer : m.frames.flatMap (·.scopes) = m'.callScopes := by
      rw [← Frame.flatMap_scopes_calls, frames, callScopes, restored]
      rfl
    have kept : scope ∈ m.callScopes := List.mem_append_right _ (outer ▸ member)
    exact apart scope kept name other cell bound clash

theorem of_same (apart : m.Apart) (same : SameScene m m') : m'.Apart := by
  intro scope member name other cell found
  rw [callScopes_eq same.calls same.locals] at member
  rw [same.global]
  exact apart scope member name other cell found

theorem run (apart : m.Apart) (typed : m.Typed known) (n : Nat) : (m.run .standard n).Apart := by
  induction n with
  | zero => exact apart
  | succ n ih =>
    rw [run_succ_eq_step]
    exact ih.effect (typed.run n) (step_effect _)

end Machine.Apart

/-! ## Inside of a call -/

/-- The frames lie on top of others, and calls among them are made from scopes with a property. -/
inductive Frame.Above (base : List Frame) (P : Scope → Prop) : List Frame → Prop where
  | base : Above base P base
  | plain {frame : Frame} {frames : List Frame} : frame.isCall = false → Above base P frames →
      Above base P (frame :: frames)
  | call {scope : Scope} {frames : List Frame} : P scope → Above base P frames →
      Above base P (.returnTo (some scope) :: frames)

/-- Only the calls among the frames count. -/
theorem Frame.above_calls {base : List Frame} (startsInCall : Frame.calls base = base)
    {P : Scope → Prop} {frames : List Frame} :
    Frame.Above base P (Frame.calls frames) ↔ Frame.Above base P frames := by
  constructor
  · intro above
    induction frames with
    | nil => exact above
    | cons frame frames ih =>
      by_cases call : frame.isCall = true
      · cases frame with
        | returnTo locals => exact above
        | _ => cases call
      · rw [Bool.not_eq_true] at call
        rw [Frame.calls_cons call] at above
        exact .plain call (ih above)
  · intro above
    induction above with
    | base =>
      rw [startsInCall]
      exact .base
    | plain noCall _ ih =>
      rw [Frame.calls_cons noCall]
      exact ih
    | call holds above _ => exact .call holds above

theorem Frame.Above.of_calls_eq {base : List Frame} (startsInCall : Frame.calls base = base)
    {P : Scope → Prop} {frames frames' : List Frame} (above : Frame.Above base P frames)
    (same : Frame.calls frames' = Frame.calls frames) : Frame.Above base P frames' := by
  rw [← Frame.above_calls startsInCall, same, Frame.above_calls startsInCall]
  exact above

theorem Frame.Above.suffix {base frames : List Frame} {P : Scope → Prop}
    (above : Frame.Above base P frames) : base <:+ frames := by
  induction above with
  | base => exact List.suffix_rfl
  | plain _ _ ih => exact ih.trans (List.suffix_cons _ _)
  | call _ _ ih => exact ih.trans (List.suffix_cons _ _)

namespace Machine

/-- The cell of a global name. -/
def IsGlobalCell (m : Machine) (cell : Handle) : Prop := ∃ name, m.global.get? name = some cell

/-- Global names have the cells that they had, and the heap has been spared. -/
structure Spared (caller m : Machine) : Prop where
  global : m.global = caller.global
  heap : caller.world.heap.Spares caller.IsGlobalCell m.world.heap

/-- The frame of a call on top of those of its caller. -/
def base (caller : Machine) : List Frame := .returnTo caller.locals :: caller.frames

/-- A state between the beginning and the end of a call. -/
structure Inside (caller m : Machine) : Prop extends Spared caller m where
  frames : Frame.Above caller.base (Scope.Fresh caller.world.heap) m.frames
  locals : ∃ scope, m.locals = some scope ∧ scope.Fresh caller.world.heap

/-- The end of a call: a value or an error comes to the frames of its caller. -/
structure ComesBack (caller after : Machine) : Prop where
  returns : after.Returns
  frames : after.frames = caller.frames
  locals : after.locals = caller.locals

variable {known : String → Prop} {caller m m' : Machine}

theorem Inside.effect (inside : Inside caller m) (wellFormed : m.world.heap.WellFormed)
    (effect : m.Effect m') : Inside caller m' ∨ ComesBack caller m' ∧ Spared caller m' := by
  obtain ⟨inner, here, fresh⟩ := inside.locals
  have exact := wellFormed.toFreeListExact
  cases effect with
  | inside calls locals depth global heap =>
    left
    have names (scope : Scope) (member : scope ∈ m.env) (name : String) (cell : Handle)
        (found : scope.get? name = some cell) :
        caller.IsGlobalCell cell ∨ caller.world.heap.get? cell = none := by
      simp only [Machine.env, here, inside.global, List.mem_cons, List.not_mem_nil, or_false] at member
      cases member with
      | inl innermost => exact .inr (fresh name cell (innermost ▸ found))
      | inr outermost => exact .inl ⟨name, outermost ▸ found⟩
    exact ⟨⟨global.trans inside.global, inside.heap.effect exact names heap⟩,
      inside.frames.of_calls_eq rfl calls, inner, locals.trans here, fresh⟩
  | defineLocal scope name value calls found locals depth global heap =>
    left
    cases here.symm.trans found
    have spares : caller.world.heap.Spares caller.IsGlobalCell m'.world.heap := by
      rw [heap]
      exact inside.heap.allocate exact _
    exact ⟨⟨global.trans inside.global, spares⟩, inside.frames.of_calls_eq rfl calls, _, locals,
      fresh.define inside.heap exact name value⟩
  | defineGlobal name value calls found locals depth global heap =>
    rw [here] at found
    cases found
  | call code args frames shallow calls below locals depth global heap =>
    left
    have spares : caller.world.heap.Spares caller.IsGlobalCell m'.world.heap := by
      rw [heap]
      exact inside.heap.defineAll wellFormed _ _ _
    have above : Frame.Above caller.base (Scope.Fresh caller.world.heap) m'.frames := by
      rw [← Frame.above_calls rfl, calls, here]
      exact .call fresh (inside.frames.of_calls_eq rfl below)
    exact ⟨⟨global.trans inside.global, spares⟩, above, _, locals,
      (Scope.fresh_defineAll wellFormed _ _).of_spares inside.heap⟩
  | back locals frames control restored depth global heap =>
    have spared : Spared caller m' := by
      refine ⟨global.trans inside.global, ?_⟩
      rw [heap]
      exact inside.heap
    have above := (Frame.above_calls rfl).2 inside.frames
    rw [frames] at above
    generalize top : Frame.returnTo locals :: m'.frames = all at above
    cases above with
    | base =>
      right
      simp only [base, List.cons.injEq, Frame.returnTo.injEq] at top
      exact ⟨⟨control, top.2, restored.trans top.1⟩, spared⟩
    | plain noCall _ =>
      cases top
      cases noCall
    | @call scope _ scopeFresh rest =>
      left
      cases top
      exact ⟨spared, rest, scope, restored, scopeFresh⟩

/-- A call begins inside of itself, unless too many are active. -/
theorem call_cases (wellFormed : caller.world.heap.WellFormed) (code : Function) (args : List Value) :
    Inside caller (caller.call code args) ∨
      ComesBack caller (caller.call code args) ∧ Spared caller (caller.call code args) := by
  have untouched := Heap.Spares.refl caller.IsGlobalCell caller.world.heap
  by_cases deep : callLimit ≤ caller.depth
  · rw [caller.call_of_le deep]
    exact .inr ⟨⟨.error _ rfl, rfl, rfl⟩, rfl, untouched⟩
  · left
    have same := caller.sameScene_call (Nat.lt_of_not_le deep) code args
    generalize caller.call code args = inner at same
    have heap : caller.world.heap.Spares caller.IsGlobalCell inner.world.heap := by
      rw [same.heap]
      exact untouched.defineAll wellFormed _ _ _
    have frames : Frame.Above caller.base (Scope.Fresh caller.world.heap) inner.frames := by
      rw [← Frame.above_calls rfl, same.calls]
      exact .base
    exact ⟨⟨same.global, heap⟩, frames, _, same.locals, Scope.fresh_defineAll wellFormed _ _⟩

/-- A call is under way for as long as it has not come back. -/
theorem run_call_cases (wellFormed : caller.world.heap.WellFormed) (code : Function) (args : List Value)
    (steps : Nat) :
    (∀ k ≤ steps, Inside caller ((caller.call code args).run .standard k)) ∨
      ∃ k ≤ steps, (∀ j < k, Inside caller ((caller.call code args).run .standard j)) ∧
        ComesBack caller ((caller.call code args).run .standard k) ∧
        Spared caller ((caller.call code args).run .standard k) := by
  refine run_until (Q := fun after => ComesBack caller after ∧ Spared caller after)
    (call_cases wellFormed code args) (fun k inside => ?_) steps
  have heap := wellFormed_run ((caller.effect_call code args).wellFormed wellFormed) k
  exact inside.effect heap (step_effect _)

/-! ## What the caller sees -/

/-- What a call has left of the state of its caller. -/
structure Isolated (caller after : Machine) : Prop where
  /-- No global name has been added, removed or bound to another cell. -/
  global : after.global = caller.global
  /-- The names of all active calls have the values that they had. -/
  locals : ∀ scope ∈ caller.callScopes, ∀ name cell, scope.get? name = some cell →
    after.world.heap.get? cell = caller.world.heap.get? cell
  records : ∀ a fields, caller.world.heap.get? a = some (.record fields) →
    after.world.heap.get? a = some (.record fields)
  alive : ∀ a, caller.world.heap.contains a → after.world.heap.contains a
  /-- Whatever else was there is as it was, but for the values of global names and the elements of
  arrays. -/
  others : caller.world.heap.Spares caller.IsGlobalCell after.world.heap

theorem Spared.isolated {after : Machine} (spared : Spared caller after) (apart : caller.Apart)
    (bound : ∀ scope ∈ caller.callScopes, scope.Bound caller.world.heap) : Isolated caller after where
  global := spared.global
  locals scope member name cell found := by
    obtain ⟨value, here⟩ := (bound scope member).live name cell found
    rcases spared.heap cell _ here with same | ⟨_, _, isArray, _⟩ | ⟨_, _, ⟨other, isGlobal⟩, _⟩
    · rw [same, here]
    · cases isArray
    · exact absurd isGlobal (apart scope member name other cell found)
  records a fields here := by
    rcases spared.heap a _ here with same | ⟨_, _, isArray, _⟩ | ⟨_, _, _, isBinding, _⟩
    · exact same
    · cases isArray
    · cases isBinding
  alive a here := by
    by_contra freed
    rw [Heap.contains_iff] at here freed
    obtain ⟨o, here⟩ := here
    cases missing : after.world.heap.get? a with
    | none =>
      rw [spared.heap.absent missing] at here
      cases here
    | some o => exact freed ⟨o, missing⟩
  others := spared.heap

/-- Before a program has made a call there is nothing to keep apart. -/
theorem apart_start (i : Interpreter) (p : Program) : (i.start p).Apart := by
  apply Apart.of_same _ (sameScene_enter ⟨.give .undefined, [], none, i.depth, i.global, i.world⟩ p)
  intro scope member
  cases member

end Machine

/-- Whatever a session has done and wherever a run has come to, a call of any function with any
arguments is under way on top of the frames of its caller until it comes back with a value or an error,
and up to then and afterwards it is isolated.  The caller may be about to do anything, or be at any
element of an array that it maps, as long as it is in the scene that the run has come to. -/
theorem calls_isolated {i : Interpreter} (reachable : i.Reachable) {p : Program} {n : Nat}
    {m caller : Machine} (reached : Machine.run i.table n (i.start (Stmt.numberAll i.sites p).1) = m)
    (scene : m.SameScene caller) (code : Function) (args : List Value) (steps : Nat) :
    let called (k : Nat) : Machine := (caller.call code args).run i.table k
    let underWay (k : Nat) : Prop := caller.base <:+ (called k).frames ∧ caller.Isolated (called k)
    (∀ k ≤ steps, underWay k) ∨
      ∃ k ≤ steps, (∀ j < k, underWay j) ∧ caller.ComesBack (called k) ∧ caller.Isolated (called k) := by
  intro called underWay
  have typed := reachable.typed.machine (Stmt.numberAll i.sites p).1 n
  have started := reachable.typed.machine (Stmt.numberAll i.sites p).1 0
  have apart := (Machine.apart_start i (Stmt.numberAll i.sites p).1).run started n
  rw [reachable.typed.table] at reached typed
  rw [reached] at typed apart
  replace apart := apart.of_same scene
  have bound : ∀ scope ∈ caller.callScopes, scope.Bound caller.world.heap := by
    intro scope member
    rw [Machine.Apart.callScopes_eq scene.calls scene.locals] at member
    rw [scene.heap]
    exact typed.scopes_bound scope (.tail _ member)
  have wellFormed : caller.world.heap.WellFormed := by
    rw [scene.heap]
    exact typed.heap.wellFormed
  have inside (k : Nat) (here : caller.Inside ((caller.call code args).run .standard k)) :
      underWay k := by
    simp only [underWay, called, reachable.typed.table]
    exact ⟨here.frames.suffix, here.toSpared.isolated apart bound⟩
  cases Machine.run_call_cases wellFormed code args steps with
  | inl all =>
    left
    intro k early
    exact inside k (all k early)
  | inr back =>
    right
    obtain ⟨k, early, before, back, spared⟩ := back
    refine ⟨k, early, fun j first => inside j (before j first), ?_⟩
    simp only [called, reachable.typed.table]
    exact ⟨back, spared.isolated apart bound⟩

/-- A function that assigns to its parameter and to a global name. -/
def assigning : Function where
  name := "f"
  params := ["x"]
  body := [.expression (.assign .assign "x" (.literal (.string "inner"))),
    .expression (.assign .assign "seen" (.identifier "x")), .ret (some (.identifier "x"))]
  site := 0

/-- It is called from one whose parameter has the same name. -/
def shadowing : Program :=
  [.function assigning.name assigning.params assigning.body none,
    .declare .letD "seen" (.literal (.string "")),
    .function "g" ["x"]
      [.expression (.call (.function "f") [.identifier "x"]), .ret (some (.identifier "x"))] none,
    .expression (.call (.function "g") [.literal (.string "outer")])]

/-- The state in which the call is about to be made. -/
def shadowed : Machine :=
  Machine.run .standard 15 (Interpreter.new.start (Stmt.numberAll 0 shadowing).1)

set_option maxRecDepth 4000 in
theorem calls_isolated_of_shadowing :
    shadowed.callScopes.length = 1 ∧ shadowed.lookup? "f" = some (.function assigning) ∧
      ∃ k ≤ 14, shadowed.ComesBack ((shadowed.call assigning [.string "outer"]).run .standard k) ∧
        shadowed.Isolated ((shadowed.call assigning [.string "outer"]).run .standard k) := by
  have reached : Machine.run Interpreter.new.table 15
      (Interpreter.new.start (Stmt.numberAll Interpreter.new.sites shadowing).1) = shadowed := rfl
  refine ⟨by decide +kernel, by rfl, ?_⟩
  cases calls_isolated .new reached ⟨rfl, rfl, rfl, rfl, rfl⟩ assigning [.string "outer"] 14 with
  | inl underWay =>
    have longer := (underWay 14 le_rfl).1.length_le
    have shorter : ¬shadowed.base.length ≤
      ((shadowed.call assigning [.string "outer"]).run .standard 14).frames.length := by decide +kernel
    exact absurd longer shorter
  | inr back =>
    obtain ⟨k, early, _, back⟩ := back
    exact ⟨k, early, back⟩

end TinyScript
