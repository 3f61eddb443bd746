import TinyScript.Proofs.Evaluator.CallDepth
import TinyScript.Proofs.Evaluator.Isolation

/-! # Mapping a function over an array

`Array.map` reads the elements once, before it calls the function for any of them.  What is left of them
waits in a frame that no call looks at, so whatever the function does to the array makes no difference to the
arguments of the calls that follow.

A call that ends leaves its caller as it was, but for the world (`Machine.CallEnds`).  `Machine.Called` is
about calls for the first elements, one after the other, each in the world that the one before has left.
From there on either one more of them returns, or the mapping is over, and only if all of them have returned
is an array made (`Machine.MapsTo`).
-/

namespace TinyScript

namespace Machine

variable {table : BuiltinTable} {caller m after : Machine} {code : Function} {args : List Value}

/-! ## The end of a call -/

/-- The call of a function ends after so many steps.  Up to then its frame lies on top of those of the
caller, which then goes on in another world, if the call has not failed. -/
structure CallEnds (table : BuiltinTable) (caller : Machine) (code : Function) (args : List Value)
    (steps : Nat) (result : Except ExecutionError Value) (world : World) : Prop where
  inside : ∀ k < steps, caller.base <:+ ((caller.call code args).run table k).frames
  after : (caller.call code args).run table steps = { caller with world }.giveResult result

/-- The frame of a call is gone when the call is over. -/
theorem not_suffix_of_frames_eq (frames : m.frames = caller.frames) : ¬caller.base <:+ m.frames := by
  intro suffix
  have longer := suffix.length_le
  rw [base, List.length_cons, frames] at longer
  omega

theorem Returns.hands (returns : m.Returns) : m.Hands := by
  cases returns with
  | value value control => exact .give value control
  | error error control => exact .raise error control

theorem ComesBack.not_underWay (back : caller.ComesBack m) : ¬caller.UnderWay m := by
  intro underWay
  obtain ⟨above, split, _, waits⟩ := underWay.frames
  rw [back.frames] at split
  exact waits back.returns.hands (List.self_eq_append_left.1 split)

/-- All of the caller but its world is as it was. -/
theorem ComesBack.eq_giveResult (back : caller.ComesBack after) (depth : after.depth = caller.depth)
    (global : after.global = caller.global) :
    ∃ result, after = { caller with world := after.world }.giveResult result := by
  obtain ⟨returns, frames, locals⟩ := back
  obtain ⟨_, _, _, _, _, _⟩ := after
  cases frames
  cases locals
  cases depth
  cases global
  cases returns with
  | value value control =>
    cases control
    exact ⟨.ok value, rfl⟩
  | error error control =>
    cases control
    exact ⟨.error error, rfl⟩

/-- A call never ends, or it ends and no object has been freed by then. -/
theorem exists_callEnds (caller : Machine) (wellFormed : caller.world.heap.WellFormed) (code : Function)
    (args : List Value) :
    (∀ k, caller.base <:+ ((caller.call code args).run .standard k).frames) ∨
      ∃ steps result world, caller.CallEnds .standard code args steps result world ∧
        world.heap.WellFormed ∧ ∀ a, caller.world.heap.contains a = true → world.heap.contains a = true := by
  by_cases stays : ∀ k, caller.Inside ((caller.call code args).run .standard k)
  · exact .inl fun k => (stays k).frames.suffix
  · right
    obtain ⟨steps, outside⟩ := not_forall.1 stays
    obtain ⟨k, _, before, back, spared⟩ :=
      (run_call_cases wellFormed code args steps).resolve_left fun all => outside (all steps le_rfl)
    have settled : caller.Settles ((caller.call code args).run .standard k) := by
      cases (Begins.call code args : caller.Begins .standard _).run_cases k with
      | inl underWay => exact absurd (underWay k le_rfl) back.not_underWay
      | inr settles =>
        obtain ⟨j, early, _, settled⟩ := settles
        rcases Nat.lt_or_eq_of_le early with first | rfl
        · exact absurd (before j first).frames.suffix (not_suffix_of_frames_eq settled.frames)
        · exact settled
    obtain ⟨result, after⟩ := back.eq_giveResult settled.depth spared.global
    refine ⟨k, result, _, ⟨fun j early => (before j early).frames.suffix, after⟩, ?_, ?_⟩
    · exact wellFormed_run ((caller.effect_call code args).wellFormed wellFormed) k
    · intro a alive
      by_contra freed
      simp only [Heap.contains, Bool.not_eq_true, Option.isSome_eq_false_iff, Option.isNone_iff_eq_none]
        at freed
      simp [Heap.contains, spared.heap.absent freed] at alive

/-! ## One call after the other -/

/-- The state in which the function is called for the next element, when there are these results. -/
def turn (caller : Machine) (code : Function) (elements results : List Value) (world : World) : Machine :=
  { caller with
    frames := .mapping code results.reverse (elements.drop (results.length + 1)) :: caller.frames
    world }

/-- In a run from `started` on the function has been called for the first elements, each with its index and
in the world that the call before has left.  There are these results, the last call has left this world, and
so many steps have been taken. -/
inductive Called (table : BuiltinTable) (caller : Machine) (code : Function) (elements : List Value)
    (started : Machine) : (results : List Value) → World → (steps : Nat) → Prop where
  | none : Called table caller code elements started [] caller.world 0
  | next {results : List Value} {world world' : World} {steps k : Nat} {element value : Value}
      (before : Called table caller code elements started results world steps)
      (found : elements[results.length]? = some element)
      (calls : started.run table steps =
        (caller.turn code elements results world).call code [element, .number results.length.toFloat])
      (ends : (caller.turn code elements results world).CallEnds table code
        [element, .number results.length.toFloat] k (.ok value) world') :
      Called table caller code elements started (results ++ [value]) world' (steps + k + 1)

/-- What a mapping comes to from its first state on. -/
inductive MapsTo (table : BuiltinTable) (caller : Machine) (code : Function) (elements : List Value)
    (started : Machine) : Prop where
  /-- All calls return.  Then the results are put into a new array, and nothing else happens to the heap. -/
  | all (results : List Value) (world : World) (steps : Nat)
      (called : caller.Called table code elements started results world steps)
      (size : results.length = elements.length) (handle : Handle) (heap : Heap Object)
      (kept : ∀ a, caller.world.heap.contains a = true → world.heap.contains a = true)
      (fresh : world.heap.get? handle = none) (made : heap.get? handle = some (.array results.toArray))
      (others : ∀ a, a ≠ handle → heap.get? a = world.heap.get? a)
      (after : started.run table steps =
        { caller with control := .give (.array handle), world := { world with heap } })
  /-- A call fails, and so does the mapping, in the world that the call leaves. -/
  | fails (results : List Value) (world : World) (steps : Nat)
      (called : caller.Called table code elements started results world steps) (element : Value)
      (found : elements[results.length]? = some element)
      (calls : started.run table steps =
        (caller.turn code elements results world).call code [element, .number results.length.toFloat])
      (k : Nat) (error : ExecutionError) (world' : World)
      (ends : (caller.turn code elements results world).CallEnds table code
        [element, .number results.length.toFloat] k (.error error) world')
      (after : started.run table (steps + k + 1) = { caller with world := world' }.fail error)
  /-- A call never ends. -/
  | stays (results : List Value) (world : World) (steps : Nat)
      (called : caller.Called table code elements started results world steps) (element : Value)
      (found : elements[results.length]? = some element)
      (calls : started.run table steps =
        (caller.turn code elements results world).call code [element, .number results.length.toFloat])
      (inside : ∀ k, (caller.turn code elements results world).base <:+
        (started.run table (steps + k)).frames)

variable {elements results : List Value} {started : Machine} {world : World} {steps : Nat}

/-- There is at most one call for each element. -/
theorem Called.length_le (called : caller.Called table code elements started results world steps) :
    results.length ≤ elements.length := by
  cases called with
  | none => exact Nat.zero_le _
  | next before found =>
    rw [List.length_append, List.length_singleton]
    exact (List.getElem?_eq_some_iff.1 found).1

/-- For the next element the function is called on top of the frame with what is left. -/
theorem mapNext_eq_call {element : Value} (found : elements[results.length]? = some element) :
    { caller with world }.mapNext code results.reverse (elements.drop results.length) =
      (caller.turn code elements results world).call code [element, .number results.length.toFloat] := by
  obtain ⟨bound, rfl⟩ := List.getElem?_eq_some_iff.1 found
  rw [List.drop_eq_getElem_cons bound, mapNext, List.length_reverse]
  rfl

/-- What the caller is about to do makes no difference to a call. -/
theorem call_control (m : Machine) (control : Control) (code : Function) (args : List Value) :
    { m with control }.call code args = m.call code args := by
  by_cases deep : callLimit ≤ m.depth
  · rw [m.call_of_le deep, call_of_le { m with control } deep]
    rfl
  · have shallow := Nat.lt_of_not_le deep
    rw [m.call_of_lt shallow, call_of_lt { m with control } shallow]
    match code.body with
    | [] | [_] | _ :: _ :: _ => rfl

theorem mapNext_control (m : Machine) (control : Control) (code : Function) (done rest : List Value) :
    { m with control }.mapNext code done rest = m.mapNext code done rest := by
  cases rest with
  | nil => rfl
  | cons element rest => exact call_control { m with frames := .mapping code done rest :: m.frames } control _ _

/-- When the calls have returned, the mapping goes on with what is left. -/
theorem Called.run
    (called : caller.Called table code elements (caller.mapNext code [] elements) results world steps) :
    (caller.mapNext code [] elements).run table steps =
      { caller with world }.mapNext code results.reverse (elements.drop results.length) := by
  cases called with
  | none => rfl
  | @next results _ _ _ _ _ value before found calls ends =>
    have returned := ends.after
    rw [← calls, ← run_add] at returned
    rw [run_succ_eq_step, returned, List.reverse_append, List.length_append, List.reverse_singleton,
      List.length_singleton]
    exact mapNext_control { caller with world } (.give value) code _ _

/-- Wherever a mapping has come to, it comes to an end from there, or stays in a call. -/
theorem Called.mapsTo
    (called : caller.Called .standard code elements (caller.mapNext code [] elements) results world steps)
    (wellFormed : world.heap.WellFormed)
    (kept : ∀ a, caller.world.heap.contains a = true → world.heap.contains a = true) :
    caller.MapsTo .standard code elements (caller.mapNext code [] elements) := by
  -- By induction on the elements that are left.
  generalize left : elements.drop results.length = rest
  induction rest generalizing results world steps with
  | nil =>
    have size : results.length = elements.length :=
      Nat.le_antisymm called.length_le (List.drop_eq_nil_iff.1 left)
    have exact := wellFormed.toFreeListExact
    refine .all results world steps called size (world.heap.allocate (.array results.toArray)).1
      (world.heap.allocate (.array results.toArray)).2 kept (Heap.get?_allocate_fst exact _)
      (Heap.get?_allocate_new exact _) (fun a other => ?_) ?_
    · rw [Heap.get?_allocate exact, if_neg other]
    · rw [called.run, left, mapNext, giveArray, List.reverse_reverse]
      rfl
  | cons element rest ih =>
    have found : elements[results.length]? = some element := by
      rw [← List.head?_drop, left, List.head?_cons]
    have calls := called.run
    rw [mapNext_eq_call found] at calls
    cases exists_callEnds (caller.turn code elements results world) wellFormed code
      [element, .number results.length.toFloat] with
    | inl inside =>
      refine .stays results world steps called element found calls fun k => ?_
      rw [run_add, calls]
      exact inside k
    | inr ends =>
      obtain ⟨k, result, world', ends, wellFormed', kept'⟩ := ends
      cases result with
      | ok value =>
        refine ih (called.next found calls ends) wellFormed' (fun a alive => kept' a (kept a alive)) ?_
        rw [List.length_append, List.length_singleton, ← List.tail_drop, left, List.tail_cons]
      | error error =>
        refine .fails results world steps called element found calls k error world' ends ?_
        rw [run_succ_eq_step, run_add, calls, ends.after]
        rfl

/-- The elements are read before the first call. -/
theorem callBuiltin_map {a : Handle} {elements : Array Value}
    (found : caller.world.heap.elements? a = some elements) (code : Function) (extra : List Value) :
    caller.callBuiltin .standard "Array" "map" (.array a :: .function code :: extra) =
      caller.mapNext code [] elements.toList := by
  have operation : BuiltinTable.standard.find? "Array" "map" = some Builtin.arrayMap := rfl
  have answered : Builtin.arrayMap ("Array" ++ "." ++ "map") (.array a :: .function code :: extra)
      caller.world = (.ok (.map code elements.toList), caller.world) := by
    have read : Builtin.elementsOf ("Array" ++ "." ++ "map") (.array a :: .function code :: extra)
        caller.world.heap = .ok (a, elements) := by
      simp only [Builtin.elementsOf, Builtin.arrayAt, Builtin.argument, List.getElem?_cons_zero, bind,
        Except.bind, pure, Except.pure, found]
    simp only [Builtin.arrayMap, Builtin.ofHeap, read]
    rfl
  unfold callBuiltin
  simp only [operation, answered]
  rfl

end Machine

/-- Whatever a session has done and wherever a run has come to, `Array.map` calls the function for the
elements that the array has then, in order and each with its index.  If all calls return, a new array holds
their results; if one fails, so does the run, in the world that this call has left. -/
theorem map_calls_snapshot {i : Interpreter} (reachable : i.Reachable) {p : Program} {n : Nat}
    {m caller : Machine} (reached : Machine.run i.table n (i.start (Stmt.numberAll i.sites p).1) = m)
    (scene : m.SameScene caller) {a : Handle} {elements : Array Value}
    (found : caller.world.heap.elements? a = some elements) (code : Function) (extra : List Value) :
    caller.MapsTo i.table code elements.toList
      (caller.callBuiltin i.table "Array" "map" (.array a :: .function code :: extra)) := by
  have typed := reachable.typed.machine (Stmt.numberAll i.sites p).1 n
  rw [reachable.typed.table] at reached typed ⊢
  rw [reached] at typed
  have wellFormed : caller.world.heap.WellFormed := by
    rw [scene.heap]
    exact typed.heap.wellFormed
  rw [Machine.callBuiltin_map found]
  exact Machine.Called.none.mapsTo wellFormed fun _ alive => alive

/-- A function that appends its argument to the array under a name. -/
def growing : Function where
  name := "f"
  params := ["e"]
  body := [.expression (.call (.method "Array" "push") [.identifier "a", .identifier "e"]),
    .ret (some (.identifier "e"))]
  site := 0

/-- It is called for the elements of that array. -/
def mappingGrowing : Program :=
  [.function growing.name growing.params growing.body none,
    .declare .letD "a" (.array [.literal (.string "x"), .literal (.string "y")]),
    .expression (.call (.method "Array" "map") [.identifier "a", .identifier "f"])]

/-- The state in which the mapping begins. -/
def growthBegun : Machine :=
  { Machine.run .standard 15 (Interpreter.new.start (Stmt.numberAll 0 mappingGrowing).1) with frames := [] }

/-- The array that is mapped. -/
def grown : Handle := ⟨5, 0⟩

/-- The first state of the mapping. -/
def growthMapped : Machine :=
  growthBegun.callBuiltin .standard "Array" "map" [.array grown, .function growing]

set_option maxRecDepth 8000 in
theorem map_calls_snapshot_of_growing :
    growthBegun.world.heap.elements? grown = some #[.string "x", .string "y"] ∧
      ∃ results world steps,
        growthBegun.Called .standard growing [.string "x", .string "y"] growthMapped results world steps ∧
          results.length = 2 ∧
            world.heap.elements? grown = some #[.string "x", .string "y", .string "x", .string "y"] := by
  have found : growthBegun.world.heap.elements? grown = some #[.string "x", .string "y"] := rfl
  have reached : Machine.run Interpreter.new.table 15
      (Interpreter.new.start (Stmt.numberAll Interpreter.new.sites mappingGrowing).1) =
      Machine.run .standard 15 (Interpreter.new.start (Stmt.numberAll 0 mappingGrowing).1) := rfl
  have scene : Machine.SameScene
      (Machine.run .standard 15 (Interpreter.new.start (Stmt.numberAll 0 mappingGrowing).1)) growthBegun :=
    ⟨rfl, rfl, rfl, rfl, rfl⟩
  have maps : growthBegun.MapsTo .standard growing [.string "x", .string "y"] growthMapped :=
    map_calls_snapshot .new reached scene found growing []
  have ended : (growthMapped.run .standard 25).control = .halted (.ok (.array ⟨9, 0⟩)) := rfl
  have stacked : (growthMapped.run .standard 25).frames = [] := rfl
  have elements : (growthMapped.run .standard 25).world.heap.elements? grown =
    some #[.string "x", .string "y", .string "x", .string "y"] := rfl
  refine ⟨found, ?_⟩
  cases maps with
  | all results world steps called size handle heap kept fresh made others after =>
    refine ⟨results, world, steps, called, size, ?_⟩
    have last : growthMapped.run .standard (steps + 1) =
        { growthBegun with
          control := .halted (.ok (.array handle))
          world := { world with heap } } := by
      rw [Machine.run_succ_eq_step, after]
      rfl
    have same := Machine.run_unique ended (congrArg Machine.control last)
    have other : grown ≠ handle := by
      rintro rfl
      have alive := kept grown rfl
      simp [Heap.contains, fresh] at alive
    rw [same, last] at elements
    simpa only [Heap.elements?, others grown other] using elements
  | fails results world steps called element found calls k error world' ends after =>
    obtain ⟨more, failed⟩ := Machine.Leaves.exists_halted
      (.inl (congrArg Machine.control after)) .standard
    rw [← Machine.run_add] at failed
    have same := Machine.run_unique ended failed
    cases ended.symm.trans ((congrArg Machine.control same).trans failed)
  | stays results world steps called element found calls inside =>
    have suffix := (inside 25).length_le
    rw [Nat.add_comm, Machine.run_add, Machine.run_of_halted ended, stacked] at suffix
    cases suffix

end TinyScript
