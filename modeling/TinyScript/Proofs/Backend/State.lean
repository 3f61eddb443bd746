import TinyScript.Proofs.Backend.Operation
import TinyScript.Proofs.Backend.Placed
import TinyScript.Proofs.Evaluator.Run
import TinyScript.Proofs.NameMap
import TinyScript.Proofs.Scope

/-! # Agreeing states of the two back ends

A global scope `Agrees` with the variables of a stack machine if the libraries are bound to their
names and every other name has the same scalar in both, or is unbound in both.  The functions of
`Math` that are called from both are the same (`CallsMath.function`).
-/

namespace TinyScript

/-! ## Variables -/

structure Agrees (global : Scope) (h : Heap Object) (vars : NameMap Scalar) : Prop where
  bound : global.Bound h
  library : ∀ name ∈ libraryNames, Env.lookup? [global] h name = some (.library name)
  other : ∀ name, name ∉ libraryNames →
    Env.lookup? [global] h name = (vars.get? name).map .scalar

namespace Agrees

variable {global : Scope} {h : Heap Object} {vars : NameMap Scalar} {name : String}

theorem define (agrees : Agrees global h vars) (free : name ∉ libraryNames) (value : Scalar) :
    Agrees (global.define h name (.scalar value)).1 (global.define h name (.scalar value)).2
      (vars.insert name value) where
  bound := agrees.bound.define name _
  library key member := by
    have differs : key ≠ name := fun eq => free (eq ▸ member)
    rw [agrees.bound.lookup?_define, if_neg differs]
    exact agrees.library key member
  other key outside := by
    rw [agrees.bound.lookup?_define, NameMap.get?_insert]
    split
    · rfl
    · exact agrees.other key outside

theorem update (agrees : Agrees global h vars) (free : name ∉ libraryNames) {cell : Handle}
    (found : global.get? name = some cell) (value : Scalar) :
    Agrees global (h.update cell fun _ => .binding (.scalar value)) (vars.insert name value) where
  bound := agrees.bound.update cell _
  library key member := by
    have differs : key ≠ name := fun eq => free (eq ▸ member)
    rw [agrees.bound.lookup?_update found, if_neg differs]
    exact agrees.library key member
  other key outside := by
    rw [agrees.bound.lookup?_update found, NameMap.get?_insert]
    split
    · rfl
    · exact agrees.other key outside

theorem collect (agrees : Agrees global h vars) : Agrees global (Env.collect [global] h).2 vars where
  bound := agrees.bound.collect
  library key member := by
    rw [agrees.bound.lookup?_collect]
    exact agrees.library key member
  other key outside := by
    rw [agrees.bound.lookup?_collect]
    exact agrees.other key outside

end Agrees

/-! ## Fresh states -/

theorem lookup?_bindLibraries (names : List String) (global : Scope) (world : World)
    (bound : global.Bound world.heap) (key : String) :
    Env.lookup? [(Interpreter.bindLibraries names global world).1]
      (Interpreter.bindLibraries names global world).2.heap key =
        if key ∈ names then some (.library key) else Env.lookup? [global] world.heap key := by
  induction names generalizing global world with
  | nil => simp [Interpreter.bindLibraries]
  | cons name names ih =>
    rw [Interpreter.bindLibraries_cons, ih _ _ (bound.define name _), bound.lookup?_define]
    by_cases eq : key = name
    · simp [eq]
    · simp [eq]

theorem names_standard : BuiltinTable.standard.names = ["Array", "Date", "Math", "String"] := rfl

/-- A fresh interpreter agrees with a machine without variables. -/
theorem agrees_new : Agrees Interpreter.new.global Interpreter.new.world.heap .empty := by
  have bound := bound_bindLibraries BuiltinTable.standard.names .empty {} Scope.bound_empty
  have found := lookup?_bindLibraries BuiltinTable.standard.names .empty {} Scope.bound_empty
  have same (key : String) : key ∈ BuiltinTable.standard.names ↔ key ∈ libraryNames := by
    simp only [names_standard, libraryNames, List.mem_cons]
    grind
  refine ⟨bound, fun key member => ?_, fun key outside => ?_⟩
  · rw [← same] at member
    exact (found key).trans (if_pos member)
  · rw [← same] at outside
    exact (found key).trans (if_neg outside)

/-! ## Functions of `Math` -/

/-- A call of `Math` is a call of functions that do the same on both back ends. -/
theorem CallsMath.function {operation : String} {argc : Nat} (calls : CallsMath "Math" operation argc) :
    ∃ host f, HostFunction.standard.get? ("Math." ++ operation) = some host ∧ host.arity = argc ∧
      host.Does f ∧ BuiltinTable.standard.find? "Math" operation = some (.ofMath f) := by
  obtain ⟨_, host, found, arity⟩ := calls
  rcases HostFunction.name_of_standard found with ⟨f, known, name⟩ | date
  · have same : f.name = operation := (String.append_right_inj "Math.").1 name
    obtain ⟨host', found', does⟩ := HostFunction.standard_math f known
    cases found.symm.trans (name ▸ found')
    refine ⟨host, f, found, arity, does, ?_⟩
    have entry : (operation, Builtin.ofMath f) ∈
        mathFunctions.map fun f => (f.name, Builtin.ofMath f) :=
      List.mem_map.2 ⟨f, known, by rw [same]⟩
    exact NameMap.get?_ofList_of_mem entry (by decide)
  · have texts := congrArg String.toList date
    simp at texts

end TinyScript
