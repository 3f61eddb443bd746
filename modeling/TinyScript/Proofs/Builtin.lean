import TinyScript.Builtin.Table
import TinyScript.Proofs.NameMap

/-! # The standard operations as a whole

What holds of each operation of the standard libraries holds of everything that is found in their table
(`BuiltinTable.forall_standard_named`, and `BuiltinTable.forall_standard` where names do not matter).  So an
operation of these libraries fails only to object to one of its arguments (`BuiltinTable.standard_objects`).
-/

namespace TinyScript

/-! ## The table -/

/-- A property of every operation of the standard libraries and of the name under which it is found. -/
theorem BuiltinTable.forall_standard_named {P : String → String → Builtin → Prop}
    (math : ∀ f ∈ mathFunctions, P "Math" f.name (Builtin.ofMath f))
    (array : P "Array" "push" Builtin.arrayPush ∧ P "Array" "pop" Builtin.arrayPop ∧
      P "Array" "map" Builtin.arrayMap ∧ P "Array" "length" Builtin.arrayLength)
    (string : P "String" "slice" Builtin.stringSlice ∧ P "String" "replace" Builtin.stringReplace ∧
      P "String" "length" Builtin.stringLength ∧
      P "String" "toUpperCase" (Builtin.stringMap Text.toUpper) ∧
      P "String" "toLowerCase" (Builtin.stringMap Text.toLower))
    (date : P "Date" "now" Builtin.dateNow) {library operation : String} {builtin : Builtin}
    (found : standard.find? library operation = some builtin) : P library operation builtin := by
  obtain ⟨operations, inTable, inLibrary⟩ := Option.bind_eq_some_iff.1 found
  have member := NameMap.mem_of_get?_ofList inTable
  simp only [List.mem_cons, Prod.mk.injEq, List.not_mem_nil, or_false] at member
  rcases member with ⟨rfl, rfl⟩ | ⟨rfl, rfl⟩ | ⟨rfl, rfl⟩ | ⟨rfl, rfl⟩
  · obtain ⟨f, known, eq⟩ := List.mem_map.1 (NameMap.mem_of_get?_ofList inLibrary)
    cases eq
    exact math f known
  · have entry := NameMap.mem_of_get?_ofList inLibrary
    simp only [List.mem_cons, Prod.mk.injEq, List.not_mem_nil, or_false] at entry
    obtain ⟨push, pop, map, length⟩ := array
    rcases entry with ⟨rfl, rfl⟩ | ⟨rfl, rfl⟩ | ⟨rfl, rfl⟩ | ⟨rfl, rfl⟩
    · exact push
    · exact pop
    · exact map
    · exact length
  · have entry := NameMap.mem_of_get?_ofList inLibrary
    simp only [List.mem_cons, Prod.mk.injEq, List.not_mem_nil, or_false] at entry
    obtain ⟨slice, replace, length, upper, lower⟩ := string
    rcases entry with ⟨rfl, rfl⟩ | ⟨rfl, rfl⟩ | ⟨rfl, rfl⟩ | ⟨rfl, rfl⟩ | ⟨rfl, rfl⟩
    · exact slice
    · exact replace
    · exact length
    · exact upper
    · exact lower
  · have entry := NameMap.mem_of_get?_ofList inLibrary
    simp only [List.mem_cons, Prod.mk.injEq, List.not_mem_nil, or_false] at entry
    obtain ⟨rfl, rfl⟩ := entry
    exact date

/-- A property of every operation of the standard libraries. -/
theorem BuiltinTable.forall_standard {P : Builtin → Prop} (math : ∀ f, P (Builtin.ofMath f))
    (array : P Builtin.arrayPush ∧ P Builtin.arrayPop ∧ P Builtin.arrayMap ∧ P Builtin.arrayLength)
    (string : P Builtin.stringSlice ∧ P Builtin.stringReplace ∧ P Builtin.stringLength ∧
      ∀ f, P (Builtin.stringMap f))
    (date : P Builtin.dateNow) {library operation : String} {builtin : Builtin}
    (found : standard.find? library operation = some builtin) : P builtin := by
  obtain ⟨slice, replace, length, mapped⟩ := string
  exact forall_standard_named (P := fun _ _ builtin => P builtin) (fun f _ => math f) array
    ⟨slice, replace, length, mapped _, mapped _⟩ date found

/-! ## Errors -/

/-- A binary operator fails on scalars only for their kinds. -/
theorem BinaryOp.onScalars_error {op : BinaryOp} {a b : Scalar} {error : ExecutionError}
    (failed : op.onScalars a b = .error error) : ∃ k l, error = .typeMismatch op.symbol k l := by
  unfold BinaryOp.onScalars at failed
  repeat' split at failed
  all_goals cases failed
  all_goals exact ⟨_, _, rfl⟩

theorem MathFunction.call_error {f : MathFunction} {args : List (Kind × Option Float)}
    {error : ExecutionError} (failed : f.call args = .error error) :
    ∃ fault, error = .argument f.qualifiedName fault := by
  unfold MathFunction.call at failed
  split at failed
  · cases failed
  · next fault _ =>
    cases failed
    exact ⟨fault, rfl⟩

namespace Builtin

/-- If there is an error, it is about an argument. -/
def Objects {α : Type} (result : Except ExecutionError α) : Prop :=
  ∀ error, result = .error error → ∃ name fault, error = .argument name fault

section

variable {α β : Type} {result : Except ExecutionError α}

theorem objects_ok (a : α) : Objects (.ok a) := nofun

theorem objects_fail (name : String) (fault : ArgumentFault) : Objects (fail name fault : Except _ α) := by
  intro error failed
  cases failed
  exact ⟨name, fault, rfl⟩

theorem Objects.bind {f : α → Except ExecutionError β} (first : Objects result)
    (next : ∀ a, Objects (f a)) : Objects (result >>= f) := by
  cases result with
  | ok a => exact next a
  | error error =>
    intro other failed
    cases failed
    exact first error rfl

theorem Objects.map (first : Objects result) (f : α → β) : Objects (result.map f) := by
  cases result with
  | ok a => exact objects_ok (f a)
  | error error =>
    intro other failed
    cases failed
    exact first error rfl

end

variable (name : String) (args : List Value)

theorem argument_objects (index : Nat) : Objects (argument name args index) := by
  unfold argument
  split
  · exact objects_ok _
  · exact objects_fail name _

theorem numberAt_objects (index : Nat) : Objects (numberAt name args index) := by
  refine (argument_objects name args index).bind fun v => ?_
  split
  · exact objects_ok _
  · exact objects_fail name _

theorem optionalNumberAt_objects (index : Nat) : Objects (optionalNumberAt name args index) := by
  unfold optionalNumberAt
  split
  · exact objects_ok _
  · exact objects_ok _
  · exact (numberAt_objects name args index).map _

theorem stringAt_objects (index : Nat) : Objects (stringAt name args index) := by
  refine (argument_objects name args index).bind fun v => ?_
  split
  · exact objects_ok _
  · exact objects_fail name _

theorem arrayAt_objects (index : Nat) : Objects (arrayAt name args index) := by
  refine (argument_objects name args index).bind fun v => ?_
  split
  · exact objects_ok _
  · exact objects_fail name _

theorem functionAt_objects (index : Nat) : Objects (functionAt name args index) := by
  refine (argument_objects name args index).bind fun v => ?_
  split
  · exact objects_ok _
  · exact objects_fail name _

theorem elementsOf_objects (h : Heap Object) : Objects (elementsOf name args h) := by
  refine (arrayAt_objects name args 0).bind fun handle => ?_
  split
  · exact objects_ok _
  · exact objects_fail name _

theorem changeArray_objects (reply : Handle → Array Value → Value)
    (change : List Value → Array Value → Array Value) (world : World) :
    Objects (changeArray reply change name args world).1 := by
  have checked := elementsOf_objects name args world.heap
  unfold changeArray
  split
  · next failed =>
    rw [failed] at checked
    intro error same
    cases same
    exact checked _ rfl
  · exact objects_ok _

end Builtin

/-- An operation of the standard libraries fails only with an objection to an argument. -/
theorem BuiltinTable.standard_objects {library operation : String} {builtin : Builtin}
    (found : standard.find? library operation = some builtin) (name : String) (args : List Value)
    (world : World) : Builtin.Objects (builtin name args world).1 := by
  refine forall_standard (P := fun builtin => Builtin.Objects (builtin name args world).1)
    ?math ⟨?push, ?pop, ?map, ?length⟩ ⟨?slice, ?replace, ?stringLength, ?stringMap⟩ ?now found
  case math =>
    intro f
    refine Builtin.Objects.map ?_ _
    refine Builtin.Objects.bind (fun error failed => ?_) fun _ => Builtin.objects_ok _
    exact ⟨_, MathFunction.call_error failed⟩
  case push => exact Builtin.changeArray_objects name args _ _ world
  case pop => exact Builtin.changeArray_objects name args _ _ world
  case map =>
    exact (Builtin.arrayAt_objects name args 0).bind fun _ =>
      (Builtin.functionAt_objects name args 1).bind fun _ =>
        (Builtin.elementsOf_objects name args world.heap).bind fun _ => Builtin.objects_ok _
  case length =>
    exact (Builtin.elementsOf_objects name args world.heap).bind fun _ => Builtin.objects_ok _
  case slice =>
    exact Builtin.Objects.map ((Builtin.stringAt_objects name args 0).bind fun _ =>
      (Builtin.numberAt_objects name args 1).bind fun _ =>
        (Builtin.optionalNumberAt_objects name args 2).bind fun _ => Builtin.objects_ok _) _
  case replace =>
    exact Builtin.Objects.map ((Builtin.stringAt_objects name args 0).bind fun _ =>
      (Builtin.stringAt_objects name args 1).bind fun _ =>
        (Builtin.stringAt_objects name args 2).bind fun _ => Builtin.objects_ok _) _
  case stringLength =>
    exact Builtin.Objects.map ((Builtin.stringAt_objects name args 0).bind fun _ => Builtin.objects_ok _) _
  case stringMap =>
    intro f
    exact Builtin.Objects.map ((Builtin.stringAt_objects name args 0).bind fun _ => Builtin.objects_ok _) _
  case now => exact Builtin.objects_ok _

end TinyScript
