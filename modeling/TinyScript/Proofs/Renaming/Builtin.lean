import TinyScript.Builtin.Table
import TinyScript.Proofs.Builtin
import TinyScript.Proofs.Renaming.Heap

/-! # Builtin operations up to the names of handles

An operation `Respects` renamings if with renamed arguments, on renamed heaps, it fails in the same way
or replies with renamed values and leaves renamed heaps.  All operations of the standard table do but
the one that tells the time.
-/

namespace TinyScript

inductive Reply.Renamed (ρ : Renaming) : Reply → Reply → Prop where
  | value {v v' : Value} : v.Renamed ρ v' → Renamed ρ (.value v) (.value v')
  | call (code : Function) {args args' : List Value} :
      List.Forall₂ (Value.Renamed ρ) args args' → Renamed ρ (.call code args) (.call code args')
  | map (code : Function) {elements elements' : List Value} :
      List.Forall₂ (Value.Renamed ρ) elements elements' →
      Renamed ρ (.map code elements) (.map code elements')

namespace Builtin

/-- Does the same in renamed worlds. -/
def Respects (builtin : Builtin) : Prop :=
  ∀ (ρ : Renaming) (name : String) (args args' : List Value) (world world' : World),
    List.Forall₂ (Value.Renamed ρ) args args' → world.heap.Renamed ρ world'.heap →
    SameResult (Reply.Renamed ρ) (builtin name args world).1 (builtin name args' world').1 ∧
      (builtin name args world).2.heap.Renamed ρ (builtin name args' world').2.heap

/-! ## Arguments -/

theorem getElem?_of_forall₂ {α β : Type} {R : α → β → Prop} {xs : List α} {ys : List β}
    (related : List.Forall₂ R xs ys) (i : Nat) : Option.Rel R xs[i]? ys[i]? := by
  induction related generalizing i with
  | nil => exact .none
  | cons first _ ih =>
    cases i with
    | zero => exact .some first
    | succ i => exact ih i

section

variable {ρ : Renaming} {args args' : List Value} (name : String) (index : Nat)

theorem argument_renamed (same : List.Forall₂ (Value.Renamed ρ) args args') :
    SameResult (Value.Renamed ρ) (argument name args index) (argument name args' index) := by
  have related := getElem?_of_forall₂ same index
  unfold argument
  generalize args[index]? = x at related ⊢
  generalize args'[index]? = y at related ⊢
  cases related with
  | some value => exact .ok value
  | none => exact .error _

theorem argument_bind_eq {α : Type} {f : Value → Except ExecutionError α}
    (same : List.Forall₂ (Value.Renamed ρ) args args') (blind : ∀ v v', v.Renamed ρ v' → f v = f v') :
    (argument name args index >>= f) = (argument name args' index >>= f) := by
  have related := argument_renamed name index same
  generalize argument name args index = x at related ⊢
  generalize argument name args' index = y at related ⊢
  cases related with
  | ok value => exact blind _ _ value
  | error => rfl

theorem numberAt_eq (same : List.Forall₂ (Value.Renamed ρ) args args') :
    numberAt name args index = numberAt name args' index :=
  argument_bind_eq name index same fun _ _ value => by cases value <;> rfl

theorem stringAt_eq (same : List.Forall₂ (Value.Renamed ρ) args args') :
    stringAt name args index = stringAt name args' index :=
  argument_bind_eq name index same fun _ _ value => by cases value <;> rfl

theorem functionAt_eq (same : List.Forall₂ (Value.Renamed ρ) args args') :
    functionAt name args index = functionAt name args' index :=
  argument_bind_eq name index same fun _ _ value => by cases value <;> rfl

theorem optionalNumberAt_eq (same : List.Forall₂ (Value.Renamed ρ) args args') :
    optionalNumberAt name args index = optionalNumberAt name args' index := by
  have related := getElem?_of_forall₂ same index
  unfold optionalNumberAt
  rw [numberAt_eq name index same]
  generalize args[index]? = x at related ⊢
  generalize args'[index]? = y at related ⊢
  cases related with
  | some value => cases value <;> rfl
  | none => rfl

theorem arrayAt_renamed (same : List.Forall₂ (Value.Renamed ρ) args args') :
    SameResult ρ (arrayAt name args index) (arrayAt name args' index) := by
  unfold arrayAt
  refine (argument_renamed name index same).bind fun v v' value => ?_
  cases value with
  | array pair => exact .ok pair
  | _ => exact .error _

theorem elementsOf_renamed {h h' : Heap Object} (same : List.Forall₂ (Value.Renamed ρ) args args')
    (heaps : h.Renamed ρ h') :
    SameResult (fun found found' => ρ found.1 found'.1 ∧
      List.Forall₂ (Value.Renamed ρ) found.2.toList found'.2.toList)
      (elementsOf name args h) (elementsOf name args' h') := by
  unfold elementsOf
  refine (arrayAt_renamed name 0 same).bind fun a b pair => ?_
  have related := heaps.elements? pair
  generalize h.elements? a = x at related ⊢
  generalize h'.elements? b = y at related ⊢
  cases related with
  | some elements => exact .ok ⟨pair, elements⟩
  | none => exact .error _

end

/-! ## Operations -/

theorem ofArguments_respects {f : String → List Value → Except ExecutionError Value}
    (same : ∀ {ρ : Renaming} (name : String) {args args' : List Value},
      List.Forall₂ (Value.Renamed ρ) args args' →
      SameResult (Value.Renamed ρ) (f name args) (f name args')) : (ofArguments f).Respects := by
  intro ρ name args args' world world' arguments heaps
  exact ⟨(same name arguments).map fun _ _ value => .value value, heaps⟩

theorem ofHeap_respects {f : String → List Value → Heap Object → Except ExecutionError Reply}
    (same : ∀ {ρ : Renaming} (name : String) {args args' : List Value} {h h' : Heap Object},
      List.Forall₂ (Value.Renamed ρ) args args' → h.Renamed ρ h' →
      SameResult (Reply.Renamed ρ) (f name args h) (f name args' h')) : (ofHeap f).Respects := by
  intro ρ name args args' world world' arguments heaps
  exact ⟨same name arguments heaps, heaps⟩

theorem ofMath_respects (f : MathFunction) : (ofMath f).Respects := by
  refine ofArguments_respects fun name args args' arguments => ?_
  have numbers : (args.map fun a => (a.kind, a.number?)) = args'.map fun a => (a.kind, a.number?) := by
    induction arguments with
    | nil => rfl
    | cons value _ ih => rw [List.map_cons, List.map_cons, value.kind_eq, value.number?_eq, ih]
  rw [numbers]
  exact .bind_same fun x => .ok (.scalar _)

theorem changeArray_respects {reply : Handle → Array Value → Value}
    {change : List Value → Array Value → Array Value}
    (answers : ∀ {ρ : Renaming} {a b : Handle} {xs ys : Array Value}, ρ a b →
      List.Forall₂ (Value.Renamed ρ) xs.toList ys.toList → (reply a xs).Renamed ρ (reply b ys))
    (changes : ∀ {ρ : Renaming} {args args' : List Value} {xs ys : Array Value},
      List.Forall₂ (Value.Renamed ρ) args args' →
      List.Forall₂ (Value.Renamed ρ) xs.toList ys.toList →
      List.Forall₂ (Value.Renamed ρ) (change args xs).toList (change args' ys).toList) :
    (changeArray reply change).Respects := by
  intro ρ name args args' world world' arguments heaps
  have related := elementsOf_renamed name arguments heaps
  unfold changeArray
  generalize elementsOf name args world.heap = x at related ⊢
  generalize elementsOf name args' world'.heap = y at related ⊢
  cases related with
  | error e => exact ⟨.error e, heaps⟩
  | ok found =>
    obtain ⟨pair, elements⟩ := found
    refine ⟨.ok (.value (answers pair elements)), heaps.update pair fun o o' object => ?_⟩
    cases object with
    | array elements => exact .array (changes arguments elements)
    | binding value => exact .binding value
    | record fields => exact .record fields

theorem arrayPush_respects : arrayPush.Respects := by
  refine changeArray_respects (fun pair _ => .array pair) fun {ρ _ _ _ _} arguments elements => ?_
  have further := List.forall₂_drop 1 arguments
  rw [List.drop_one, List.drop_one] at further
  have pushed (xs ys : Array Value) (both : List.Forall₂ (Value.Renamed ρ) xs.toList ys.toList)
      (v v' : Value) (value : v.Renamed ρ v') :
      List.Forall₂ (Value.Renamed ρ) (xs.push v).toList (ys.push v').toList := by
    rw [Array.toList_push, Array.toList_push]
    exact List.rel_append both (.cons value .nil)
  exact List.rel_foldl pushed elements further

theorem arrayPop_respects : arrayPop.Respects := by
  refine changeArray_respects (fun {_ _ _ xs ys} _ elements => ?_) fun _ elements => ?_
  · have size : xs.size = ys.size := elements.length_eq
    have last := getElem?_of_forall₂ elements (xs.size - 1)
    rw [Array.getElem?_toList, Array.getElem?_toList] at last
    rw [Array.back?, Array.back?, ← size]
    generalize xs[xs.size - 1]? = x at last ⊢
    generalize ys[xs.size - 1]? = y at last ⊢
    cases last with
    | some value => exact value
    | none => exact .undefined
  · rw [Array.toList_pop, Array.toList_pop, List.dropLast_eq_take, List.dropLast_eq_take,
      elements.length_eq]
    exact List.forall₂_take _ elements

theorem arrayMap_respects : arrayMap.Respects := by
  refine ofHeap_respects fun name args args' h h' arguments heaps => ?_
  refine (arrayAt_renamed name 0 arguments).bind fun _ _ _ => ?_
  rw [functionAt_eq name 1 arguments]
  refine .bind_same fun code => ?_
  exact (elementsOf_renamed name arguments heaps).bind fun _ _ found => .ok (.map code found.2)

theorem arrayLength_respects : arrayLength.Respects := by
  refine ofHeap_respects fun name args args' h h' arguments heaps => ?_
  refine (elementsOf_renamed name arguments heaps).bind fun found found' both => ?_
  obtain ⟨_, elements⟩ := found
  obtain ⟨_, elements'⟩ := found'
  have size : elements.size = elements'.size := both.2.length_eq
  simp only [size]
  exact .ok (.value (.scalar _))

theorem stringSlice_respects : stringSlice.Respects := by
  refine ofArguments_respects fun name args args' arguments => ?_
  rw [stringAt_eq name 0 arguments, numberAt_eq name 1 arguments, optionalNumberAt_eq name 2 arguments]
  exact .bind_same fun s => .bind_same fun start => .bind_same fun stop => .ok (.scalar _)

theorem stringReplace_respects : stringReplace.Respects := by
  refine ofArguments_respects fun name args args' arguments => ?_
  rw [stringAt_eq name 0 arguments, stringAt_eq name 1 arguments, stringAt_eq name 2 arguments]
  exact .bind_same fun s => .bind_same fun search => .bind_same fun replacement => .ok (.scalar _)

theorem stringLength_respects : stringLength.Respects := by
  refine ofArguments_respects fun name args args' arguments => ?_
  rw [stringAt_eq name 0 arguments]
  exact .bind_same fun s => .ok (.scalar _)

theorem stringMap_respects (f : String → String) : (stringMap f).Respects := by
  refine ofArguments_respects fun name args args' arguments => ?_
  rw [stringAt_eq name 0 arguments]
  exact .bind_same fun s => .ok (.scalar _)

end Builtin

theorem BuiltinTable.standard_respects {library operation : String} {builtin : Builtin}
    (found : standard.find? library operation = some builtin) :
    builtin.Respects ∨ builtin = Builtin.dateNow := by
  refine forall_standard (P := fun b => b.Respects ∨ b = Builtin.dateNow) ?_ ?_ ?_ (.inr rfl) found
  · exact fun f => .inl (Builtin.ofMath_respects f)
  · exact ⟨.inl Builtin.arrayPush_respects, .inl Builtin.arrayPop_respects,
      .inl Builtin.arrayMap_respects, .inl Builtin.arrayLength_respects⟩
  · exact ⟨.inl Builtin.stringSlice_respects, .inl Builtin.stringReplace_respects,
      .inl Builtin.stringLength_respects, fun f => .inl (Builtin.stringMap_respects f)⟩

end TinyScript
