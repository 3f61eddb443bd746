import TinyScript.Proofs.Builtin
import TinyScript.Proofs.Typing.Heap

/-! # Builtin operations on typed heaps

An operation is `Typed` if with arguments that resolve, on a typed heap, it leaves a heap that is typed
and extends the old one, replies with values that resolve there, and never complains that an array has
been freed.  All operations of the standard table are.
-/

namespace TinyScript

/-- The values that a reply holds. -/
def Reply.values : Reply → List Value
  | .value result => [result]
  | .call _ args => args
  | .map _ elements => elements

namespace Builtin

/-- Keeps the heap typed. -/
def Typed (builtin : Builtin) : Prop :=
  ∀ (name : String) (args : List Value) (world : World), world.heap.Typed →
    (∀ v ∈ args, v.Resolves world.heap) →
    (builtin name args world).2.heap.Typed ∧ world.heap.Extends (builtin name args world).2.heap ∧
      Safe (fun reply => ∀ v ∈ reply.values, v.Resolves (builtin name args world).2.heap)
        (builtin name args world).1

/-! ## Arguments -/

section

variable (name : String) (args : List Value) (index : Nat)

theorem argument_safe : Safe (· ∈ args) (argument name args index) := by
  unfold argument
  split
  · next found => exact List.mem_of_getElem? found
  · exact id

theorem numberAt_safe : Safe (fun _ => True) (numberAt name args index) := by
  refine (argument_safe name args index).bind fun v _ => ?_
  split
  · trivial
  · exact id

theorem stringAt_safe : Safe (fun _ => True) (stringAt name args index) := by
  refine (argument_safe name args index).bind fun v _ => ?_
  split
  · trivial
  · exact id

theorem functionAt_safe : Safe (fun _ => True) (functionAt name args index) := by
  refine (argument_safe name args index).bind fun v _ => ?_
  split
  · trivial
  · exact id

theorem optionalNumberAt_safe : Safe (fun _ => True) (optionalNumberAt name args index) := by
  unfold optionalNumberAt
  split
  · trivial
  · trivial
  · exact (numberAt_safe name args index).map fun _ _ => trivial

theorem arrayAt_safe : Safe (fun handle => .array handle ∈ args) (arrayAt name args index) := by
  refine (argument_safe name args index).bind fun v member => ?_
  split
  · exact member
  · exact id

/-- An array argument that resolves has elements. -/
theorem elementsOf_safe {h : Heap Object} (typed : h.Typed) (all : ∀ v ∈ args, v.Resolves h) :
    Safe (fun found => h.get? found.1 = some (.array found.2) ∧
      ∀ v ∈ found.2.toList, v.Resolves h) (elementsOf name args h) := by
  refine (arrayAt_safe name args 0).bind fun handle member => ?_
  obtain ⟨elements, here⟩ := all _ member
  have found : h.elements? handle = some elements := by simp only [Heap.elements?, here]
  simp only [found]
  exact ⟨here, typed.values handle _ here⟩

theorem numbersFrom_ne_freedArray (args : List (Kind × Option Float)) (count index : Nat) :
    numbersFrom args count index ≠ .error .freedArray := by
  induction count generalizing index with
  | zero => simp [numbersFrom]
  | succ count ih =>
    unfold numbersFrom
    split
    · simp
    · have rest := ih (index + 1)
      cases found : numbersFrom args count (index + 1) with
      | ok xs => simp [bind, Except.bind, pure, Except.pure]
      | error fault =>
        rw [found] at rest
        simpa [bind, Except.bind] using rest
    · simp

end

/-! ## Operations -/

theorem ofArguments_typed {f : String → List Value → Except ExecutionError Value}
    (safe : ∀ (name : String) (args : List Value) (h : Heap Object), Safe (·.Resolves h) (f name args)) :
    (ofArguments f).Typed := by
  intro name args world typed all
  refine ⟨typed, .refl _, (safe name args world.heap).map fun v resolves w member => ?_⟩
  rw [List.mem_singleton.1 member]
  exact resolves

theorem ofHeap_typed {f : String → List Value → Heap Object → Except ExecutionError Reply}
    (safe : ∀ (name : String) (args : List Value) (h : Heap Object), h.Typed →
      (∀ v ∈ args, v.Resolves h) → Safe (fun reply => ∀ v ∈ reply.values, v.Resolves h) (f name args h)) :
    (ofHeap f).Typed :=
  fun name args world typed all => ⟨typed, .refl _, safe name args world.heap typed all⟩

theorem ofMath_typed (f : MathFunction) : (ofMath f).Typed := by
  refine ofArguments_typed fun name args h => ?_
  have call : Safe (fun _ => True) (f.call (args.map fun a => (a.kind, a.number?))) := by
    unfold MathFunction.call
    split
    · trivial
    · next fault failed =>
      have kept := numbersFrom_ne_freedArray (args.map fun a => (a.kind, a.number?))
        (f.wants (args.map fun a => (a.kind, a.number?)).length) 0
      rw [failed] at kept
      cases fault with
      | freedArray => exact absurd rfl kept
      | _ => exact id
  exact call.bind fun _ _ => trivial

theorem changeArray_typed {reply : Handle → Array Value → Value}
    {change : List Value → Array Value → Array Value}
    (answers : ∀ (a : Handle) (xs : Array Value) (h : Heap Object), h.get? a = some (.array xs) →
      (∀ v ∈ xs.toList, v.Resolves h) → (reply a xs).Resolves h)
    (changes : ∀ (args : List Value) (xs : Array Value), ∀ v ∈ (change args xs).toList,
      v ∈ args ∨ v ∈ xs.toList) : (changeArray reply change).Typed := by
  intro name args world typed all
  have found := elementsOf_safe name args typed all
  unfold changeArray
  cases result : elementsOf name args world.heap with
  | error e =>
    rw [result] at found
    exact ⟨typed, .refl _, found⟩
  | ok pair =>
    obtain ⟨a, xs⟩ := pair
    rw [result] at found
    obtain ⟨here, elements⟩ := found
    have alike (o : Object) (there : world.heap.get? a = some o) :
        o.Alike (modifyElements (change args) o) := by
      rw [here] at there
      cases there
      exact .array _ _
    have more := Heap.Extends.update a alike
    refine ⟨typed.update a alike fun o there v member => ?_, more, fun v member => ?_⟩
    · rw [here] at there
      cases there
      rcases changes args xs v member with argument | element
      · exact all v argument
      · exact elements v element
    · rw [List.mem_singleton.1 member]
      exact more.resolves (answers a xs world.heap here elements)

theorem arrayPush_typed : arrayPush.Typed := by
  refine changeArray_typed (fun a xs h here _ => ⟨xs, here⟩) fun args xs v member => ?_
  have pushed : (args.tail.foldl (·.push ·) xs).toList = xs.toList ++ args.tail := by simp
  rw [pushed, List.mem_append] at member
  rcases member with element | argument
  · exact .inr element
  · exact .inl (List.mem_of_mem_tail argument)

theorem arrayPop_typed : arrayPop.Typed := by
  refine changeArray_typed (fun a xs h _ elements => ?_) fun args xs v member => ?_
  · cases last : xs.back? with
    | none => trivial
    | some v => exact elements v (Array.mem_toList_iff.2 (Array.mem_of_back? last))
  · rw [Array.toList_pop] at member
    exact .inr (List.mem_of_mem_dropLast member)

theorem arrayMap_typed : arrayMap.Typed := by
  refine ofHeap_typed fun name args h typed all => ?_
  refine (arrayAt_safe name args 0).bind fun _ _ => ?_
  refine (functionAt_safe name args 1).bind fun code _ => ?_
  exact (elementsOf_safe name args typed all).bind fun found elements => elements.2

theorem arrayLength_typed : arrayLength.Typed := by
  refine ofHeap_typed fun name args h typed all => ?_
  refine (elementsOf_safe name args typed all).bind fun found _ v member => ?_
  rw [List.mem_singleton.1 member]
  trivial

theorem stringSlice_typed : stringSlice.Typed := by
  refine ofArguments_typed fun name args h => ?_
  refine (stringAt_safe name args 0).bind fun s _ => (numberAt_safe name args 1).bind fun start _ => ?_
  exact (optionalNumberAt_safe name args 2).bind fun stop _ => trivial

theorem stringReplace_typed : stringReplace.Typed := by
  refine ofArguments_typed fun name args h => ?_
  refine (stringAt_safe name args 0).bind fun s _ => (stringAt_safe name args 1).bind fun search _ => ?_
  exact (stringAt_safe name args 2).bind fun replacement _ => trivial

theorem stringLength_typed : stringLength.Typed :=
  ofArguments_typed fun name args _ => (stringAt_safe name args 0).bind fun _ _ => trivial

theorem stringMap_typed (f : String → String) : (stringMap f).Typed :=
  ofArguments_typed fun name args _ => (stringAt_safe name args 0).bind fun _ _ => trivial

theorem dateNow_typed : dateNow.Typed := by
  intro name args world typed all
  refine ⟨typed, .refl _, fun v member => ?_⟩
  rw [List.mem_singleton.1 member]
  trivial

end Builtin

theorem BuiltinTable.standard_typed {library operation : String} {builtin : Builtin}
    (found : standard.find? library operation = some builtin) : builtin.Typed :=
  forall_standard Builtin.ofMath_typed
    ⟨Builtin.arrayPush_typed, Builtin.arrayPop_typed, Builtin.arrayMap_typed, Builtin.arrayLength_typed⟩
    ⟨Builtin.stringSlice_typed, Builtin.stringReplace_typed, Builtin.stringLength_typed,
      Builtin.stringMap_typed⟩
    Builtin.dateNow_typed found

end TinyScript
