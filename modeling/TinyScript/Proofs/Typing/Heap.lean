import TinyScript.Proofs.Scope
import TinyScript.Value.Display

/-! # Typed heaps

A value *resolves* on a heap if the handle in it, should it hold one, is that of a live object of the
kind that the value promises.  A heap is `Typed` if every value on it resolves.

Programs only ever extend the heap (`Heap.Extends`): they allocate objects and change them in place, but
never free one or turn it into an object of another kind, so what has resolved goes on to.  A collection
frees objects, but what it keeps holds only handles that it keeps as well (`Heap.Typed.collect`).
-/

namespace TinyScript

/-! ## Values that resolve -/

/-- The values that an object holds. -/
def Object.values : Object → List Value
  | .binding value => [value]
  | .array elements => elements.toList
  | .record fields => fields.values

theorem Object.handles_eq (o : Object) : o.handles = o.values.filterMap (·.handle?) := by
  cases o with
  | binding value => cases held : value.handle? <;> simp [Object.handles, Object.values, held]
  | array elements => rfl
  | record fields => rfl

/-- A handle of an array is that of a live array, and one of an object is that of a live record. -/
def Value.Resolves (h : Heap Object) : Value → Prop
  | .array handle => ∃ elements, h.get? handle = some (.array elements)
  | .object handle => ∃ fields, h.get? handle = some (.record fields)
  | _ => True

theorem Value.resolves_undefined (h : Heap Object) : Value.undefined.Resolves h := trivial

theorem Value.resolves_headD {h : Heap Object} {values : List Value}
    (all : ∀ v ∈ values, v.Resolves h) : (values.headD .undefined).Resolves h := by
  cases values with
  | nil => exact Value.resolves_undefined h
  | cons v rest => exact all v (by simp)

/-- What resolves on a heap resolves on every other on which its handle has the same object. -/
theorem Value.Resolves.of_get?_eq {h k : Heap Object} {v : Value} (resolves : v.Resolves h)
    (same : ∀ a, v.handle? = some a → k.get? a = h.get? a) : v.Resolves k := by
  cases v with
  | array handle =>
    obtain ⟨elements, found⟩ := resolves
    exact ⟨elements, (same handle rfl).trans found⟩
  | object handle =>
    obtain ⟨fields, found⟩ := resolves
    exact ⟨fields, (same handle rfl).trans found⟩
  | _ => trivial

/-- Objects of the same kind. -/
inductive Object.Alike : Object → Object → Prop where
  | binding (v w : Value) : Alike (.binding v) (.binding w)
  | array (xs ys : Array Value) : Alike (.array xs) (.array ys)
  | record (fields others : NameMap Value) : Alike (.record fields) (.record others)

theorem Object.Alike.refl (o : Object) : o.Alike o := by
  cases o <;> constructor

theorem Object.Alike.trans {o p q : Object} (first : o.Alike p) (second : p.Alike q) :
    o.Alike q := by
  cases first <;> cases second <;> constructor

/-- Every object is still there, and still of its kind. -/
def Heap.Extends (h k : Heap Object) : Prop :=
  ∀ a o, h.get? a = some o → ∃ p, k.get? a = some p ∧ o.Alike p

namespace Heap.Extends

variable {h k l : Heap Object}

theorem refl (h : Heap Object) : h.Extends h := fun _ o found => ⟨o, found, .refl o⟩

theorem trans (first : h.Extends k) (second : k.Extends l) : h.Extends l := by
  intro a o found
  obtain ⟨p, foundP, alike⟩ := first a o found
  obtain ⟨q, foundQ, alike'⟩ := second a p foundP
  exact ⟨q, foundQ, alike.trans alike'⟩

theorem resolves (more : h.Extends k) {v : Value} (resolves : v.Resolves h) : v.Resolves k := by
  cases v with
  | array handle =>
    obtain ⟨elements, found⟩ := resolves
    obtain ⟨p, found', alike⟩ := more handle _ found
    cases alike with
    | array _ ys => exact ⟨ys, found'⟩
  | object handle =>
    obtain ⟨fields, found⟩ := resolves
    obtain ⟨p, found', alike⟩ := more handle _ found
    cases alike with
    | record _ others => exact ⟨others, found'⟩
  | _ => trivial

theorem bound (more : h.Extends k) (wellFormed : k.WellFormed) {scope : Scope}
    (bound : scope.Bound h) : scope.Bound k where
  wellFormed := wellFormed
  live name cell found := by
    obtain ⟨value, here⟩ := bound.live name cell found
    obtain ⟨p, here', alike⟩ := more cell _ here
    cases alike with
    | binding _ w => exact ⟨w, here'⟩
  apart := bound.apart

theorem allocate (exact : h.FreeListExact) (o : Object) : h.Extends (h.allocate o).2 := by
  intro a p found
  refine ⟨p, ?_, .refl p⟩
  rw [get?_allocate exact, if_neg, found]
  rintro rfl
  rw [get?_allocate_fst exact] at found
  cases found

theorem update (a : Handle) {f : Object → Object} (change : ∀ o, h.get? a = some o → o.Alike (f o)) :
    h.Extends (h.update a f) := by
  intro b o found
  rw [get?_update]
  split
  · next here =>
    rw [here] at found
    exact ⟨f o, by rw [found, Option.map_some], change o found⟩
  · exact ⟨o, found, .refl o⟩

end Heap.Extends

/-! ## Results -/

/-- An array argument is stale. -/
def ExecutionError.IsFreedArray : ExecutionError → Prop
  | .argument _ .freedArray => True
  | _ => False

/-- The result, if there is one, has a property, and no array has been freed if there is none. -/
def Safe {α : Type} (post : α → Prop) : Except ExecutionError α → Prop
  | .ok a => post a
  | .error error => ¬error.IsFreedArray

namespace Safe

variable {α β : Type} {mid : α → Prop} {post : β → Prop} {x : Except ExecutionError α}

theorem bind {f : α → Except ExecutionError β} (first : Safe mid x)
    (next : ∀ a, mid a → Safe post (f a)) : Safe post (x >>= f) := by
  cases x with
  | ok a => exact next a first
  | error e => exact first

theorem map {f : α → β} (first : Safe mid x) (next : ∀ a, mid a → post (f a)) :
    Safe post (x.map f) := by
  cases x with
  | ok a => exact next a first
  | error e => exact first

end Safe

/-! ## Typed heaps -/

/-- Every value on the heap resolves. -/
structure Heap.Typed (h : Heap Object) : Prop where
  wellFormed : h.WellFormed
  values : ∀ a o, h.get? a = some o → ∀ v ∈ o.values, v.Resolves h

namespace Heap.Typed

variable {h : Heap Object}

theorem empty : (Heap.empty : Heap Object).Typed where
  wellFormed := wellFormed_empty
  values a o found := by
    simp [Heap.get?, Heap.empty] at found

theorem allocate (typed : h.Typed) {o : Object} (all : ∀ v ∈ o.values, v.Resolves h) :
    (h.allocate o).2.Typed where
  wellFormed := typed.wellFormed.allocate o
  values a p found v member := by
    have more := Extends.allocate typed.wellFormed.toFreeListExact o
    rw [get?_allocate typed.wellFormed.toFreeListExact] at found
    split at found
    · cases found
      exact more.resolves (all v member)
    · exact more.resolves (typed.values a p found v member)

theorem get?_allocate_self (typed : h.Typed) (o : Object) :
    (h.allocate o).2.get? (h.allocate o).1 = some o := by
  rw [get?_allocate typed.wellFormed.toFreeListExact, if_pos rfl]

theorem update (typed : h.Typed) (a : Handle) {f : Object → Object}
    (change : ∀ o, h.get? a = some o → o.Alike (f o))
    (all : ∀ o, h.get? a = some o → ∀ v ∈ (f o).values, v.Resolves h) : (h.update a f).Typed where
  wellFormed := typed.wellFormed.update a f
  values b p found v member := by
    have more := Extends.update a change
    rw [get?_update] at found
    split at found
    · obtain ⟨o, here, rfl⟩ := Option.map_eq_some_iff.1 found
      exact more.resolves (all o here v member)
    · exact more.resolves (typed.values b p found v member)

/-- What is kept holds only handles that are kept. -/
theorem collect (typed : h.Typed) (roots : List Handle) : (h.collect roots).2.Typed where
  wellFormed := typed.wellFormed.collect roots
  values a o found v member := by
    obtain ⟨here, reached⟩ := (get?_collect typed.wellFormed roots a o).1 found
    have resolves := typed.values a o here v member
    refine resolves.of_get?_eq fun b held => ?_
    have edge : b ∈ o.handles := by
      rw [Object.handles_eq]
      exact List.mem_filterMap.2 ⟨v, member, held⟩
    have alive : h.contains b = true := by
      cases v with
      | array handle =>
        cases held
        obtain ⟨elements, there⟩ := resolves
        exact contains_iff.2 ⟨_, there⟩
      | object handle =>
        cases held
        obtain ⟨fields, there⟩ := resolves
        exact contains_iff.2 ⟨_, there⟩
      | _ => cases held
    exact get?_collect_of_reaches typed.wellFormed (reached.step here edge alive)

/-! ## Reading the heap -/

theorem readProperty (typed : h.Typed) (receiver : Value) (property : String) :
    Safe (·.Resolves h) (readProperty h receiver property) := by
  unfold TinyScript.readProperty
  split
  · next handle =>
    split
    · next fields here =>
      cases found : fields.get? property with
      | none => trivial
      | some value => exact typed.values handle _ here value (NameMap.mem_values_of_get? found)
    · trivial
  · split
    · split <;> trivial
    · trivial
  · split <;> trivial
  · exact id

end Heap.Typed

theorem BinaryOp.onScalars_safe (op : BinaryOp) (a b : Scalar) :
    Safe (fun _ => True) (op.onScalars a b) := by
  unfold BinaryOp.onScalars
  repeat' split
  all_goals simp [Safe, ExecutionError.IsFreedArray]

/-- Operators make scalars. -/
theorem BinaryOp.onValues_safe (op : BinaryOp) (h : Heap Object) (left right : Value) :
    Safe (·.Resolves h) (op.onValues h left right) := by
  unfold BinaryOp.onValues
  split
  · exact (op.onScalars_safe _ _).map fun _ _ => trivial
  · split
    · trivial
    · trivial
    · split
      · trivial
      · exact id
    · exact id

/-! ## Names -/

/-- A cell that a scope of a typed heap finds holds a value, and the value resolves. -/
theorem Heap.Typed.cellValue? {h : Heap Object} (typed : h.Typed) {scope : Scope}
    (bound : scope.Bound h) {name : String} {cell : Handle} (found : scope.get? name = some cell) :
    ∃ value, Env.cellValue? h cell = some value ∧ value.Resolves h := by
  obtain ⟨value, here⟩ := bound.live name cell found
  refine ⟨value, by simp only [Env.cellValue?, here], ?_⟩
  exact typed.values cell _ here value (by simp [Object.values])

theorem Env.resolve?_eq_some {env : Env} {name : String} {cell : Handle}
    (found : env.resolve? name = some cell) : ∃ scope ∈ env, scope.get? name = some cell := by
  obtain ⟨scope, member, here⟩ := List.exists_of_findSome?_eq_some found
  exact ⟨scope, member, here⟩

/-- A name that some scope binds has a value, and the value resolves. -/
theorem Heap.Typed.lookup? {h : Heap Object} (typed : h.Typed) {env : Env}
    (bound : ∀ scope ∈ env, scope.Bound h) {name : String} {cell : Handle}
    (found : env.resolve? name = some cell) :
    ∃ value, env.lookup? h name = some value ∧ value.Resolves h := by
  obtain ⟨scope, member, here⟩ := Env.resolve?_eq_some found
  simpa only [Env.lookup?, found, Option.bind_some] using typed.cellValue? (bound scope member) here

theorem Heap.Typed.resolves_of_lookup? {h : Heap Object} (typed : h.Typed) {env : Env}
    (bound : ∀ scope ∈ env, scope.Bound h) {name : String} {value : Value}
    (found : env.lookup? h name = some value) : value.Resolves h := by
  obtain ⟨cell, here, _⟩ := Option.bind_eq_some_iff.1 found
  obtain ⟨value', found', resolves⟩ := typed.lookup? bound here
  rw [found] at found'
  cases found'
  exact resolves

/-- Parameters are bound in a scope of their own. -/
theorem Heap.Typed.defineAll {h : Heap Object} (typed : h.Typed) {scope : Scope}
    (bound : scope.Bound h) (names : List String) {values : List Value}
    (all : ∀ v ∈ values, v.Resolves h) :
    (scope.defineAll h names values).2.Typed ∧ h.Extends (scope.defineAll h names values).2 ∧
      (scope.defineAll h names values).1.Bound (scope.defineAll h names values).2 := by
  induction names generalizing scope h values with
  | nil => exact ⟨typed, .refl h, bound⟩
  | cons name names ih =>
    have first : ∀ v ∈ (Object.binding (values.headD .undefined)).values, v.Resolves h := by
      intro v member
      rw [List.mem_singleton.1 member]
      exact Value.resolves_headD all
    have more := Extends.allocate typed.wellFormed.toFreeListExact
      (.binding (values.headD .undefined))
    have others : ∀ v ∈ values.tail, v.Resolves (scope.define h name (values.headD .undefined)).2 :=
      fun v member => more.resolves (all v (List.mem_of_mem_tail member))
    obtain ⟨typed', further, bound'⟩ := ih (typed.allocate first) (bound.define name _) others
    exact ⟨typed', more.trans further, bound'⟩

end TinyScript
