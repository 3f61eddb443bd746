import TinyScript.Proofs.Heap.Collection
import TinyScript.Proofs.NameMap
import TinyScript.Scope

/-! # Scopes and the heap

A scope is `Bound` if its names have cells of their own, all of them on the heap.  Binding a name,
overwriting the value of one and collecting garbage keep it so, and change what is looked up under
that one name or under none.
-/

namespace TinyScript

namespace Scope

/-- Names with live cells, no two of which share one. -/
structure Bound (scope : Scope) (h : Heap Object) : Prop where
  wellFormed : h.WellFormed
  live : ∀ name cell, scope.get? name = some cell → ∃ value, h.get? cell = some (.binding value)
  apart : ∀ name other cell, scope.get? name = some cell → scope.get? other = some cell →
    name = other

theorem bound_empty : Bound .empty .empty where
  wellFormed := Heap.wellFormed_empty
  live := by simp
  apart := by simp

theorem lookup?_eq (scope : Scope) (h : Heap Object) (name : String) :
    Env.lookup? [scope] h name = (scope.get? name).bind (Env.cellValue? h) := by
  simp only [Env.lookup?, Env.resolve?, List.findSome?_cons, List.findSome?_nil]
  cases scope.get? name <;> rfl

namespace Bound

variable {scope : Scope} {h : Heap Object} {name : String} {cell : Handle}

/-! ## Binding a name -/

theorem define (bound : scope.Bound h) (name : String) (value : Value) :
    Bound (scope.define h name value).1 (scope.define h name value).2 := by
  have exact := bound.wellFormed.toFreeListExact
  have fresh := Heap.get?_allocate_fst exact (.binding value)
  have unused (other : String) : scope.get? other ≠ some (h.allocate (.binding value)).1 := by
    intro found
    obtain ⟨old, here⟩ := bound.live other _ found
    rw [fresh] at here
    cases here
  refine ⟨bound.wellFormed.allocate _, fun key cell found => ?_, fun key other cell first second => ?_⟩
  · simp only [Scope.define, NameMap.get?_insert] at found ⊢
    rw [Heap.get?_allocate exact]
    split at found
    · cases found
      exact ⟨value, if_pos rfl⟩
    · obtain ⟨old, here⟩ := bound.live key cell found
      refine ⟨old, ?_⟩
      rw [if_neg, here]
      rintro rfl
      exact unused key found
  · simp only [Scope.define, NameMap.get?_insert] at first second
    split at first
    · next eq =>
      split at second
      · next eq' => rw [eq, eq']
      · cases first
        exact absurd second (unused other)
    · split at second
      · cases second
        exact absurd first (unused key)
      · exact bound.apart key other cell first second

theorem lookup?_define (bound : scope.Bound h) (name : String) (value : Value) (key : String) :
    Env.lookup? [(scope.define h name value).1] (scope.define h name value).2 key =
      if key = name then some value else Env.lookup? [scope] h key := by
  have exact := bound.wellFormed.toFreeListExact
  rw [Scope.lookup?_eq, Scope.lookup?_eq]
  simp only [Scope.define, NameMap.get?_insert]
  split
  · simp [Env.cellValue?, Heap.get?_allocate exact]
  · cases found : scope.get? key with
    | none => rfl
    | some cell =>
      obtain ⟨old, here⟩ := bound.live key cell found
      have other : cell ≠ (h.allocate (.binding value)).1 := by
        rintro rfl
        rw [Heap.get?_allocate_fst exact] at here
        cases here
      simp only [Option.bind_some, Env.cellValue?, Heap.get?_allocate exact, if_neg other]

/-! ## Overwriting a value -/

theorem update (bound : scope.Bound h) (cell : Handle) (value : Value) :
    scope.Bound (h.update cell fun _ => .binding value) := by
  refine ⟨bound.wellFormed.update _ _, fun name other found => ?_, bound.apart⟩
  obtain ⟨old, here⟩ := bound.live name other found
  rw [Heap.get?_update]
  split
  · next eq =>
    rw [← eq, here]
    exact ⟨value, rfl⟩
  · exact ⟨old, here⟩

theorem lookup?_update (bound : scope.Bound h) (found : scope.get? name = some cell)
    (value : Value) (key : String) :
    Env.lookup? [scope] (h.update cell fun _ => .binding value) key =
      if key = name then some value else Env.lookup? [scope] h key := by
  obtain ⟨old, here⟩ := bound.live name cell found
  rw [Scope.lookup?_eq, Scope.lookup?_eq]
  split
  · next eq => simp [eq, found, Env.cellValue?, Heap.get?_update, here]
  · next differs =>
    cases found' : scope.get? key with
    | none => rfl
    | some other =>
      have distinct : other ≠ cell := by
        rintro rfl
        exact differs (bound.apart key name other found' found)
      simp only [Option.bind_some, Env.cellValue?, Heap.get?_update_of_ne h _ distinct]

/-- A name that is bound has a cell, and only then. -/
theorem cell?_eq_some (bound : scope.Bound h) :
    Env.cell? [scope] h name = some cell ↔ scope.get? name = some cell := by
  simp only [Env.cell?, Env.resolve?, List.findSome?_cons, List.findSome?_nil]
  cases found : scope.get? name with
  | none => simp
  | some other =>
    obtain ⟨value, here⟩ := bound.live name other found
    simp [Env.cellValue?, here]

/-! ## Collecting garbage -/

theorem get?_collect (bound : scope.Bound h) (found : scope.get? name = some cell) :
    (Env.collect [scope] h).2.get? cell = h.get? cell := by
  obtain ⟨value, here⟩ := bound.live name cell found
  refine Heap.get?_collect_of_reaches bound.wellFormed (.root ?_ (Heap.contains_iff.2 ⟨_, here⟩))
  simpa [Env.roots] using NameMap.mem_values_of_get? found

theorem collect (bound : scope.Bound h) : scope.Bound (Env.collect [scope] h).2 where
  wellFormed := bound.wellFormed.collect _
  live name cell found := by
    rw [bound.get?_collect found]
    exact bound.live name cell found
  apart := bound.apart

theorem lookup?_collect (bound : scope.Bound h) (name : String) :
    Env.lookup? [scope] (Env.collect [scope] h).2 name = Env.lookup? [scope] h name := by
  rw [Scope.lookup?_eq, Scope.lookup?_eq]
  cases found : scope.get? name with
  | none => rfl
  | some cell => simp only [Option.bind_some, Env.cellValue?, bound.get?_collect found]

end Bound

end Scope

end TinyScript
