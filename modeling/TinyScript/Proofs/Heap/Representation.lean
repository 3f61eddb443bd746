import Mathlib.Data.List.Nodup
import Mathlib.Data.List.Perm.Basic
import Mathlib.Data.List.Range
import TinyScript.Heap.Collect

/-! # The representation invariant of the heap

A heap is *well formed* when its free list names exactly the slots without an object, each once, and
no slot carries a flag.  `allocate` and `update` keep it so, and for a well-formed heap they are what
their names say about the view `get?`: `allocate` changes the object of one handle, which named
nothing before, and `update` changes the object of the handle that it is given.

`liveHandles` lists the handles that resolve; there are `liveCount` of them.
-/

namespace TinyScript

namespace Heap

variable {α : Type}

/-! ## The view of a heap -/

theorem get?_eq_some {h : Heap α} {a : Handle} {object : α} :
    h.get? a = some object ↔
      ∃ s, h.slots[a.index]? = some s ∧ s.generation = a.generation ∧ s.value = some object := by
  simp only [get?, Option.bind_eq_some_iff, Slot.at?]
  constructor
  · rintro ⟨s, atIndex, found⟩
    split at found
    · next same => exact ⟨s, atIndex, same, found⟩
    · cases found
  · rintro ⟨s, atIndex, same, found⟩
    exact ⟨s, atIndex, by rw [if_pos same]; exact found⟩

theorem contains_iff {h : Heap α} {a : Handle} :
    h.contains a = true ↔ ∃ object, h.get? a = some object := by
  simp [contains, Option.isSome_iff_exists]

/-- A slot has one generation at a time, so handles of one slot that both resolve are equal. -/
theorem eq_of_get?_of_index_eq {h : Heap α} {a b : Handle} {x y : α}
    (left : h.get? a = some x) (right : h.get? b = some y) (same : a.index = b.index) : a = b := by
  obtain ⟨s, atA, genA, _⟩ := get?_eq_some.1 left
  obtain ⟨t, atB, genB, _⟩ := get?_eq_some.1 right
  rw [same, atB, Option.some.injEq] at atA
  subst atA
  cases a
  cases b
  simp_all

theorem index_lt_of_get? {h : Heap α} {a : Handle} {object : α} (found : h.get? a = some object) :
    a.index < h.capacity := by
  obtain ⟨s, atIndex, _⟩ := get?_eq_some.1 found
  exact (Array.getElem?_eq_some_iff.1 atIndex).1

/-! ## The invariant -/

/-- The free list names the slots without an object, each once. -/
structure FreeListExact (h : Heap α) : Prop where
  nodup : h.free.Nodup
  mem_iff : ∀ i, i ∈ h.free ↔ ∃ s, h.slots[i]? = some s ∧ s.value = none

/-- What holds of every heap between two operations. -/
structure WellFormed (h : Heap α) : Prop extends FreeListExact h where
  unmarked : ∀ (i : Nat) (s : Slot α), h.slots[i]? = some s → s.marked = false

theorem wellFormed_empty : (empty : Heap α).WellFormed where
  nodup := List.nodup_nil
  mem_iff := by simp [empty]
  unmarked := by simp [empty]

/-! ## Allocation -/

theorem allocate_of_full {h : Heap α} (value : α) (full : h.free = []) :
    h.allocate value =
      (⟨h.slots.size, 0⟩, { h with slots := h.slots.push ⟨0, false, some value⟩ }) := by
  simp only [allocate, full]

/-- A free slot is used in the generation that it has. -/
theorem allocate_of_free {h : Heap α} (value : α) {index : Nat} {free : List Nat} {s : Slot α}
    (rest : h.free = index :: free) (atIndex : h.slots[index]? = some s) :
    h.allocate value = (⟨index, s.generation⟩,
      { h with slots := h.slots.setIfInBounds index ⟨s.generation, false, some value⟩, free }) := by
  simp only [allocate, rest, atIndex, Option.map_some, Option.getD_some]

/-- The slot that the next object goes into is free or does not exist yet. -/
theorem get?_allocate_fst {h : Heap α} (exact : h.FreeListExact) (value : α) :
    h.get? (h.allocate value).1 = none := by
  cases rest : h.free with
  | nil => simp [allocate_of_full value rest, get?]
  | cons index free =>
    obtain ⟨s, atIndex, noValue⟩ := (exact.mem_iff index).1 (by simp [rest])
    simp [allocate_of_free value rest atIndex, get?, atIndex, Slot.at?, noValue]

/-- Allocation changes the object of one handle. -/
theorem get?_allocate {h : Heap α} (exact : h.FreeListExact) (value : α) (a : Handle) :
    (h.allocate value).2.get? a = if a = (h.allocate value).1 then some value else h.get? a := by
  obtain ⟨index, generation⟩ := a
  cases rest : h.free with
  | nil =>
    rw [allocate_of_full value rest]
    simp only [get?, Handle.mk.injEq, Array.getElem?_push]
    by_cases last : index = h.slots.size
    · subst last
      by_cases zero : generation = 0 <;> simp [Slot.at?, zero, eq_comm]
    · simp [last]
  | cons first free =>
    obtain ⟨s, atFirst, noValue⟩ := (exact.mem_iff first).1 (by simp [rest])
    have bound := (Array.getElem?_eq_some_iff.1 atFirst).1
    rw [allocate_of_free value rest atFirst]
    simp only [get?, Handle.mk.injEq, Array.getElem?_setIfInBounds]
    by_cases here : index = first
    · subst here
      by_cases same : s.generation = generation
      · simp [Slot.at?, same, bound]
      · rw [atFirst, if_pos rfl, if_pos bound, if_neg (fun both => same both.2.symm)]
        simp [Slot.at?, same]
    · simp [Ne.symm here, here]

theorem get?_allocate_new {h : Heap α} (exact : h.FreeListExact) (value : α) :
    (h.allocate value).2.get? (h.allocate value).1 = some value := by
  rw [get?_allocate exact, if_pos rfl]

theorem WellFormed.allocate {h : Heap α} (wf : h.WellFormed) (value : α) :
    (h.allocate value).2.WellFormed := by
  cases rest : h.free with
  | nil =>
    rw [allocate_of_full value rest]
    refine ⟨⟨wf.nodup, fun i => ?_⟩, fun i s found => ?_⟩
    · rw [wf.mem_iff]
      simp only [Array.getElem?_push]
      split
      · next last => simp [last]
      · rfl
    · simp only [Array.getElem?_push] at found
      split at found
      · cases found; rfl
      · exact wf.unmarked i s found
  | cons first free =>
    obtain ⟨old, atFirst, noValue⟩ := (wf.mem_iff first).1 (by simp [rest])
    have bound := (Array.getElem?_eq_some_iff.1 atFirst).1
    have nodup := wf.nodup
    rw [rest, List.nodup_cons] at nodup
    rw [allocate_of_free value rest atFirst]
    refine ⟨⟨nodup.2, fun i => ?_⟩, fun i s found => ?_⟩
    · simp only [Array.getElem?_setIfInBounds]
      by_cases here : first = i
      · subst here
        simp [nodup.1, bound]
      · rw [if_neg here, ← wf.mem_iff i, rest, List.mem_cons]
        simp [Ne.symm here]
    · simp only [Array.getElem?_setIfInBounds] at found
      by_cases here : first = i
      · rw [if_pos here, if_pos bound] at found
        cases found
        rfl
      · rw [if_neg here] at found
        exact wf.unmarked i s found

/-! ## Updates -/

/-- An update changes the object of the handle that it is given. -/
theorem get?_update (h : Heap α) (a : Handle) (f : α → α) (b : Handle) :
    (h.update a f).get? b = if b = a then (h.get? a).map f else h.get? b := by
  obtain ⟨index, generation⟩ := a
  obtain ⟨index', generation'⟩ := b
  simp only [get?, update, Array.getElem?_modify, Handle.mk.injEq]
  by_cases here : index = index'
  · subst here
    simp only [if_true, true_and]
    cases h.slots[index]? with
    | none => simp
    | some s =>
      by_cases mine : s.generation = generation
      · subst mine
        by_cases same : s.generation = generation'
        · simp [Slot.at?, same]
        · simp [Slot.at?, same, Ne.symm same]
      · by_cases same : generation' = generation
        · subst same; simp [Slot.at?, mine]
        · simp [Slot.at?, mine, same]
  · simp [here, Ne.symm here]

theorem get?_update_of_ne (h : Heap α) {a b : Handle} (f : α → α) (other : b ≠ a) :
    (h.update a f).get? b = h.get? b := by
  rw [get?_update, if_neg other]

theorem WellFormed.update {h : Heap α} (wf : h.WellFormed) (a : Handle) (f : α → α) :
    (h.update a f).WellFormed := by
  refine ⟨⟨wf.nodup, fun i => ?_⟩, fun i s found => ?_⟩
  · rw [show (h.update a f).free = h.free from rfl, wf.mem_iff]
    simp only [Heap.update, Array.getElem?_modify]
    split
    · cases h.slots[i]? with
      | none => simp
      | some s =>
        simp only [Option.map_some, Option.some.injEq, exists_eq_left']
        split <;> simp
    · rfl
  · simp only [Heap.update, Array.getElem?_modify] at found
    split at found
    · obtain ⟨old, atIndex, rfl⟩ := Option.map_eq_some_iff.1 found
      have unmarked := wf.unmarked i old atIndex
      split <;> exact unmarked
    · exact wf.unmarked i s found

/-! ## Live objects -/

/-- The slot with the given index holds an object. -/
def isOccupied (h : Heap α) (index : Nat) : Bool := h.slots[index]?.any (·.value.isSome)

/-- The indices of the slots that hold an object, in order. -/
def occupied (h : Heap α) : List Nat := (List.range h.slots.size).filter h.isOccupied

/-- An object that is there has a handle that resolves to it. -/
theorem isOccupied_iff {h : Heap α} {i : Nat} :
    h.isOccupied i = true ↔ ∃ a, a.index = i ∧ h.contains a = true := by
  simp only [contains_iff, get?_eq_some, isOccupied]
  constructor
  · intro some
    obtain ⟨s, atIndex, hasValue⟩ := (Option.any_eq_true _ _).1 some
    obtain ⟨object, hasValue⟩ := Option.isSome_iff_exists.1 hasValue
    exact ⟨⟨i, s.generation⟩, rfl, object, s, atIndex, rfl, hasValue⟩
  · rintro ⟨a, rfl, object, s, atIndex, _, hasValue⟩
    simp [atIndex, hasValue]

theorem length_occupied {h : Heap α} (exact : h.FreeListExact) :
    h.occupied.length = h.liveCount := by
  have parts : h.occupied.length + ((List.range h.slots.size).filter (!h.isOccupied ·)).length =
      h.slots.size := by
    simpa [occupied] using List.length_eq_length_filter_add (l := List.range h.slots.size)
      h.isOccupied |>.symm
  have free : h.free.Perm ((List.range h.slots.size).filter (!h.isOccupied ·)) := by
    refine (List.perm_ext_iff_of_nodup exact.nodup (List.nodup_range.filter _)).2 fun i => ?_
    rw [exact.mem_iff]
    simp only [List.mem_filter, List.mem_range, isOccupied]
    constructor
    · rintro ⟨s, atIndex, noValue⟩
      exact ⟨(Array.getElem?_eq_some_iff.1 atIndex).1, by simp [atIndex, noValue]⟩
    · rintro ⟨bound, vacant⟩
      refine ⟨h.slots[i], Array.getElem?_eq_getElem bound, ?_⟩
      simpa [Array.getElem?_eq_getElem bound] using vacant
  rw [liveCount, free.length_eq]
  omega

/-- The handle of the object that a slot holds. -/
def handleAt? (h : Heap α) (index : Nat) : Option Handle :=
  h.slots[index]?.bind fun s => if s.value.isSome then some ⟨index, s.generation⟩ else none

/-- The handles that resolve, in the order of the slots. -/
def liveHandles (h : Heap α) : List Handle := (List.range h.slots.size).filterMap h.handleAt?

theorem handleAt?_eq_some {h : Heap α} {i : Nat} {a : Handle} :
    h.handleAt? i = some a ↔ a.index = i ∧ h.contains a = true := by
  simp only [handleAt?, Option.bind_eq_some_iff, contains_iff, get?_eq_some]
  constructor
  · rintro ⟨s, atIndex, found⟩
    split at found
    · next some =>
      cases found
      obtain ⟨object, hasValue⟩ := Option.isSome_iff_exists.1 some
      exact ⟨rfl, object, s, atIndex, rfl, hasValue⟩
    · cases found
  · rintro ⟨rfl, object, s, atIndex, same, hasValue⟩
    exact ⟨s, atIndex, by simp [hasValue, same]⟩

theorem mem_liveHandles {h : Heap α} {a : Handle} :
    a ∈ h.liveHandles ↔ h.contains a = true := by
  simp only [liveHandles, List.mem_filterMap, List.mem_range, handleAt?_eq_some]
  constructor
  · rintro ⟨i, _, _, live⟩
    exact live
  · intro live
    obtain ⟨object, found⟩ := contains_iff.1 live
    exact ⟨a.index, index_lt_of_get? found, rfl, live⟩

theorem nodup_liveHandles (h : Heap α) : h.liveHandles.Nodup := by
  refine List.Nodup.filterMap (fun i j a atI atJ => ?_) List.nodup_range
  rw [← (handleAt?_eq_some.1 atI).1, ← (handleAt?_eq_some.1 atJ).1]

theorem length_liveHandles {h : Heap α} (exact : h.FreeListExact) :
    h.liveHandles.length = h.liveCount := by
  rw [← length_occupied exact, liveHandles, occupied, List.length_filterMap_eq_countP,
    List.countP_eq_length_filter]
  congr 2
  funext i
  simp only [handleAt?, isOccupied]
  cases h.slots[i]? with
  | none => rfl
  | some s => cases hasValue : s.value <;> simp [hasValue]

end Heap

end TinyScript
