import Mathlib.Algebra.Group.Nat.Defs
import Mathlib.Data.List.Nodup
import TinyScript.Proofs.Heap.Collection

/-! # The history of a heap

What holds of a heap after any operations, and of a handle after any operations since it was made.

* `ofOps_representation`: the free list, the flags and the counts are right in every heap that
  operations lead to, and `allocate` does no harm there;
* `timesFreed`: how often operations free a slot;
* `generation_run`: the generation of a slot counts how often the slot has been freed, modulo 2³²;
* `handle_lifetime`: a handle has its object until the slot is freed, and nothing from then on until the
  slot has been freed 2³² times and is used again.

The generation of a slot that does not exist yet is the one that it will begin with, so that
`generation_run` needs no case for slots that are made on the way.
-/

namespace TinyScript

namespace Heap

variable {α : Type} {h : Heap α} {a : Handle} {object : α}

/-! ## Counts -/

/-- The slots that hold an object, counted in the row itself. -/
theorem length_occupied_eq_countP (h : Heap α) :
    h.occupied.length = h.slots.countP (·.value.isSome) := by
  have slots : (List.range h.slots.size).map (h.slots[·]?) = h.slots.toList.map some := by
    refine List.ext_getElem (by simp) fun i left right => ?_
    have bound : i < h.slots.size := by simpa using left
    simp [bound]
  have occupied : h.isOccupied = (·.any (·.value.isSome)) ∘ (h.slots[·]?) := rfl
  rw [Heap.occupied, ← List.countP_eq_length_filter, occupied, ← List.countP_map, slots, List.countP_map,
    ← Array.countP_toList]
  rfl

theorem index_allocate_of_free (value : α) {index : Nat} {free : List Nat}
    (rest : h.free = index :: free) : (h.allocate value).1.index = index := by
  simp only [allocate, rest]

theorem free_length_le (exact : h.FreeListExact) : h.free.length ≤ h.slots.size := by
  have inside : h.free ⊆ List.range h.slots.size := by
    intro i member
    obtain ⟨s, atIndex, _⟩ := (exact.mem_iff i).1 member
    exact List.mem_range.2 (Array.getElem?_eq_some_iff.1 atIndex).1
  simpa using (exact.nodup.subperm inside).length_le

/-! ## Generations -/

/-- The generation of a slot, also of one that does not exist yet. -/
def generation (h : Heap α) (i : Nat) : UInt32 := (h.slots[i]?.map (·.generation)).getD 0

theorem generation_of_get? (found : h.get? a = some object) : h.generation a.index = a.generation := by
  obtain ⟨s, atIndex, same, _⟩ := get?_eq_some.1 found
  simp [generation, atIndex, same]

theorem get?_of_generation_ne (passed : h.generation a.index ≠ a.generation) : h.get? a = none := by
  cases found : h.get? a with
  | none => rfl
  | some object => exact absurd (generation_of_get? found) passed

/-- A new handle has the generation that its slot is in. -/
theorem generation_allocate_fst (h : Heap α) (value : α) :
    (h.allocate value).1.generation = h.generation (h.allocate value).1.index := by
  cases rest : h.free with
  | nil => simp [allocate_of_full value rest, generation]
  | cons index free => simp [allocate, rest, generation]

theorem generation_allocate (exact : h.FreeListExact) (value : α) (i : Nat) :
    (h.allocate value).2.generation i = h.generation i := by
  cases rest : h.free with
  | nil =>
    simp only [allocate_of_full value rest, generation, Array.getElem?_push]
    split
    · next last => simp [last]
    · rfl
  | cons index free =>
    obtain ⟨s, atIndex, _⟩ := (exact.mem_iff index).1 (by simp [rest])
    have bound := (Array.getElem?_eq_some_iff.1 atIndex).1
    simp only [allocate_of_free value rest atIndex, generation, Array.getElem?_setIfInBounds]
    by_cases here : index = i
    · rw [if_pos here, if_pos bound, ← here, atIndex]
      rfl
    · rw [if_neg here]

theorem generation_update (h : Heap α) (a : Handle) (f : α → α) (i : Nat) :
    (h.update a f).generation i = h.generation i := by
  simp only [generation, update, Array.getElem?_modify]
  split
  · cases h.slots[i]? with
    | none => rfl
    | some s =>
      simp only [Option.map_some]
      split <;> rfl
  · rfl

theorem isOccupied_allocate (exact : h.FreeListExact) (value : α) {i : Nat}
    (occupied : h.isOccupied i = true) : (h.allocate value).2.isOccupied i = true := by
  obtain ⟨a, rfl, live⟩ := isOccupied_iff.1 occupied
  obtain ⟨object, found⟩ := contains_iff.1 live
  refine isOccupied_iff.2 ⟨a, rfl, ?_⟩
  rw [Heap.contains, get?_allocate exact]
  split
  · rfl
  · simp [found]

theorem isOccupied_update (h : Heap α) (a : Handle) (f : α → α) (i : Nat) :
    (h.update a f).isOccupied i = h.isOccupied i := by
  simp only [isOccupied, update, Array.getElem?_modify]
  split
  · cases h.slots[i]? with
    | none => rfl
    | some s =>
      simp only [Option.map_some, Option.any_some]
      split <;> simp
  · rfl

/-! ## What operations free -/

variable [HasHandles α]

/-- A collection sweeps the row of slots, each with the flag that marking has given it. -/
theorem getElem?_slots_collect (h : Heap α) (roots : List Handle) (i : Nat) :
    (h.collect roots).2.slots[i]? =
      h.slots[i]?.map fun s => Slot.swept { s with marked := (h.mark roots).2.isMarked i } := by
  change ((h.mark roots).2.slots.map Slot.swept)[i]? = _
  have same := (marking_mark h roots).slots i
  rw [Array.getElem?_map]
  cases left : h.slots[i]? with
  | none => simpa [left] using same
  | some s =>
    cases right : (h.mark roots).2.slots[i]? with
    | none => simp [left, right] at same
    | some t =>
      have cleared : t.generation = s.generation ∧ t.value = s.value := by
        simpa [left, right, Slot.cleared] using same
      have flagged : { s with marked := (h.mark roots).2.isMarked i } = t := by
        simp [isMarked, right, ← cleared.1, ← cleared.2]
      simp only [Option.map_some, flagged]

/-- The operation frees the object that a slot holds. -/
def frees (h : Heap α) (op : Op α) (i : Nat) : Bool := h.isOccupied i && !(h.after op).isOccupied i

/-- Whenever a slot is freed it goes on to the next generation, and only then. -/
theorem generation_after (wf : h.WellFormed) (op : Op α) (i : Nat) :
    (h.after op).generation i = h.generation i + UInt32.ofNat (h.frees op i).toNat := by
  cases op with
  | allocate value =>
    have exact := wf.toFreeListExact
    have kept : h.frees (.allocate value) i = false := by
      cases occupied : h.isOccupied i with
      | false => simp [frees, occupied]
      | true => simp [frees, Heap.after, isOccupied_allocate exact value occupied]
    rw [kept]
    simp [Heap.after, generation_allocate exact]
  | update a f =>
    have kept : h.frees (.update a f) i = false := by
      simp [frees, Heap.after, isOccupied_update]
    rw [kept]
    simp [Heap.after, generation_update]
  | collect roots =>
    simp only [frees, Heap.after, isOccupied, generation, getElem?_slots_collect]
    cases h.slots[i]? with
    | none => rfl
    | some s =>
      obtain ⟨generation, flag, value⟩ := s
      cases value <;> cases (h.mark roots).2.isMarked i <;> simp [Slot.swept, Slot.isGarbage]

/-- How often operations free a slot. -/
def timesFreed (h : Heap α) (i : Nat) : List (Op α) → Nat
  | [] => 0
  | op :: ops => (h.frees op i).toNat + (h.after op).timesFreed i ops

theorem timesFreed_append (h : Heap α) (i : Nat) (ops later : List (Op α)) :
    h.timesFreed i (ops ++ later) =
      h.timesFreed i ops + (ops.foldl Heap.after h).timesFreed i later := by
  induction ops generalizing h with
  | nil => simp [timesFreed]
  | cons op ops ih => simp [timesFreed, ih, Nat.add_assoc]

/-- The generation of a slot counts how often the slot has been freed. -/
theorem generation_run (wf : h.WellFormed) (ops : List (Op α)) (i : Nat) :
    (ops.foldl Heap.after h).generation i = h.generation i + UInt32.ofNat (h.timesFreed i ops) := by
  induction ops generalizing h with
  | nil => simp [timesFreed]
  | cons op ops ih =>
    rw [List.foldl_cons, ih (wf.after op), generation_after wf, timesFreed, UInt32.ofNat_add,
      UInt32.add_assoc]

/-! ## Objects that are not freed -/

/-- What an operation makes of the object of a handle, as long as it does not free it. -/
def Op.changed (op : Op α) (a : Handle) (object : α) : α :=
  match op with
  | .update b f => if b = a then f object else object
  | _ => object

theorem get?_after (wf : h.WellFormed) {op : Op α} (found : h.get? a = some object)
    (kept : h.frees op a.index = false) : (h.after op).get? a = some (op.changed a object) := by
  cases op with
  | allocate value =>
    have exact := wf.toFreeListExact
    have other : a ≠ (h.allocate value).1 := by
      rintro rfl
      rw [get?_allocate_fst exact] at found
      cases found
    simp only [Heap.after, Op.changed, get?_allocate exact, if_neg other, found]
  | update b f =>
    simp only [Heap.after, Op.changed, get?_update]
    by_cases here : a = b
    · rw [if_pos here, if_pos here.symm, ← here, found, Option.map_some]
    · rw [if_neg here, if_neg (Ne.symm here), found]
  | collect roots =>
    have occupied : h.isOccupied a.index = true := isOccupied_iff.2 ⟨a, rfl, contains_iff.2 ⟨_, found⟩⟩
    have still : (h.collect roots).2.isOccupied a.index = true := by
      simpa [frees, occupied, Heap.after] using kept
    obtain ⟨b, sameIndex, live⟩ := isOccupied_iff.1 still
    obtain ⟨liveB, reached⟩ := (contains_collect wf roots b).1 live
    obtain ⟨other, foundB⟩ := contains_iff.1 liveB
    obtain rfl : b = a := eq_of_get?_of_index_eq foundB found sameIndex
    exact (get?_collect wf roots b object).2 ⟨found, reached⟩

theorem get?_run (wf : h.WellFormed) {ops : List (Op α)} (found : h.get? a = some object)
    (kept : h.timesFreed a.index ops = 0) :
    (ops.foldl Heap.after h).get? a =
      some (ops.foldl (fun object op => op.changed a object) object) := by
  induction ops generalizing h object with
  | nil => exact found
  | cons op ops ih =>
    simp only [timesFreed, Nat.add_eq_zero_iff, Bool.toNat_eq_zero] at kept
    exact ih (wf.after op) (get?_after wf found kept.1) kept.2

/-! ## Handles -/

/-- A word that is added to another leaves it as it is only if it is zero. -/
theorem add_ofNat_eq_self_iff (x : UInt32) (n : Nat) : x + UInt32.ofNat n = x ↔ 2 ^ 32 ∣ n := by
  have bound := x.toNat_lt
  rw [← UInt32.toNat_inj, UInt32.toNat_add, UInt32.toNat_ofNat']
  omega

/-- A handle has come back to the generation of its slot if and only if the slot has been freed a
multiple of 2³² times. -/
theorem generation_run_eq_iff (wf : h.WellFormed) (found : h.get? a = some object)
    (ops : List (Op α)) :
    (ops.foldl Heap.after h).generation a.index = a.generation ↔
      2 ^ 32 ∣ h.timesFreed a.index ops := by
  rw [generation_run wf, generation_of_get? found, add_ofNat_eq_self_iff]

theorem get?_run_of_freed (wf : h.WellFormed) {ops : List (Op α)} (found : h.get? a = some object)
    (freed : 0 < h.timesFreed a.index ops) (fewer : h.timesFreed a.index ops < 2 ^ 32) :
    (ops.foldl Heap.after h).get? a = none := by
  refine get?_of_generation_ne fun same => ?_
  have := Nat.le_of_dvd freed ((generation_run_eq_iff wf found ops).1 same)
  omega

/-- The slot of a handle is used again under the same handle exactly if it has been freed a multiple of
2³² times. -/
theorem allocate_run_eq_iff (wf : h.WellFormed) (found : h.get? a = some object)
    (ops : List (Op α)) (value : α) :
    ((ops.foldl Heap.after h).allocate value).1 = a ↔
      ((ops.foldl Heap.after h).allocate value).1.index = a.index ∧
        2 ^ 32 ∣ h.timesFreed a.index ops := by
  rw [← generation_run_eq_iff wf found]
  have new := generation_allocate_fst (ops.foldl Heap.after h) value
  constructor
  · intro same
    rw [same] at new
    exact ⟨by rw [same], new.symm⟩
  · rintro ⟨index, generation⟩
    rw [index, generation] at new
    exact congrArg₂ Handle.mk index new

/-- The handles that operations return, in order. -/
def allocated (h : Heap α) : List (Op α) → List Handle
  | [] => []
  | op :: ops =>
    match op with
    | .allocate value => (h.allocate value).1 :: (h.after op).allocated ops
    | _ => (h.after op).allocated ops

theorem exists_of_mem_allocated {ops : List (Op α)} (member : a ∈ h.allocated ops) :
    ∃ before value later, ops = before ++ .allocate value :: later ∧
      a = ((before.foldl Heap.after h).allocate value).1 := by
  induction ops generalizing h with
  | nil => simp [allocated] at member
  | cons op ops ih =>
    have later (rest : a ∈ (h.after op).allocated ops) :
        ∃ before value later, op :: ops = before ++ .allocate value :: later ∧
          a = ((before.foldl Heap.after h).allocate value).1 := by
      obtain ⟨before, value, later, rfl, same⟩ := ih rest
      exact ⟨op :: before, value, later, rfl, same⟩
    cases op with
    | allocate value =>
      simp only [allocated, List.mem_cons] at member
      rcases member with rfl | rest
      · exact ⟨[], value, ops, rfl, rfl⟩
      · exact later rest
    | update b f => exact later member
    | collect roots => exact later member

/-- The new handle is none that resolves, and no stale one whose slot has been freed fewer than 2³²
times. -/
theorem allocate_run_ne (wf : h.WellFormed) (found : h.get? a = some object) {ops : List (Op α)}
    (fewer : h.timesFreed a.index ops < 2 ^ 32) (value : α) :
    ((ops.foldl Heap.after h).allocate value).1 ≠ a := by
  intro same
  have never : h.timesFreed a.index ops = 0 :=
    Nat.eq_zero_of_dvd_of_lt ((allocate_run_eq_iff wf found ops value).1 same).2 fewer
  have vacant := get?_allocate_fst (wellFormed_foldl_after ops wf).toFreeListExact value
  rw [same, get?_run wf found never] at vacant
  cases vacant

theorem nodup_allocated (wf : h.WellFormed) {ops : List (Op α)}
    (fewer : ∀ i, h.timesFreed i ops < 2 ^ 32) : (h.allocated ops).Nodup := by
  induction ops generalizing h with
  | nil => exact List.nodup_nil
  | cons op ops ih =>
    have rest (i : Nat) : (h.after op).timesFreed i ops < 2 ^ 32 :=
      Nat.lt_of_le_of_lt (Nat.le_add_left _ _) (fewer i)
    cases op with
    | allocate value =>
      -- A second allocation under the same handle would come after 2³² times of freeing the slot.
      refine List.nodup_cons.2 ⟨fun member => ?_, ih (wf.after _) rest⟩
      obtain ⟨before, other, later, rfl, same⟩ := exists_of_mem_allocated member
      have found : (h.after (.allocate value)).get? (h.allocate value).1 = some value :=
        get?_allocate_new wf.toFreeListExact value
      refine allocate_run_ne (wf.after _) found ?_ other same.symm
      refine Nat.lt_of_le_of_lt ?_ (rest (h.allocate value).1.index)
      rw [timesFreed_append]
      exact Nat.le_add_right _ _
    | update b f => exact ih (wf.after _) rest
    | collect roots => exact ih (wf.after _) rest

/-! ## Slots that are used again and again -/

theorem mark_nil (h : Heap α) : h.mark [] = (0, h) := by
  rw [mark, markFrom]

/-- One slot, with an object in it. -/
structure Single (h : Heap α) : Prop where
  wellFormed : h.WellFormed
  capacity : h.slots.size = 1
  full : h.free = []

namespace Single

omit [HasHandles α] in
theorem new (value : α) : ((empty : Heap α).allocate value).2.Single :=
  ⟨wellFormed_empty.allocate value, rfl, rfl⟩

omit [HasHandles α] in
theorem isOccupied (single : h.Single) : h.isOccupied 0 = true := by
  have bound : 0 < h.slots.size := by rw [single.capacity]; exact Nat.one_pos
  by_contra vacant
  have member : 0 ∈ h.free := (single.wellFormed.mem_iff 0).2
    ⟨h.slots[0], Array.getElem?_eq_getElem bound, by simpa [Heap.isOccupied, bound] using vacant⟩
  rw [single.full] at member
  cases member

/-- Without roots the object is garbage. -/
theorem free_collect (single : h.Single) : (h.collect []).2.free = [0] := by
  have garbage : h.garbage = [0] := by
    rw [garbage_eq_occupied single.wellFormed, occupied, single.capacity]
    exact List.filter_cons_of_pos single.isOccupied
  simp only [collect, mark_nil, sweep, garbage, single.full, List.reverse_singleton, List.append_nil]

theorem frees_collect (single : h.Single) : h.frees (.collect []) 0 = true := by
  have member : 0 ∈ (h.collect []).2.free := by simp [single.free_collect]
  obtain ⟨s, atIndex, noValue⟩ := ((single.wellFormed.collect []).mem_iff 0).1 member
  have vacant : (h.collect []).2.isOccupied 0 = false := by simp [Heap.isOccupied, atIndex, noValue]
  simp [frees, single.isOccupied, Heap.after, vacant]

/-- A new object takes the place of the one that was freed. -/
theorem refill (single : h.Single) (value : α) : ((h.collect []).2.allocate value).2.Single := by
  have wf := single.wellFormed.collect []
  obtain ⟨s, atIndex, _⟩ := (wf.mem_iff 0).1 (by simp [single.free_collect])
  refine ⟨wf.allocate value, ?_, ?_⟩
  · rw [allocate_of_free value single.free_collect atIndex, Array.size_setIfInBounds]
    simp only [collect, mark_nil, sweep, Array.size_map, single.capacity]
  · rw [allocate_of_free value single.free_collect atIndex]

/-- The slot can be freed any number of times. -/
theorem exists_timesFreed (single : h.Single) (value : α) (n : Nat) :
    ∃ ops : List (Op α), h.timesFreed 0 ops = n + 1 ∧ (ops.foldl Heap.after h).free = [0] := by
  induction n generalizing h with
  | zero =>
    refine ⟨[.collect []], ?_, single.free_collect⟩
    simp [timesFreed, single.frees_collect]
  | succ n ih =>
    obtain ⟨ops, freed, free⟩ := ih (single.refill value)
    refine ⟨.collect [] :: .allocate value :: ops, ?_, free⟩
    have kept : (h.collect []).2.frees (.allocate value) 0 = false := by
      simp [frees, Heap.after, (single.refill value).isOccupied]
    change (h.frees (.collect []) 0).toNat + (((h.collect []).2.frees (.allocate value) 0).toNat +
      ((h.collect []).2.allocate value).2.timesFreed 0 ops) = n + 1 + 1
    rw [single.frees_collect, kept, freed]
    simp only [Bool.toNat_true, Bool.toNat_false]
    omega

end Single

/-! ## Every heap in use -/

/-- In every heap that operations lead to, the free list names the slots without an object, each once, no
slot has a flag, and the number of objects is that of the slots that hold one. A new object goes into a
free slot if there is one and into a new slot only if there is none, under a handle that has not resolved
so far, and every handle that has resolved keeps its object. -/
theorem ofOps_representation (ops : List (Op α)) :
    let h := ofOps ops
    h.free.Nodup ∧
    (∀ i, i ∈ h.free ↔ ∃ s, h.slots[i]? = some s ∧ s.value = none) ∧
    (∀ (i : Nat) s, h.slots[i]? = some s → s.marked = false) ∧
    h.free.length ≤ h.slots.size ∧
    h.liveCount = h.slots.countP (·.value.isSome) ∧
    ∀ value,
      let a := (h.allocate value).1
      let grown := (h.allocate value).2
      (if h.free = [] then a.index = h.capacity ∧ grown.capacity = h.capacity + 1
        else a.index ∈ h.free ∧ grown.capacity = h.capacity) ∧
      grown.get? a = some value ∧
      ∀ b, h.contains b = true → b ≠ a ∧ grown.get? b = h.get? b := by
  intro h
  have wf : h.WellFormed := wellFormed_ofOps ops
  have exact := wf.toFreeListExact
  refine ⟨wf.nodup, wf.mem_iff, wf.unmarked, free_length_le exact, ?_, fun value => ⟨?_, ?_, ?_⟩⟩
  · rw [← length_occupied exact, length_occupied_eq_countP]
  · cases rest : h.free with
    | nil =>
      rw [if_pos rfl, allocate_of_full value rest]
      exact ⟨rfl, Array.size_push _⟩
    | cons index free =>
      obtain ⟨s, atIndex, _⟩ := (exact.mem_iff index).1 (by simp [rest])
      rw [if_neg (by simp), allocate_of_free value rest atIndex]
      exact ⟨List.mem_cons_self .., Array.size_setIfInBounds⟩
  · exact get?_allocate_new exact value
  · intro b live
    have other : b ≠ (h.allocate value).1 := by
      rintro rfl
      rw [Heap.contains, get?_allocate_fst exact] at live
      cases live
    exact ⟨other, by rw [get?_allocate exact, if_neg other]⟩

/-- A handle has the object that it was made for, with all changes since, until its slot is freed, and
nothing from then on as long as the slot has been freed fewer than 2³² times. So the handles of a run in
which no slot is freed that often are all different. When the slot has been freed exactly 2³² times, the
next object in it has the old handle; and there are runs that come to this. -/
theorem handle_lifetime :
    (∀ (before later : List (Op α)) (value : α),
      let a := ((ofOps before).allocate value).1
      let freed := ((ofOps before).allocate value).2.timesFreed a.index later
      let last := ofOps (before ++ .allocate value :: later)
      (freed = 0 → last.get? a = some (later.foldl (fun object op => op.changed a object) value)) ∧
      (0 < freed → freed < 2 ^ 32 → last.get? a = none) ∧
      (freed = 2 ^ 32 → ∀ other, (last.allocate other).1.index = a.index →
        (last.allocate other).1 = a ∧ (last.allocate other).2.get? a = some other)) ∧
    (∀ ops : List (Op α), (∀ i, empty.timesFreed i ops < 2 ^ 32) → (empty.allocated ops).Nodup) ∧
    ∀ value other : α, ∃ later,
      (empty.allocate value).2.timesFreed (empty.allocate value).1.index later = 2 ^ 32 ∧
      ((ofOps (.allocate value :: later)).allocate other).1.index = (empty.allocate value).1.index := by
  refine ⟨fun before later value => ?_, fun ops => nodup_allocated wellFormed_empty,
    fun value other => ?_⟩
  · intro a freed last
    have old : (ofOps before).WellFormed := wellFormed_ofOps before
    have wf := old.allocate value
    have found : ((ofOps before).allocate value).2.get? a = some value :=
      get?_allocate_new old.toFreeListExact value
    have run : last = later.foldl Heap.after ((ofOps before).allocate value).2 := by
      simp only [last, ofOps, List.foldl_append, List.foldl_cons, Heap.after]
    rw [run]
    refine ⟨get?_run wf found, get?_run_of_freed wf found, fun wrapped other index => ?_⟩
    have same := (allocate_run_eq_iff wf found later other).2 ⟨index, wrapped ▸ Nat.dvd_refl _⟩
    refine ⟨same, ?_⟩
    have new := get?_allocate_new (wellFormed_foldl_after later wf).toFreeListExact other
    rwa [same] at new
  · obtain ⟨later, freed, free⟩ := (Single.new value).exists_timesFreed value (2 ^ 32 - 1)
    refine ⟨later, freed, ?_⟩
    exact index_allocate_of_free other free

end Heap

end TinyScript
