import TinyScript.Proofs.Heap.Collection
import TinyScript.Scope

/-! # The order of the roots

A collection takes its roots as a list, and follows them in that order.  Nothing that it leaves depends
on the order: two lists with the same handles, however often each occurs, give the same counts and the
same heap, down to the order of the free list (`collect_eq_of_same_roots`).

What is followed first differs between the two, so the argument is not about the way of marking but
about what it comes to: the flags at the end are those of the handles reached (`isMarked_mark_iff`), and
flags are all that two markings of one heap can differ in (`Marking.unique`).
-/

namespace TinyScript

namespace Heap

variable {α : Type} [HasHandles α] {h k k' : Heap α} {roots roots' work work' : List Handle}

/-! ## One collection -/

theorem Reaches.mono {a : Handle} (reached : h.Reaches roots a) (more : ∀ b ∈ roots, b ∈ roots') :
    h.Reaches roots' a :=
  reached.trans fun b member live => .root (more b member) live

theorem reaches_congr (same : ∀ a, a ∈ roots ↔ a ∈ roots') (a : Handle) :
    h.Reaches roots a ↔ h.Reaches roots' a :=
  ⟨fun reached => reached.mono fun b => (same b).1, fun reached => reached.mono fun b => (same b).2⟩

/-- Two markings of a heap that flag the same slots are the same. -/
theorem Marking.unique (left : Marking h k work) (right : Marking h k' work')
    (flags : ∀ i, k.isMarked i = k'.isMarked i) : k = k' := by
  have slots : k.slots = k'.slots := by
    refine Array.ext_getElem? fun i => ?_
    have cleared := (left.slots i).trans (right.slots i).symm
    have flag := flags i
    simp only [isMarked] at flag
    cases atLeft : k.slots[i]? with
    | none => simpa [atLeft, eq_comm] using cleared
    | some s =>
      cases atRight : k'.slots[i]? with
      | none => simp [atLeft, atRight] at cleared
      | some t =>
        obtain ⟨generation, _, value⟩ := s
        simp_all [Slot.cleared]
  obtain ⟨_, free, collections⟩ := k
  obtain ⟨_, free', collections'⟩ := k'
  have frees : free = free' := left.free.trans right.free.symm
  have counts : collections = collections' := left.collections.trans right.collections.symm
  rw [frees, counts]
  exact congrArg (Heap.mk · free' collections') slots

theorem mark_congr (wf : h.WellFormed) (same : ∀ a, a ∈ roots ↔ a ∈ roots') :
    h.mark roots = h.mark roots' := by
  have heaps : (h.mark roots).2 = (h.mark roots').2 := by
    refine (marking_mark h roots).unique (marking_mark h roots') fun i => Bool.eq_iff_iff.2 ?_
    simp only [isMarked_mark_iff wf, reaches_congr same]
  -- Whatever the order, an object is counted when it stops being garbage.
  have counts : (h.mark roots).1 = (h.mark roots').1 := by
    have left := markFrom_count h 0 roots
    have right := markFrom_count h 0 roots'
    change (h.mark roots).1 + (h.mark roots).2.garbage.length = _ at left
    change (h.mark roots').1 + (h.mark roots').2.garbage.length = _ at right
    rw [heaps] at left
    omega
  exact Prod.ext counts heaps

/-- Only the set of the roots matters to a collection. -/
theorem collect_congr (wf : h.WellFormed) (same : ∀ a, a ∈ roots ↔ a ∈ roots') :
    h.collect roots = h.collect roots' := by
  simp only [collect, mark_congr wf same]

/-! ## Whole runs -/

/-- The same operation, but for the order in which a collection is given its roots. -/
inductive Op.Alike : Op α → Op α → Prop where
  | allocate (value : α) : Alike (.allocate value) (.allocate value)
  | update (a : Handle) (f : α → α) : Alike (.update a f) (.update a f)
  | collect {roots roots' : List Handle} : (∀ a, a ∈ roots ↔ a ∈ roots') →
      Alike (.collect roots) (.collect roots')

theorem after_congr (wf : h.WellFormed) {op op' : Op α} (alike : op.Alike op') :
    h.after op = h.after op' := by
  cases alike with
  | allocate value => rfl
  | update a f => rfl
  | collect same => exact congrArg Prod.snd (collect_congr wf same)

theorem run_congr (wf : h.WellFormed) {ops ops' : List (Op α)} (alike : List.Forall₂ Op.Alike ops ops') :
    ops.foldl Heap.after h = ops'.foldl Heap.after h := by
  induction alike generalizing h with
  | nil => rfl
  | cons first _ ih =>
    rw [List.foldl_cons, List.foldl_cons, ← after_congr wf first]
    exact ih (wf.after _)

/-- Collections of one heap from lists of the same roots, in any order and with any repetitions, do the
same: the counts are equal and so are the heaps, with all slots, generations and flags and the free list
in its order.  From there on the same slots are used, so every later object has the same handle, also if
later collections get their roots in another order again. -/
theorem collect_eq_of_same_roots (ops : List (Op α)) (roots roots' : List Handle)
    (same : ∀ a, a ∈ roots ↔ a ∈ roots') :
    (ofOps ops).collect roots = (ofOps ops).collect roots' ∧
    ∀ later later' : List (Op α), List.Forall₂ Op.Alike later later' → ∀ value,
      (later.foldl Heap.after ((ofOps ops).collect roots).2).allocate value =
        (later'.foldl Heap.after ((ofOps ops).collect roots').2).allocate value := by
  have wf : (ofOps ops).WellFormed := wellFormed_ofOps ops
  have collected := collect_congr wf same
  refine ⟨collected, fun later later' alike value => ?_⟩
  rw [← collected, run_congr (wf.collect roots) alike]

/-- Two arrays that hold each other, and one that nothing holds. -/
theorem collect_eq_of_same_roots_of_cycle :
    let ops : List (Op Object) := [.allocate (.array #[]), .allocate (.array #[.array ⟨0, 0⟩]),
      .update ⟨0, 0⟩ fun _ => .array #[.array ⟨1, 0⟩], .allocate (.array #[])]
    ((ofOps ops).collect [⟨0, 0⟩, ⟨1, 0⟩]).1 = ⟨2, 1, 2⟩ ∧
      (ofOps ops).collect [⟨0, 0⟩, ⟨1, 0⟩] = (ofOps ops).collect [⟨1, 0⟩, ⟨0, 0⟩, ⟨1, 0⟩] := by
  intro ops
  have followed : (ofOps ops).mark [⟨0, 0⟩, ⟨1, 0⟩] = (2, { slots := #[
      ⟨0, true, some (.array #[.array ⟨1, 0⟩])⟩, ⟨0, true, some (.array #[.array ⟨0, 0⟩])⟩,
      ⟨0, false, some (.array #[])⟩] }) := by
    simp [ops, ofOps, Heap.after, Heap.empty, allocate, update, mark, markFrom, unmarked?, setMark,
      Slot.unmarkedAt?, Slot.at?, HasHandles.handles, Object.handles, Value.handle?]
  have freed : ((ofOps ops).collect [⟨0, 0⟩, ⟨1, 0⟩]).1 = ⟨2, 1, 2⟩ := by
    simp only [collect, followed, sweep, liveCount, Array.size_map]
    decide
  refine ⟨freed, (collect_eq_of_same_roots ops _ _ fun a => ?_).1⟩
  simp only [List.mem_cons, List.not_mem_nil, or_false]
  tauto

end Heap

end TinyScript
