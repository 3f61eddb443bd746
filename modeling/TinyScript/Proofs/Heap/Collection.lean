import Mathlib.Data.Finset.Card
import TinyScript.Proofs.Heap.Representation

/-! # Exactness of garbage collection

A collection keeps the objects that the roots reach and frees the others.

* `Reaches`: what can be reached from the live roots, over live handles only;
* `Marking`: what following the handles of a worklist does to the flags, by induction on the work
  that is left.  The flags of the result are those of the handles reached (`Marking.sound`,
  `Marking.complete`), and nothing else has changed;
* `get?_collect`: a collection restricts the heap to what is reached;
* `collect_collect`: a second collection from the same roots has nothing to do.

The statements hold for graphs with cycles, sharing and stale edges: a handle whose generation has
passed does not resolve, so it reaches nothing, whatever uses its slot now.
-/

namespace TinyScript

namespace Heap

variable {α : Type}

/-! ## Flags -/

/-- A slot without its flag. -/
def Slot.cleared (s : Slot α) : Slot α := ⟨s.generation, false, s.value⟩

/-- The slot with the given index has a flag. -/
def isMarked (h : Heap α) (index : Nat) : Bool := h.slots[index]?.any (·.marked)

@[simp] theorem get?_setMark (h : Heap α) (index : Nat) (a : Handle) :
    (h.setMark index).get? a = h.get? a := by
  simp only [get?, setMark, Array.getElem?_modify]
  split
  · cases h.slots[a.index]? <;> rfl
  · rfl

@[simp] theorem contains_setMark (h : Heap α) (index : Nat) (a : Handle) :
    (h.setMark index).contains a = h.contains a := by
  simp only [contains, get?_setMark]

theorem isMarked_setMark (h : Heap α) (index i : Nat) :
    (h.setMark index).isMarked i =
      (h.isMarked i || (decide (i = index) && decide (i < h.slots.size))) := by
  simp only [isMarked, setMark, Array.getElem?_modify]
  by_cases here : index = i
  · subst here
    by_cases bound : index < h.slots.size <;> simp [bound]
  · simp [here, Ne.symm here]

theorem unmarked?_eq_some {h : Heap α} {a : Handle} {object : α} :
    h.unmarked? a = some object ↔ h.get? a = some object ∧ h.isMarked a.index = false := by
  simp only [unmarked?, get?, isMarked, Slot.unmarkedAt?]
  cases h.slots[a.index]? with
  | none => simp
  | some s => cases flag : s.marked <;> simp [flag]

/-! ## Garbage -/

theorem mem_garbage {h : Heap α} {i : Nat} :
    i ∈ h.garbage ↔ h.isOccupied i = true ∧ h.isMarked i = false := by
  simp only [garbage, List.mem_filter, List.mem_range, isOccupied, isMarked]
  by_cases bound : i < h.slots.size
  · simp [bound, Slot.isGarbage]
  · simp [bound]

theorem nodup_garbage (h : Heap α) : h.garbage.Nodup := List.nodup_range.filter _

/-- Flagging an object takes its slot out of the garbage. -/
theorem length_garbage_setMark {h : Heap α} {a : Handle} {object : α}
    (fresh : h.unmarked? a = some object) :
    (h.setMark a.index).garbage.length + 1 = h.garbage.length := by
  obtain ⟨found, clear⟩ := unmarked?_eq_some.1 fresh
  obtain ⟨s, atIndex, _, hasValue⟩ := get?_eq_some.1 found
  have bound : a.index < h.slots.size := index_lt_of_get? found
  have member : a.index ∈ h.garbage :=
    mem_garbage.2 ⟨by simp [isOccupied, atIndex, hasValue], clear⟩
  have occupied : ∀ i, (h.setMark a.index).isOccupied i = h.isOccupied i := fun i => by
    simp only [isOccupied, setMark, Array.getElem?_modify]
    split
    · cases h.slots[i]? <;> rfl
    · rfl
  have rest : (h.setMark a.index).garbage.Perm (h.garbage.erase a.index) := by
    refine (List.perm_ext_iff_of_nodup (nodup_garbage _) ((nodup_garbage h).erase _)).2 fun i => ?_
    rw [(nodup_garbage h).mem_erase_iff, mem_garbage, mem_garbage, occupied, isMarked_setMark]
    by_cases here : i = a.index
    · simp [here, bound]
    · simp [here]
  rw [rest.length_eq, List.length_erase_of_mem member]
  have := List.length_pos_of_mem member
  omega

theorem garbage_eq_occupied {h : Heap α} (wf : h.WellFormed) : h.garbage = h.occupied := by
  refine List.filter_congr fun i _ => ?_
  cases atIndex : h.slots[i]? with
  | none => simp [isOccupied, atIndex]
  | some s => simp [isOccupied, atIndex, Slot.isGarbage, wf.unmarked i s atIndex]

/-! ## Sweeping -/

/-- A sweep keeps the objects with a flag. -/
theorem get?_sweep (h : Heap α) (a : Handle) :
    h.sweep.2.get? a = if h.isMarked a.index then h.get? a else none := by
  simp only [sweep, get?, Array.getElem?_map]
  cases atIndex : h.slots[a.index]? with
  | none => simp
  | some s =>
    have marked : h.isMarked a.index = s.marked := by simp [isMarked, atIndex]
    obtain ⟨generation, flag, value⟩ := s
    rw [marked]
    cases value <;> cases flag <;> simp [Slot.swept, Slot.isGarbage, Slot.at?]

theorem wellFormed_sweep {h : Heap α} (exact : h.FreeListExact) : h.sweep.2.WellFormed := by
  refine ⟨⟨?_, fun i => ?_⟩, fun i s found => ?_⟩
  · refine List.Nodup.append (List.nodup_reverse.2 (nodup_garbage h)) exact.nodup ?_
    intro i left right
    obtain ⟨s, atIndex, noValue⟩ := (exact.mem_iff i).1 right
    simp [mem_garbage, isOccupied, atIndex, noValue] at left
  · simp only [sweep, List.mem_append, List.mem_reverse, mem_garbage, exact.mem_iff, isOccupied,
      isMarked, Array.getElem?_map]
    cases h.slots[i]? with
    | none => simp
    | some s =>
      obtain ⟨generation, flag, value⟩ := s
      cases value <;> cases flag <;> simp [Slot.swept, Slot.isGarbage]
  · simp only [sweep, Array.getElem?_map] at found
    obtain ⟨old, _, rfl⟩ := Option.map_eq_some_iff.1 found
    simp only [Slot.swept]
    split <;> rfl

theorem liveCount_sweep {h : Heap α} (exact : h.FreeListExact) :
    h.sweep.2.liveCount + h.sweep.1 = h.liveCount := by
  -- The new free list has no slot twice, so the two parts of it fit into the row of slots.
  have split : h.garbage.length + h.free.length ≤ h.slots.size := by
    have nodup := (wellFormed_sweep exact).nodup
    have subset : h.sweep.2.free ⊆ List.range h.slots.size := by
      intro i member
      obtain ⟨s, atIndex, _⟩ := ((wellFormed_sweep exact).mem_iff i).1 member
      have := (Array.getElem?_eq_some_iff.1 atIndex).1
      simpa [sweep] using this
    have := (nodup.subperm subset).length_le
    simpa [sweep] using this
  simp only [liveCount, sweep, Array.size_map, List.length_append, List.length_reverse]
  omega

/-! ## Reachability -/

variable [HasHandles α]

/-- The handle resolves and can be reached from the roots over handles that resolve. -/
inductive Reaches (h : Heap α) (roots : List Handle) : Handle → Prop where
  | root {a : Handle} : a ∈ roots → h.contains a = true → Reaches h roots a
  | step {a b : Handle} {object : α} : Reaches h roots a → h.get? a = some object →
      b ∈ HasHandles.handles object → h.contains b = true → Reaches h roots b

theorem Reaches.contains {h : Heap α} {roots : List Handle} {a : Handle}
    (reached : h.Reaches roots a) : h.contains a = true := by
  cases reached with
  | root _ live => exact live
  | step _ _ _ live => exact live

/-- What is reached from handles that are reached themselves is reached. -/
theorem Reaches.trans {h : Heap α} {roots middle : List Handle} {a : Handle}
    (reached : h.Reaches middle a)
    (covered : ∀ b ∈ middle, h.contains b = true → h.Reaches roots b) : h.Reaches roots a := by
  induction reached with
  | root member live => exact covered _ member live
  | step _ found edge live ih => exact ih.step found edge live

/-- Reachability depends only on what the handles that are reached resolve to. -/
theorem Reaches.congr {h k : Heap α} {roots : List Handle} {a : Handle}
    (reached : h.Reaches roots a) (same : ∀ b, h.Reaches roots b → k.get? b = h.get? b) :
    k.Reaches roots a := by
  have live : ∀ b, h.Reaches roots b → k.contains b = true := fun b reachedB => by
    rw [Heap.contains, same b reachedB]
    exact reachedB.contains
  induction reached with
  | root member liveA => exact .root member (live _ (.root member liveA))
  | step reachedA found edge liveB ih =>
    exact ih.step ((same _ reachedA).trans found) edge (live _ (reachedA.step found edge liveB))

/-! ## Marking -/

/-- What following handles from a heap `h` leaves of it: the heap `k`, in which more slots may have
a flag. -/
structure Marking (h k : Heap α) (work : List Handle) : Prop where
  free : k.free = h.free
  collections : k.collections = h.collections
  slots : ∀ i : Nat, (k.slots[i]?).map Slot.cleared = (h.slots[i]?).map Slot.cleared
  mono : ∀ i, h.isMarked i = true → k.isMarked i = true
  /-- A new flag belongs to a handle that the work reaches. -/
  sound : ∀ i, k.isMarked i = true → h.isMarked i = true ∨ ∃ a, a.index = i ∧ h.Reaches work a
  /-- All work is done. -/
  roots : ∀ a ∈ work, h.contains a = true → k.isMarked a.index = true
  /-- An object with a new flag has all its handles followed. -/
  closed : ∀ a object, h.get? a = some object → h.isMarked a.index = false →
    k.isMarked a.index = true → ∀ b ∈ HasHandles.handles object, h.contains b = true →
      k.isMarked b.index = true

theorem Marking.nil (h : Heap α) : Marking h h [] where
  free := rfl
  collections := rfl
  slots _ := rfl
  mono _ flag := flag
  sound _ flag := .inl flag
  roots a member := by simp at member
  closed a object _ clear flag := by simp [clear] at flag

/-- A handle that is stale, or whose object has a flag, needs no work. -/
theorem Marking.skip {h k : Heap α} {a : Handle} {work : List Handle} (idle : h.unmarked? a = none)
    (rest : Marking h k work) : Marking h k (a :: work) where
  __ := rest
  sound i flag := by
    rcases rest.sound i flag with old | ⟨b, atIndex, reached⟩
    · exact .inl old
    · refine .inr ⟨b, atIndex, reached.trans fun c member live => .root ?_ live⟩
      exact List.mem_cons_of_mem _ member
  roots b member live := by
    rcases List.mem_cons.1 member with rfl | later
    · obtain ⟨object, found⟩ := contains_iff.1 live
      cases flag : h.isMarked b.index with
      | true => exact rest.mono _ flag
      | false => simp [unmarked?_eq_some.2 ⟨found, flag⟩] at idle
    · exact rest.roots b later live

/-- Flagging an object leaves the handles that it holds as work. -/
theorem Marking.follow {h k : Heap α} {a : Handle} {object : α} {work : List Handle}
    (fresh : h.unmarked? a = some object)
    (rest : Marking (h.setMark a.index) k (HasHandles.handles object ++ work)) :
    Marking h k (a :: work) := by
  obtain ⟨found, clear⟩ := unmarked?_eq_some.1 fresh
  have bound : a.index < h.slots.size := index_lt_of_get? found
  have flagged : k.isMarked a.index = true :=
    rest.mono _ (by simp [isMarked_setMark, bound])
  have live : h.contains a = true := contains_iff.2 ⟨object, found⟩
  have reaches : ∀ b, (h.setMark a.index).Reaches (HasHandles.handles object ++ work) b →
      h.Reaches (a :: work) b := by
    intro b reached
    have same : h.Reaches (HasHandles.handles object ++ work) b :=
      reached.congr fun c _ => (get?_setMark h a.index c).symm
    refine same.trans fun c member liveC => ?_
    rcases List.mem_append.1 member with edge | later
    · exact (Reaches.root (List.mem_cons_self ..) live).step found edge liveC
    · exact .root (List.mem_cons_of_mem _ later) liveC
  refine ⟨rest.free, rest.collections, fun i => ?_, fun i flag => ?_, fun i flag => ?_,
    fun b member liveB => ?_, fun b other foundB clearB flagB c edge liveC => ?_⟩
  · rw [rest.slots i]
    simp only [setMark, Array.getElem?_modify]
    split
    · cases h.slots[i]? <;> rfl
    · rfl
  · exact rest.mono i (by simp [isMarked_setMark, flag])
  · rcases rest.sound i flag with old | ⟨b, atIndex, reached⟩
    · rw [isMarked_setMark, Bool.or_eq_true, Bool.and_eq_true, decide_eq_true_eq] at old
      rcases old with old | ⟨here, _⟩
      · exact .inl old
      · exact .inr ⟨a, here.symm, .root (List.mem_cons_self ..) live⟩
    · exact .inr ⟨b, atIndex, reaches b reached⟩
  · rcases List.mem_cons.1 member with rfl | later
    · exact flagged
    · exact rest.roots b (List.mem_append_right _ later) (by simpa using liveB)
  · by_cases here : b.index = a.index
    · obtain rfl : b = a := eq_of_get?_of_index_eq foundB found here
      obtain rfl : other = object := by simpa [found] using foundB.symm
      exact rest.roots c (List.mem_append_left _ edge) (by simpa using liveC)
    · exact rest.closed b other (by simpa using foundB)
        (by simp [isMarked_setMark, clearB, here]) flagB c edge (by simpa using liveC)

theorem marking_markFrom (h : Heap α) (count : Nat) (work : List Handle) :
    Marking h (h.markFrom count work).2 work := by
  fun_induction markFrom h count work with
  | case1 h count => exact .nil h
  | case2 h count a work idle ih => exact ih.skip idle
  | case3 h count a work object fresh ih => exact ih.follow fresh

theorem marking_mark (h : Heap α) (roots : List Handle) : Marking h (h.mark roots).2 roots :=
  marking_markFrom h 0 roots

theorem Marking.size {h k : Heap α} {work : List Handle} (marking : Marking h k work) :
    k.slots.size = h.slots.size := by
  have same : ∀ i, k.slots.size ≤ i ↔ h.slots.size ≤ i := fun i => by
    rw [← Array.getElem?_eq_none_iff, ← Array.getElem?_eq_none_iff]
    have := marking.slots i
    cases left : k.slots[i]? <;> cases right : h.slots[i]? <;> simp_all
  exact Nat.le_antisymm ((same _).2 (Nat.le_refl _)) ((same _).1 (Nat.le_refl _))

/-- Flags do not change what resolves. -/
theorem Marking.get? {h k : Heap α} {work : List Handle} (marking : Marking h k work) (a : Handle) :
    k.get? a = h.get? a := by
  have view : ∀ s : Option (Slot α), s.bind (Slot.at? · a.generation) =
      (s.map Slot.cleared).bind (Slot.at? · a.generation) := fun s => by cases s <;> rfl
  rw [Heap.get?, view, marking.slots, ← view, Heap.get?]

theorem Marking.freeListExact {h k : Heap α} {work : List Handle} (marking : Marking h k work)
    (exact : h.FreeListExact) : k.FreeListExact := by
  have view : ∀ s : Option (Slot α), (∃ t, s = some t ∧ t.value = none) ↔
      ∃ t, s.map Slot.cleared = some t ∧ t.value = none := fun s => by
    cases s <;> simp [Slot.cleared]
  refine ⟨marking.free ▸ exact.nodup, fun i => ?_⟩
  rw [marking.free, exact.mem_iff, view, ← marking.slots i, ← view]

/-- On a heap without flags, marking flags exactly the slots of the objects that are reached. -/
theorem isMarked_mark_iff {h : Heap α} (wf : h.WellFormed) (roots : List Handle) (i : Nat) :
    (h.mark roots).2.isMarked i = true ↔ ∃ a, a.index = i ∧ h.Reaches roots a := by
  have marking := marking_mark h roots
  have clear : ∀ i, h.isMarked i = false := fun i => by
    cases atIndex : h.slots[i]? with
    | none => simp [isMarked, atIndex]
    | some s => simp [isMarked, atIndex, wf.unmarked i s atIndex]
  constructor
  · intro flag
    rcases marking.sound i flag with old | reached
    · simp [clear] at old
    · exact reached
  -- Along the path: a root is work, and an object with a flag has its handles followed.
  · rintro ⟨a, rfl, reached⟩
    induction reached with
    | root member live => exact marking.roots _ member live
    | step _ found edge live ih => exact marking.closed _ _ found (clear _) ih _ edge live

/-- Every object that is counted stops being garbage. -/
theorem markFrom_count (h : Heap α) (count : Nat) (work : List Handle) :
    (h.markFrom count work).1 + (h.markFrom count work).2.garbage.length =
      count + h.garbage.length := by
  fun_induction markFrom h count work with
  | case1 h count => rfl
  | case2 h count a work idle ih => exact ih
  | case3 h count a work object fresh ih =>
    have := length_garbage_setMark fresh
    omega

/-! ## Collections -/

/-- A collection restricts the heap to what the roots reach. -/
theorem get?_collect {h : Heap α} (wf : h.WellFormed) (roots : List Handle) (a : Handle)
    (object : α) :
    (h.collect roots).2.get? a = some object ↔ h.get? a = some object ∧ h.Reaches roots a := by
  change (h.mark roots).2.sweep.2.get? a = some object ↔ _
  rw [get?_sweep, (marking_mark h roots).get? a]
  constructor
  · intro found
    split at found
    · next flag =>
      obtain ⟨b, sameIndex, reached⟩ := (isMarked_mark_iff wf roots a.index).1 flag
      obtain ⟨other, foundB⟩ := contains_iff.1 reached.contains
      obtain rfl : b = a := eq_of_get?_of_index_eq foundB found sameIndex
      exact ⟨found, reached⟩
    · cases found
  · rintro ⟨found, reached⟩
    rw [if_pos ((isMarked_mark_iff wf roots a.index).2 ⟨a, rfl, reached⟩)]
    exact found

theorem get?_collect_of_reaches {h : Heap α} (wf : h.WellFormed) {roots : List Handle} {a : Handle}
    (reached : h.Reaches roots a) : (h.collect roots).2.get? a = h.get? a := by
  obtain ⟨object, found⟩ := contains_iff.1 reached.contains
  rw [found, get?_collect wf]
  exact ⟨found, reached⟩

theorem contains_collect {h : Heap α} (wf : h.WellFormed) (roots : List Handle) (a : Handle) :
    (h.collect roots).2.contains a = true ↔ h.contains a = true ∧ h.Reaches roots a := by
  simp only [contains_iff, get?_collect wf, exists_and_right]

theorem WellFormed.collect {h : Heap α} (wf : h.WellFormed) (roots : List Handle) :
    (h.collect roots).2.WellFormed := by
  have swept := wellFormed_sweep ((marking_mark h roots).freeListExact wf.toFreeListExact)
  exact ⟨⟨swept.nodup, swept.mem_iff⟩, swept.unmarked⟩

theorem marked_add_freed {h : Heap α} (wf : h.WellFormed) (roots : List Handle) :
    (h.collect roots).1.marked + (h.collect roots).1.freed = h.liveCount := by
  have counted := markFrom_count h 0 roots
  rw [Nat.zero_add, garbage_eq_occupied wf, length_occupied wf.toFreeListExact] at counted
  exact counted

theorem live_add_freed {h : Heap α} (wf : h.WellFormed) (roots : List Handle) :
    (h.collect roots).1.live + (h.collect roots).1.freed = h.liveCount := by
  have marking := marking_mark h roots
  have swept := liveCount_sweep (marking.freeListExact wf.toFreeListExact)
  have same : (h.mark roots).2.liveCount = h.liveCount := by
    simp only [liveCount, marking.size, marking.free]
  rw [same] at swept
  exact swept

/-- The objects that are left are those reached. -/
theorem live_eq_card_reached {h : Heap α} (wf : h.WellFormed) (roots : List Handle) :
    ∃ reached : Finset Handle, (∀ a, a ∈ reached ↔ h.Reaches roots a) ∧
      (h.collect roots).1.live = reached.card := by
  have after := wf.collect roots
  refine ⟨(h.collect roots).2.liveHandles.toFinset, fun a => ?_, ?_⟩
  · rw [List.mem_toFinset, mem_liveHandles, contains_collect wf]
    exact ⟨And.right, fun reached => ⟨reached.contains, reached⟩⟩
  · rw [List.toFinset_card_of_nodup (nodup_liveHandles _),
      length_liveHandles after.toFreeListExact]
    rfl

theorem reaches_collect {h : Heap α} (wf : h.WellFormed) {roots : List Handle} {a : Handle}
    (reached : h.Reaches roots a) : (h.collect roots).2.Reaches roots a :=
  reached.congr fun _ reachedB => get?_collect_of_reaches wf reachedB

/-- A heap whose objects are all reached is left as it is. -/
theorem collect_of_all_reached {h : Heap α} (wf : h.WellFormed) {roots : List Handle}
    (all : ∀ a, h.contains a = true → h.Reaches roots a) :
    (h.collect roots).1.freed = 0 ∧
      (h.collect roots).2 = { h with collections := h.collections + 1 } := by
  have marking := marking_mark h roots
  have none : (h.mark roots).2.garbage = [] := by
    refine List.eq_nil_iff_forall_not_mem.2 fun i member => ?_
    obtain ⟨occupied, clear⟩ := mem_garbage.1 member
    obtain ⟨a, rfl, live⟩ := isOccupied_iff.1 occupied
    rw [Heap.contains, marking.get?] at live
    rw [(isMarked_mark_iff wf roots a.index).2 ⟨a, rfl, all a live⟩] at clear
    cases clear
  have slots : (h.mark roots).2.slots.map Slot.swept = h.slots := by
    refine Array.ext_getElem? fun i => ?_
    rw [Array.getElem?_map]
    have clear : (h.slots[i]?).map Slot.cleared = h.slots[i]? := by
      cases atIndex : h.slots[i]? with
      | none => rfl
      | some s => simp [Slot.cleared, ← wf.unmarked i s atIndex]
    rw [← clear, ← marking.slots i]
    cases atIndex : (h.mark roots).2.slots[i]? with
    | none => rfl
    | some s =>
      have kept : Slot.isGarbage s = false := by
        have notGarbage : i ∉ (h.mark roots).2.garbage := by simp [none]
        simpa [mem_garbage, isOccupied, isMarked, atIndex, Slot.isGarbage] using notGarbage
      simp [Slot.swept, Slot.cleared, kept]
  constructor
  · change (h.mark roots).2.garbage.length = 0
    rw [none, List.length_nil]
  · simp only [collect, sweep, none, slots, marking.free, marking.collections, List.reverse_nil,
      List.nil_append]

/-! ## Heaps in use -/

/-- An operation of a program that works on a heap. -/
inductive Op (α : Type) where
  | allocate (value : α)
  /-- Change an object in place; nothing happens if the handle is stale. -/
  | update (a : Handle) (f : α → α)
  | collect (roots : List Handle)

/-- The heap after an operation. -/
def after (h : Heap α) : Op α → Heap α
  | .allocate value => (h.allocate value).2
  | .update a f => h.update a f
  | .collect roots => (h.collect roots).2

/-- The heap after operations on an empty one. -/
def ofOps (ops : List (Op α)) : Heap α := ops.foldl after empty

theorem WellFormed.after {h : Heap α} (wf : h.WellFormed) (op : Op α) : (h.after op).WellFormed := by
  cases op with
  | allocate value => exact wf.allocate value
  | update a f => exact wf.update a f
  | collect roots => exact wf.collect roots

theorem wellFormed_foldl_after (ops : List (Op α)) {h : Heap α} (wf : h.WellFormed) :
    (ops.foldl Heap.after h).WellFormed := by
  induction ops generalizing h with
  | nil => exact wf
  | cons op ops ih => exact ih (wf.after op)

theorem wellFormed_ofOps (ops : List (Op α)) : (ofOps ops).WellFormed :=
  wellFormed_foldl_after ops wellFormed_empty

/-- A collection of any heap that operations lead to, from any roots: a handle resolves afterwards
iff it resolved before and the roots reach it, what is left is unchanged, and the counts are those
of the objects reached and of the others. A second collection from the same roots frees nothing. -/
theorem collect_exact (ops : List (Op α)) (roots : List Handle) :
    let h := ofOps ops
    let stats := (h.collect roots).1
    let kept := (h.collect roots).2
    (∀ a, kept.contains a = true ↔ h.contains a = true ∧ h.Reaches roots a) ∧
    (∀ a, kept.contains a = true → kept.get? a = h.get? a) ∧
    (∃ reached : Finset Handle, (∀ a, a ∈ reached ↔ h.Reaches roots a) ∧
      stats.marked = reached.card ∧ stats.live = reached.card) ∧
    stats.marked + stats.freed = h.liveCount ∧
    (kept.collect roots).1.freed = 0 ∧
    (kept.collect roots).2 = { kept with collections := kept.collections + 1 } := by
  intro h stats kept
  have wf : h.WellFormed := wellFormed_ofOps ops
  have marked := marked_add_freed wf roots
  have live := live_add_freed wf roots
  obtain ⟨reached, member, card⟩ := live_eq_card_reached wf roots
  refine ⟨contains_collect wf roots, fun a keptA => ?_, ⟨reached, member, ?_, card⟩, marked, ?_⟩
  · exact get?_collect_of_reaches wf ((contains_collect wf roots a).1 keptA).2
  · change (h.collect roots).1.marked = reached.card
    omega
  · refine collect_of_all_reached (wf.collect roots) fun a keptA => ?_
    exact reaches_collect wf ((contains_collect wf roots a).1 keptA).2

end Heap

end TinyScript
