import TinyScript.Heap

/-! # Collecting garbage

`collect` keeps what can be reached from the roots over the handles that live objects hold, and
frees the rest.

* `mark`: flag the objects that can be reached;
* `sweep`: free every object without a flag, in the order of the slots, and take the flags away;
* `Stats`: how many objects were reached, freed and left.
-/

namespace TinyScript

structure Heap.Stats where
  marked : Nat
  freed : Nat
  live : Nat
  deriving Repr, DecidableEq

namespace Heap

variable {α : Type}

/-! ## Marking -/

def Slot.unmarkedAt? (s : Slot α) (generation : UInt32) : Option α :=
  if s.marked then none else Slot.at? s generation

def unmarked? (h : Heap α) (handle : Handle) : Option α :=
  h.slots[handle.index]?.bind (Slot.unmarkedAt? · handle.generation)

def setMark (h : Heap α) (index : Nat) : Heap α :=
  { h with slots := h.slots.modify index fun s => { s with marked := true } }

def unmarkedCount (h : Heap α) : Nat := h.slots.toList.countP (!·.marked)

theorem countP_modify_lt {p : α → Bool} {f : α → α} (clears : ∀ a, p (f a) = false) :
    ∀ (xs : List α) (i : Nat) (x : α), xs[i]? = some x → p x = true →
      (xs.modify i f).countP p < xs.countP p
  | [], _, _, found, _ => by simp at found
  | y :: ys, 0, x, found, holds => by
    obtain rfl : y = x := by simpa using found
    simp [List.modify_cons, clears, holds]
  | y :: ys, i + 1, x, found, holds => by
    have rest := countP_modify_lt clears ys i x (by simpa using found) holds
    simp only [List.modify_succ_cons, List.countP_cons]
    omega

theorem unmarkedCount_setMark_lt {h : Heap α} {handle : Handle} {object : α}
    (found : h.unmarked? handle = some object) :
    (h.setMark handle.index).unmarkedCount < h.unmarkedCount := by
  obtain ⟨s, atIndex, unmarked⟩ := Option.bind_eq_some_iff.1 found
  have clear : s.marked = false := by
    simp only [Slot.unmarkedAt?] at unmarked
    split at unmarked
    · cases unmarked
    · next noFlag => simpa using noFlag
  simp only [unmarkedCount, setMark, Array.toList_modify]
  exact countP_modify_lt (fun _ => rfl) _ _ s (by simpa using atIndex) (by simp [clear])

/-- Follows handles until none is left, and counts the objects reached. Every object is followed
only when it is reached for the first time, so cycles end. -/
def markFrom [HasHandles α] (h : Heap α) (count : Nat) : List Handle → Nat × Heap α
  | [] => (count, h)
  | handle :: work =>
    match _ : h.unmarked? handle with
    | none => h.markFrom count work
    | some object =>
      (h.setMark handle.index).markFrom (count + 1) (HasHandles.handles object ++ work)
termination_by work => (h.unmarkedCount, work.length)
decreasing_by
  · exact Prod.Lex.right _ (by simp)
  · exact Prod.Lex.left _ _ (unmarkedCount_setMark_lt ‹_›)

/-- Flags the objects that can be reached from the roots, and counts them. Stale roots are
ignored. -/
def mark [HasHandles α] (h : Heap α) (roots : List Handle) : Nat × Heap α := h.markFrom 0 roots

/-! ## Sweeping -/

def Slot.isGarbage (s : Slot α) : Bool := s.value.isSome && !s.marked

/-- A slot after a sweep: garbage is dropped, and the slot goes on to the next generation. -/
def Slot.swept (s : Slot α) : Slot α :=
  if Slot.isGarbage s then ⟨s.generation + 1, false, none⟩ else { s with marked := false }

def garbage (h : Heap α) : List Nat :=
  (List.range h.slots.size).filter fun index => h.slots[index]?.any Slot.isGarbage

/-- Frees every object without a flag, and counts them. The slot freed last is the first to be
used. -/
def sweep (h : Heap α) : Nat × Heap α :=
  let freed := h.garbage
  (freed.length, { h with slots := h.slots.map Slot.swept, free := freed.reverse ++ h.free })

def collect [HasHandles α] (h : Heap α) (roots : List Handle) : Stats × Heap α :=
  let (marked, h) := h.mark roots
  let (freed, h) := h.sweep
  (⟨marked, freed, h.liveCount⟩, { h with collections := h.collections + 1 })

end Heap

end TinyScript
