/-! # The heap

A `Heap` is a row of slots. A `Handle` names a slot together with the generation that the slot had
when the handle was made. Freeing a slot moves it on to the next generation, so a handle that
outlives its object finds nothing instead of what came to use the slot later.

* `allocate`: put an object into a slot, a free one if there is one;
* `get?`, `contains`: the object of a handle, if it still lives;
* `update`: replace the object of a handle;
* `collect`: free every object that cannot be reached from the given roots.

Generations are 32-bit words and wrap around.
-/

namespace TinyScript

/-- A slot in one of its generations. -/
structure Handle where
  index : Nat
  generation : UInt32
  deriving Repr, DecidableEq, Inhabited

/-- Objects that hold handles of other objects. -/
class HasHandles (α : Type) where
  /-- The handles that an object holds. -/
  handles : α → List Handle

structure Slot (α : Type) where
  generation : UInt32
  marked : Bool
  value : Option α

structure Heap (α : Type) where
  slots : Array (Slot α) := #[]
  /-- The free slots, the next one to be used first. -/
  free : List Nat := []
  collections : Nat := 0

namespace Heap

variable {α : Type}

def empty : Heap α := {}

instance : Inhabited (Heap α) := ⟨empty⟩

def capacity (h : Heap α) : Nat := h.slots.size

def liveCount (h : Heap α) : Nat := h.slots.size - h.free.length

def Slot.at? (s : Slot α) (generation : UInt32) : Option α :=
  if s.generation = generation then s.value else none

/-- The object of a handle; `none` if it has been freed. -/
def get? (h : Heap α) (handle : Handle) : Option α :=
  h.slots[handle.index]?.bind (Slot.at? · handle.generation)

def contains (h : Heap α) (handle : Handle) : Bool := (h.get? handle).isSome

/-- Stores an object, in the slot freed last if one is free and in a new one otherwise. -/
def allocate (h : Heap α) (value : α) : Handle × Heap α :=
  match h.free with
  | [] => (⟨h.slots.size, 0⟩, { h with slots := h.slots.push ⟨0, false, some value⟩ })
  | index :: free =>
    let generation := (h.slots[index]?.map (·.generation)).getD 0
    (⟨index, generation⟩,
      { h with slots := h.slots.setIfInBounds index ⟨generation, false, some value⟩, free })

def update (h : Heap α) (handle : Handle) (f : α → α) : Heap α :=
  { h with slots := h.slots.modify handle.index fun s =>
    if s.generation = handle.generation then { s with value := s.value.map f } else s }

end Heap

end TinyScript
