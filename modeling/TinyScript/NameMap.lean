/-! # Maps from names

Finite maps whose keys are names, listed in the order of their code points.

* `get?`: the value under a name;
* `insert`: a map with a value put under a name, in place of the old one if there is one;
* `names`, `values`: what the map holds, in order.
-/

namespace TinyScript

/-- Entries in the order of their names. -/
structure NameMap (α : Type) where
  entries : List (String × α) := []

namespace NameMap

variable {α : Type}

def empty : NameMap α := ⟨[]⟩

instance : Inhabited (NameMap α) := ⟨empty⟩

def get? (m : NameMap α) (name : String) : Option α := m.entries.lookup name

def contains (m : NameMap α) (name : String) : Bool := (m.get? name).isSome

/-- Puts an entry in front of the first one with a greater name, or in place of an equal one. -/
def insertEntry (name : String) (value : α) : List (String × α) → List (String × α)
  | [] => [(name, value)]
  | (key, old) :: rest =>
    if name = key then (name, value) :: rest
    else if name < key then (name, value) :: (key, old) :: rest
    else (key, old) :: insertEntry name value rest

def insert (m : NameMap α) (name : String) (value : α) : NameMap α :=
  ⟨insertEntry name value m.entries⟩

def names (m : NameMap α) : List String := m.entries.map (·.1)

def values (m : NameMap α) : List α := m.entries.map (·.2)

def size (m : NameMap α) : Nat := m.entries.length

def isEmpty (m : NameMap α) : Bool := m.entries.isEmpty

def ofList (entries : List (String × α)) : NameMap α :=
  entries.foldl (fun m (name, value) => m.insert name value) empty

def map {β : Type} (f : α → β) (m : NameMap α) : NameMap β :=
  ⟨m.entries.map fun (name, value) => (name, f value)⟩

@[simp] theorem get?_empty (name : String) : (empty : NameMap α).get? name = none := rfl

theorem lookup_cons (name key : String) (value : α) (rest : List (String × α)) :
    List.lookup key ((name, value) :: rest) =
      if key = name then some value else rest.lookup key := by
  by_cases h : key = name
  · simp [h]
  · simp [List.lookup_cons, h, beq_eq_false_iff_ne.2 h]

theorem lookup_insertEntry (name key : String) (value : α) (entries : List (String × α)) :
    (insertEntry name value entries).lookup key =
      if key = name then some value else entries.lookup key := by
  induction entries with
  | nil => simp [insertEntry, lookup_cons]
  | cons entry rest ih =>
    obtain ⟨k, old⟩ := entry
    simp only [insertEntry]
    split
    · next h => subst h; simp only [lookup_cons]; split <;> rfl
    · next hk =>
      split
      · simp [lookup_cons]
      · simp only [lookup_cons, ih]
        split <;> split <;> simp_all

/-- Inserting changes the value under one name. -/
theorem get?_insert (m : NameMap α) (name key : String) (value : α) :
    (m.insert name value).get? key = if key = name then some value else m.get? key :=
  lookup_insertEntry name key value m.entries

end NameMap

end TinyScript
