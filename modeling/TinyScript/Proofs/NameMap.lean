import Mathlib.Data.List.Forall2
import Mathlib.Data.List.Nodup
import Mathlib.Data.String.Basic
import TinyScript.NameMap

/-! # Maps from names, as a whole

What `NameMap.ofList` finds are the entries of the list, and all of them if no name is repeated.

A map that has been made by insertions is `Ordered`: every name comes before those that are greater.

Two maps are `Related` if they have the same names, with related values.
-/

namespace TinyScript

namespace NameMap

variable {α : Type}

theorem get?_foldl_insert (entries : List (String × α)) (m : NameMap α) (key : String) :
    (entries.foldl (fun m (name, value) => m.insert name value) m).get? key =
      (entries.reverse.lookup key).or (m.get? key) := by
  induction entries generalizing m with
  | nil => rfl
  | cons entry rest ih =>
    rw [List.foldl_cons, ih, get?_insert, List.reverse_cons, List.lookup_append, Option.or_assoc,
      lookup_cons]
    congr 1
    split <;> rfl

/-- The last entry under a name is found. -/
theorem get?_ofList (entries : List (String × α)) (key : String) :
    (ofList entries).get? key = entries.reverse.lookup key := by
  rw [ofList, get?_foldl_insert, get?_empty, Option.or_none]

/-- What is found is an entry of the list. -/
theorem mem_of_get?_ofList {entries : List (String × α)} {name : String} {value : α}
    (found : (ofList entries).get? name = some value) : (name, value) ∈ entries := by
  rw [get?_ofList, List.lookup_eq_some_iff] at found
  obtain ⟨before, after, split, _⟩ := found
  rw [← List.mem_reverse, split]
  simp

/-- An entry of a list without repeated names is found. -/
theorem get?_ofList_of_mem {entries : List (String × α)} {name : String} {value : α}
    (member : (name, value) ∈ entries) (distinct : (entries.map (·.1)).Nodup) :
    (ofList entries).get? name = some value := by
  rw [← List.mem_reverse] at member
  obtain ⟨before, after, split⟩ := List.append_of_mem member
  rw [get?_ofList, List.lookup_eq_some_iff]
  refine ⟨before, after, split, fun entry early => ?_⟩
  have unique : ((entries.reverse).map (·.1)).Nodup := by
    rw [List.map_reverse]
    exact List.nodup_reverse.2 distinct
  rw [split, List.map_append, List.nodup_append] at unique
  simp only [bne_iff_ne]
  intro eq
  exact unique.2.2 entry.1 (List.mem_map_of_mem early) name (by simp) eq.symm

theorem mem_values_of_get? {m : NameMap α} {name : String} {value : α}
    (found : m.get? name = some value) : value ∈ m.values := by
  obtain ⟨before, after, entries, _⟩ := List.lookup_eq_some_iff.1 found
  simp [NameMap.values, entries]

theorem mem_values_insert {m : NameMap α} {name : String} {value a : α}
    (member : a ∈ (m.insert name value).values) : a = value ∨ a ∈ m.values := by
  obtain ⟨entries⟩ := m
  simp only [NameMap.values, NameMap.insert] at member ⊢
  induction entries with
  | nil => simpa [insertEntry] using member
  | cons entry rest ih =>
    simp only [insertEntry] at member
    grind

/-! ## Ordered maps -/

/-- The names are listed in their order, none of them twice. -/
def Ordered (m : NameMap α) : Prop := m.names.Pairwise (· < ·)

theorem ordered_empty : (empty : NameMap α).Ordered := .nil

theorem mem_names_insertEntry {name key : String} {value : α} {entries : List (String × α)}
    (member : key ∈ (insertEntry name value entries).map (·.1)) : key = name ∨ key ∈ entries.map (·.1) := by
  induction entries with
  | nil => exact .inl (List.mem_singleton.1 member)
  | cons entry rest ih =>
    simp only [insertEntry] at member
    grind

theorem Ordered.insert {m : NameMap α} (ordered : m.Ordered) (name : String) (value : α) :
    (m.insert name value).Ordered := by
  obtain ⟨entries⟩ := m
  simp only [Ordered, names, NameMap.insert] at ordered ⊢
  induction entries with
  | nil => exact List.pairwise_singleton _ _
  | cons entry rest ih =>
    obtain ⟨key, old⟩ := entry
    rw [List.map_cons, List.pairwise_cons] at ordered
    obtain ⟨first, others⟩ := ordered
    rw [insertEntry]
    split
    · next same => exact .cons (same ▸ first) others
    · next other =>
      split
      · next less =>
        refine .cons (fun further member => ?_) (.cons first others)
        rcases List.mem_cons.1 member with rfl | later
        · exact less
        · exact less.trans (first further later)
      · next notLess =>
        refine .cons (fun further member => ?_) (ih others)
        rcases mem_names_insertEntry member with rfl | later
        · exact lt_of_le_of_ne (not_lt.1 notLess) (Ne.symm other)
        · exact first further later

theorem ordered_ofList (entries : List (String × α)) : (ofList entries).Ordered := by
  have fold (m : NameMap α) (ordered : m.Ordered) :
      (entries.foldl (fun m (name, value) => m.insert name value) m).Ordered := by
    induction entries generalizing m with
    | nil => exact ordered
    | cons entry rest ih => exact ih _ (ordered.insert entry.1 entry.2)
  exact fold .empty ordered_empty

/-! ## Related maps -/

/-- The same names with related values. -/
def Related {β : Type} (R : α → β → Prop) (m : NameMap α) (m' : NameMap β) : Prop :=
  List.Forall₂ (fun entry entry' => entry.1 = entry'.1 ∧ R entry.2 entry'.2) m.entries m'.entries

namespace Related

variable {β : Type} {R S : α → β → Prop} {m : NameMap α} {m' : NameMap β}

theorem empty : Related R .empty .empty := .nil

/-- Only the values of the map matter. -/
theorem restrict (related : Related R m m') (kept : ∀ a b, a ∈ m.values → R a b → S a b) :
    Related S m m' := by
  have inside (entry : String × α) (member : entry ∈ m.entries) : entry.2 ∈ m.values :=
    List.mem_map_of_mem member
  refine List.Forall₂.imp ?_ ((List.forall₂_and_left _ _).2 ⟨inside, related⟩)
  rintro _ _ ⟨member, names, values⟩
  exact ⟨names, kept _ _ member values⟩

theorem mono (related : Related R m m') (weaker : ∀ a b, R a b → S a b) : Related S m m' :=
  related.restrict fun a b _ => weaker a b

theorem get? (related : Related R m m') (name : String) :
    Option.Rel R (m.get? name) (m'.get? name) := by
  obtain ⟨entries⟩ := m
  obtain ⟨entries'⟩ := m'
  simp only [NameMap.get?, Related] at related ⊢
  induction related with
  | nil => exact .none
  | @cons entry entry' _ _ both _ ih =>
    obtain ⟨key, value⟩ := entry
    obtain ⟨key', value'⟩ := entry'
    obtain ⟨rfl, values⟩ := both
    rw [lookup_cons, lookup_cons]
    by_cases eq : name = key
    · rw [if_pos eq, if_pos eq]
      exact .some values
    · rw [if_neg eq, if_neg eq]
      exact ih

theorem insert (related : Related R m m') (name : String) {value : α} {value' : β}
    (values : R value value') : Related R (m.insert name value) (m'.insert name value') := by
  obtain ⟨entries⟩ := m
  obtain ⟨entries'⟩ := m'
  simp only [NameMap.insert, Related] at related ⊢
  induction related with
  | nil => exact .cons ⟨rfl, values⟩ .nil
  | @cons entry entry' rest rest' both others ih =>
    obtain ⟨key, old⟩ := entry
    obtain ⟨key', old'⟩ := entry'
    obtain ⟨rfl, olds⟩ := both
    simp only [insertEntry]
    by_cases eq : name = key
    · rw [if_pos eq, if_pos eq]
      exact .cons ⟨rfl, values⟩ others
    · rw [if_neg eq, if_neg eq]
      by_cases less : name < key
      · rw [if_pos less, if_pos less]
        exact .cons ⟨rfl, values⟩ (.cons ⟨rfl, olds⟩ others)
      · rw [if_neg less, if_neg less]
        exact .cons ⟨rfl, olds⟩ ih

theorem isEmpty_eq (related : Related R m m') : m.isEmpty = m'.isEmpty := by
  obtain ⟨entries⟩ := m
  obtain ⟨entries'⟩ := m'
  cases related <;> rfl

end Related

end NameMap

end TinyScript
