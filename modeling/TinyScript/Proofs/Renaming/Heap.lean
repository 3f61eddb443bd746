import TinyScript.Proofs.Heap.Collection
import TinyScript.Proofs.Renaming.Value
import TinyScript.Scope
import TinyScript.Value.Display

/-! # Heaps up to the names of handles

Two heaps are `Renamed` if the handles that a renaming pairs are alive in both and hold renamed objects.
Other objects may be there as well, in one heap or in both: they are garbage, and nobody can look at
them.

Allocation pairs the two new handles, changes of paired objects keep the heaps renamed, and a collection
of one of them does if its roots are paired: it drops the pairs that it frees.  What scripts read off the
heaps, the texts of values above all, is the same.
-/

namespace TinyScript

/-! ## Texts of one heap -/

namespace Heap

variable {h : Heap Object} {depth : Nat} {path : List Handle} {v : Value} {a : Handle}

/-- Different objects are in different slots. -/
theorem length_le_capacity (distinct : path.Nodup) (alive : ∀ a ∈ path, h.contains a = true) :
    path.length ≤ h.capacity := by
  have indices : (path.map (·.index)).Nodup := by
    refine List.Nodup.map_on (fun a left b right same => ?_) distinct
    obtain ⟨x, found⟩ := contains_iff.1 (alive a left)
    obtain ⟨y, found'⟩ := contains_iff.1 (alive b right)
    exact eq_of_get?_of_index_eq found found' same
  have bounded : path.map (·.index) ⊆ List.range h.capacity := by
    intro index member
    obtain ⟨a, inside, rfl⟩ := List.mem_map.1 member
    obtain ⟨x, found⟩ := contains_iff.1 (alive a inside)
    exact List.mem_range.2 (index_lt_of_get? found)
  simpa using (indices.subperm bounded).length_le

theorem displayIn_of_handle?_eq_none (none : v.handle? = none) :
    h.displayIn (depth + 1) path v =
      match v with
      | .scalar (.string text) => if path.isEmpty then text else "\"" ++ text ++ "\""
      | other => other.label := by
  cases v with
  | scalar value => cases value <;> rfl
  | array => cases none
  | object => cases none
  | _ => rfl

theorem displayIn_of_handle?_eq_some (holds : v.handle? = some a) :
    h.displayIn (depth + 1) path v =
      if a ∈ path then "[Circular]"
      else
        match h.get? a with
        | some (.array elements) =>
          "[" ++ String.intercalate ", "
            (elements.toList.map (h.displayIn depth (a :: path))) ++ "]"
        | some (.record fields) =>
          if fields.isEmpty then "\x7b\x7d"
          else "\x7b " ++ String.intercalate ", "
            (fields.entries.map fun entry =>
              entry.1 ++ ": " ++ h.displayIn depth (a :: path) entry.2) ++ " \x7d"
        | _ => v.label := by
  cases v with
  | array handle =>
    cases holds
    rw [displayIn]
    refine if_congr List.contains_iff_mem rfl ?_
    cases h.get? a <;> rfl
  | object handle =>
    cases holds
    rw [displayIn]
    refine if_congr List.contains_iff_mem rfl ?_
    cases h.get? a <;> rfl
  | _ => cases holds

end Heap

/-- Operators on values one of which is no scalar. -/
theorem BinaryOp.onValues_of_not_scalars {op : BinaryOp} {h : Heap Object} {left right : Value}
    (other : ¬∃ a b, left = .scalar a ∧ right = .scalar b) :
    op.onValues h left right =
      match op with
      | .equal => .ok (.boolean (left.same right))
      | .notEqual => .ok (.boolean (!left.same right))
      | .add =>
        if left.kind = .string ∨ right.kind = .string then
          .ok (.string (h.display left ++ h.display right))
        else .error (.typeMismatch op.symbol left.kind right.kind)
      | _ => .error (.typeMismatch op.symbol left.kind right.kind) := by
  cases left with
  | scalar a =>
    cases right with
    | scalar b => exact absurd ⟨a, b, rfl, rfl⟩ other
    | _ => rfl
  | _ => rfl

/-! ## Renamed heaps -/

structure Heap.Renamed (ρ : Renaming) (h h' : Heap Object) : Prop where
  wellFormed : h.WellFormed
  wellFormed' : h'.WellFormed
  unique : Relator.BiUnique ρ
  objects : ∀ a b, ρ a b → ∃ o o', h.get? a = some o ∧ h'.get? b = some o' ∧ o.Renamed ρ o'

namespace Heap.Renamed

variable {ρ : Renaming} {h h' : Heap Object} {a b : Handle} {o o' : Object} {v v' w w' : Value}

theorem empty : Renamed (fun _ _ => False) .empty .empty where
  wellFormed := wellFormed_empty
  wellFormed' := wellFormed_empty
  unique := ⟨fun _ _ _ pair => pair.elim, fun _ _ _ pair => pair.elim⟩
  objects _ _ pair := pair.elim

theorem alive (heaps : Renamed ρ h h') {path path' : List Handle}
    (paths : List.Forall₂ ρ path path') : ∀ a ∈ path, h.contains a = true := by
  induction paths with
  | nil => simp
  | cons pair _ ih =>
    obtain ⟨_, _, found, _⟩ := heaps.objects _ _ pair
    simpa using ⟨contains_iff.2 ⟨_, found⟩, ih⟩

theorem alive' (heaps : Renamed ρ h h') {path path' : List Handle}
    (paths : List.Forall₂ ρ path path') : ∀ b ∈ path', h'.contains b = true := by
  induction paths with
  | nil => simp
  | cons pair _ ih =>
    obtain ⟨_, _, _, found, _⟩ := heaps.objects _ _ pair
    simpa using ⟨contains_iff.2 ⟨_, found⟩, ih⟩

/-! ## Operations -/

/-- The new handles are paired with each other, and all other pairs stay. -/
theorem allocate (heaps : Renamed ρ h h') (object : o.Renamed ρ o') :
    ∃ σ : Renaming, (∀ a b, ρ a b → σ a b) ∧ σ (h.allocate o).1 (h'.allocate o').1 ∧
      Renamed σ (h.allocate o).2 (h'.allocate o').2 := by
  have exact := heaps.wellFormed.toFreeListExact
  have exact' := heaps.wellFormed'.toFreeListExact
  have fresh (a b : Handle) (pair : ρ a b) : a ≠ (h.allocate o).1 := by
    rintro rfl
    obtain ⟨_, _, found, _⟩ := heaps.objects _ _ pair
    rw [get?_allocate_fst exact] at found
    cases found
  have fresh' (a b : Handle) (pair : ρ a b) : b ≠ (h'.allocate o').1 := by
    rintro rfl
    obtain ⟨_, _, _, found, _⟩ := heaps.objects _ _ pair
    rw [get?_allocate_fst exact'] at found
    cases found
  let σ : Renaming := fun a b => ρ a b ∨ a = (h.allocate o).1 ∧ b = (h'.allocate o').1
  have more (a b : Handle) (pair : ρ a b) : σ a b := .inl pair
  refine ⟨σ, more, .inr ⟨rfl, rfl⟩, heaps.wellFormed.allocate o, heaps.wellFormed'.allocate o',
    ⟨?_, ?_⟩, ?_⟩
  · rintro a c b (left | ⟨rfl, rfl⟩) (right | ⟨rfl, eq⟩)
    · exact heaps.unique.1 left right
    · exact absurd eq (fresh' _ _ left)
    · exact absurd rfl (fresh' _ _ right)
    · rfl
  · rintro a b c (left | ⟨rfl, rfl⟩) (right | ⟨eq, rfl⟩)
    · exact heaps.unique.2 left right
    · exact absurd eq (fresh _ _ left)
    · exact absurd rfl (fresh _ _ right)
    · rfl
  · rintro a b (pair | ⟨rfl, rfl⟩)
    · obtain ⟨x, x', found, found', renamed⟩ := heaps.objects a b pair
      refine ⟨x, x', ?_, ?_, renamed.mono more⟩
      · rw [get?_allocate exact, if_neg (fresh a b pair), found]
      · rw [get?_allocate exact', if_neg (fresh' a b pair), found']
    · refine ⟨o, o', ?_, ?_, object.mono more⟩
      · rw [get?_allocate exact, if_pos rfl]
      · rw [get?_allocate exact', if_pos rfl]

theorem update (heaps : Renamed ρ h h') (pair : ρ a b) {f f' : Object → Object}
    (change : ∀ o o', o.Renamed ρ o' → (f o).Renamed ρ (f' o')) :
    Renamed ρ (h.update a f) (h'.update b f') where
  wellFormed := heaps.wellFormed.update a f
  wellFormed' := heaps.wellFormed'.update b f'
  unique := heaps.unique
  objects c d other := by
    obtain ⟨x, x', found, found', renamed⟩ := heaps.objects c d other
    have both : c = a ↔ d = b := Relator.rel_eq heaps.unique other pair
    rw [get?_update, get?_update]
    by_cases here : c = a
    · rw [if_pos here, if_pos (both.1 here), ← here, ← both.1 here, found, found']
      exact ⟨f x, f' x', rfl, rfl, change x x' renamed⟩
    · rw [if_neg here, if_neg (mt both.2 here)]
      exact ⟨x, x', found, found', renamed⟩

/-- Only pairs that are reached survive, but all those do. -/
theorem collect (heaps : Renamed ρ h h') (roots : List Handle) :
    Renamed (fun a b => ρ a b ∧ h.Reaches roots a) (h.collect roots).2 h' where
  wellFormed := heaps.wellFormed.collect roots
  wellFormed' := heaps.wellFormed'
  unique := ⟨fun _ _ _ left right => heaps.unique.1 left.1 right.1,
    fun _ _ _ left right => heaps.unique.2 left.1 right.1⟩
  objects a b pair := by
    obtain ⟨pair, reached⟩ := pair
    obtain ⟨x, x', found, found', renamed⟩ := heaps.objects a b pair
    refine ⟨x, x', ?_, found', renamed.restrict fun c d member edge => ⟨edge, ?_⟩⟩
    · rw [get?_collect_of_reaches heaps.wellFormed reached, found]
    · obtain ⟨y, _, alive, _⟩ := heaps.objects c d edge
      exact reached.step found member (contains_iff.2 ⟨y, alive⟩)

/-! ## Texts -/

/-- Texts that are related element by element are the same. -/
theorem map_eq_of_forall₂ {α β : Type} {R : α → β → Prop} {xs : List α} {ys : List β}
    (related : List.Forall₂ R xs ys) {f : α → String} {g : β → String}
    (same : ∀ x y, R x y → f x = g y) : xs.map f = ys.map g := by
  induction related with
  | nil => rfl
  | cons first _ ih => rw [List.map_cons, List.map_cons, same _ _ first, ih]

/-- The depths do not matter as long as no path can be deeper. -/
theorem displayIn_eq (heaps : Renamed ρ h h') {depth depth' : Nat} {path path' : List Handle}
    (paths : List.Forall₂ ρ path path') (distinct : path.Nodup)
    (deep : h.capacity < depth + path.length) (deep' : h'.capacity < depth' + path'.length)
    (value : v.Renamed ρ v') : h.displayIn depth path v = h'.displayIn depth' path' v' := by
  induction depth generalizing depth' path path' v v' with
  | zero =>
    have short := length_le_capacity distinct (heaps.alive paths)
    omega
  | succ depth ih =>
    cases depth' with
    | zero =>
      have short := length_le_capacity ((List.rel_nodup heaps.unique paths).1 distinct)
        (heaps.alive' paths)
      omega
    | succ depth' =>
      rcases value.handle_cases with ⟨rfl, none⟩ | ⟨a, b, holds, holds', pair⟩
      · rw [displayIn_of_handle?_eq_none none, displayIn_of_handle?_eq_none none]
        cases paths <;> rfl
      · rw [displayIn_of_handle?_eq_some holds, displayIn_of_handle?_eq_some holds']
        have member : a ∈ path ↔ b ∈ path' := List.rel_mem heaps.unique pair paths
        by_cases inside : a ∈ path
        · rw [if_pos inside, if_pos (member.1 inside)]
        · rw [if_neg inside, if_neg (mt member.2 inside)]
          have below {w w' : Value} (element : w.Renamed ρ w') :
              h.displayIn depth (a :: path) w = h'.displayIn depth' (b :: path') w' := by
            refine ih (.cons pair paths) (.cons inside distinct) ?_ ?_ element
            · rw [List.length_cons]
              omega
            · rw [List.length_cons]
              omega
          obtain ⟨x, x', found, found', renamed⟩ := heaps.objects a b pair
          rw [found, found']
          cases renamed with
          | binding => exact value.label_eq
          | array elements =>
            simp only [map_eq_of_forall₂ elements fun _ _ element => below element]
          | @record fields fields' related =>
            have texts : (fields.entries.map fun entry =>
                entry.1 ++ ": " ++ h.displayIn depth (a :: path) entry.2) =
                  fields'.entries.map fun entry =>
                    entry.1 ++ ": " ++ h'.displayIn depth' (b :: path') entry.2 :=
              map_eq_of_forall₂ related fun entry entry' both => by rw [both.1, below both.2]
            simp only [related.isEmpty_eq, texts]

theorem display_eq (heaps : Renamed ρ h h') (value : v.Renamed ρ v') :
    h.display v = h'.display v' :=
  heaps.displayIn_eq .nil .nil (Nat.lt_succ_self _) (Nat.lt_succ_self _) value

/-! ## Operators and properties -/

theorem onValues (heaps : Renamed ρ h h') (op : BinaryOp) (left : v.Renamed ρ v')
    (right : w.Renamed ρ w') :
    SameResult (Value.Renamed ρ) (op.onValues h v w) (op.onValues h' v' w') := by
  by_cases scalars : ∃ a b, v = .scalar a ∧ w = .scalar b
  · obtain ⟨a, b, rfl, rfl⟩ := scalars
    cases left
    cases right
    simp only [BinaryOp.onValues]
    cases op.onScalars a b with
    | ok value => exact .ok (.scalar value)
    | error e => exact .error e
  · have scalars' : ¬∃ a b, v' = .scalar a ∧ w' = .scalar b := by
      rintro ⟨a, b, rfl, rfl⟩
      cases left
      cases right
      exact scalars ⟨a, b, rfl, rfl⟩
    rw [BinaryOp.onValues_of_not_scalars scalars, BinaryOp.onValues_of_not_scalars scalars',
      left.same_eq heaps.unique right, left.kind_eq, right.kind_eq, heaps.display_eq left,
      heaps.display_eq right]
    cases op with
    | equal => exact .ok (.scalar _)
    | notEqual => exact .ok (.scalar _)
    | add =>
      simp only
      split
      · exact .ok (.scalar _)
      · exact .error _
    | _ => exact .error _

theorem elements? (heaps : Renamed ρ h h') (pair : ρ a b) :
    Option.Rel (fun xs ys => List.Forall₂ (Value.Renamed ρ) xs.toList ys.toList)
      (h.elements? a) (h'.elements? b) := by
  obtain ⟨x, x', found, found', renamed⟩ := heaps.objects a b pair
  simp only [Heap.elements?, found, found']
  cases renamed with
  | array elements => exact .some elements
  | _ => exact .none

theorem readProperty (heaps : Renamed ρ h h') (receiver : v.Renamed ρ v') (property : String) :
    SameResult (Value.Renamed ρ) (readProperty h v property) (readProperty h' v' property) := by
  cases receiver with
  | @array a b pair =>
    simp only [TinyScript.readProperty]
    by_cases length : property = "length"
    · rw [if_pos length, if_pos length]
      have related := heaps.elements? pair
      generalize h.elements? a = x at related ⊢
      generalize h'.elements? b = y at related ⊢
      cases related with
      | @some xs ys elements =>
        have size : xs.size = ys.size := elements.length_eq
        simp only [size]
        exact .ok (.scalar _)
      | none => exact .ok .undefined
    · rw [if_neg length, if_neg length]
      exact .ok .undefined
  | @object a b pair =>
    obtain ⟨x, x', found, found', renamed⟩ := heaps.objects a b pair
    simp only [TinyScript.readProperty, found, found']
    cases renamed with
    | @record fields fields' related =>
      have value := related.get? property
      simp only
      generalize fields.get? property = x at value ⊢
      generalize fields'.get? property = y at value ⊢
      cases value with
      | some value => exact .ok value
      | none => exact .ok .undefined
    | _ => exact .ok .undefined
  | scalar value =>
    cases value with
    | string text => exact .ok (by split <;> exact .scalar _)
    | _ => exact .error _
  | _ => exact .error _

end Heap.Renamed

end TinyScript
