import Mathlib.Data.List.Forall2
import TinyScript.Proofs.Renaming.Heap

/-! # What values hold

The contents of a value are the value with every handle in it replaced by what the handle resolves to,
down to scalars.  `Heap.contents?` computes them.

* `contents?_of_contentsIn`: the depth that `contents?` goes to is enough for every value that has
  contents at all, since an array or object on a path below a value is smaller than those above it, so
  that all of them are different;
* `contentsIn_of_agree`: the contents of a value are the same on every heap with the same arrays and
  records, or at least with the same ones where the value leads to.  So they outlive allocations, changes
  of binding cells and collections.
-/

namespace TinyScript

/-- A value with all that it holds. -/
inductive DeepValue where
  | scalar (value : Scalar)
  | array (elements : List DeepValue)
  | record (fields : NameMap DeepValue)
  | function (code : Function)
  | library (name : String)

namespace DeepValue

theorem sizeOf_element {t : DeepValue} {contents : List DeepValue} (member : t ∈ contents) :
    sizeOf t < sizeOf (DeepValue.array contents) := by
  have := List.sizeOf_lt_of_mem member
  rw [DeepValue.array.sizeOf_spec]
  omega

theorem sizeOf_field {t : DeepValue} {contents : NameMap DeepValue} (member : t ∈ contents.values) :
    sizeOf t < sizeOf (DeepValue.record contents) := by
  obtain ⟨⟨name, t⟩, inside, rfl⟩ := List.mem_map.1 member
  have := List.sizeOf_lt_of_mem inside
  obtain ⟨entries⟩ := contents
  simp only [DeepValue.record.sizeOf_spec, NameMap.mk.sizeOf_spec, Prod.mk.sizeOf_spec] at this ⊢
  omega

end DeepValue

namespace Heap

/-- The contents of a value, if no more than `depth` arrays and objects are nested in it and all of them
are there. -/
def contentsIn (h : Heap Object) : (depth : Nat) → Value → Option DeepValue
  | _, .scalar value => some (.scalar value)
  | _, .function code => some (.function code)
  | _, .library name => some (.library name)
  | 0, _ => none
  | depth + 1, .array handle =>
    match h.get? handle with
    | some (.array elements) => (elements.toList.mapM (h.contentsIn depth)).map .array
    | _ => none
  | depth + 1, .object handle =>
    match h.get? handle with
    | some (.record fields) =>
      (fields.entries.mapM fun entry => (h.contentsIn depth entry.2).map (entry.1, ·)).map
        fun entries => .record ⟨entries⟩
    | _ => none

/-- The contents of a value; `none` if a handle in it is stale, or if it holds itself. -/
def contents? (h : Heap Object) (value : Value) : Option DeepValue := h.contentsIn h.capacity value

/-! ## Arrays and objects -/

theorem mapM_eq_some_iff {α β : Type} {f : α → Option β} {xs : List α} {ys : List β} :
    xs.mapM f = some ys ↔ List.Forall₂ (fun x y => f x = some y) xs ys := by
  induction xs generalizing ys with
  | nil => simp [eq_comm]
  | cons x xs ih =>
    simp only [List.mapM_cons, bind, pure, Option.bind_eq_some_iff, Option.some.injEq,
      List.forall₂_cons_left_iff, ih]
    grind

/-- Only the members of the lists matter. -/
theorem forall₂_imp_of_mem {α β : Type} {R S : α → β → Prop} {xs : List α} {ys : List β}
    (related : List.Forall₂ R xs ys) (kept : ∀ x ∈ xs, ∀ y ∈ ys, R x y → S x y) :
    List.Forall₂ S xs ys := by
  induction related with
  | nil => exact .nil
  | cons first rest ih =>
    refine .cons (kept _ (by simp) _ (by simp) first) (ih fun x left y right => ?_)
    exact kept x (by simp [left]) y (by simp [right])

variable {h k : Heap Object} {depth : Nat} {a : Handle} {v : Value} {t : DeepValue}

theorem contentsIn_array : h.contentsIn (depth + 1) (.array a) = some t ↔
    ∃ elements contents, h.get? a = some (.array elements) ∧ t = .array contents ∧
      List.Forall₂ (fun v t => h.contentsIn depth v = some t) elements.toList contents := by
  rw [contentsIn]
  cases found : h.get? a with
  | none => simp
  | some o =>
    cases o with
    | array elements =>
      simp only [Option.map_eq_some_iff, mapM_eq_some_iff]
      grind
    | _ => simp

theorem contentsIn_object : h.contentsIn (depth + 1) (.object a) = some t ↔
    ∃ fields contents, h.get? a = some (.record fields) ∧ t = .record contents ∧
      fields.Related (fun v t => h.contentsIn depth v = some t) contents := by
  rw [contentsIn]
  cases found : h.get? a with
  | none => simp
  | some o =>
    cases o with
    | record fields =>
      have entry (e : String × Value) (e' : String × DeepValue) :
          (h.contentsIn depth e.2).map (e.1, ·) = some e' ↔
            e.1 = e'.1 ∧ h.contentsIn depth e.2 = some e'.2 := by
        obtain ⟨name, value⟩ := e'
        cases h.contentsIn depth e.2 <;> simp
      simp only [Option.map_eq_some_iff, mapM_eq_some_iff, NameMap.Related, entry]
      constructor
      · rintro ⟨entries, related, rfl⟩
        exact ⟨fields, ⟨entries⟩, rfl, rfl, related⟩
      · rintro ⟨_, contents, same, rfl, related⟩
        cases same
        exact ⟨contents.entries, related, rfl⟩
    | _ => simp

/-- What holds nothing has its contents at every depth. -/
theorem contentsIn_of_handle?_eq_none (none : v.handle? = none) :
    h.contentsIn depth v = h.contentsIn 0 v := by
  cases v with
  | array => cases none
  | object => cases none
  | _ => cases depth <;> rfl

theorem contentsIn_succ (shown : h.contentsIn depth v = some t) :
    h.contentsIn (depth + 1) v = some t := by
  induction depth generalizing v t with
  | zero =>
    cases v with
    | array => cases shown
    | object => cases shown
    | _ => exact shown
  | succ depth ih =>
    cases v with
    | array handle =>
      obtain ⟨elements, contents, found, rfl, all⟩ := contentsIn_array.1 shown
      exact contentsIn_array.2 ⟨elements, contents, found, rfl, all.imp fun _ _ => ih⟩
    | object handle =>
      obtain ⟨fields, contents, found, rfl, all⟩ := contentsIn_object.1 shown
      exact contentsIn_object.2 ⟨fields, contents, found, rfl, all.mono fun _ _ => ih⟩
    | _ => exact shown

theorem contentsIn_mono {deeper : Nat} (more : depth ≤ deeper)
    (shown : h.contentsIn depth v = some t) : h.contentsIn deeper v = some t := by
  induction more with
  | refl => exact shown
  | step _ ih => exact contentsIn_succ ih

theorem contentsIn_unique {depth' : Nat} {t' : DeepValue} (left : h.contentsIn depth v = some t)
    (right : h.contentsIn depth' v = some t') : t = t' := by
  have deeper := contentsIn_mono (Nat.le_max_left depth depth') left
  rw [contentsIn_mono (Nat.le_max_right depth depth') right] at deeper
  exact (Option.some.inj deeper).symm

/-- A value with contents has a handle that resolves, or none. -/
theorem contains_of_contentsIn (holds : v.handle? = some a) (shown : h.contentsIn depth v = some t) :
    h.contains a = true := by
  cases depth with
  | zero => cases v <;> cases holds <;> cases shown
  | succ depth =>
    cases v with
    | array handle =>
      cases holds
      obtain ⟨_, _, found, _⟩ := contentsIn_array.1 shown
      exact contains_iff.2 ⟨_, found⟩
    | object handle =>
      cases holds
      obtain ⟨_, _, found, _⟩ := contentsIn_object.1 shown
      exact contains_iff.2 ⟨_, found⟩
    | _ => cases holds

/-! ## The depth of a value -/

/-- Values with contents and the same handle are equal: the object that the handle resolves to is of one
kind. -/
theorem eq_of_handle?_eq {w : Value} {depth' : Nat} {t' : DeepValue} (left : v.handle? = some a)
    (right : w.handle? = some a) (shown : h.contentsIn depth v = some t)
    (shown' : h.contentsIn depth' w = some t') : v = w := by
  have deeper := contentsIn_succ shown
  have deeper' := contentsIn_succ shown'
  cases v with
  | array handle =>
    cases left
    cases w with
    | array handle =>
      cases right
      rfl
    | object handle =>
      cases right
      obtain ⟨_, _, found, _⟩ := contentsIn_array.1 deeper
      obtain ⟨_, _, found', _⟩ := contentsIn_object.1 deeper'
      cases found.symm.trans found'
    | _ => cases right
  | object handle =>
    cases left
    cases w with
    | array handle =>
      cases right
      obtain ⟨_, _, found, _⟩ := contentsIn_object.1 deeper
      obtain ⟨_, _, found', _⟩ := contentsIn_array.1 deeper'
      cases found.symm.trans found'
    | object handle =>
      cases right
      rfl
    | _ => cases right
  | _ => cases left

/-- The handle leads to a value whose contents are larger than the given ones. -/
def Above (h : Heap Object) (t : DeepValue) (p : Handle) : Prop :=
  ∃ (w : Value) (depth : Nat) (larger : DeepValue), w.handle? = some p ∧
    h.contentsIn depth w = some larger ∧ sizeOf t < sizeOf larger

theorem Above.below {p : Handle} {s : DeepValue} (above : h.Above t p) (smaller : sizeOf s < sizeOf t) :
    h.Above s p := by
  obtain ⟨w, depth, larger, holds, shown, less⟩ := above
  exact ⟨w, depth, larger, holds, shown, Nat.lt_trans smaller less⟩

/-- A value is not among those above it: their contents are larger. -/
theorem not_mem_of_above {path : List Handle} (above : ∀ p ∈ path, h.Above t p)
    (holds : v.handle? = some a) (shown : h.contentsIn depth v = some t) : a ∉ path := by
  intro member
  obtain ⟨w, _, larger, holds', shown', less⟩ := above a member
  obtain rfl := eq_of_handle?_eq holds holds' shown shown'
  rw [contentsIn_unique shown shown'] at less
  exact Nat.lt_irrefl _ less

/-- Below the arrays and objects of a path there are at most as many levels as there are other slots. -/
theorem contentsIn_of_path {path : List Handle} {deep : Nat} (distinct : path.Nodup)
    (above : ∀ p ∈ path, h.Above t p) (enough : h.capacity ≤ deep + path.length)
    (shown : h.contentsIn depth v = some t) : h.contentsIn deep v = some t := by
  induction deep generalizing depth path v t with
  | zero =>
    cases holds : v.handle? with
    | none => rwa [contentsIn_of_handle?_eq_none holds] at shown
    | some a =>
      -- The path and the value itself would fill more slots than there are.
      have alive : ∀ p ∈ a :: path, h.contains p = true := by
        intro p member
        rcases List.mem_cons.1 member with rfl | higher
        · exact contains_of_contentsIn holds shown
        · obtain ⟨w, _, _, holds', shown', _⟩ := above p higher
          exact contains_of_contentsIn holds' shown'
      have short := length_le_capacity (.cons (not_mem_of_above above holds shown) distinct) alive
      rw [List.length_cons] at short
      omega
  | succ deep ih =>
    have below {a : Handle} (holds : v.handle? = some a) {depth' : Nat} {w : Value} {s : DeepValue}
        (smaller : sizeOf s < sizeOf t) (element : h.contentsIn depth' w = some s) :
        h.contentsIn deep w = some s := by
      refine ih (.cons (not_mem_of_above above holds shown) distinct) (fun p member => ?_) ?_ element
      · rcases List.mem_cons.1 member with rfl | higher
        · exact ⟨v, depth, t, holds, shown, smaller⟩
        · exact (above p higher).below smaller
      · rw [List.length_cons]
        omega
    have deeper := contentsIn_succ shown
    cases v with
    | array handle =>
      obtain ⟨elements, contents, found, rfl, all⟩ := contentsIn_array.1 deeper
      refine contentsIn_array.2 ⟨elements, contents, found, rfl, ?_⟩
      exact forall₂_imp_of_mem all fun w _ s member element =>
        below rfl (DeepValue.sizeOf_element member) element
    | object handle =>
      obtain ⟨fields, contents, found, rfl, all⟩ := contentsIn_object.1 deeper
      refine contentsIn_object.2 ⟨fields, contents, found, rfl, ?_⟩
      exact forall₂_imp_of_mem all fun entry _ entry' member both =>
        ⟨both.1, below rfl (DeepValue.sizeOf_field (List.mem_map_of_mem member)) both.2⟩
    | _ => exact deeper

/-- A value that has contents at some depth has them at the one that is looked at. -/
theorem contents?_of_contentsIn (shown : h.contentsIn depth v = some t) : h.contents? v = some t := by
  refine contentsIn_of_path List.nodup_nil (fun p member => ?_) (Nat.le_refl _) shown
  cases member

/-! ## Other heaps -/

/-- Contents depend only on the arrays and records that a value leads to. -/
theorem contentsIn_of_agree (inside : Handle → Prop)
    (agree : ∀ a o, inside a → h.get? a = some o → (∀ v, o ≠ .binding v) → k.get? a = some o)
    (closed : ∀ a o, inside a → h.get? a = some o → ∀ b ∈ o.handles, h.contains b = true → inside b)
    (start : ∀ a, v.handle? = some a → h.contains a = true → inside a)
    (shown : h.contentsIn depth v = some t) : k.contentsIn depth v = some t := by
  induction depth generalizing v t with
  | zero => cases v <;> exact shown
  | succ depth ih =>
    cases v with
    | array handle =>
      obtain ⟨elements, contents, found, rfl, all⟩ := contentsIn_array.1 shown
      have here := start handle rfl (contains_iff.2 ⟨_, found⟩)
      refine contentsIn_array.2 ⟨elements, contents, agree _ _ here found (by simp), rfl, ?_⟩
      refine forall₂_imp_of_mem all fun w member s _ element => ih (fun b holds alive => ?_) element
      exact closed _ _ here found b (List.mem_filterMap.2 ⟨w, member, holds⟩) alive
    | object handle =>
      obtain ⟨fields, contents, found, rfl, all⟩ := contentsIn_object.1 shown
      have here := start handle rfl (contains_iff.2 ⟨_, found⟩)
      refine contentsIn_object.2 ⟨fields, contents, agree _ _ here found (by simp), rfl, ?_⟩
      refine all.restrict fun w s member element => ih (fun b holds alive => ?_) element
      exact closed _ _ here found b (List.mem_filterMap.2 ⟨w, member, holds⟩) alive
    | _ => exact shown

/-- New objects and changes of binding cells leave the contents of values as they are. -/
theorem contents?_of_grown
    (kept : ∀ a o, h.get? a = some o → (∀ v, o ≠ .binding v) → k.get? a = some o)
    (shown : h.contents? v = some t) : k.contents? v = some t :=
  contents?_of_contentsIn (contentsIn_of_agree (fun _ => True) (fun a o _ => kept a o)
    (fun _ _ _ _ _ _ _ => trivial) (fun _ _ _ => trivial) shown)

/-- Every object is still there, as it was. -/
def Keeps (h k : Heap Object) : Prop := ∀ a o, h.get? a = some o → k.get? a = some o

theorem Keeps.refl (h : Heap Object) : h.Keeps h := fun _ _ found => found

theorem Keeps.trans {l : Heap Object} (first : h.Keeps k) (second : k.Keeps l) : h.Keeps l :=
  fun a o found => second a o (first a o found)

theorem Keeps.contents? (keeps : h.Keeps k) (shown : h.contents? v = some t) : k.contents? v = some t :=
  contents?_of_grown (fun a o found _ => keeps a o found) shown

theorem keeps_allocate (exact : h.FreeListExact) (o : Object) : h.Keeps (h.allocate o).2 := by
  intro a p found
  rw [get?_allocate exact, if_neg, found]
  rintro rfl
  rw [get?_allocate_fst exact] at found
  cases found

theorem contents?_update {old : Value} (cell : h.get? a = some (.binding old)) (new : Value)
    (shown : h.contents? v = some t) :
    (h.update a fun _ => .binding new).contents? v = some t := by
  refine contents?_of_grown (fun b o found other => ?_) shown
  rw [get?_update_of_ne, found]
  rintro rfl
  exact other old (Option.some.inj (found.symm.trans cell))

/-- A collection leaves the contents of a value whose handle it reaches as they are. -/
theorem contents?_collect (wf : h.WellFormed) {roots : List Handle}
    (reached : ∀ a, v.handle? = some a → h.contains a = true → h.Reaches roots a)
    (shown : h.contents? v = some t) : (h.collect roots).2.contents? v = some t := by
  refine contents?_of_contentsIn (contentsIn_of_agree (h.Reaches roots) (fun a o here found _ => ?_)
    (fun a o here found b edge alive => ?_) reached shown)
  · rw [get?_collect_of_reaches wf here, found]
  · exact here.step found edge alive

theorem contents?_array {elements : Array Value} {contents : List DeepValue}
    (found : h.get? a = some (.array elements))
    (all : List.Forall₂ (fun v t => h.contents? v = some t) elements.toList contents) :
    h.contents? (.array a) = some (.array contents) :=
  contents?_of_contentsIn (contentsIn_array.2 ⟨elements, contents, found, rfl, all⟩)

theorem contents?_object {fields : NameMap Value} {contents : NameMap DeepValue}
    (found : h.get? a = some (.record fields))
    (all : fields.Related (fun v t => h.contents? v = some t) contents) :
    h.contents? (.object a) = some (.record contents) :=
  contents?_of_contentsIn (contentsIn_object.2 ⟨fields, contents, found, rfl, all⟩)

end Heap

end TinyScript
