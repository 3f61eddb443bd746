import TinyScript.Proofs.Renaming.Heap

/-! # What the text of a value shows

A heap is a graph, in which arrays and objects may hold each other and themselves.  The text of a value
shows a tree: the `Unfolding` of the value, in which an array or object that is among its own ancestors is
cut off.  `Heap.Unfolds` relates the two, given the handles of the ancestors, innermost first, and speaks of
no depth.

Every value has one unfolding on every heap, whatever is circular, shared or freed there, and it is the one
that `Heap.display` writes out (`Heap.Unfolds.unique`, `Heap.exists_unfolds`).  Ancestors that a value does
not lead back to make no difference to it, so what is merely shared is shown in full in every place
(`Heap.Unfolds.of_unreached`).
-/

namespace TinyScript

/-! ## Trees -/

/-- A value with all that its text shows. -/
inductive Unfolding where
  /-- A value that holds no others, or whose handle leads nowhere. -/
  | leaf (value : Value)
  /-- An array or object inside of itself. -/
  | circular
  | array (elements : List Unfolding)
  | record (names : List String) (values : List Unfolding)

/-- Strings are quoted inside of arrays and objects. -/
def Value.leafText (nested : Bool) : Value → String
  | .scalar (.string text) => if nested then "\"" ++ text ++ "\"" else text
  | other => other.label

/-- Nothing with a handle is a string. -/
theorem Value.leafText_of_handle? {v : Value} {a : Handle} (holds : v.handle? = some a) (nested : Bool) :
    v.leafText nested = v.label := by
  cases v with
  | scalar value => cases holds
  | _ => rfl

namespace Unfolding

mutual

def text (nested : Bool) : Unfolding → String
  | leaf value => value.leafText nested
  | circular => "[Circular]"
  | array elements => "[" ++ String.intercalate ", " (texts elements) ++ "]"
  | record names values =>
    if names.isEmpty then "\x7b\x7d"
    else "\x7b " ++ String.intercalate ", "
      (List.zipWith (fun name value => name ++ ": " ++ value) names (texts values)) ++ " \x7d"

def texts : List Unfolding → List String
  | [] => []
  | t :: rest => t.text true :: texts rest

end

/-- The text of an object lists the names in the order of the map. -/
theorem text_record {fields : NameMap Value} {display : Value → String} {trees : List Unfolding}
    (same : fields.values.map display = texts trees) (nested : Bool) :
    (record fields.names trees).text nested =
      if fields.isEmpty then "\x7b\x7d"
      else "\x7b " ++ String.intercalate ", "
        (fields.entries.map fun entry => entry.1 ++ ": " ++ display entry.2) ++ " \x7d" := by
  have empty : fields.names.isEmpty = fields.isEmpty := by simp [NameMap.names, NameMap.isEmpty]
  rw [text, empty, ← same, NameMap.names, NameMap.values, List.map_map, List.zipWith_map, List.zipWith_self]
  rfl

/-- The tree itself and all that is nested in it. -/
inductive Has : Unfolding → Unfolding → Prop where
  | self (t : Unfolding) : Has t t
  | element {t s : Unfolding} {elements : List Unfolding} : t ∈ elements → Has t s →
      Has (.array elements) s
  | field {t s : Unfolding} {names : List String} {values : List Unfolding} : t ∈ values → Has t s →
      Has (.record names values) s

/-- The fields of all objects in the tree are in the order of their names. -/
def Ordered (t : Unfolding) : Prop :=
  ∀ names values, t.Has (.record names values) → names.Pairwise (· < ·)

end Unfolding

/-! ## Unfolding a value -/

namespace Heap

mutual

/-- The unfolding of a value that is inside of the arrays and objects of `path`. -/
inductive Unfolds (h : Heap Object) : (path : List Handle) → Value → Unfolding → Prop where
  /-- The value has no handle, or one that leads to no array or record. -/
  | leaf {path : List Handle} {v : Value} : (∀ a, v.handle? = some a → a ∉ path ∧
      (∀ elements, h.get? a ≠ some (.array elements)) ∧ ∀ fields, h.get? a ≠ some (.record fields)) →
      Unfolds h path v (.leaf v)
  | circular {path : List Handle} {v : Value} {a : Handle} : v.handle? = some a → a ∈ path →
      Unfolds h path v .circular
  | array {path : List Handle} {v : Value} {a : Handle} {elements : Array Value}
      {trees : List Unfolding} : v.handle? = some a → a ∉ path → h.get? a = some (.array elements) →
      UnfoldsAll h (a :: path) elements.toList trees → Unfolds h path v (.array trees)
  | record {path : List Handle} {v : Value} {a : Handle} {fields : NameMap Value}
      {trees : List Unfolding} : v.handle? = some a → a ∉ path → h.get? a = some (.record fields) →
      UnfoldsAll h (a :: path) fields.values trees → Unfolds h path v (.record fields.names trees)

inductive UnfoldsAll (h : Heap Object) : (path : List Handle) → List Value → List Unfolding → Prop where
  | nil {path : List Handle} : UnfoldsAll h path [] []
  | cons {path : List Handle} {v : Value} {t : Unfolding} {values : List Value}
      {trees : List Unfolding} : Unfolds h path v t → UnfoldsAll h path values trees →
      UnfoldsAll h path (v :: values) (t :: trees)

end

variable {h : Heap Object} {path : List Handle} {v : Value} {t : Unfolding}

mutual

/-- A value has but one unfolding. -/
theorem Unfolds.unique {path : List Handle} {v : Value} {s t : Unfolding} (left : h.Unfolds path v s)
    (right : h.Unfolds path v t) : s = t := by
  -- The rules exclude each other: a handle is on the path or it is not, and it leads to one object.
  cases left with
  | leaf plain =>
    cases right with
    | leaf => rfl
    | circular holds member => exact absurd member (plain _ holds).1
    | array holds _ found => exact absurd found ((plain _ holds).2.1 _)
    | record holds _ found => exact absurd found ((plain _ holds).2.2 _)
  | circular holds member =>
    cases right with
    | leaf plain => exact absurd member (plain _ holds).1
    | circular => rfl
    | array holds' outside | record holds' outside =>
      cases holds.symm.trans holds'
      exact absurd member outside
  | array holds outside found all =>
    cases right with
    | leaf plain => exact absurd found ((plain _ holds).2.1 _)
    | circular holds' member =>
      cases holds.symm.trans holds'
      exact absurd member outside
    | array holds' _ found' all' =>
      cases holds.symm.trans holds'
      cases found.symm.trans found'
      rw [all.unique all']
    | record holds' _ found' =>
      cases holds.symm.trans holds'
      cases found.symm.trans found'
  | record holds outside found all =>
    cases right with
    | leaf plain => exact absurd found ((plain _ holds).2.2 _)
    | circular holds' member =>
      cases holds.symm.trans holds'
      exact absurd member outside
    | array holds' _ found' =>
      cases holds.symm.trans holds'
      cases found.symm.trans found'
    | record holds' _ found' all' =>
      cases holds.symm.trans holds'
      cases found.symm.trans found'
      rw [all.unique all']

theorem UnfoldsAll.unique {path : List Handle} {values : List Value} {ss ts : List Unfolding}
    (left : h.UnfoldsAll path values ss) (right : h.UnfoldsAll path values ts) : ss = ts := by
  cases left with
  | nil =>
    cases right
    rfl
  | cons first rest =>
    cases right with
    | cons first' rest' => rw [first.unique first', rest.unique rest']

end

/-! ## Other paths -/

mutual

/-- Only those ancestors matter that the value leads to: `inside` are the handles that it does. -/
theorem Unfolds.of_agree (inside : Handle → Prop)
    (closed : ∀ a o, inside a → h.get? a = some o → ∀ b ∈ o.handles, inside b)
    {path path' : List Handle} {v : Value} {t : Unfolding} (unfolds : h.Unfolds path v t)
    (agree : ∀ a, inside a → (a ∈ path ↔ a ∈ path')) (start : ∀ a, v.handle? = some a → inside a) :
    h.Unfolds path' v t := by
  cases unfolds with
  | leaf plain => exact .leaf fun a holds => (plain a holds).imp_left (mt (agree a (start a holds)).2)
  | circular holds member => exact .circular holds ((agree _ (start _ holds)).1 member)
  | @array _ _ a _ _ holds outside found all =>
    have here := start a holds
    refine .array holds (mt (agree a here).2 outside) found (all.of_agree inside closed ?_ ?_)
    · exact fun b within => by simp only [List.mem_cons, agree b within]
    · exact fun w member b holds' => closed a _ here found b (List.mem_filterMap.2 ⟨w, member, holds'⟩)
  | @record _ _ a _ _ holds outside found all =>
    have here := start a holds
    refine .record holds (mt (agree a here).2 outside) found (all.of_agree inside closed ?_ ?_)
    · exact fun b within => by simp only [List.mem_cons, agree b within]
    · exact fun w member b holds' => closed a _ here found b (List.mem_filterMap.2 ⟨w, member, holds'⟩)

theorem UnfoldsAll.of_agree (inside : Handle → Prop)
    (closed : ∀ a o, inside a → h.get? a = some o → ∀ b ∈ o.handles, inside b)
    {path path' : List Handle} {values : List Value} {trees : List Unfolding}
    (all : h.UnfoldsAll path values trees) (agree : ∀ a, inside a → (a ∈ path ↔ a ∈ path'))
    (start : ∀ v ∈ values, ∀ a, v.handle? = some a → inside a) : h.UnfoldsAll path' values trees := by
  cases all with
  | nil => exact .nil
  | cons first rest =>
    refine .cons (first.of_agree inside closed agree (start _ (.head _))) ?_
    exact rest.of_agree inside closed agree fun v member => start v (.tail _ member)

end

/-- Inside of arrays and objects that it does not lead back to, a value unfolds as it does by itself. -/
theorem Unfolds.of_unreached (unfolds : h.Unfolds [] v t)
    (apart : ∀ a ∈ path, h.contains a = true ∧ ¬h.Reaches v.handle?.toList a) : h.Unfolds path v t := by
  refine unfolds.of_agree (fun a => h.contains a = true → h.Reaches v.handle?.toList a) ?closed ?agree ?start
  case closed =>
    intro a o reached found b member alive
    exact (reached (contains_iff.2 ⟨o, found⟩)).step found member alive
  case agree =>
    intro a reached
    refine ⟨fun member => absurd member List.not_mem_nil, fun member => ?_⟩
    exact absurd (reached (apart a member).1) (apart a member).2
  case start =>
    intro a holds alive
    exact .root (by simp [holds]) alive

/-! ## Order -/

mutual

theorem Unfolds.ordered (ordered : ∀ a fields, h.get? a = some (.record fields) → fields.Ordered)
    {path : List Handle} {v : Value} {t : Unfolding} (unfolds : h.Unfolds path v t) : t.Ordered := by
  intro names values has
  cases unfolds with
  | leaf => cases has
  | circular => cases has
  | array _ _ _ all =>
    cases has with
    | element member inside => exact all.ordered ordered _ member names values inside
  | record _ _ found all =>
    cases has with
    | self => exact ordered _ _ found
    | field member inside => exact all.ordered ordered _ member names values inside

theorem UnfoldsAll.ordered (ordered : ∀ a fields, h.get? a = some (.record fields) → fields.Ordered)
    {path : List Handle} {values : List Value} {trees : List Unfolding}
    (all : h.UnfoldsAll path values trees) : ∀ t ∈ trees, t.Ordered := by
  intro t member
  cases all with
  | nil => cases member
  | cons first rest =>
    cases member with
    | head => exact first.ordered ordered
    | tail _ later => exact rest.ordered ordered t later

end

/-! ## Texts -/

theorem exists_unfoldsAll {display : Value → String} (values : List Value)
    (each : ∀ v, ∃ t, h.Unfolds path v t ∧ display v = t.text true) :
    ∃ trees, h.UnfoldsAll path values trees ∧ values.map display = Unfolding.texts trees := by
  induction values with
  | nil => exact ⟨[], .nil, rfl⟩
  | cons v values ih =>
    obtain ⟨t, first, same⟩ := each v
    obtain ⟨trees, rest, texts⟩ := ih
    refine ⟨t :: trees, .cons first rest, ?_⟩
    rw [List.map_cons, same, texts, Unfolding.texts]

theorem displayIn_eq_leafText {depth : Nat} (none : v.handle? = none) :
    h.displayIn (depth + 1) path v = v.leafText (!path.isEmpty) := by
  rw [displayIn_of_handle?_eq_none none]
  cases v with
  | scalar value => cases value <;> cases path <;> rfl
  | array => cases none
  | object => cases none
  | _ => rfl

/-- The depth that is left is enough for all that can be on a path. -/
theorem exists_unfolds {depth : Nat} (distinct : path.Nodup) (alive : ∀ a ∈ path, h.contains a = true)
    (deep : h.capacity < depth + path.length) (v : Value) :
    ∃ t, h.Unfolds path v t ∧ h.displayIn depth path v = t.text (!path.isEmpty) := by
  induction depth generalizing path v with
  | zero =>
    have short := length_le_capacity distinct alive
    omega
  | succ depth ih =>
    cases holds : v.handle? with
    | none => exact ⟨.leaf v, .leaf (by simp [holds]), displayIn_eq_leafText holds⟩
    | some a =>
      rw [displayIn_of_handle?_eq_some holds]
      by_cases inside : a ∈ path
      · exact ⟨.circular, .circular holds inside, if_pos inside⟩
      · rw [if_neg inside]
        have leaf (noArray : ∀ elements, h.get? a ≠ some (.array elements))
            (noRecord : ∀ fields, h.get? a ≠ some (.record fields)) : h.Unfolds path v (.leaf v) := by
          refine .leaf fun b holds' => ?_
          cases holds.symm.trans holds'
          exact ⟨inside, noArray, noRecord⟩
        have below (o : Object) (found : h.get? a = some o) (w : Value) :
            ∃ t, h.Unfolds (a :: path) w t ∧ h.displayIn depth (a :: path) w = t.text true := by
          refine ih (.cons inside distinct) (fun b member => ?_) ?_ w
          · rcases List.mem_cons.1 member with rfl | higher
            · exact contains_iff.2 ⟨o, found⟩
            · exact alive b higher
          · rw [List.length_cons]
            omega
        have label := (Value.leafText_of_handle? holds (!path.isEmpty)).symm
        cases found : h.get? a with
        | none => exact ⟨.leaf v, leaf (by simp [found]) (by simp [found]), label⟩
        | some o =>
          cases o with
          | binding value => exact ⟨.leaf v, leaf (by simp [found]) (by simp [found]), label⟩
          | array elements =>
            obtain ⟨trees, all, texts⟩ := exists_unfoldsAll elements.toList (below _ found)
            refine ⟨.array trees, .array holds inside found all, ?_⟩
            rw [Unfolding.text, ← texts]
          | record fields =>
            obtain ⟨trees, all, texts⟩ := exists_unfoldsAll fields.values (below _ found)
            exact ⟨.record fields.names trees, .record holds inside found all,
              (Unfolding.text_record texts _).symm⟩

end Heap

/-- On every heap each value has exactly one unfolding, and its text shows that.  The unfolding is the same
inside of arrays and objects that the value does not lead back to.  It lists fields in the order of their
names, since records are maps that have been made by insertions. -/
theorem display_unfolds (h : Heap Object) (v : Value) :
    ∃ t, h.Unfolds [] v t ∧ (∀ s, h.Unfolds [] v s → s = t) ∧ h.display v = t.text false ∧
      (∀ path, (∀ a ∈ path, h.contains a = true ∧ ¬h.Reaches v.handle?.toList a) →
        h.Unfolds path v t) ∧
      ((∀ a fields, h.get? a = some (.record fields) → ∃ entries, fields = .ofList entries) →
        t.Ordered) := by
  have deep : h.capacity < h.capacity + 1 + ([] : List Handle).length := Nat.lt_succ_self _
  obtain ⟨t, unfolds, text⟩ := Heap.exists_unfolds List.nodup_nil (by simp) deep v
  refine ⟨t, unfolds, fun s other => other.unique unfolds, text, fun path apart => unfolds.of_unreached apart,
    fun made => unfolds.ordered fun a fields found => ?_⟩
  obtain ⟨entries, rfl⟩ := made a fields found
  exact NameMap.ordered_ofList entries

/-- The fields of an object, not in their order. -/
def knotFields : NameMap Value := .ofList [("k", .array ⟨0, 0⟩), ("b", .array ⟨1, 1⟩)]

/-- An array that holds another one twice, itself, what has been freed, and an object that it is in. -/
def knot : Heap Object where
  slots := #[
    ⟨0, false, some (.array #[.array ⟨1, 1⟩, .array ⟨1, 1⟩, .array ⟨0, 0⟩, .object ⟨1, 0⟩, .object ⟨2, 0⟩])⟩,
    ⟨1, false, some (.array #[.string "x"])⟩,
    ⟨0, false, some (.record knotFields)⟩]

theorem display_unfolds_of_knot : knot.display (.array ⟨0, 0⟩) =
    "[[\"x\"], [\"x\"], [Circular], [object], \x7b b: [\"x\"], k: [Circular] \x7d]" := by
  obtain ⟨t, _, unique, text, _⟩ := display_unfolds knot (.array ⟨0, 0⟩)
  have shared (path : List Handle) (outside : ⟨1, 1⟩ ∉ path) :
      knot.Unfolds path (.array ⟨1, 1⟩) (.array [.leaf (.string "x")]) :=
    .array rfl outside rfl (.cons (.leaf (by simp [Value.handle?, Value.string])) .nil)
  have freed : knot.Unfolds [⟨0, 0⟩] (.object ⟨1, 0⟩) (.leaf (.object ⟨1, 0⟩)) := by
    refine .leaf fun a holds => ?_
    cases holds
    exact ⟨by decide, fun _ found => (by cases found), fun _ found => (by cases found)⟩
  have object : knot.Unfolds [⟨0, 0⟩] (.object ⟨2, 0⟩)
      (.record knotFields.names [.array [.leaf (.string "x")], .circular]) :=
    .record rfl (by decide) rfl
      (.cons (shared _ (by decide)) (.cons (.circular rfl (by decide)) .nil))
  have all : knot.Unfolds [] (.array ⟨0, 0⟩) (.array [.array [.leaf (.string "x")],
      .array [.leaf (.string "x")], .circular, .leaf (.object ⟨1, 0⟩),
      .record ["b", "k"] [.array [.leaf (.string "x")], .circular]]) :=
    .array rfl (by decide) rfl (.cons (shared _ (by decide)) (.cons (shared _ (by decide))
      (.cons (.circular rfl (by decide)) (.cons freed (.cons object .nil)))))
  rw [text, ← unique _ all]
  decide +kernel

end TinyScript
