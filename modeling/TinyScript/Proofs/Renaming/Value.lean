import Mathlib.Data.List.Forall2
import TinyScript.Proofs.NameMap
import TinyScript.Value

/-! # Values up to the names of handles

A `Renaming` pairs handles of one heap with handles of another.  Two values are `Renamed` if they differ
in paired handles only, and so are two objects.  No script can tell them apart by their kind, by their
truth or as numbers, and not by identity either if the renaming is one to one.

`SameResult` lifts a relation to computations that may fail: both fail with the same error, or neither.
-/

namespace TinyScript

/-- Pairs of handles that stand for each other in two heaps. -/
abbrev Renaming := Handle → Handle → Prop

/-! ## Results -/

inductive SameResult {ε α β : Type} (R : α → β → Prop) : Except ε α → Except ε β → Prop where
  | ok {a : α} {b : β} : R a b → SameResult R (.ok a) (.ok b)
  | error (e : ε) : SameResult R (.error e) (.error e)

namespace SameResult

variable {ε α β γ δ : Type} {R : α → β → Prop} {S : γ → δ → Prop}

theorem bind {x : Except ε α} {y : Except ε β} {f : α → Except ε γ} {g : β → Except ε δ}
    (first : SameResult R x y) (next : ∀ a b, R a b → SameResult S (f a) (g b)) :
    SameResult S (x >>= f) (y >>= g) := by
  cases first with
  | ok related => exact next _ _ related
  | error e => exact .error e

theorem map {x : Except ε α} {y : Except ε β} {f : α → γ} {g : β → δ} (same : SameResult R x y)
    (next : ∀ a b, R a b → S (f a) (g b)) : SameResult S (x.map f) (y.map g) := by
  cases same with
  | ok related => exact .ok (next _ _ related)
  | error e => exact .error e

theorem bind_same {x : Except ε α} {f : α → Except ε γ} {g : α → Except ε δ}
    (next : ∀ a, SameResult S (f a) (g a)) : SameResult S (x >>= f) (x >>= g) := by
  cases x with
  | ok a => exact next a
  | error e => exact .error e

end SameResult

/-! ## Values -/

inductive Value.Renamed (ρ : Renaming) : Value → Value → Prop where
  | scalar (value : Scalar) : Renamed ρ (.scalar value) (.scalar value)
  | array {a b : Handle} : ρ a b → Renamed ρ (.array a) (.array b)
  | object {a b : Handle} : ρ a b → Renamed ρ (.object a) (.object b)
  | function (code : Function) : Renamed ρ (.function code) (.function code)
  | library (name : String) : Renamed ρ (.library name) (.library name)

namespace Value.Renamed

variable {ρ σ : Renaming} {v v' w w' : Value}

theorem undefined : Renamed ρ .undefined .undefined := .scalar _

/-- Only the handle that the value holds matters. -/
theorem restrict (renamed : v.Renamed ρ v') (kept : ∀ a b, v.handle? = some a → ρ a b → σ a b) :
    v.Renamed σ v' := by
  cases renamed with
  | scalar value => exact .scalar value
  | array pair => exact .array (kept _ _ rfl pair)
  | object pair => exact .object (kept _ _ rfl pair)
  | function code => exact .function code
  | library name => exact .library name

theorem mono (renamed : v.Renamed ρ v') (more : ∀ a b, ρ a b → σ a b) : v.Renamed σ v' :=
  renamed.restrict fun a b _ => more a b

/-- Values without handles are equal. -/
theorem handle_cases (renamed : v.Renamed ρ v') :
    (v = v' ∧ v.handle? = none) ∨ ∃ a b, v.handle? = some a ∧ v'.handle? = some b ∧ ρ a b := by
  cases renamed with
  | array pair => exact .inr ⟨_, _, rfl, rfl, pair⟩
  | object pair => exact .inr ⟨_, _, rfl, rfl, pair⟩
  | _ => exact .inl ⟨rfl, rfl⟩

theorem kind_eq (renamed : v.Renamed ρ v') : v.kind = v'.kind := by
  cases renamed <;> rfl

theorem isTruthy_eq (renamed : v.Renamed ρ v') : v.isTruthy = v'.isTruthy := by
  cases renamed <;> rfl

theorem number?_eq (renamed : v.Renamed ρ v') : v.number? = v'.number? := by
  cases renamed <;> rfl

theorem label_eq (renamed : v.Renamed ρ v') : v.label = v'.label := by
  cases renamed <;> rfl

theorem same_eq (unique : Relator.BiUnique ρ) (left : v.Renamed ρ v') (right : w.Renamed ρ w') :
    v.same w = v'.same w' := by
  cases left with
  | array pair =>
    cases right with
    | array other =>
      simp only [Value.same, decide_eq_decide]
      exact Relator.rel_eq unique pair other
    | _ => rfl
  | object pair =>
    cases right with
    | object other =>
      simp only [Value.same, decide_eq_decide]
      exact Relator.rel_eq unique pair other
    | _ => rfl
  | _ => cases right <;> rfl

end Value.Renamed

/-! ## Objects -/

inductive Object.Renamed (ρ : Renaming) : Object → Object → Prop where
  | binding {v v' : Value} : v.Renamed ρ v' → Renamed ρ (.binding v) (.binding v')
  | array {elements elements' : Array Value} :
      List.Forall₂ (Value.Renamed ρ) elements.toList elements'.toList →
      Renamed ρ (.array elements) (.array elements')
  | record {fields fields' : NameMap Value} : fields.Related (Value.Renamed ρ) fields' →
      Renamed ρ (.record fields) (.record fields')

namespace Object.Renamed

variable {ρ σ : Renaming} {o o' : Object}

/-- Only the handles that the object holds matter. -/
theorem restrict (renamed : o.Renamed ρ o') (kept : ∀ a b, a ∈ o.handles → ρ a b → σ a b) :
    o.Renamed σ o' := by
  cases renamed with
  | binding value =>
    refine .binding (value.restrict fun a b holds => kept a b ?_)
    simp [Object.handles, holds]
  | array elements =>
    refine .array (List.Forall₂.imp ?_ ((List.forall₂_and_left _ _).2 ⟨fun _ member => member, elements⟩))
    rintro v v' ⟨member, value⟩
    exact value.restrict fun a b holds => kept a b (List.mem_filterMap.2 ⟨v, member, holds⟩)
  | record fields =>
    refine .record (fields.restrict fun v v' member value => ?_)
    exact value.restrict fun a b holds => kept a b (List.mem_filterMap.2 ⟨v, member, holds⟩)

theorem mono (renamed : o.Renamed ρ o') (more : ∀ a b, ρ a b → σ a b) : o.Renamed σ o' :=
  renamed.restrict fun a b _ => more a b

end Object.Renamed

end TinyScript
