import TinyScript.Proofs.Renaming.Builtin
import TinyScript.Proofs.Scope.Plain

/-! # Scopes are plain maps

A chain of scopes keeps the value of a name in a cell of a heap that is shared with all other scopes and
collected now and then.  Seen from outside it is a chain of maps from names to values: whatever is done
with it, from the innermost scope and in any order, it answers as `Plain` does, which has neither cells
nor a heap (`answers_eq_plain`).

* `Recipe.build_spec`: a value that is built has the contents that its recipe says, and building it
  changes nothing else;
* `Scope.Mirrors`: the cell of each name holds a value with the contents that the plain map has under the
  name, also where the name is hidden by a scope further in;
* `Env.Apart`: every name of every scope has a cell of its own, so that an assignment changes one name;
* `Chain.Refines`: both of these and a heap in order. Every operation preserves it (`Chain.Refines.step`).
-/

namespace TinyScript

/-! ## Building values -/

section

variable {h : Heap Object} {hand : List Value} {hand' : List DeepValue}

/-- The values have the contents. -/
abbrev Heap.Shows (h : Heap Object) : List Value → List DeepValue → Prop :=
  List.Forall₂ fun v t => h.contents? v = some t

theorem Heap.Keeps.shows {k : Heap Object} (keeps : h.Keeps k) (shown : h.Shows hand hand') :
    k.Shows hand hand' :=
  shown.imp fun _ _ => keeps.contents?

theorem Heap.contents?_undefined (h : Heap Object) :
    h.contents? .undefined = some (.scalar .undefined) := by
  simp [Heap.contents?, Value.undefined, Heap.contentsIn]

theorem Heap.Shows.getD (shown : h.Shows hand hand') (index : Nat) :
    h.contents? (hand.getD index .undefined) = some (hand'.getD index (.scalar .undefined)) := by
  have related := Builtin.getElem?_of_forall₂ shown index
  rw [List.getD_eq_getElem?_getD, List.getD_eq_getElem?_getD]
  generalize hand[index]? = x at related ⊢
  generalize hand'[index]? = y at related ⊢
  cases related with
  | some value => exact value
  | none => exact h.contents?_undefined

namespace Recipe

mutual

theorem build_spec {h : Heap Object} (recipe : Recipe) (wf : h.WellFormed) (inHand : h.Shows hand hand') :
    (recipe.build hand h).2.WellFormed ∧ h.Keeps (recipe.build hand h).2 ∧
      (recipe.build hand h).2.contents? (recipe.build hand h).1 = some (recipe.contents hand') := by
  cases recipe with
  | scalar value => exact ⟨wf, .refl h, by simp [build, contents, Heap.contents?, Heap.contentsIn]⟩
  | function code => exact ⟨wf, .refl h, by simp [build, contents, Heap.contents?, Heap.contentsIn]⟩
  | library name => exact ⟨wf, .refl h, by simp [build, contents, Heap.contents?, Heap.contentsIn]⟩
  | array elements =>
    obtain ⟨wf', keeps, shown⟩ := buildAll_spec elements wf inHand
    have exact := wf'.toFreeListExact
    have more := Heap.keeps_allocate exact (.array (buildAll hand h elements).1.toArray)
    have found := Heap.get?_allocate_new exact (.array (buildAll hand h elements).1.toArray)
    exact ⟨wf'.allocate _, keeps.trans more, Heap.contents?_array found (more.shows shown)⟩
  | record fields =>
    obtain ⟨wf', keeps, shown⟩ := buildFields_spec fields wf inHand .empty
    have exact := wf'.toFreeListExact
    have more := Heap.keeps_allocate exact (.record (buildFields hand h .empty fields).1)
    have found := Heap.get?_allocate_new exact (.record (buildFields hand h .empty fields).1)
    exact ⟨wf'.allocate _, keeps.trans more,
      Heap.contents?_object found (shown.mono fun _ _ => more.contents?)⟩
  | held index => exact ⟨wf, .refl h, inHand.getD index⟩

theorem buildAll_spec {h : Heap Object} (recipes : List Recipe) (wf : h.WellFormed)
    (inHand : h.Shows hand hand') :
    (buildAll hand h recipes).2.WellFormed ∧ h.Keeps (buildAll hand h recipes).2 ∧
      (buildAll hand h recipes).2.Shows (buildAll hand h recipes).1 (contentsAll hand' recipes) := by
  cases recipes with
  | nil => exact ⟨wf, .refl h, .nil⟩
  | cons recipe rest =>
    obtain ⟨wf', keeps, first⟩ := build_spec recipe wf inHand
    obtain ⟨wf'', keeps', others⟩ := buildAll_spec rest wf' (keeps.shows inHand)
    exact ⟨wf'', keeps.trans keeps', .cons (keeps'.contents? first) others⟩

theorem buildFields_spec {h : Heap Object} (fields : List (String × Recipe)) (wf : h.WellFormed)
    (inHand : h.Shows hand hand') {done : NameMap Value} {done' : NameMap DeepValue}
    (shown : done.Related (fun v t => h.contents? v = some t) done') :
    (buildFields hand h done fields).2.WellFormed ∧ h.Keeps (buildFields hand h done fields).2 ∧
      (buildFields hand h done fields).1.Related
        (fun v t => (buildFields hand h done fields).2.contents? v = some t)
        (contentsOfFields hand' done' fields) := by
  match fields with
  | [] => exact ⟨wf, .refl h, shown⟩
  | (name, recipe) :: rest =>
    obtain ⟨wf', keeps, first⟩ := build_spec recipe wf inHand
    have done : (done.insert name (recipe.build hand h).1).Related _ _ :=
      (shown.mono fun _ _ => keeps.contents?).insert name first
    obtain ⟨wf'', keeps', others⟩ := buildFields_spec rest wf' (keeps.shows inHand) done
    exact ⟨wf'', keeps.trans keeps', others⟩

end

end Recipe

end

/-! ## Scopes and plain maps -/

/-- The cell holds a value with the contents. -/
def Heap.Holds (h : Heap Object) (cell : Handle) (t : DeepValue) : Prop :=
  ∃ v, h.get? cell = some (.binding v) ∧ h.contents? v = some t

/-- The same names are bound, and the cell of each holds what the plain map has. -/
structure Scope.Mirrors (h : Heap Object) (scope : Scope) (plain : NameMap DeepValue) : Prop where
  bound : ∀ name cell, scope.get? name = some cell → ∃ t, plain.get? name = some t ∧ h.Holds cell t
  unbound : ∀ name, scope.get? name = none → plain.get? name = none

section

variable {h k : Heap Object} {cell : Handle} {v : Value} {t : DeepValue} {name : String}
  {scope : Scope} {plain : NameMap DeepValue} {env : Env} {scopes : List (NameMap DeepValue)}

namespace Heap.Holds

theorem keeps (holds : h.Holds cell t) (more : h.Keeps k) : k.Holds cell t := by
  obtain ⟨v, found, shown⟩ := holds
  exact ⟨v, more _ _ found, more.contents? shown⟩

theorem update_self (holds : h.Holds cell t) {new : DeepValue} (shown : h.contents? v = some new) :
    (h.update cell fun _ => .binding v).Holds cell new := by
  obtain ⟨old, found, _⟩ := holds
  refine ⟨v, ?_, Heap.contents?_update found v shown⟩
  rw [Heap.get?_update, if_pos rfl, found, Option.map_some]

theorem update_of_ne (holds : h.Holds cell t) {other : Handle} {s : DeepValue}
    (written : h.Holds other s) (apart : cell ≠ other) (v : Value) :
    (h.update other fun _ => .binding v).Holds cell t := by
  obtain ⟨w, found, shown⟩ := holds
  obtain ⟨old, here, _⟩ := written
  exact ⟨w, (Heap.get?_update_of_ne h _ apart).trans found, Heap.contents?_update here v shown⟩

/-- A root cell survives a collection together with all that its value leads to. -/
theorem collect (holds : h.Holds cell t) (wf : h.WellFormed) {roots : List Handle}
    (member : cell ∈ roots) : (h.collect roots).2.Holds cell t := by
  obtain ⟨v, found, shown⟩ := holds
  have reached : h.Reaches roots cell := .root member (Heap.contains_iff.2 ⟨_, found⟩)
  refine ⟨v, (Heap.get?_collect_of_reaches wf reached).trans found, ?_⟩
  refine Heap.contents?_collect wf (fun a inside alive => ?_) shown
  exact reached.step found (by simp [HasHandles.handles, Object.handles, inside]) alive

end Heap.Holds

namespace Scope.Mirrors

theorem empty (h : Heap Object) : Mirrors h .empty .empty := ⟨by simp, by simp⟩

/-- Only what the cells of the scope hold matters. -/
theorem of_cells (mirrors : scope.Mirrors h plain)
    (kept : ∀ name cell t, scope.get? name = some cell → h.Holds cell t → k.Holds cell t) :
    scope.Mirrors k plain where
  bound name cell found := by
    obtain ⟨t, same, holds⟩ := mirrors.bound name cell found
    exact ⟨t, same, kept name cell t found holds⟩
  unbound := mirrors.unbound

theorem keeps (mirrors : scope.Mirrors h plain) (more : h.Keeps k) : scope.Mirrors k plain :=
  mirrors.of_cells fun _ _ _ _ holds => holds.keeps more

theorem contains_eq (mirrors : scope.Mirrors h plain) (name : String) :
    scope.contains name = plain.contains name := by
  unfold NameMap.contains
  cases found : scope.get? name with
  | none => rw [mirrors.unbound name found]; rfl
  | some cell =>
    obtain ⟨t, same, _⟩ := mirrors.bound name cell found
    rw [same]
    rfl

theorem define (mirrors : scope.Mirrors h plain) (exact : h.FreeListExact) (name : String)
    (shown : h.contents? v = some t) :
    (scope.define h name v).1.Mirrors (scope.define h name v).2 (plain.insert name t) := by
  have more := Heap.keeps_allocate exact (.binding v)
  refine ⟨fun key cell found => ?_, fun key missing => ?_⟩
  · simp only [Scope.define, NameMap.get?_insert] at found ⊢
    by_cases here : key = name
    · rw [if_pos here] at found ⊢
      cases found
      exact ⟨t, rfl, v, Heap.get?_allocate_new exact _, more.contents? shown⟩
    · rw [if_neg here] at found ⊢
      exact (mirrors.keeps more).bound key cell found
  · simp only [Scope.define, NameMap.get?_insert] at missing ⊢
    by_cases here : key = name
    · rw [if_pos here] at missing
      cases missing
    · rw [if_neg here] at missing ⊢
      exact mirrors.unbound key missing

/-- Overwriting the cell of a name changes what is under that name, if no other name has the cell. -/
theorem assign (mirrors : scope.Mirrors h plain) (found : scope.get? name = some cell)
    (apart : ∀ other, scope.get? other = some cell → other = name) (shown : h.contents? v = some t) :
    scope.Mirrors (h.update cell fun _ => .binding v) (plain.insert name t) := by
  obtain ⟨old, _, written⟩ := mirrors.bound name cell found
  refine ⟨fun key other here => ?_, fun key missing => ?_⟩
  · rw [NameMap.get?_insert]
    split
    · next same =>
      rw [same, found] at here
      cases here
      exact ⟨t, rfl, written.update_self shown⟩
    · next differs =>
      obtain ⟨s, same, holds⟩ := mirrors.bound key other here
      refine ⟨s, same, holds.update_of_ne written ?_ v⟩
      rintro rfl
      exact differs (apart key here)
  · rw [NameMap.get?_insert, if_neg]
    · exact mirrors.unbound key missing
    · rintro rfl
      rw [found] at missing
      cases missing

/-- Overwriting the cell of another scope changes nothing. -/
theorem update (mirrors : scope.Mirrors h plain) (written : h.Holds cell t)
    (apart : ∀ name, scope.get? name ≠ some cell) (v : Value) :
    scope.Mirrors (h.update cell fun _ => .binding v) plain := by
  refine mirrors.of_cells fun key other s found holds => holds.update_of_ne written ?_ v
  rintro rfl
  exact apart key found

end Scope.Mirrors

/-! ## Chains -/

namespace Env

/-- No two names have one cell, in one scope or in two. -/
structure Apart (env : Env) : Prop where
  within : ∀ scope ∈ env, ∀ name other cell, scope.get? name = some cell →
    scope.get? other = some cell → name = other
  between : env.Pairwise fun scope outer => ∀ name other cell, scope.get? name = some cell →
    outer.get? other ≠ some cell

theorem apart_cons {outer : Env} : Apart (scope :: outer) ↔
    (∀ name other cell, scope.get? name = some cell → scope.get? other = some cell → name = other) ∧
    (∀ s ∈ outer, ∀ name other cell, scope.get? name = some cell → s.get? other ≠ some cell) ∧
    Apart outer := by
  constructor
  · rintro ⟨within, between⟩
    rw [List.pairwise_cons] at between
    rw [List.forall_mem_cons] at within
    exact ⟨within.1, between.1, within.2, between.2⟩
  · rintro ⟨head, apart, rest⟩
    exact ⟨List.forall_mem_cons.2 ⟨head, rest.within⟩, List.pairwise_cons.2 ⟨apart, rest.between⟩⟩

/-- A name that is bound to a cell that no name has had so far. -/
theorem Apart.define {outer : Env} (apart : Apart (scope :: outer)) (name : String)
    (fresh : ∀ s ∈ scope :: outer, ∀ other, s.get? other ≠ some cell) :
    Apart (scope.insert name cell :: outer) := by
  obtain ⟨within, between, rest⟩ := apart_cons.1 apart
  have unused := fresh scope (by simp)
  refine apart_cons.2 ⟨fun key other found => ?_, fun s member key other found => ?_, rest⟩
  · simp only [NameMap.get?_insert]
    grind
  · simp only [NameMap.get?_insert]
    grind

end Env

theorem exists_mirror (mirrors : List.Forall₂ (Scope.Mirrors h) env scopes) (member : scope ∈ env) :
    ∃ plain, scope.Mirrors h plain := by
  induction mirrors with
  | nil => cases member
  | @cons _ plain _ _ first _ ih =>
    rcases List.mem_cons.1 member with rfl | later
    · exact ⟨plain, first⟩
    · exact ih later

/-- A name that is found in the one chain is found in the other, with the contents of its cell. -/
theorem lookup?_of_resolve? (mirrors : List.Forall₂ (Scope.Mirrors h) env scopes)
    (found : env.resolve? name = some cell) :
    ∃ t, Plain.lookup? name scopes = some t ∧ h.Holds cell t := by
  unfold Env.resolve? at found
  unfold Plain.lookup?
  induction mirrors with
  | nil => cases found
  | @cons scope plain _ _ first _ ih =>
    rw [List.findSome?_cons] at found ⊢
    cases here : scope.get? name with
    | some _ =>
      rw [here] at found
      cases found
      obtain ⟨t, same, holds⟩ := first.bound name cell here
      exact ⟨t, by rw [same], holds⟩
    | none =>
      rw [here] at found
      rw [first.unbound name here]
      exact ih found

theorem lookup?_of_unresolved (mirrors : List.Forall₂ (Scope.Mirrors h) env scopes)
    (missing : env.resolve? name = none) : Plain.lookup? name scopes = none := by
  unfold Env.resolve? at missing
  unfold Plain.lookup?
  rw [List.findSome?_eq_none_iff] at missing ⊢
  induction mirrors with
  | nil => simp
  | cons first _ ih =>
    rw [List.forall_mem_cons] at missing ⊢
    exact ⟨first.unbound name missing.1, ih missing.2⟩

/-- Overwriting the cell that is found changes the plain map that binds the name, and no other. -/
theorem assign?_of_resolve? (mirrors : List.Forall₂ (Scope.Mirrors h) env scopes) (apart : env.Apart)
    (found : env.resolve? name = some cell) (shown : h.contents? v = some t) :
    ∃ scopes', Plain.assign? name t scopes = some scopes' ∧
      List.Forall₂ (Scope.Mirrors (h.update cell fun _ => .binding v)) env scopes' := by
  obtain ⟨old, -, written⟩ := lookup?_of_resolve? mirrors found
  unfold Env.resolve? at found
  induction mirrors with
  | nil => cases found
  | @cons scope plain outer outer' first rest ih =>
    obtain ⟨within, between, others⟩ := Env.apart_cons.1 apart
    rw [Plain.assign?, ← first.contains_eq]
    rw [List.findSome?_cons] at found
    cases here : scope.get? name with
    | some _ =>
      rw [here] at found
      cases found
      rw [if_pos (by simp [NameMap.contains, here])]
      refine ⟨_, rfl, .cons (first.assign here (fun other same => within _ _ _ same here) shown) ?_⟩
      refine Heap.forall₂_imp_of_mem rest fun s member _ _ mirrors => ?_
      exact mirrors.update written (fun other => between s member name other cell here) v
    | none =>
      rw [here] at found
      rw [if_neg (by simp [NameMap.contains, here])]
      obtain ⟨scopes', assigned, mirrors⟩ := ih others found
      refine ⟨plain :: scopes', by rw [assigned, Option.map_some], .cons ?_ mirrors⟩
      obtain ⟨s, member, bound⟩ := List.exists_of_findSome?_eq_some found
      exact first.update written (fun other same => between s member other name cell same bound) v

theorem assign?_of_unresolved (mirrors : List.Forall₂ (Scope.Mirrors h) env scopes)
    (missing : env.resolve? name = none) : Plain.assign? name t scopes = none := by
  unfold Env.resolve? at missing
  rw [List.findSome?_eq_none_iff] at missing
  induction mirrors with
  | nil => rfl
  | @cons scope plain _ _ first _ ih =>
    rw [List.forall_mem_cons] at missing
    have vacant : plain.contains name = false := by
      simp [NameMap.contains, first.unbound name missing.1]
    simp [Plain.assign?, vacant, ih missing.2]

/-! ## Operations on a live chain -/

theorem Env.assign_of_resolve? {old : Value} (found : env.resolve? name = some cell)
    (live : h.get? cell = some (.binding old)) (v : Value) :
    env.assign h name v = (.ok (), h.update cell fun _ => .binding v) := by
  simp [Env.assign, Env.cell?, found, Env.cellValue?, live]

theorem Env.assign_of_unresolved (missing : env.resolve? name = none) (v : Value) :
    env.assign h name v = (.error (.undefinedIdentifier name), h) := by
  simp [Env.assign, Env.cell?, missing]

theorem Env.lookup?_of_live (found : env.resolve? name = some cell)
    (live : h.get? cell = some (.binding v)) : env.lookup? h name = some v := by
  simp [Env.lookup?, found, Env.cellValue?, live]

theorem Env.lookup?_of_unresolved (missing : env.resolve? name = none) : env.lookup? h name = none := by
  simp [Env.lookup?, missing]

end

/-! ## Refinement -/

/-- The chain does what the plain one does. -/
structure Chain.Refines (c : Chain) (p : Plain) : Prop where
  wellFormed : c.heap.WellFormed
  rooted : c.env ≠ []
  scopes : List.Forall₂ (Scope.Mirrors c.heap) c.env p.scopes
  apart : c.env.Apart
  inHand : c.heap.Shows c.hand p.hand

namespace Chain.Refines

variable {c : Chain} {p : Plain}

theorem new : Chain.new.Refines .new where
  wellFormed := Heap.wellFormed_empty
  rooted := List.cons_ne_nil _ _
  scopes := .cons (.empty _) .nil
  apart := ⟨by simp [Chain.new], List.pairwise_singleton _ _⟩
  inHand := .nil

/-- A larger heap, with the same cells and values in hand. -/
theorem grow (refines : c.Refines p) {heap : Heap Object} (wf : heap.WellFormed)
    (more : c.heap.Keeps heap) : Refines { c with heap } p where
  wellFormed := wf
  rooted := refines.rooted
  scopes := refines.scopes.imp fun _ _ mirrors => mirrors.keeps more
  apart := refines.apart
  inHand := more.shows refines.inHand

theorem push (refines : c.Refines p) :
    Refines { c with env := .empty :: c.env } { p with scopes := .empty :: p.scopes } where
  wellFormed := refines.wellFormed
  rooted := List.cons_ne_nil _ _
  scopes := .cons (.empty _) refines.scopes
  apart := Env.apart_cons.2 ⟨by simp, by simp, refines.apart⟩
  inHand := refines.inHand

theorem pop (refines : c.Refines p) :
    Refines { c with env := Env.leave c.env } { p with scopes := Env.leave p.scopes } := by
  obtain ⟨env, heap, hand⟩ := c
  obtain ⟨scopes, hand'⟩ := p
  obtain ⟨wf, rooted, mirrors, apart, inHand⟩ := refines
  cases mirrors with
  | nil => exact absurd rfl rooted
  | cons first rest =>
    cases rest with
    | nil => exact ⟨wf, rooted, .cons first .nil, apart, inHand⟩
    | cons second others =>
      exact ⟨wf, List.cons_ne_nil _ _, .cons second others, (Env.apart_cons.1 apart).2.2, inHand⟩

theorem define (refines : c.Refines p) (name : String) {v : Value} {t : DeepValue}
    (shown : c.heap.contents? v = some t) {scope : Scope} {outer : Env} (env : c.env = scope :: outer) :
    Refines { c with env := (scope.define c.heap name v).1 :: outer, heap := (scope.define c.heap name v).2 }
      { p with scopes := Plain.define name t p.scopes } := by
  obtain ⟨_, heap, hand⟩ := c
  obtain ⟨scopes, hand'⟩ := p
  obtain ⟨wf, rooted, mirrors, apart, inHand⟩ := refines
  cases env
  have exact := wf.toFreeListExact
  have more : heap.Keeps (scope.define heap name v).2 := Heap.keeps_allocate exact _
  have fresh : ∀ s ∈ scope :: outer, ∀ other, s.get? other ≠ some (heap.allocate (.binding v)).1 := by
    intro s member other found
    obtain ⟨plain, mirrored⟩ := exists_mirror mirrors member
    obtain ⟨_, _, old, live, _⟩ := mirrored.bound other _ found
    rw [Heap.get?_allocate_fst exact] at live
    cases live
  cases mirrors with
  | cons first rest =>
    exact ⟨wf.allocate _, List.cons_ne_nil _ _,
      .cons (first.define exact name shown) (rest.imp fun _ _ mirrors => mirrors.keeps more),
      apart.define name fresh, more.shows inHand⟩

/-- The value is there when it is assigned, or nothing is assigned. -/
theorem assign (refines : c.Refines p) (name : String) {v : Value} {t : DeepValue}
    (shown : c.heap.contents? v = some t) :
    (∃ scopes, c.env.assign c.heap name v = (.ok (), (c.env.assign c.heap name v).2) ∧
      Plain.assign? name t p.scopes = some scopes ∧
      Refines { c with heap := (c.env.assign c.heap name v).2 } { p with scopes }) ∨
    (c.env.assign c.heap name v = (.error (.undefinedIdentifier name), c.heap) ∧
      Plain.assign? name t p.scopes = none) := by
  cases found : c.env.resolve? name with
  | none =>
    exact .inr ⟨Env.assign_of_unresolved found v, assign?_of_unresolved refines.scopes found⟩
  | some cell =>
    obtain ⟨_, _, old, live, _⟩ := lookup?_of_resolve? refines.scopes found
    obtain ⟨scopes, assigned, mirrors⟩ := assign?_of_resolve? refines.scopes refines.apart found shown
    have step := Env.assign_of_resolve? found live v
    refine .inl ⟨scopes, by rw [step], assigned, ?_⟩
    rw [step]
    exact ⟨refines.wellFormed.update _ _, refines.rooted, mirrors, refines.apart,
      refines.inHand.imp fun _ _ => Heap.contents?_update live v⟩

theorem collect (refines : c.Refines p) :
    Refines { c with heap := (c.env.collect c.heap).2, hand := [] } { p with hand := [] } where
  wellFormed := refines.wellFormed.collect _
  rooted := refines.rooted
  scopes := by
    refine Heap.forall₂_imp_of_mem refines.scopes fun scope member _ _ mirrors => ?_
    refine mirrors.of_cells fun name cell t found holds => holds.collect refines.wellFormed ?_
    exact List.mem_flatMap.2 ⟨scope, member, NameMap.mem_values_of_get? found⟩
  apart := refines.apart
  inHand := .nil

/-- Both chains answer an operation alike, and go on alike. -/
theorem step (refines : c.Refines p) (op : Env.Op) :
    (c.step op).1 = (p.step op).1 ∧ (c.step op).2.Refines (p.step op).2 := by
  cases op with
  | push => exact ⟨rfl, refines.push⟩
  | pop => exact ⟨rfl, refines.pop⟩
  | define name value =>
    obtain ⟨wf, more, shown⟩ := value.build_spec refines.wellFormed refines.inHand
    have grown := refines.grow wf more
    obtain ⟨env, heap, hand⟩ := c
    cases env with
    | nil => exact absurd rfl refines.rooted
    | cons scope outer => exact ⟨rfl, grown.define name shown rfl⟩
  | assign name value =>
    obtain ⟨wf, more, shown⟩ := value.build_spec refines.wellFormed refines.inHand
    have grown := refines.grow wf more
    rcases grown.assign name shown with ⟨scopes, written, assigned, next⟩ | ⟨failed, missing⟩
    · simp only [Chain.step, Plain.step, assigned]
      exact ⟨congrArg (Env.Answer.assigned ·.1) written, next⟩
    · simp only [Chain.step, Plain.step, missing, failed]
      exact ⟨trivial, grown⟩
  | lookup name =>
    cases found : c.env.resolve? name with
    | none =>
      have missing := lookup?_of_unresolved refines.scopes found
      simp only [Chain.step, Plain.step, Env.lookup?_of_unresolved found, missing]
      exact ⟨trivial, refines⟩
    | some cell =>
      obtain ⟨t, same, v, live, shown⟩ := lookup?_of_resolve? refines.scopes found
      simp only [Chain.step, Plain.step, Env.lookup?_of_live found live, same, shown]
      exact ⟨trivial, refines.wellFormed, refines.rooted, refines.scopes, refines.apart,
        .cons shown refines.inHand⟩
  | hasOwn name =>
    refine ⟨?_, refines⟩
    obtain ⟨env, heap, hand⟩ := c
    obtain ⟨scopes, hand'⟩ := p
    obtain ⟨wf, rooted, mirrors, apart, inHand⟩ := refines
    cases mirrors with
    | nil => exact absurd rfl rooted
    | cons first _ => exact congrArg Env.Answer.owned (first.contains_eq name)
  | collect => exact ⟨rfl, refines.collect⟩

theorem after (refines : c.Refines p) (ops : List Env.Op) : (c.after ops).Refines (p.after ops) := by
  induction ops generalizing c p with
  | nil => exact refines
  | cons op ops ih => exact ih (refines.step op).2

theorem answers_eq (refines : c.Refines p) (ops : List Env.Op) : c.answers ops = p.answers ops := by
  induction ops generalizing c p with
  | nil => rfl
  | cons op ops ih =>
    obtain ⟨same, next⟩ := refines.step op
    rw [Chain.answers, Plain.answers, same, ih next]

/-- Every scope of the chain binds its names to what the plain map has. -/
theorem own?_eq (refines : c.Refines p) (k : Nat) (name : String) :
    c.own? k name = (Env.own? p.scopes k name).map some := by
  have related := Builtin.getElem?_of_forall₂ refines.scopes k
  unfold Chain.own? Env.own?
  generalize c.env[k]? = x at related ⊢
  generalize p.scopes[k]? = y at related ⊢
  cases related with
  | none => rfl
  | @some scope plain mirrors =>
    simp only [Option.bind_some]
    cases found : scope.get? name with
    | none => rw [mirrors.unbound name found]; rfl
    | some cell =>
      obtain ⟨t, same, v, live, shown⟩ := mirrors.bound name cell found
      simp [same, Env.cellValue?, live, shown]

/-- A look-up in any scope of the chain finds what it finds in the plain map. -/
theorem seen?_eq (refines : c.Refines p) (k : Nat) (name : String) :
    c.seen? k name = (Plain.lookup? name (p.scopes.drop k)).map some := by
  have mirrors := List.forall₂_drop k refines.scopes
  unfold Chain.seen?
  cases found : Env.resolve? (c.env.drop k) name with
  | none => rw [Env.lookup?_of_unresolved found, lookup?_of_unresolved mirrors found]; rfl
  | some cell =>
    obtain ⟨t, same, v, live, shown⟩ := lookup?_of_resolve? mirrors found
    rw [Env.lookup?_of_live found live, same, Option.map_some, Option.map_some, shown]

/-! ### Scope by scope -/

theorem nearest_iff (refines : c.Refines p) {name : String} {k : Nat} : c.Nearest name k ↔
    Env.own? p.scopes k name ≠ none ∧ ∀ j < k, Env.own? p.scopes j name = none := by
  simp only [Chain.Nearest, refines.own?_eq, ne_eq, Option.map_eq_none_iff]

theorem unbound_iff (refines : c.Refines p) {name : String} :
    (∀ k, c.own? k name = none) ↔ ∀ k, Env.own? p.scopes k name = none := by
  simp only [refines.own?_eq, Option.map_eq_none_iff]

theorem own?_define (refines : c.Refines p) (name : String) (value : Recipe) (k : Nat)
    (key : String) : (c.step (.define name value)).2.own? k key =
      if k = 0 ∧ key = name then some (some (value.contents p.hand)) else c.own? k key := by
  have rooted : p.scopes ≠ [] := by
    intro none
    have := refines.scopes
    rw [none, List.forall₂_nil_right_iff] at this
    exact refines.rooted this
  rw [(refines.step _).2.own?_eq, refines.own?_eq]
  simp only [Plain.step, Env.own?_define rooted]
  split <;> rfl

theorem assign_nearest (refines : c.Refines p) {name : String} {k : Nat} (nearest : c.Nearest name k)
    (value : Recipe) : (c.step (.assign name value)).1 = .assigned (.ok ()) ∧
      ∀ j key, (c.step (.assign name value)).2.own? j key =
        if j = k ∧ key = name then some (some (value.contents p.hand)) else c.own? j key := by
  obtain ⟨answer, next⟩ := refines.step (.assign name value)
  obtain ⟨bound, first⟩ := refines.nearest_iff.1 nearest
  obtain ⟨assigned, same, changed⟩ := Plain.assign?_of_nearest bound first (value.contents p.hand)
  simp only [Plain.step, same] at answer next
  refine ⟨answer, fun j key => ?_⟩
  rw [next.own?_eq, changed, refines.own?_eq]
  split <;> rfl

theorem assign_unbound (refines : c.Refines p) {name : String} (unbound : ∀ k, c.own? k name = none)
    (value : Recipe) :
    (c.step (.assign name value)).1 = .assigned (.error (.undefinedIdentifier name)) ∧
      ∀ j key, (c.step (.assign name value)).2.own? j key = c.own? j key := by
  obtain ⟨answer, next⟩ := refines.step (.assign name value)
  have missing := Plain.assign?_of_unbound (refines.unbound_iff.1 unbound) (value.contents p.hand)
  simp only [Plain.step, missing] at answer next
  exact ⟨answer, fun j key => by rw [next.own?_eq, refines.own?_eq]⟩

theorem lookup_nearest (refines : c.Refines p) {name : String} {k : Nat}
    (nearest : c.Nearest name k) : (c.step (.lookup name)).1 = .found (c.own? k name) := by
  obtain ⟨bound, first⟩ := refines.nearest_iff.1 nearest
  obtain ⟨t, here⟩ := Option.ne_none_iff_exists'.1 bound
  rw [(refines.step _).1, refines.own?_eq, here]
  simp only [Plain.step, Plain.lookup?_of_nearest here first, Option.map_some]

theorem lookup_unbound (refines : c.Refines p) {name : String} (unbound : ∀ k, c.own? k name = none) :
    (c.step (.lookup name)).1 = .found none := by
  rw [(refines.step _).1]
  simp only [Plain.step, Plain.lookup?_of_unbound (refines.unbound_iff.1 unbound)]

theorem own?_collect (refines : c.Refines p) (k : Nat) (name : String) :
    (c.step .collect).2.own? k name = c.own? k name := by
  rw [(refines.step _).2.own?_eq, refines.own?_eq]
  rfl

theorem seen?_collect (refines : c.Refines p) (k : Nat) (name : String) :
    (c.step .collect).2.seen? k name = c.seen? k name := by
  rw [(refines.step _).2.seen?_eq, refines.seen?_eq]
  rfl

end Chain.Refines

/-- A chain of scopes answers all operations as plain maps do, whatever has been done before, and every
scope of the chain binds its names to what the plain map in its place has, and finds there what is found
from that map on outwards. So a definition changes one name of the innermost scope, an assignment one
name of the nearest scope that binds it or fails and changes nothing, a look-up finds the nearest binding,
and a collection changes nothing at all. -/
theorem answers_eq_plain (ops : List Env.Op) :
    Chain.new.answers ops = Plain.new.answers ops ∧
    let c := Chain.new.after ops
    let p := Plain.new.after ops
    (∀ k name, c.own? k name = (Env.own? p.scopes k name).map some) ∧
    (∀ k name, c.seen? k name = (Plain.lookup? name (p.scopes.drop k)).map some) ∧
    (∀ name value k key, (c.step (.define name value)).2.own? k key =
      if k = 0 ∧ key = name then some (some (value.contents p.hand)) else c.own? k key) ∧
    (∀ name value k, c.Nearest name k → (c.step (.assign name value)).1 = .assigned (.ok ()) ∧
      ∀ j key, (c.step (.assign name value)).2.own? j key =
        if j = k ∧ key = name then some (some (value.contents p.hand)) else c.own? j key) ∧
    (∀ name value, (∀ k, c.own? k name = none) →
      (c.step (.assign name value)).1 = .assigned (.error (.undefinedIdentifier name)) ∧
      ∀ j key, (c.step (.assign name value)).2.own? j key = c.own? j key) ∧
    (∀ name k, c.Nearest name k → (c.step (.lookup name)).1 = .found (c.own? k name)) ∧
    (∀ name, (∀ k, c.own? k name = none) → (c.step (.lookup name)).1 = .found none) ∧
    ∀ k name, (c.step .collect).2.own? k name = c.own? k name ∧
      (c.step .collect).2.seen? k name = c.seen? k name := by
  refine ⟨Chain.Refines.new.answers_eq ops, ?_⟩
  intro c p
  have refines : c.Refines p := Chain.Refines.new.after ops
  exact ⟨refines.own?_eq, refines.seen?_eq, refines.own?_define,
    fun _ value _ nearest => refines.assign_nearest nearest value,
    fun _ value unbound => refines.assign_unbound unbound value, fun _ _ => refines.lookup_nearest,
    fun _ => refines.lookup_unbound,
    fun k name => ⟨refines.own?_collect k name, refines.seen?_collect k name⟩⟩

/-- An array in an array outlives the scope that it was found in, but the name there does not. -/
example : Chain.new.answers [.define "a" (.array [.array [.scalar (.boolean true)]]), .push,
      .define "a" (.scalar .undefined), .pop, .collect, .lookup "a", .push, .hasOwn "a",
      .define "b" (.record [("x", .held 0)]), .pop, .lookup "b"] =
    [.done, .done, .done, .done, .done,
      .found (some (some (.array [.array [.scalar (.boolean true)]]))), .done, .owned false, .done, .done,
      .found none] := by
  cbv

end TinyScript
