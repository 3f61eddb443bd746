import TinyScript.Proofs.Scope.Contents

/-! # Chains of scopes and of plain maps

What a program can do with a chain of scopes, and the plainest thing that answers in the same way.

* `Recipe`: the values that are put under names, built from scratch or found by a look-up;
* `Env.Op`, `Env.Answer`: operations on a chain, from its innermost scope, and what they answer;
* `Chain`: scopes with cells on a heap, as programs have them;
* `Plain`: maps from names to values with all their contents, without cells and without a heap.

The lemmas say what the operations of `Plain` do to each scope of the chain: only the nearest one that
binds a name matters.
-/

namespace TinyScript

/-! ## Values from scratch -/

/-- How a value comes about. -/
inductive Recipe where
  | scalar (value : Scalar)
  | function (code : Function)
  | library (name : String)
  | array (elements : List Recipe)
  /-- An object; the last field of a name counts. -/
  | record (fields : List (String × Recipe))
  /-- A value in hand, as a look-up has found it. -/
  | held (index : Nat)

namespace Recipe

mutual

/-- Puts a value together on the heap, from the inside out. -/
def build (hand : List Value) (h : Heap Object) : Recipe → Value × Heap Object
  | .scalar value => (.scalar value, h)
  | .function code => (.function code, h)
  | .library name => (.library name, h)
  | .array elements =>
    let (values, h) := buildAll hand h elements
    let (handle, h) := h.allocate (.array values.toArray)
    (.array handle, h)
  | .record fields =>
    let (fields, h) := buildFields hand h .empty fields
    let (handle, h) := h.allocate (.record fields)
    (.object handle, h)
  | .held index => (hand.getD index .undefined, h)

def buildAll (hand : List Value) (h : Heap Object) : List Recipe → List Value × Heap Object
  | [] => ([], h)
  | recipe :: rest =>
    let (value, h) := recipe.build hand h
    let (values, h) := buildAll hand h rest
    (value :: values, h)

def buildFields (hand : List Value) (h : Heap Object) (done : NameMap Value) :
    List (String × Recipe) → NameMap Value × Heap Object
  | [] => (done, h)
  | (name, recipe) :: rest =>
    let (value, h) := recipe.build hand h
    buildFields hand h (done.insert name value) rest

end

mutual

/-- The contents of the value, given those of the values in hand. -/
def contents (hand : List DeepValue) : Recipe → DeepValue
  | .scalar value => .scalar value
  | .function code => .function code
  | .library name => .library name
  | .array elements => .array (contentsAll hand elements)
  | .record fields => .record (contentsOfFields hand .empty fields)
  | .held index => hand.getD index (.scalar .undefined)

def contentsAll (hand : List DeepValue) : List Recipe → List DeepValue
  | [] => []
  | recipe :: rest => recipe.contents hand :: contentsAll hand rest

def contentsOfFields (hand : List DeepValue) (done : NameMap DeepValue) :
    List (String × Recipe) → NameMap DeepValue
  | [] => done
  | (name, recipe) :: rest => contentsOfFields hand (done.insert name (recipe.contents hand)) rest

end

end Recipe

/-! ## Both kinds of chains -/

/-- What can be done with a chain of scopes, in its innermost one. -/
inductive Env.Op where
  /-- Enter a new scope. -/
  | push
  /-- Leave the innermost scope; the outermost one cannot be left. -/
  | pop
  | define (name : String) (value : Recipe)
  | assign (name : String) (value : Recipe)
  /-- Look up a name, and take the value in hand if there is one. -/
  | lookup (name : String)
  /-- Ask whether the innermost scope itself binds a name. -/
  | hasOwn (name : String)
  /-- Collect garbage. Values in hand are given up: nothing keeps them. -/
  | collect

inductive Env.Answer where
  | done
  | assigned (result : Except ExecutionError Unit)
  /-- The contents of the value that was found; those of a value with a stale handle are `none`. -/
  | found (contents : Option (Option DeepValue))
  | owned (answer : Bool)

/-- The scopes that are left when the innermost one is. -/
def Env.leave {α : Type} : List α → List α
  | _ :: next :: outer => next :: outer
  | scopes => scopes

/-- What the scope in the given place, counted from the innermost one, binds a name to. -/
def Env.own? {α : Type} (scopes : List (NameMap α)) (k : Nat) (name : String) : Option α :=
  scopes[k]?.bind (·.get? name)

/-- A chain of scopes with its heap, and the values in hand. -/
structure Chain where
  env : Env
  heap : Heap Object
  /-- What look-ups have found since the last collection, the latest one first. -/
  hand : List Value

namespace Chain

def new : Chain := ⟨[.empty], .empty, []⟩

def step (c : Chain) : Env.Op → Env.Answer × Chain
  | .push => (.done, { c with env := .empty :: c.env })
  | .pop => (.done, { c with env := Env.leave c.env })
  | .define name value =>
    let (value, heap) := value.build c.hand c.heap
    match c.env with
    | [] => (.done, { c with heap })
    | scope :: outer =>
      let (scope, heap) := scope.define heap name value
      (.done, { c with env := scope :: outer, heap })
  | .assign name value =>
    let (value, heap) := value.build c.hand c.heap
    let (result, heap) := c.env.assign heap name value
    (.assigned result, { c with heap })
  | .lookup name =>
    match c.env.lookup? c.heap name with
    | some value => (.found (some (c.heap.contents? value)), { c with hand := value :: c.hand })
    | none => (.found none, c)
  | .hasOwn name => (.owned ((c.env.headD .empty).contains name), c)
  | .collect => (.done, { c with heap := (c.env.collect c.heap).2, hand := [] })

/-- The chain after some operations. -/
def after (c : Chain) (ops : List Env.Op) : Chain := ops.foldl (fun c op => (c.step op).2) c

def answers (c : Chain) : List Env.Op → List Env.Answer
  | [] => []
  | op :: ops => (c.step op).1 :: (c.step op).2.answers ops

/-- The contents of the value that a scope of the chain itself binds a name to. -/
def own? (c : Chain) (k : Nat) (name : String) : Option (Option DeepValue) :=
  ((Env.own? c.env k name).bind (Env.cellValue? c.heap)).map c.heap.contents?

/-- The contents of the value that a name has in a scope of the chain, bound there or further out. -/
def seen? (c : Chain) (k : Nat) (name : String) : Option (Option DeepValue) :=
  (Env.lookup? (c.env.drop k) c.heap name).map c.heap.contents?

/-- The scope in the given place is the nearest one that binds the name. -/
def Nearest (c : Chain) (name : String) (k : Nat) : Prop :=
  c.own? k name ≠ none ∧ ∀ j < k, c.own? j name = none

end Chain

/-- A chain of maps from names to values, and the values in hand. -/
structure Plain where
  scopes : List (NameMap DeepValue)
  hand : List DeepValue

namespace Plain

def new : Plain := ⟨[.empty], []⟩

def define (name : String) (value : DeepValue) : List (NameMap DeepValue) → List (NameMap DeepValue)
  | [] => []
  | scope :: outer => scope.insert name value :: outer

/-- Overwrites the value in the nearest scope that binds the name, if one does. -/
def assign? (name : String) (value : DeepValue) :
    List (NameMap DeepValue) → Option (List (NameMap DeepValue))
  | [] => none
  | scope :: outer =>
    if scope.contains name then some (scope.insert name value :: outer)
    else (assign? name value outer).map (scope :: ·)

/-- The value in the nearest scope that binds the name. -/
def lookup? (name : String) (scopes : List (NameMap DeepValue)) : Option DeepValue :=
  scopes.findSome? (·.get? name)

def step (p : Plain) : Env.Op → Env.Answer × Plain
  | .push => (.done, { p with scopes := .empty :: p.scopes })
  | .pop => (.done, { p with scopes := Env.leave p.scopes })
  | .define name value => (.done, { p with scopes := define name (value.contents p.hand) p.scopes })
  | .assign name value =>
    match assign? name (value.contents p.hand) p.scopes with
    | some scopes => (.assigned (.ok ()), { p with scopes })
    | none => (.assigned (.error (.undefinedIdentifier name)), p)
  | .lookup name =>
    match lookup? name p.scopes with
    | some value => (.found (some (some value)), { p with hand := value :: p.hand })
    | none => (.found none, p)
  | .hasOwn name => (.owned ((p.scopes.headD .empty).contains name), p)
  | .collect => (.done, { p with hand := [] })

def after (p : Plain) (ops : List Env.Op) : Plain := ops.foldl (fun p op => (p.step op).2) p

def answers (p : Plain) : List Env.Op → List Env.Answer
  | [] => []
  | op :: ops => (p.step op).1 :: (p.step op).2.answers ops

end Plain

/-! ## Plain maps, scope by scope -/

section

variable {scopes : List (NameMap DeepValue)} {name : String} {k : Nat} {t : DeepValue}

@[simp] theorem Env.own?_nil {α : Type} (k : Nat) (name : String) :
    Env.own? ([] : List (NameMap α)) k name = none := by
  simp [Env.own?]

@[simp] theorem Env.own?_zero {α : Type} (scope : NameMap α) (outer : List (NameMap α))
    (name : String) : Env.own? (scope :: outer) 0 name = scope.get? name := by
  simp [Env.own?]

@[simp] theorem Env.own?_succ {α : Type} (scope : NameMap α) (outer : List (NameMap α)) (k : Nat)
    (name : String) : Env.own? (scope :: outer) (k + 1) name = Env.own? outer k name := by
  simp [Env.own?]

theorem NameMap.contains_eq_false {α : Type} {m : NameMap α} (unbound : m.get? name = none) :
    m.contains name = false := by
  rw [NameMap.contains, unbound, Option.isSome_none]

theorem Env.own?_define (rooted : scopes ≠ []) (name : String) (t : DeepValue) (k : Nat)
    (key : String) :
    Env.own? (Plain.define name t scopes) k key =
      if k = 0 ∧ key = name then some t else Env.own? scopes k key := by
  cases scopes with
  | nil => exact absurd rfl rooted
  | cons scope outer =>
    cases k with
    | zero => simp [Plain.define, NameMap.get?_insert]
    | succ k => simp [Plain.define]

namespace Plain

/-- A name is found where it is bound nearest. -/
theorem lookup?_of_nearest (here : Env.own? scopes k name = some t)
    (nearest : ∀ j < k, Env.own? scopes j name = none) : lookup? name scopes = some t := by
  unfold lookup?
  induction scopes generalizing k with
  | nil => simp at here
  | cons scope outer ih =>
    rw [List.findSome?_cons]
    cases k with
    | zero =>
      rw [Env.own?_zero] at here
      rw [here]
    | succ k =>
      have unbound : scope.get? name = none := by simpa using nearest 0 (Nat.succ_pos k)
      rw [Env.own?_succ] at here
      rw [unbound]
      exact ih here fun j less => by simpa using nearest (j + 1) (Nat.succ_lt_succ less)

theorem lookup?_of_unbound (unbound : ∀ k, Env.own? scopes k name = none) :
    lookup? name scopes = none := by
  refine List.findSome?_eq_none_iff.2 fun scope member => ?_
  obtain ⟨k, bound, rfl⟩ := List.mem_iff_getElem.1 member
  simpa [Env.own?, bound] using unbound k

/-- An assignment changes one scope, the nearest one that binds the name, and there one name. -/
theorem assign?_of_nearest (here : Env.own? scopes k name ≠ none)
    (nearest : ∀ j < k, Env.own? scopes j name = none) (t : DeepValue) :
    ∃ assigned, assign? name t scopes = some assigned ∧ ∀ j key, Env.own? assigned j key =
      if j = k ∧ key = name then some t else Env.own? scopes j key := by
  induction scopes generalizing k with
  | nil => simp at here
  | cons scope outer ih =>
    rw [assign?]
    cases k with
    | zero =>
      rw [Env.own?_zero] at here
      have bound : scope.contains name = true := Option.isSome_iff_ne_none.2 here
      rw [if_pos bound]
      refine ⟨_, rfl, fun j key => ?_⟩
      cases j with
      | zero => simp [NameMap.get?_insert]
      | succ j => simp
    | succ k =>
      have unbound : scope.get? name = none := by simpa using nearest 0 (Nat.succ_pos k)
      rw [Env.own?_succ] at here
      obtain ⟨assigned, same, changed⟩ :=
        ih here fun j less => by simpa using nearest (j + 1) (Nat.succ_lt_succ less)
      rw [NameMap.contains_eq_false unbound, same]
      refine ⟨_, rfl, fun j key => ?_⟩
      cases j with
      | zero => simp
      | succ j => simpa using changed j key

theorem assign?_of_unbound (unbound : ∀ k, Env.own? scopes k name = none) (t : DeepValue) :
    assign? name t scopes = none := by
  induction scopes with
  | nil => rfl
  | cons scope outer ih =>
    have vacant : scope.get? name = none := by simpa using unbound 0
    have later := ih fun k => by simpa using unbound (k + 1)
    rw [assign?, NameMap.contains_eq_false vacant, later]
    rfl

end Plain

end

end TinyScript
