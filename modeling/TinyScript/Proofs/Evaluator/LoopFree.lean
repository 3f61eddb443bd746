import TinyScript.Proofs.Builtin
import TinyScript.Proofs.Program.Nodes
import TinyScript.Proofs.Typing.Heap

/-! # Programs without loops

A program is `LoopFree` if no `for` and no `while` occurs in it, also not in the bodies of its functions.
Functions are values, so a program can call what an earlier one has left on the heap: values and heaps
are `LoopFree` if all functions that they hold are.

Operators and properties give values that are, and so do the operations of the standard libraries
(`BuiltinTable.standard_loopFree`).
-/

namespace TinyScript

/-! ## Syntax -/

/-- Whether the node is a `for` or a `while`. -/
def Node.isLoop : Node → Bool
  | .stmt (.forLoop ..) => true
  | .stmt (.whileLoop ..) => true
  | _ => false

def Stmt.LoopFree (s : Stmt) : Prop := s.All (·.isLoop = false)

def Program.LoopFree (p : Program) : Prop := ∀ n ∈ p.nodes, n.isLoop = false

instance (p : Program) : Decidable p.LoopFree :=
  inferInstanceAs (Decidable (∀ n ∈ p.nodes, n.isLoop = false))

theorem Program.loopFree_iff {p : Program} : p.LoopFree ↔ ∀ s ∈ p, s.LoopFree := Stmt.all_nodesAll

mutual

/-- Sites make no loops. -/
theorem Stmt.LoopFree.number {s : Stmt} (free : s.LoopFree) (n : Nat) : (s.number n).1.LoopFree := by
  cases s with
  | function name params body site =>
    simp only [Stmt.number]
    exact Stmt.all_function.2 ⟨rfl, Stmt.LoopFree.numberAll (Stmt.all_function.1 free).2 (n + 1)⟩
  | ifElse test consequent alternate =>
    obtain ⟨_, tested, first, second⟩ := Stmt.all_ifElse.1 free
    simp only [Stmt.number]
    exact Stmt.all_ifElse.2 ⟨rfl, tested, Stmt.LoopFree.numberAll first n,
      Stmt.LoopFree.numberBranch second _⟩
  | forLoop init test update body => cases (Stmt.all_forLoop.1 free).1
  | whileLoop test body => cases (Stmt.all_whileLoop.1 free).1
  | declare kind name init =>
    simp only [Stmt.number]
    exact free
  | ret argument =>
    simp only [Stmt.number]
    exact free
  | expression value =>
    simp only [Stmt.number]
    exact free

theorem Stmt.LoopFree.numberAll {block : List Stmt} (free : ∀ s ∈ block, s.LoopFree) (n : Nat) :
    ∀ s ∈ (Stmt.numberAll n block).1, s.LoopFree := by
  cases block with
  | nil =>
    simp only [Stmt.numberAll]
    exact free
  | cons s rest =>
    obtain ⟨first, others⟩ := List.forall_mem_cons.1 free
    simp only [Stmt.numberAll]
    exact List.forall_mem_cons.2 ⟨first.number n, Stmt.LoopFree.numberAll others _⟩

theorem Stmt.LoopFree.numberBranch {branch : Option (List Stmt)}
    (free : ∀ b, branch = some b → ∀ s ∈ b, s.LoopFree) (n : Nat) :
    ∀ b, (Stmt.numberBranch n branch).1 = some b → ∀ s ∈ b, s.LoopFree := by
  cases branch with
  | none =>
    simp only [Stmt.numberBranch]
    exact free
  | some block =>
    simp only [Stmt.numberBranch]
    intro b same
    cases same
    exact Stmt.LoopFree.numberAll (free block rfl) n

end

/-! ## Values -/

def Function.LoopFree (code : Function) : Prop := ∀ s ∈ code.body, s.LoopFree

/-- A function without loops, or no function. -/
def Value.LoopFree : Value → Prop
  | .function code => code.LoopFree
  | _ => True

theorem Value.LoopFree.headD {values : List Value} (all : ∀ v ∈ values, v.LoopFree) :
    (values.headD .undefined).LoopFree := by
  cases values with
  | nil => trivial
  | cons v rest => exact all v List.mem_cons_self

/-- All functions on the heap are without loops. -/
structure Heap.LoopFree (h : Heap Object) : Prop where
  wellFormed : h.WellFormed
  values : ∀ a o, h.get? a = some o → ∀ v ∈ o.values, v.LoopFree

namespace Heap.LoopFree

variable {h : Heap Object}

theorem empty : (Heap.empty : Heap Object).LoopFree where
  wellFormed := wellFormed_empty
  values a o found := by simp [Heap.get?, Heap.empty] at found

theorem allocate (free : h.LoopFree) {o : Object} (all : ∀ v ∈ o.values, v.LoopFree) :
    (h.allocate o).2.LoopFree where
  wellFormed := free.wellFormed.allocate o
  values a p found := by
    rw [get?_allocate free.wellFormed.toFreeListExact] at found
    split at found
    · cases found
      exact all
    · exact free.values a p found

theorem update (free : h.LoopFree) (a : Handle) {f : Object → Object}
    (all : ∀ o, h.get? a = some o → ∀ v ∈ (f o).values, v.LoopFree) : (h.update a f).LoopFree where
  wellFormed := free.wellFormed.update a f
  values b p found := by
    rw [get?_update] at found
    split at found
    · obtain ⟨o, here, rfl⟩ := Option.map_eq_some_iff.1 found
      exact all o here
    · exact free.values b p found

theorem collect (free : h.LoopFree) (roots : List Handle) : (h.collect roots).2.LoopFree where
  wellFormed := free.wellFormed.collect roots
  values a o found := free.values a o ((get?_collect free.wellFormed roots a o).1 found).1

/-- A cell for one more name. -/
theorem define (free : h.LoopFree) (scope : Scope) (name : String) {v : Value} (value : v.LoopFree) :
    (scope.define h name v).2.LoopFree := by
  apply free.allocate
  exact List.forall_mem_singleton.2 value

theorem defineAll (free : h.LoopFree) (scope : Scope) (names : List String) {values : List Value}
    (all : ∀ v ∈ values, v.LoopFree) : (scope.defineAll h names values).2.LoopFree := by
  induction names generalizing scope h values with
  | nil => exact free
  | cons name names ih =>
    apply ih (free.define scope name (Value.LoopFree.headD all))
    intro v member
    exact all v (List.mem_of_mem_tail member)

theorem lookup? (free : h.LoopFree) {env : Env} {name : String} {v : Value}
    (found : env.lookup? h name = some v) : v.LoopFree := by
  obtain ⟨cell, _, here⟩ := Option.bind_eq_some_iff.1 found
  unfold Env.cellValue? at here
  split at here
  · next value there =>
    cases here
    exact free.values cell _ there v List.mem_cons_self
  · cases here

end Heap.LoopFree

/-! ## Results -/

/-- If there is a result, it has a property. -/
def Gives {α : Type} (P : α → Prop) (x : Except ExecutionError α) : Prop := ∀ a, x = .ok a → P a

namespace Gives

variable {α β : Type} {P : α → Prop} {x : Except ExecutionError α}

theorem ok {a : α} (holds : P a) : Gives P (.ok a) := by
  intro b same
  cases same
  exact holds

theorem error (e : ExecutionError) : Gives P (.error e) := by
  intro a same
  cases same

theorem bind {Q : β → Prop} {f : α → Except ExecutionError β}
    (next : ∀ a, x = .ok a → Gives Q (f a)) : Gives Q (x >>= f) := by
  cases x with
  | ok a => exact next a rfl
  | error e => exact error e

theorem map {Q : β → Prop} {f : α → β} (next : ∀ a, x = .ok a → Q (f a)) : Gives Q (x.map f) := by
  cases x with
  | ok a => exact ok (next a rfl)
  | error e => exact error e

end Gives

/-- Only fields of objects can be functions. -/
theorem Heap.LoopFree.readProperty {h : Heap Object} (free : h.LoopFree) (receiver : Value)
    (property : String) : Gives Value.LoopFree (readProperty h receiver property) := by
  unfold TinyScript.readProperty
  split
  · next handle =>
    split
    · next fields here =>
      apply Gives.ok
      cases found : fields.get? property with
      | none => trivial
      | some value => exact free.values handle _ here value (NameMap.mem_values_of_get? found)
    · exact .ok trivial
  · split
    · split <;> exact .ok trivial
    · exact .ok trivial
  · apply Gives.ok
    split <;> trivial
  · exact .error _

/-- Operators make scalars. -/
theorem BinaryOp.onValues_loopFree (op : BinaryOp) (h : Heap Object) (left right : Value) :
    Gives Value.LoopFree (op.onValues h left right) := by
  unfold BinaryOp.onValues
  split
  · apply Gives.map
    intro a _
    trivial
  · split
    · exact .ok trivial
    · exact .ok trivial
    · split
      · exact .ok trivial
      · exact .error _
    · exact .error _

/-! ## Builtin operations -/

/-- The values that a reply holds, the function that it asks to call among them. -/
def Reply.held : Reply → List Value
  | .value result => [result]
  | .call code args => .function code :: args
  | .map code elements => .function code :: elements

namespace Builtin

/-- Makes no loops. -/
def LoopFree (builtin : Builtin) : Prop :=
  ∀ (name : String) (args : List Value) (world : World), world.heap.LoopFree →
    (∀ v ∈ args, v.LoopFree) → (builtin name args world).2.heap.LoopFree ∧
      Gives (fun reply => ∀ v ∈ reply.held, v.LoopFree) (builtin name args world).1

section

variable (name : String) (args : List Value) (index : Nat)

theorem argument_gives : Gives (· ∈ args) (argument name args index) := by
  unfold argument
  split
  · next found => exact .ok (List.mem_of_getElem? found)
  · exact .error _

theorem functionAt_gives : Gives (.function · ∈ args) (functionAt name args index) := by
  apply Gives.bind
  intro v found
  have member := argument_gives name args index v found
  split
  · exact .ok member
  · exact .error _

theorem elementsOf_gives (h : Heap Object) :
    Gives (fun found => h.get? found.1 = some (.array found.2)) (elementsOf name args h) := by
  apply Gives.bind
  intro handle _
  simp only [Heap.elements?]
  cases here : h.get? handle with
  | none => exact .error _
  | some o =>
    cases o with
    | array elements => exact .ok here
    | _ => exact .error _

end

/-- An operation that replies with a scalar, whatever it is given. -/
theorem ofArguments_loopFree {f : String → List Value → Except ExecutionError Value}
    (gives : ∀ name args, Gives Value.LoopFree (f name args)) : (ofArguments f).LoopFree := by
  intro name args world free _
  refine ⟨free, Gives.map fun v given => ?_⟩
  exact List.forall_mem_singleton.2 (gives name args v given)

theorem changeArray_loopFree {reply : Handle → Array Value → Value}
    {change : List Value → Array Value → Array Value}
    (answers : ∀ (a : Handle) (xs : Array Value), (∀ v ∈ xs.toList, v.LoopFree) → (reply a xs).LoopFree)
    (changes : ∀ (args : List Value) (xs : Array Value), ∀ v ∈ (change args xs).toList,
      v ∈ args ∨ v ∈ xs.toList) : (changeArray reply change).LoopFree := by
  intro name args world free all
  unfold changeArray
  cases result : elementsOf name args world.heap with
  | error e => exact ⟨free, .error e⟩
  | ok pair =>
    obtain ⟨a, xs⟩ := pair
    have here : world.heap.get? a = some (.array xs) := elementsOf_gives name args world.heap _ result
    have elements := free.values a _ here
    have changed : ∀ v ∈ (change args xs).toList, v.LoopFree := by
      intro v member
      cases changes args xs v member with
      | inl argument => exact all v argument
      | inr element => exact elements v element
    constructor
    · apply free.update a
      intro o there
      rw [here] at there
      cases there
      exact changed
    · exact .ok (List.forall_mem_singleton.2 (answers a xs elements))

theorem arrayPush_loopFree : arrayPush.LoopFree := by
  apply changeArray_loopFree
  · intro a xs _
    trivial
  · intro args xs v member
    have pushed : (args.tail.foldl (·.push ·) xs).toList = xs.toList ++ args.tail := by simp
    rw [pushed, List.mem_append] at member
    cases member with
    | inl element => exact .inr element
    | inr argument => exact .inl (List.mem_of_mem_tail argument)

theorem arrayPop_loopFree : arrayPop.LoopFree := by
  apply changeArray_loopFree
  · intro a xs elements
    cases last : xs.back? with
    | none => trivial
    | some v => exact elements v (Array.mem_toList_iff.2 (Array.mem_of_back? last))
  · intro args xs v member
    rw [Array.toList_pop] at member
    exact .inr (List.mem_of_mem_dropLast member)

/-- The function to be called is an argument, and is called with elements of an array. -/
theorem arrayMap_loopFree : arrayMap.LoopFree := by
  intro name args world free all
  refine ⟨free, Gives.bind fun _ _ => Gives.bind fun code isCode => Gives.bind fun found isFound => ?_⟩
  have callee := all _ (functionAt_gives name args 1 code isCode)
  have elements := free.values _ _ (elementsOf_gives name args world.heap found isFound)
  exact .ok (List.forall_mem_cons.2 ⟨callee, elements⟩)

theorem arrayLength_loopFree : arrayLength.LoopFree := by
  intro name args world free _
  exact ⟨free, Gives.bind fun _ _ => .ok (List.forall_mem_singleton.2 trivial)⟩

theorem dateNow_loopFree : dateNow.LoopFree := by
  intro name args world free _
  exact ⟨free, .ok (List.forall_mem_singleton.2 trivial)⟩

end Builtin

open Builtin in
theorem BuiltinTable.standard_loopFree {library operation : String} {builtin : Builtin}
    (found : standard.find? library operation = some builtin) : builtin.LoopFree := by
  apply forall_standard _ _ _ _ found
  · intro f
    apply ofArguments_loopFree
    intro name args
    exact .bind fun _ _ => .ok trivial
  · exact ⟨arrayPush_loopFree, arrayPop_loopFree, arrayMap_loopFree, arrayLength_loopFree⟩
  · refine ⟨?_, ?_, ?_, ?_⟩
    · apply ofArguments_loopFree
      intro name args
      exact .bind fun _ _ => .bind fun _ _ => .bind fun _ _ => .ok trivial
    · apply ofArguments_loopFree
      intro name args
      exact .bind fun _ _ => .bind fun _ _ => .bind fun _ _ => .ok trivial
    · apply ofArguments_loopFree
      intro name args
      exact .bind fun _ _ => .ok trivial
    · intro f
      apply ofArguments_loopFree
      intro name args
      exact .bind fun _ _ => .ok trivial
  · exact dateNow_loopFree

end TinyScript
