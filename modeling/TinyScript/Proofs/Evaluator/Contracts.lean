import TinyScript.Proofs.Evaluator.Mapping

/-! # Contracts of the builtin operations

What an operation asks of its arguments is a list of demands, one for each argument from the first on
(`contractOf`).  They are checked in that order and before anything else is done, so the first that is not
met is what an operation fails with, and nothing has happened by then (`Builtin.Keeps`).

An operation all of whose demands are met has an answer.  Only `Array.push` and `Array.pop` change an object
then, and only `Array.map` goes on: it calls a function, and makes an array.
-/

namespace TinyScript

/-! ## Contracts -/

/-- What an operation asks of one argument. -/
inductive Demand where
  | required (kind : Kind)
  /-- The argument may also be missing or `undefined`. -/
  | optional (kind : Kind)
  deriving Repr, DecidableEq

namespace Demand

def kind : Demand → Kind
  | required kind => kind
  | optional kind => kind

/-- An argument of this kind is what is asked for; there is none if there is no kind. -/
def Met : Demand → (found : Option Kind) → Prop
  | required kind, found => found = some kind
  | optional kind, found => found ∈ [none, some .undefined, some kind]

instance (demand : Demand) (found : Option Kind) : Decidable (demand.Met found) :=
  match demand with
  | required kind => inferInstanceAs (Decidable (found = some kind))
  | optional kind => inferInstanceAs (Decidable (found ∈ [none, some .undefined, some kind]))

/-- What is wrong with an argument that is not what is asked for. -/
def fault (demand : Demand) (index : Nat) : (found : Option Kind) → ArgumentFault
  | none => .missing index
  | some found => .wrongKind index demand.kind found

end Demand

/-- The kind of the argument at an index, if there is one. -/
def kindAt (args : List Value) (index : Nat) : Option Kind := args[index]?.map (·.kind)

/-- What an operation asks of its arguments. -/
inductive Contract where
  /-- These demands on the first arguments, and none on further ones. -/
  | first (demands : List Demand)
  /-- All arguments are of one kind. -/
  | each (kind : Kind)

namespace Contract

/-- The demands on so many arguments, in order. -/
def demands (contract : Contract) (count : Nat) : List Demand :=
  match contract with
  | first demands => demands
  | each kind => List.replicate count (.required kind)

/-- Every demand is met. -/
def Holds (contract : Contract) (args : List Value) : Prop :=
  ∀ (index : Nat) (demand : Demand), (contract.demands args.length)[index]? = some demand →
    demand.Met (kindAt args index)

/-- The demand at an index is the first that is not met. -/
structure Breached (contract : Contract) (args : List Value) (index : Nat) (demand : Demand) : Prop where
  asked : (contract.demands args.length)[index]? = some demand
  unmet : ¬demand.Met (kindAt args index)
  first : ∀ i < index, ∀ other : Demand, (contract.demands args.length)[i]? = some other →
    other.Met (kindAt args i)

theorem Breached.not_holds {contract : Contract} {args : List Value} {index : Nat} {demand : Demand}
    (breached : contract.Breached args index demand) : ¬contract.Holds args :=
  fun holds => breached.unmet (holds index demand breached.asked)

end Contract

/-- The contracts of the standard operations. -/
def contractOf : (library operation : String) → Contract
  | "Math", "pow" => .first [.required .number, .required .number]
  | "Math", "max" => .each .number
  | "Math", "min" => .each .number
  | "Math", _ => .first [.required .number]
  | "Array", "map" => .first [.required .array, .required .function]
  | "Array", _ => .first [.required .array]
  | "String", "slice" => .first [.required .string, .required .number, .optional .number]
  | "String", "replace" => .first [.required .string, .required .string, .required .string]
  | "String", _ => .first [.required .string]
  | _, _ => .first []

/-- The contract of a function on numbers. -/
def MathFunction.contract (f : MathFunction) : Contract :=
  match f.takes with
  | .first count => .first (List.replicate count (.required .number))
  | .all => .each .number

theorem MathFunction.demands_contract (f : MathFunction) (count : Nat) :
    f.contract.demands count = List.replicate (f.wants count) (.required .number) := by
  unfold contract wants
  cases f.takes <;> rfl

theorem contractOf_math {f : MathFunction} (known : f ∈ mathFunctions) :
    contractOf "Math" f.name = f.contract := by
  simp only [mathFunctions, List.mem_cons, List.not_mem_nil, or_false] at known
  rcases known with rfl | rfl | rfl | rfl | rfl | rfl | rfl | rfl | rfl | rfl <;> rfl

theorem MathFunction.call_eq (f : MathFunction) (args : List (Kind × Option Float)) :
    f.call args = ((numbersFrom args (f.wants args.length) 0).map f.apply).mapError
      (.argument f.qualifiedName) := by
  unfold call
  cases numbersFrom args (f.wants args.length) 0 <;> rfl

/-! ## Checks -/

/-- The demands on the arguments from an index on are checked one after the other.  The first that is not met
is reported, and if all are met there is a result. -/
inductive Checked {ε α : Type} (report : ArgumentFault → ε) (args : List Value) :
    (index : Nat) → List Demand → Except ε α → Prop where
  | done (index : Nat) (a : α) : Checked report args index [] (.ok a)
  | breach {index : Nat} {demand : Demand} (unmet : ¬demand.Met (kindAt args index))
      (demands : List Demand) : Checked report args index (demand :: demands)
        (.error (report (demand.fault index (kindAt args index))))
  | met {index : Nat} {demand : Demand} {demands : List Demand} {result : Except ε α}
      (met : demand.Met (kindAt args index)) (rest : Checked report args (index + 1) demands result) :
      Checked report args index (demand :: demands) result

namespace Checked

variable {ε ε' α β : Type} {report : ArgumentFault → ε} {args : List Value} {index : Nat}
  {demands more : List Demand} {result : Except ε α}

theorem bind {f : α → Except ε β} (first : Checked report args index demands result)
    (next : ∀ a, result = .ok a → Checked report args (index + demands.length) more (f a)) :
    Checked report args index (demands ++ more) (result >>= f) := by
  induction first with
  | done index a => exact next a rfl
  | breach unmet demands => exact .breach unmet (demands ++ more)
  | met met _ ih =>
    refine .met met (ih fun a ok => ?_)
    simpa only [List.length_cons, Nat.add_assoc, Nat.add_comm 1] using next a ok

/-- What is left cannot fail. -/
theorem bind_ok {f : α → Except ε β} (checked : Checked report args index demands result)
    (ok : ∀ a, result = .ok a → ∃ b, f a = .ok b) : Checked report args index demands (result >>= f) := by
  rw [← List.append_nil demands]
  refine checked.bind fun a found => ?_
  obtain ⟨b, eq⟩ := ok a found
  rw [eq]
  exact .done _ b

theorem map (checked : Checked report args index demands result) (f : α → β) :
    Checked report args index demands (result.map f) := by
  induction checked with
  | done index a => exact .done index (f a)
  | breach unmet demands => exact .breach unmet demands
  | met met _ ih => exact .met met ih

/-- What is wrong is reported in other words. -/
theorem mapError {result : Except ArgumentFault α} (checked : Checked id args index demands result)
    (report : ArgumentFault → ε) : Checked report args index demands (result.mapError report) := by
  induction checked with
  | done index a => exact .done index a
  | breach unmet demands => exact .breach unmet demands
  | met met _ ih => exact .met met ih

/-- A result that is there, or the first demand that is not met. -/
theorem verdict (checked : Checked report args index demands result) :
    ((∀ (k : Nat) (demand : Demand), demands[k]? = some demand → demand.Met (kindAt args (index + k))) ∧
        ∃ a, result = .ok a) ∨
      ∃ (k : Nat) (demand : Demand), demands[k]? = some demand ∧ ¬demand.Met (kindAt args (index + k)) ∧
        (∀ j < k, ∀ other : Demand, demands[j]? = some other → other.Met (kindAt args (index + j))) ∧
        result = .error (report (demand.fault (index + k) (kindAt args (index + k)))) := by
  induction checked with
  | done index a => exact .inl ⟨by simp, a, rfl⟩
  | breach unmet demands => exact .inr ⟨0, _, rfl, unmet, by simp, rfl⟩
  | @met index first demands result met rest ih =>
    have cons (limit : Nat) (others : ∀ j < limit, ∀ other, demands[j]? = some other →
        other.Met (kindAt args (index + 1 + j))) (j : Nat) (below : j < limit + 1) (other : Demand)
        (asked : (first :: demands)[j]? = some other) : other.Met (kindAt args (index + j)) := by
      cases j with
      | zero =>
        cases asked
        exact met
      | succ j =>
        rw [List.getElem?_cons_succ] at asked
        rw [← Nat.add_assoc, Nat.add_right_comm]
        exact others j (Nat.lt_of_succ_lt_succ below) other asked
    rcases ih with ⟨all, ok⟩ | ⟨k, demand, asked, unmet, before, error⟩
    · exact .inl ⟨fun k demand asked => cons (k + 1) (fun j _ => all j) k (by omega) demand asked, ok⟩
    · rw [Nat.add_assoc, Nat.add_comm 1] at unmet error
      exact .inr ⟨k + 1, demand, asked, unmet, cons k before, error⟩

/-- As a verdict on a contract. -/
theorem contract {contract : Contract}
    (checked : Checked report args 0 (contract.demands args.length) result) :
    (contract.Holds args ∧ ∃ a, result = .ok a) ∨ ∃ index demand, contract.Breached args index demand ∧
      result = .error (report (demand.fault index (kindAt args index))) := by
  rcases checked.verdict with ⟨all, ok⟩ | ⟨k, demand, asked, unmet, before, error⟩
  · simp only [Nat.zero_add] at all
    exact .inl ⟨all, ok⟩
  · simp only [Nat.zero_add] at unmet before error
    exact .inr ⟨k, demand, ⟨asked, unmet, before⟩, error⟩

end Checked

section

variable {ε α : Type} {report : ArgumentFault → ε} {args : List Value} {index : Nat} {kind : Kind}
  {v : Value} (demands : List Demand)

theorem Checked.missing (found : args[index]? = none) : Checked (α := α) report args index
    (.required kind :: demands) (.error (report (.missing index))) := by
  have absent : kindAt args index = none := by rw [kindAt, found, Option.map_none]
  have unmet : ¬(Demand.required kind).Met (kindAt args index) := by simp [absent, Demand.Met]
  simpa only [absent, Demand.fault] using Checked.breach unmet demands

theorem Checked.wrongKind (found : args[index]? = some v) (other : v.kind ≠ kind) :
    Checked (α := α) report args index (.required kind :: demands)
      (.error (report (.wrongKind index kind v.kind))) := by
  have present : kindAt args index = some v.kind := by rw [kindAt, found, Option.map_some]
  have unmet : ¬(Demand.required kind).Met (kindAt args index) := by simpa [present, Demand.Met] using other
  simpa only [present, Demand.fault, Demand.kind] using Checked.breach unmet demands

variable {demands} {result : Except ε α}

theorem Checked.there (found : args[index]? = some v) (same : v.kind = kind)
    (rest : Checked report args (index + 1) demands result) :
    Checked report args index (.required kind :: demands) result := by
  refine .met ?_ rest
  rw [Demand.Met, kindAt, found, Option.map_some, same]

end

namespace Value

variable {v : Value}

theorem kind_eq_undefined : v.kind = .undefined ↔ v = .undefined := by
  rcases v with (_ | _ | _ | _) | _ | _ | _ | _ <;> simp [kind, Scalar.kind, undefined]

theorem kind_eq_number : v.kind = .number ↔ ∃ x, v = .scalar (.number x) := by
  rcases v with (_ | _ | _ | _) | _ | _ | _ | _ <;> simp [kind, Scalar.kind]

theorem number?_eq_none : v.number? = none ↔ v.kind ≠ .number := by
  rcases v with (_ | _ | _ | _) | _ | _ | _ | _ <;> simp [number?, Scalar.number?, kind, Scalar.kind]

theorem kind_eq_string : v.kind = .string ↔ ∃ s, v = .scalar (.string s) := by
  rcases v with (_ | _ | _ | _) | _ | _ | _ | _ <;> simp [kind, Scalar.kind]

theorem kind_eq_array : v.kind = .array ↔ ∃ a, v = .array a := by
  rcases v with (_ | _ | _ | _) | _ | _ | _ | _ <;> simp [kind, Scalar.kind]

theorem kind_eq_function : v.kind = .function ↔ ∃ code, v = .function code := by
  rcases v with (_ | _ | _ | _) | _ | _ | _ | _ <;> simp [kind, Scalar.kind]

end Value

namespace Builtin

variable (name : String) (args : List Value) (index : Nat)

/-- An argument that must be there and of one kind. -/
theorem argument_checked {α : Type} {kind : Kind} {read : Value → Except ExecutionError α}
    (accepts : ∀ v, v.kind = kind → ∃ a, read v = .ok a)
    (refuses : ∀ v, v.kind ≠ kind → read v = fail name (.wrongKind index kind v.kind)) :
    Checked (ExecutionError.argument name) args index [.required kind]
      (argument name args index >>= read) := by
  cases found : args[index]? with
  | none =>
    have failed : (argument name args index >>= read) = .error (.argument name (.missing index)) := by
      simp only [argument, found]
      rfl
    rw [failed]
    exact .missing [] found
  | some v =>
    have read_eq : (argument name args index >>= read) = read v := by
      simp only [argument, found]
      rfl
    rw [read_eq]
    by_cases same : v.kind = kind
    · obtain ⟨a, ok⟩ := accepts v same
      rw [ok]
      exact .there found same (.done _ a)
    · rw [refuses v same, fail]
      exact .wrongKind [] found same

theorem numberAt_checked :
    Checked (ExecutionError.argument name) args index [.required .number] (numberAt name args index) := by
  refine argument_checked name args index (fun v same => ?_) fun v other => ?_
  · obtain ⟨x, rfl⟩ := Value.kind_eq_number.1 same
    exact ⟨x, rfl⟩
  · split
    · exact absurd rfl other
    · rfl

theorem stringAt_checked :
    Checked (ExecutionError.argument name) args index [.required .string] (stringAt name args index) := by
  refine argument_checked name args index (fun v same => ?_) fun v other => ?_
  · obtain ⟨s, rfl⟩ := Value.kind_eq_string.1 same
    exact ⟨s, rfl⟩
  · split
    · exact absurd rfl other
    · rfl

theorem arrayAt_checked :
    Checked (ExecutionError.argument name) args index [.required .array] (arrayAt name args index) := by
  refine argument_checked name args index (fun v same => ?_) fun v other => ?_
  · obtain ⟨a, rfl⟩ := Value.kind_eq_array.1 same
    exact ⟨a, rfl⟩
  · split
    · exact absurd rfl other
    · rfl

theorem functionAt_checked :
    Checked (ExecutionError.argument name) args index [.required .function]
      (functionAt name args index) := by
  refine argument_checked name args index (fun v same => ?_) fun v other => ?_
  · obtain ⟨code, rfl⟩ := Value.kind_eq_function.1 same
    exact ⟨code, rfl⟩
  · split
    · exact absurd rfl other
    · rfl

theorem optionalNumberAt_checked : Checked (ExecutionError.argument name) args index [.optional .number]
    (optionalNumberAt name args index) := by
  unfold optionalNumberAt
  split
  · next missing => exact .met (by simp [kindAt, missing, Demand.Met]) (.done _ _)
  · next undefined =>
    exact .met (by simp [kindAt, undefined, Value.kind, Scalar.kind, Demand.Met]) (.done _ _)
  · next v other found =>
    have present : kindAt args index = some v.kind := by rw [kindAt, found, Option.map_some]
    have defined : v.kind ≠ .undefined := fun same => other (Value.kind_eq_undefined.1 same)
    have checked := (numberAt_checked name args index).map some
    generalize (numberAt name args index).map some = result at checked
    cases checked with
    | breach unmet =>
      have unmet' : ¬(Demand.optional .number).Met (kindAt args index) := by
        simpa [present, defined, Demand.Met] using unmet
      exact .breach unmet' []
    | met met rest =>
      refine .met ?_ rest
      rw [Demand.Met] at met
      simp [met, Demand.Met]

/-- What is read off an argument is read off one that is there. -/
theorem exists_of_argument_eq_ok {α : Type} {read : Value → Except ExecutionError α} {a : α}
    (ok : (argument name args index >>= read) = .ok a) :
    ∃ v, args[index]? = some v ∧ read v = .ok a := by
  unfold argument at ok
  cases found : args[index]? with
  | none =>
    rw [found] at ok
    cases ok
  | some v =>
    rw [found] at ok
    exact ⟨v, rfl, ok⟩

/-- The array that is an argument. -/
theorem arrayAt_eq_ok {handle : Handle} (ok : arrayAt name args index = .ok handle) :
    args[index]? = some (.array handle) := by
  obtain ⟨v, found, read⟩ := exists_of_argument_eq_ok name args index ok
  split at read
  · cases read
    exact found
  · cases read

theorem functionAt_eq_ok {code : Function} (ok : functionAt name args index = .ok code) :
    args[index]? = some (.function code) := by
  obtain ⟨v, found, read⟩ := exists_of_argument_eq_ok name args index ok
  split at read
  · cases read
    exact found
  · cases read

theorem eq_cons_cons_of_getElem? {args : List Value} {v w : Value} (first : args[0]? = some v)
    (second : args[1]? = some w) : ∃ extra, args = v :: w :: extra := by
  match args, first, second with
  | _ :: _ :: extra, rfl, rfl => exact ⟨extra, rfl⟩

/-- The elements of an array that is there are there as well. -/
theorem elementsOf_eq_ok {h : Heap Object} (resolve : ∀ v ∈ args, v.Resolves h) {handle : Handle}
    (ok : arrayAt name args 0 = .ok handle) : ∃ elements, h.elements? handle = some elements ∧
      elementsOf name args h = .ok (handle, elements) := by
  obtain ⟨elements, live⟩ := resolve _ (List.mem_of_getElem? (arrayAt_eq_ok name args 0 ok))
  have found : h.elements? handle = some elements := by rw [Heap.elements?, live]
  refine ⟨elements, found, ?_⟩
  rw [elementsOf, ok]
  simp only [bind, Except.bind, found]
  rfl

theorem elementsOf_checked {h : Heap Object} (resolve : ∀ v ∈ args, v.Resolves h) :
    Checked (ExecutionError.argument name) args 0 [.required .array] (elementsOf name args h) := by
  rw [elementsOf]
  refine (arrayAt_checked name args 0).bind_ok fun handle ok => ?_
  obtain ⟨elements, found, _⟩ := elementsOf_eq_ok name args resolve ok
  simp only [found]
  exact ⟨_, rfl⟩

/-- The arguments of a function on numbers, so many from an index on. -/
theorem numbersFrom_checked (count : Nat) : Checked id args index (List.replicate count (.required .number))
    (numbersFrom (args.map fun v => (v.kind, v.number?)) count index) := by
  induction count generalizing index with
  | zero => exact .done index []
  | succ count ih =>
    rw [List.replicate_succ, numbersFrom, List.getElem?_map]
    cases found : args[index]? with
    | none => exact .missing _ found
    | some v =>
      by_cases same : v.kind = .number
      · obtain ⟨x, rfl⟩ := Value.kind_eq_number.1 same
        exact .there found same ((ih (index + 1)).bind_ok fun xs _ => ⟨x :: xs, rfl⟩)
      · simp only [Option.map_some, Value.number?_eq_none.2 same]
        exact .wrongKind _ found same

/-! ## Operations -/

end Builtin

/-- The elements of an array change, and nothing else does. -/
structure Heap.ArrayChanged (h : Heap Object) (a : Handle) (h' : Heap Object) : Prop where
  before : (h.elements? a).isSome
  after : (h'.elements? a).isSome
  others : ∀ b, b ≠ a → h'.get? b = h.get? b
  capacity : h'.capacity = h.capacity
  free : h'.free = h.free

theorem Heap.ArrayChanged.modify {h : Heap Object} {a : Handle} {elements : Array Value}
    (found : h.elements? a = some elements) (f : Array Value → Array Value) :
    h.ArrayChanged a (h.update a (Builtin.modifyElements f)) where
  before := by rw [found, Option.isSome_some]
  after := by
    have here : h.get? a = some (.array elements) := by
      unfold Heap.elements? at found
      split at found
      · cases found
        assumption
      · cases found
    rw [Heap.elements?, Heap.get?_update, if_pos rfl, here]
    rfl
  others b other := Heap.get?_update_of_ne h _ other
  capacity := by simp [Heap.capacity, Heap.update]
  free := rfl

namespace Builtin

/-- What an operation answers whose demands are met, and the world that it leaves. -/
inductive Answers (library operation : String) (args : List Value) (world : World) :
    Except ExecutionError Reply × World → Prop where
  /-- Objects are left alone. -/
  | value (result : Value) (clock : Clock) :
      Answers library operation args world (.ok (.value result), { world with clock })
  /-- The array that is the first argument changes. -/
  | change (which : library = "Array" ∧ (operation = "push" ∨ operation = "pop")) (a : Handle)
      (first : args.head? = some (.array a)) (result : Value) (heap : Heap Object)
      (changed : world.heap.ArrayChanged a heap) :
      Answers library operation args world (.ok (.value result), { world with heap })
  /-- A function is to be called for the elements of the array that is the first argument. -/
  | map (which : library = "Array" ∧ operation = "map") (a : Handle) (code : Function) (extra : List Value)
      (given : args = .array a :: .function code :: extra) (elements : Array Value)
      (found : world.heap.elements? a = some elements) :
      Answers library operation args world (.ok (.map code elements.toList), world)

/-- An operation checks what its contract asks for before anything else. -/
structure Keeps (args : List Value) (world : World) (library operation : String) (builtin : Builtin) :
    Prop where
  checked : Checked (ExecutionError.argument (library ++ "." ++ operation)) args 0
    ((contractOf library operation).demands args.length)
    (builtin (library ++ "." ++ operation) args world).1
  refuses : ∀ error, (builtin (library ++ "." ++ operation) args world).1 = .error error →
    (builtin (library ++ "." ++ operation) args world).2 = world
  answers : ∀ reply, (builtin (library ++ "." ++ operation) args world).1 = .ok reply →
    Answers library operation args world (builtin (library ++ "." ++ operation) args world)

namespace Keeps

variable {args : List Value} {world : World} {library operation : String}

theorem ofArguments {f : String → List Value → Except ExecutionError Value}
    (checked : Checked (ExecutionError.argument (library ++ "." ++ operation)) args 0
      ((contractOf library operation).demands args.length) (f (library ++ "." ++ operation) args)) :
    Keeps args world library operation (Builtin.ofArguments f) where
  checked := by
    rw [Builtin.ofArguments]
    exact checked.map Reply.value
  refuses _ _ := rfl
  answers reply ok := by
    rw [Builtin.ofArguments] at ok ⊢
    generalize f (library ++ "." ++ operation) args = result at ok
    cases result with
    | error error => cases ok
    | ok result => exact .value result world.clock

theorem ofMath {f : MathFunction} (known : f ∈ mathFunctions) :
    Keeps args world "Math" f.name (Builtin.ofMath f) := by
  refine .ofArguments (Checked.bind_ok ?_ fun _ _ => ⟨_, rfl⟩)
  have name : f.qualifiedName = "Math" ++ "." ++ f.name := rfl
  rw [contractOf_math known, f.demands_contract, f.call_eq, List.length_map, name]
  exact ((numbersFrom_checked args 0 (f.wants args.length)).map f.apply).mapError _

theorem changeArray (which : operation = "push" ∨ operation = "pop")
    (contract : contractOf "Array" operation = .first [.required .array])
    (resolve : ∀ v ∈ args, v.Resolves world.heap) (reply : Handle → Array Value → Value)
    (change : List Value → Array Value → Array Value) :
    Keeps args world "Array" operation (Builtin.changeArray reply change) := by
  have checked := elementsOf_checked ("Array" ++ "." ++ operation) args resolve
  cases found : arrayAt ("Array" ++ "." ++ operation) args 0 with
  | error error =>
    have read : elementsOf ("Array" ++ "." ++ operation) args world.heap = .error error := by
      rw [elementsOf, found]
      rfl
    have outcome : Builtin.changeArray reply change ("Array" ++ "." ++ operation) args world =
        (.error error, world) := by
      rw [Builtin.changeArray, read]
    rw [read] at checked
    refine ⟨?_, ?_, ?_⟩ <;> rw [outcome]
    · rw [contract]
      exact checked.map fun _ => Reply.value .undefined
    · exact fun _ _ => rfl
    · intro _ ok
      cases ok
  | ok handle =>
    obtain ⟨elements, live, read⟩ := elementsOf_eq_ok _ args resolve found
    have outcome : Builtin.changeArray reply change ("Array" ++ "." ++ operation) args world =
        (.ok (.value (reply handle elements)),
          { world with heap := world.heap.update handle (modifyElements (change args)) }) := by
      rw [Builtin.changeArray, read]
    rw [read] at checked
    refine ⟨?_, ?_, ?_⟩ <;> rw [outcome]
    · rw [contract]
      exact checked.map fun _ => Reply.value (reply handle elements)
    · intro _ failed
      cases failed
    · intro _ _
      refine .change ⟨rfl, which⟩ handle ?_ _ _ (.modify live _)
      rw [List.head?_eq_getElem?]
      exact arrayAt_eq_ok _ args 0 found

theorem arrayMap (resolve : ∀ v ∈ args, v.Resolves world.heap) :
    Keeps args world "Array" "map" Builtin.arrayMap where
  checked := (arrayAt_checked _ args 0).bind fun _ isArray =>
    (functionAt_checked _ args 1).bind_ok fun _ _ => by
      obtain ⟨elements, _, read⟩ := elementsOf_eq_ok _ args resolve isArray
      rw [read]
      exact ⟨_, rfl⟩
  refuses _ _ := rfl
  answers reply ok := by
    cases isArray : arrayAt ("Array" ++ "." ++ "map") args 0 with
    | error error =>
      simp only [Builtin.arrayMap, ofHeap, isArray] at ok
      cases ok
    | ok a =>
      cases isFunction : functionAt ("Array" ++ "." ++ "map") args 1 with
      | error error =>
        simp only [Builtin.arrayMap, ofHeap, isArray, isFunction] at ok
        cases ok
      | ok code =>
        obtain ⟨elements, live, read⟩ := elementsOf_eq_ok _ args resolve isArray
        have outcome : Builtin.arrayMap ("Array" ++ "." ++ "map") args world =
            (.ok (.map code elements.toList), world) := by
          simp only [Builtin.arrayMap, ofHeap, isArray, isFunction, read]
          rfl
        obtain ⟨extra, given⟩ := eq_cons_cons_of_getElem? (arrayAt_eq_ok _ args 0 isArray)
          (functionAt_eq_ok _ args 1 isFunction)
        rw [outcome]
        exact .map ⟨rfl, rfl⟩ a code extra given elements live

theorem arrayLength (resolve : ∀ v ∈ args, v.Resolves world.heap) :
    Keeps args world "Array" "length" Builtin.arrayLength where
  checked := (elementsOf_checked _ args resolve).bind_ok fun _ _ => ⟨_, rfl⟩
  refuses _ _ := rfl
  answers reply ok := by
    rw [Builtin.arrayLength, ofHeap] at ok ⊢
    cases read : elementsOf ("Array" ++ "." ++ "length") args world.heap with
    | error error =>
      simp only [read] at ok
      cases ok
    | ok pair => exact .value (.number pair.2.size.toFloat) world.clock

theorem stringSlice : Keeps args world "String" "slice" Builtin.stringSlice := by
  refine .ofArguments ?_
  exact (stringAt_checked _ args 0).bind fun _ _ => (numberAt_checked _ args 1).bind fun _ _ =>
    (optionalNumberAt_checked _ args 2).bind_ok fun _ _ => ⟨_, rfl⟩

theorem stringReplace : Keeps args world "String" "replace" Builtin.stringReplace := by
  refine .ofArguments ?_
  exact (stringAt_checked _ args 0).bind fun _ _ => (stringAt_checked _ args 1).bind fun _ _ =>
    (stringAt_checked _ args 2).bind_ok fun _ _ => ⟨_, rfl⟩

theorem stringLength : Keeps args world "String" "length" Builtin.stringLength :=
  .ofArguments ((stringAt_checked _ args 0).bind_ok fun _ _ => ⟨_, rfl⟩)

theorem stringMap (contract : contractOf "String" operation = .first [.required .string])
    (f : String → String) : Keeps args world "String" operation (Builtin.stringMap f) := by
  refine .ofArguments ?_
  rw [contract]
  exact (stringAt_checked _ args 0).bind_ok fun _ _ => ⟨_, rfl⟩

theorem dateNow : Keeps args world "Date" "now" Builtin.dateNow where
  checked := .done 0 _
  refuses _ failed := by cases failed
  answers _ _ := .value _ _

end Keeps

end Builtin

theorem BuiltinTable.standard_keeps {library operation : String} {builtin : Builtin}
    (found : standard.find? library operation = some builtin) {args : List Value} {world : World}
    (resolve : ∀ v ∈ args, v.Resolves world.heap) : builtin.Keeps args world library operation :=
  BuiltinTable.forall_standard_named (P := Builtin.Keeps args world) (fun _ known => .ofMath known)
    ⟨.changeArray (.inl rfl) rfl resolve _ _, .changeArray (.inr rfl) rfl resolve _ _, .arrayMap resolve,
      .arrayLength resolve⟩
    ⟨.stringSlice, .stringReplace, .stringLength, .stringMap rfl _, .stringMap rfl _⟩ .dateNow found

namespace Machine

/-- What a call of an operation comes to whose contract holds. -/
inductive Performs (table : BuiltinTable) (caller : Machine) (library operation : String)
    (args : List Value) : Prop where
  /-- It gives a value, and every object is as it was. -/
  | value (result : Value) (clock : Clock)
      (after : caller.callBuiltin table library operation args =
        { caller with control := .give result, world := { caller.world with clock } })
  /-- It gives a value, and of all objects only the array that is the first argument has changed. -/
  | change (which : library = "Array" ∧ (operation = "push" ∨ operation = "pop")) (a : Handle)
      (first : args.head? = some (.array a)) (result : Value) (heap : Heap Object)
      (changed : caller.world.heap.ArrayChanged a heap)
      (after : caller.callBuiltin table library operation args =
        { caller with control := .give result, world := { caller.world with heap } })
  /-- It calls a function for the elements of the array that is the first argument. -/
  | map (which : library = "Array" ∧ operation = "map") (a : Handle) (code : Function) (extra : List Value)
      (given : args = .array a :: .function code :: extra) (elements : Array Value)
      (found : caller.world.heap.elements? a = some elements)
      (maps : caller.MapsTo table code elements.toList (caller.callBuiltin table library operation args))

variable {library operation : String} {builtin : Builtin} {args : List Value} {caller : Machine}

theorem callBuiltin_of_error {error : ExecutionError}
    (found : BuiltinTable.standard.find? library operation = some builtin)
    (failed : builtin (library ++ "." ++ operation) args caller.world = (.error error, caller.world)) :
    caller.callBuiltin .standard library operation args = caller.fail error := by
  simp only [callBuiltin, found, failed]

theorem callBuiltin_of_ok {reply : Reply} {world : World}
    (found : BuiltinTable.standard.find? library operation = some builtin)
    (answered : builtin (library ++ "." ++ operation) args caller.world = (.ok reply, world)) :
    caller.callBuiltin .standard library operation args = { caller with world }.reply reply := by
  simp only [callBuiltin, found, answered]

theorem performs_of_answers (wellFormed : caller.world.heap.WellFormed)
    (found : BuiltinTable.standard.find? library operation = some builtin)
    (answers : Builtin.Answers library operation args caller.world
      (builtin (library ++ "." ++ operation) args caller.world)) :
    caller.Performs .standard library operation args := by
  generalize outcome : builtin (library ++ "." ++ operation) args caller.world = answer at answers
  cases answers with
  | value result clock => exact .value result clock (callBuiltin_of_ok found outcome)
  | change which a first result heap changed =>
    exact .change which a first result heap changed (callBuiltin_of_ok found outcome)
  | map which a code extra given elements live =>
    refine .map which a code extra given elements live ?_
    obtain ⟨rfl, rfl⟩ := which
    subst given
    rw [callBuiltin_map live]
    exact Called.none.mapsTo wellFormed fun _ alive => alive

end Machine

/-- Whatever a session has done and wherever a run has come to, an operation fails just if its contract does
not hold.  It then objects to the first argument that is not what is asked for, and leaves the world, and so
the objects and the bindings of all names, as it has found them.  If the contract holds it has a value, or
goes on to call a function for each element of an array.  Values under way are such that the operations can
look at them, and arguments are among these. -/
theorem contracts_hold_or_object {i : Interpreter} (reachable : i.Reachable) {p : Program} {n : Nat}
    {m caller : Machine} (reached : Machine.run i.table n (i.start (Stmt.numberAll i.sites p).1) = m)
    (scene : m.SameScene caller) :
    (∀ v ∈ m.values, v.Resolves caller.world.heap) ∧
      ∀ library operation builtin, i.table.find? library operation = some builtin →
        ∀ args : List Value, (∀ v ∈ args, v.Resolves caller.world.heap) →
          ((∃ error, (builtin (library ++ "." ++ operation) args caller.world).1 = .error error) ↔
            ¬(contractOf library operation).Holds args) ∧
          (¬(contractOf library operation).Holds args → ∃ index demand,
            (contractOf library operation).Breached args index demand ∧
            builtin (library ++ "." ++ operation) args caller.world =
              (.error (.argument (library ++ "." ++ operation) (demand.fault index (kindAt args index))),
                caller.world) ∧
            caller.callBuiltin i.table library operation args =
              caller.fail (.argument (library ++ "." ++ operation)
                (demand.fault index (kindAt args index)))) ∧
          ((contractOf library operation).Holds args →
            caller.Performs i.table library operation args) := by
  have typed := reachable.typed.machine (Stmt.numberAll i.sites p).1 n
  rw [reachable.typed.table] at reached typed ⊢
  rw [reached] at typed
  rw [scene.heap]
  refine ⟨typed.values_resolve, fun library operation builtin found args resolve => ?_⟩
  rw [← scene.heap] at resolve
  have keeps : builtin.Keeps args caller.world library operation :=
    BuiltinTable.standard_keeps found resolve
  have wellFormed : caller.world.heap.WellFormed := by
    rw [scene.heap]
    exact typed.heap.wellFormed
  rcases keeps.checked.contract with ⟨holds, reply, ok⟩ | ⟨index, demand, breached, failed⟩
  · refine ⟨⟨?_, fun breach => absurd holds breach⟩, fun breach => absurd holds breach, fun _ => ?_⟩
    · rintro ⟨error, failed⟩
      cases ok.symm.trans failed
    · exact Machine.performs_of_answers wellFormed found (keeps.answers reply ok)
  · have outcome : builtin (library ++ "." ++ operation) args caller.world = (_, caller.world) :=
      Prod.ext failed (keeps.refuses _ failed)
    exact ⟨⟨fun _ => breached.not_holds, fun _ => ⟨_, failed⟩⟩,
      fun _ => ⟨index, demand, breached, outcome, Machine.callBuiltin_of_error found outcome⟩,
      fun holds => absurd holds breached.not_holds⟩

/-- Of two operations on an array of texts, one is not given a function, and the other appends. -/
theorem contracts_hold_or_object_of_texts :
    growthBegun.world.heap.elements? grown = some #[.string "x", .string "y"] ∧
      growthBegun.callBuiltin .standard "Array" "map" [.array grown, .string "f"] =
        growthBegun.fail (.argument "Array.map" (.wrongKind 1 .function .string)) ∧
      growthBegun.Performs .standard "Array" "push" [.array grown, .string "f"] := by
  have live : growthBegun.world.heap.elements? grown = some #[.string "x", .string "y"] := rfl
  have reached : Machine.run Interpreter.new.table 15
      (Interpreter.new.start (Stmt.numberAll Interpreter.new.sites mappingGrowing).1) =
      Machine.run .standard 15 (Interpreter.new.start (Stmt.numberAll 0 mappingGrowing).1) := rfl
  have scene : Machine.SameScene
      (Machine.run .standard 15 (Interpreter.new.start (Stmt.numberAll 0 mappingGrowing).1)) growthBegun :=
    ⟨rfl, rfl, rfl, rfl, rfl⟩
  have resolve : ∀ v ∈ [Value.array grown, .string "f"], v.Resolves growthBegun.world.heap := by
    refine List.forall_mem_cons.2 ⟨⟨#[.string "x", .string "y"], rfl⟩, ?_⟩
    exact List.forall_mem_cons.2 ⟨trivial, List.forall_mem_nil _⟩
  obtain ⟨_, operations⟩ := contracts_hold_or_object .new reached scene
  obtain ⟨_, objects, _⟩ := operations "Array" "map" Builtin.arrayMap rfl _ resolve
  obtain ⟨_, _, performs⟩ := operations "Array" "push" Builtin.arrayPush rfl _ resolve
  refine ⟨live, ?_, performs fun index demand asked => ?_⟩
  · have unmet : ¬(contractOf "Array" "map").Holds [.array grown, .string "f"] :=
      fun holds => absurd (holds 1 (.required .function) rfl) (by decide)
    obtain ⟨index, demand, breached, _, failed⟩ := objects unmet
    match index, breached.asked with
    | 0, rfl => exact absurd rfl breached.unmet
    | 1, rfl => exact failed
  · match index, asked with
    | 0, rfl => rfl

end TinyScript
