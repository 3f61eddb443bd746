import Mathlib.Data.List.Forall2
import TinyScript.Proofs.Backend.Placed
import TinyScript.Proofs.Bytecode.StackHeight

/-! # Code at another place

The code of a node depends on where it begins, through its jumps, and on the pool of its chunk, through
the constants that it loads.  `Instr.Moved` relates the instructions of two such pieces of code, and
`StmtCode.moved` and `ProgramCode.moved` say that any two pieces of code of one node are so related.

A chunk that `Carries` another holds its code, moved, with something else in place of its `halt`.  A run of
the chunk that is carried is then a part of a run of the whole (`Chunk.Carries.runFor_cases`): as long as
it does not halt, both are in step, index for index.
-/

namespace TinyScript

/-! ## Instructions -/

/-- An instruction and what becomes of it in code that begins `distance` indices later and has another
pool.  There is no rule for `halt`. -/
inductive Instr.Moved (distance : Nat) (pool pool' : Array Scalar) : Instr → Instr → Prop where
  | loadConst {index index' : Nat} {value : Scalar} : pool[index]? = some value →
      pool'[index']? = some value → Moved distance pool pool' (.loadConst index) (.loadConst index')
  | loadVar (name : String) : Moved distance pool pool' (.loadVar name) (.loadVar name)
  | storeVar (name : String) : Moved distance pool pool' (.storeVar name) (.storeVar name)
  | binary (op : BinaryOp) : Moved distance pool pool' (.binary op) (.binary op)
  | dup : Moved distance pool pool' .dup .dup
  | pop : Moved distance pool pool' .pop .pop
  | call (name : String) (argc : Nat) : Moved distance pool pool' (.call name argc) (.call name argc)
  | jump {target target' : Nat} : target' = target + distance →
      Moved distance pool pool' (.jump target) (.jump target')
  | jumpIfFalse {target target' : Nat} : target' = target + distance →
      Moved distance pool pool' (.jumpIfFalse target) (.jumpIfFalse target')

/-- Moved code, instruction by instruction. -/
def MovedCode (distance : Nat) (pool pool' : Array Scalar) (code code' : List Instr) : Prop :=
  List.Forall₂ (Instr.Moved distance pool pool') code code'

namespace MovedCode

variable {distance : Nat} {pool pool' : Array Scalar} {code code' left left' right right' : List Instr}
  {i i' : Instr}

theorem nil : MovedCode distance pool pool' [] [] := List.Forall₂.nil

theorem cons (first : i.Moved distance pool pool' i') (rest : MovedCode distance pool pool' code code') :
    MovedCode distance pool pool' (i :: code) (i' :: code') :=
  List.Forall₂.cons first rest

theorem single (moved : i.Moved distance pool pool' i') : MovedCode distance pool pool' [i] [i'] :=
  cons moved nil

theorem append (first : MovedCode distance pool pool' left left')
    (second : MovedCode distance pool pool' right right') :
    MovedCode distance pool pool' (left ++ right) (left' ++ right') :=
  List.rel_append first second

theorem length_eq (moved : MovedCode distance pool pool' code code') : code.length = code'.length :=
  List.Forall₂.length_eq moved

/-- What has become of the instruction at an index. -/
theorem getElem? {index : Nat} (moved : MovedCode distance pool pool' code code')
    (found : code[index]? = some i) :
    ∃ i', code'[index]? = some i' ∧ i.Moved distance pool pool' i' := by
  obtain ⟨bound, rfl⟩ := List.getElem?_eq_some_iff.1 found
  have bound' : index < code'.length := moved.length_eq ▸ bound
  exact ⟨code'[index], List.getElem?_eq_getElem bound', List.Forall₂.get moved bound bound'⟩

end MovedCode

/-! ## Two pieces of code of one node -/

section

variable {part whole : Chunk} {distance : Nat}

mutual

theorem ExprCode.moved {e : Expr} {code code' : List Instr} (made : ExprCode part.Loads e code)
    (made' : ExprCode whole.Loads e code') :
    MovedCode distance part.constants whole.constants code code' := by
  cases made with
  | literal found =>
    cases made' with
    | literal found' => exact .single (.loadConst found found')
  | identifier name =>
    cases made' with
    | identifier => exact .single (.loadVar name)
  | binary left right =>
    cases made' with
    | binary left' right' =>
      exact ((left.moved left').append (right.moved right')).append (.single (.binary _))
  | assign plain value =>
    cases made' with
    | assign _ value' => exact (value.moved value').append (.cons .dup (.single (.storeVar _)))
    | compound combined _ => simp [plain] at combined
  | compound combined value =>
    cases made' with
    | assign plain _ => simp [combined] at plain
    | compound combined' value' =>
      cases combined.symm.trans combined'
      exact .cons (.loadVar _) ((value.moved value').append
        (.cons (.binary _) (.cons .dup (.single (.storeVar _)))))
  | function arguments =>
    cases made' with
    | function arguments' => exact (arguments.moved arguments').append (.single (.call _ _))
  | method arguments =>
    cases made' with
    | method arguments' => exact (arguments.moved arguments').append (.single (.call _ _))

theorem ArgumentsCode.moved {es : List Expr} {code code' : List Instr}
    (made : ArgumentsCode part.Loads es code) (made' : ArgumentsCode whole.Loads es code') :
    MovedCode distance part.constants whole.constants code code' := by
  cases made with
  | nil =>
    cases made' with
    | nil => exact .nil
  | cons first rest =>
    cases made' with
    | cons first' rest' => exact (first.moved first').append (rest.moved rest')

end

theorem TestCode.moved {test : Option Expr} {code code' : Nat → List Instr} {exit exit' : Nat}
    (made : TestCode part.Loads test code) (made' : TestCode whole.Loads test code')
    (eq : exit' = exit + distance) :
    MovedCode distance part.constants whole.constants (code exit) (code' exit') := by
  cases made with
  | none =>
    cases made' with
    | none => exact .nil
  | some test =>
    cases made' with
    | some test' => exact (test.moved test').append (.single (.jumpIfFalse eq))

theorem EffectCode.moved {e : Option Expr} {code code' : List Instr}
    (made : EffectCode part.Loads e code) (made' : EffectCode whole.Loads e code') :
    MovedCode distance part.constants whole.constants code code' := by
  cases made with
  | none =>
    cases made' with
    | none => exact .nil
  | some e =>
    cases made' with
    | some e' => exact (e.moved e').append (.single .pop)

mutual

/-- The jumps of a statement lead to indices that depend on nothing but where it begins and how long its
parts are, and the parts are equally long at either place. -/
theorem StmtCode.moved {base base' : Nat} {keep : Bool} {s : Stmt} {code code' : List Instr}
    (made : StmtCode part.Loads base keep s code) (made' : StmtCode whole.Loads base' keep s code')
    (eq : base' = base + distance) :
    MovedCode distance part.constants whole.constants code code' := by
  cases made with
  | declare init =>
    cases made' with
    | declare init' => exact (init.moved init').append (.single (.storeVar _))
  | kept value =>
    cases made' with
    | kept value' => exact value.moved value'
  | dropped value =>
    cases made' with
    | dropped value' => exact (value.moved value').append (.single .pop)
  | ifThen test consequent =>
    cases made' with
    | ifThen test' consequent' =>
      have tests := test.length_eq.trans test'.length_eq.symm
      have lengths := consequent.length_eq.trans consequent'.length_eq.symm
      exact (test.moved test').append
        (.cons (.jumpIfFalse (by omega)) (consequent.moved consequent' (by omega)))
  | ifElse test consequent middle alternate =>
    cases made' with
    | ifElse test' consequent' middle' alternate' =>
      have tests := test.length_eq.trans test'.length_eq.symm
      have lengths := consequent.length_eq.trans consequent'.length_eq.symm
      have others := alternate.length_eq.trans alternate'.length_eq.symm
      exact ((test.moved test').append
        (.cons (.jumpIfFalse (by omega)) (consequent.moved consequent' (by omega)))).append
        (.cons (.jump (by omega)) (alternate.moved alternate' (by omega)))
  | whileLoop test body =>
    cases made' with
    | whileLoop test' body' =>
      have tests := test.length_zero.trans test'.length_zero.symm
      have lengths := body.length_eq.trans body'.length_eq.symm
      exact ((test.moved test' (by omega)).append (body.moved body' (by omega))).append
        (.single (.jump eq))
  | forLoop init again test start body update =>
    cases made' with
    | forLoop init' again' test' start' body' update' =>
      have inits := init.length_eq.trans init'.length_eq.symm
      have tests := test.length_zero.trans test'.length_zero.symm
      have lengths := body.length_eq.trans body'.length_eq.symm
      have updates := update.length_eq.trans update'.length_eq.symm
      exact ((((init.moved init' eq).append (test.moved test' (by omega))).append
        (body.moved body' (by omega))).append (update.moved update')).append
        (.single (.jump (by omega)))

theorem BlockCode.moved {base base' : Nat} {block : List Stmt} {code code' : List Instr}
    (made : BlockCode part.Loads base block code) (made' : BlockCode whole.Loads base' block code')
    (eq : base' = base + distance) :
    MovedCode distance part.constants whole.constants code code' := by
  cases made with
  | nil =>
    cases made' with
    | nil => exact .nil
  | cons first rest =>
    cases made' with
    | cons first' rest' =>
      have lengths := first.length_eq.trans first'.length_eq.symm
      exact (first.moved first' eq).append (rest.moved rest' (by omega))

theorem ClauseCode.moved {base base' : Nat} {clause : Option Stmt} {code code' : List Instr}
    (made : ClauseCode part.Loads base clause code)
    (made' : ClauseCode whole.Loads base' clause code') (eq : base' = base + distance) :
    MovedCode distance part.constants whole.constants code code' := by
  cases made with
  | none =>
    cases made' with
    | none => exact .nil
  | some s =>
    cases made' with
    | some s' => exact s.moved s' eq

end

theorem ProgramCode.moved {base base' : Nat} {p : Program} {code code' : List Instr}
    (made : ProgramCode part.Loads base p code) (made' : ProgramCode whole.Loads base' p code')
    (eq : base' = base + distance) :
    MovedCode distance part.constants whole.constants code code' := by
  induction made generalizing base' code' with
  | nil =>
    cases made' with
    | nil => exact .nil
  | last s =>
    cases made' with
    | last s' => exact s.moved s' eq
    | cons more _ _ => exact absurd rfl more
  | cons more first _ ih =>
    cases made' with
    | last _ => exact absurd rfl more
    | cons _ first' rest' =>
      have lengths := first.length_eq.trans first'.length_eq.symm
      exact (first.moved first' eq).append (ih rest' (by omega))

end

/-! ## States -/

/-- The same state further on in the code. -/
def Config.moved (distance : Nat) (c : Config) : Config := { c with index := c.index + distance }

namespace Config

variable {distance : Nat} {pool pool' : Array Scalar} {functions : NameMap HostFunction} {c : Config}
  {i i' : Instr}

@[simp] theorem moved_zero : c.moved 0 = c := rfl

@[simp] theorem moved_index : (c.moved distance).index = c.index + distance := rfl

@[simp] theorem moved_stack : (c.moved distance).stack = c.stack := rfl

@[simp] theorem moved_globals : (c.moved distance).globals = c.globals := rfl

@[simp] theorem moved_clock : (c.moved distance).clock = c.clock := rfl

@[simp] theorem moved_advance (stack : List Scalar) :
    (c.moved distance).advance stack = (c.advance stack).moved distance := by
  simp [moved, advance, Nat.add_right_comm]

theorem callHost_moved (body : HostBody) (args rest : List Scalar) :
    (c.moved distance).callHost body args rest =
      (c.callHost body args rest).map (Config.moved distance) := by
  unfold callHost
  rw [moved_clock]
  obtain ⟨answer, clock⟩ := body.run c.clock args
  cases answer <;> simp [Except.map, moved, advance, Nat.add_right_comm]

/-- An instruction that finds its operands does at either place the same.  Only a stack that is too short
would be reported with the index. -/
theorem dispatch_moved (functions : NameMap HostFunction) (moved : i.Moved distance pool pool' i')
    (enough : i.needs ≤ c.stack.length) :
    (c.moved distance).dispatch functions pool' i' =
      (c.dispatch functions pool i).map (Option.map (Config.moved distance)) := by
  cases moved with
  | loadConst found found' =>
    rw [dispatch_loadConst found, dispatch_loadConst found']
    simp [Except.map]
  | loadVar name =>
    cases known : c.globals.get? name <;> simp [dispatch, known, Except.map]
  | storeVar name =>
    obtain ⟨top, rest, stack⟩ := List.exists_cons_of_length_pos enough
    rw [dispatch_storeVar stack, dispatch_storeVar (c := c.moved distance) stack]
    simp [Except.map, Config.moved, advance, Nat.add_right_comm]
  | binary op =>
    obtain ⟨right, left, rest, stack⟩ := exists_two_of_le_length enough
    rw [dispatch_binary stack, dispatch_binary (c := c.moved distance) stack]
    cases Instr.combine op left right <;> simp [Except.map]
  | dup =>
    obtain ⟨top, rest, stack⟩ := List.exists_cons_of_length_pos enough
    rw [dispatch_dup stack, dispatch_dup (c := c.moved distance) stack]
    simp [Except.map]
  | pop =>
    obtain ⟨top, rest, stack⟩ := List.exists_cons_of_length_pos enough
    rw [dispatch_pop stack, dispatch_pop (c := c.moved distance) stack]
    simp [Except.map]
  | call name argc =>
    cases found : functions.get? name with
    | none => simp [dispatch, found, Except.map]
    | some function =>
      by_cases arity : argc = function.arity
      · subst arity
        rw [dispatch_call found enough, dispatch_call (c := c.moved distance) found enough,
          callHost_moved, moved_stack]
        cases c.callHost function.body (c.stack.take function.arity).reverse
          (c.stack.drop function.arity) <;> rfl
      · simp [dispatch, found, arity, Except.map]
  | jump eq =>
    simp [dispatch, eq, Except.map, Config.moved]
  | jumpIfFalse eq =>
    obtain ⟨top, rest, stack⟩ := List.exists_cons_of_length_pos enough
    rw [dispatch_jumpIfFalse stack, dispatch_jumpIfFalse (c := c.moved distance) stack]
    by_cases truthy : top.isTruthy
    · simp [truthy, Except.map]
    · simp [truthy, eq, Except.map, Config.moved]

/-- Only `halt` ends a run. -/
theorem eq_halt_of_dispatch (dispatched : c.dispatch functions pool i = .ok none) : i = .halt := by
  cases i with
  | halt => rfl
  | _ =>
    simp only [dispatch, bind, Except.bind, pure, Except.pure] at dispatched
    repeat' split at dispatched
    all_goals cases dispatched

theorem abandon_moved (moved : i.Moved distance pool pool' i') :
    (c.moved distance).abandon functions i' = (c.abandon functions i).moved distance := by
  cases moved with
  | call name argc =>
    simp only [abandon, moved_stack, moved_clock]
    cases functions.get? name with
    | none => rfl
    | some function =>
      by_cases called : argc = function.arity ∧ function.arity ≤ c.stack.length <;> simp [called, Config.moved]
  | _ => rfl

end Config

/-! ## Chunks in chunks -/

def Progress.moved (distance : Nat) : Progress → Progress
  | .finished last => .finished (last.moved distance)
  | .failed error last => .failed error (last.moved distance)
  | .cut last => .cut (last.moved distance)

namespace Chunk

/-- The code of one chunk stands in another at a distance, with any instruction in place of `halt`. -/
def Carries (whole part : Chunk) (distance : Nat) : Prop :=
  ∀ (index : Nat) (i : Instr), part.code[index]? = some i →
    ∃ i', whole.code[index + distance]? = some i' ∧
      (i ≠ .halt → i.Moved distance part.constants whole.constants i')

variable {whole part : Chunk} {distance : Nat} {functions : NameMap HostFunction} {c : Config}

/-- Enough steps from the first state lead to the other, where the run finishes. -/
def Finishes (chunk : Chunk) (functions : NameMap HostFunction) (c last : Config) : Prop :=
  ∃ n, chunk.runFor functions n c = .finished last

/-- Leveled code finishes nowhere but at `halt`. -/
theorem Leveled.finishes (leveled : part.Leveled) (here : part.AtHeight c) {last : Config}
    (finishes : part.Finishes functions c last) :
    part.AtHeight last ∧ part.code[last.index]? = some .halt := by
  obtain ⟨n, finished⟩ := finishes
  have stops := part.runFor_stopsWith functions n c
  rw [finished] at stops
  obtain ⟨reaches, why⟩ := stops
  have there := leveled.reaches here reaches
  refine ⟨there, ?_⟩
  obtain behind | ⟨i, found, ends⟩ := why
  · rw [Array.getElem?_eq_getElem there.1] at behind
    cases behind
  · rw [found, Config.eq_halt_of_dispatch ends]

theorem carries_of_moved {code code' : List Instr} {next : Instr}
    (eq : part.code = (code ++ [Instr.halt]).toArray)
    (moved : MovedCode distance part.constants whole.constants code code')
    (here : whole.CodeAt distance (code' ++ [next])) : whole.Carries part distance := by
  intro index i found
  rw [eq, List.getElem?_toArray, List.getElem?_append] at found
  rw [Nat.add_comm]
  split at found
  · obtain ⟨i', found', becomes⟩ := moved.getElem? found
    exact ⟨i', (codeAt_append.1 here).1 index i' found', fun _ => becomes⟩
  · next behind =>
    rw [List.getElem?_singleton] at found
    split at found
    · next zero =>
      have last : index = code'.length := by
        rw [← moved.length_eq]
        omega
      cases found
      exact ⟨next, here index next (by simp [last]), fun other => absurd rfl other⟩
    · cases found

/-- With any number of steps, either the run of the part finishes, and that of the whole gets to the same
place, or both have come equally far. -/
theorem Carries.runFor_cases (carries : whole.Carries part distance) (leveled : part.Leveled)
    (here : part.AtHeight c) (n : Nat) :
    (∃ last, part.runFor functions n c = .finished last ∧
      whole.Reaches functions (c.moved distance) (last.moved distance)) ∨
    (∀ last, part.runFor functions n c ≠ .finished last) ∧
      whole.runFor functions n (c.moved distance) = (part.runFor functions n c).moved distance := by
  induction n generalizing c with
  | zero =>
    -- Also where the part halts there is an instruction in the whole, so both are cut short.
    have found := Array.getElem?_eq_getElem here.1
    obtain ⟨i', found', _⟩ := carries _ _ found
    rw [runFor_zero found, runFor_zero (c := c.moved distance) found']
    exact .inr ⟨nofun, rfl⟩
  | succ n ih =>
    obtain ⟨i, found⟩ : ∃ i, part.code[c.index]? = some i := ⟨_, Array.getElem?_eq_getElem here.1⟩
    obtain ⟨i', found', moved⟩ := carries _ _ found
    by_cases halts : i = .halt
    · subst halts
      exact .inl ⟨c, runFor_succ_halt found n, .refl _⟩
    · have enough := leveled.enough here found
      have same := Config.dispatch_moved functions (moved halts) enough
      cases dispatched : c.dispatch functions part.constants i with
      | error error =>
        rw [dispatched] at same
        rw [runFor_succ_error found dispatched, runFor_succ_error (c := c.moved distance) found' same,
          Config.abandon_moved (moved halts)]
        exact .inr ⟨nofun, rfl⟩
      | ok next =>
        cases next with
        | none => exact absurd (Config.eq_halt_of_dispatch dispatched) halts
        | some d =>
          rw [dispatched] at same
          rw [runFor_succ found dispatched, runFor_succ (c := c.moved distance) found' same]
          obtain ⟨last, finished, reaches⟩ | inStep := ih (leveled.step here found dispatched)
          · exact .inl ⟨last, finished, .step found' same reaches⟩
          · exact .inr inStep

end Chunk

end TinyScript
