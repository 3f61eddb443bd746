import TinyScript.Proofs.Bytecode.Emission
import TinyScript.Proofs.Program.Nodes

/-! # The layout of stack code

`ExprCode`, `StmtCode`, `BlockCode` and `ProgramCode` relate a node to the code that is generated for
it, without the pool of constants that generation threads through: they are given which constants
may be loaded for which literals.  `Expr.generate_code`, `Stmt.generate_code` and
`Program.generate_code` say that generation yields code so related, for the constants of the pool
that it leaves; pools only grow, so what holds early on holds of the finished chunk.
-/

namespace TinyScript

/-! ## Pools -/

/-- The constant with the given index stands for a literal: it is the literal, or equal to it. -/
def Pooled (pool : Array Scalar) (index : Nat) (value : Literal) : Prop :=
  ∃ constant, pool[index]? = some constant ∧
    (constant = .ofLiteral value ∨ constant.same (.ofLiteral value) = true)

/-- A pool to which only certain literals have been added. -/
def Grows (added : Literal → Prop) (pool pool' : Array Scalar) : Prop :=
  ∃ more : List Scalar, pool'.toList = pool.toList ++ more ∧
    ∀ constant ∈ more, ∃ value, added value ∧ constant = .ofLiteral value

namespace Grows

variable {p q : Literal → Prop} {pool middle pool' : Array Scalar}

theorem refl (p : Literal → Prop) (pool : Array Scalar) : Grows p pool pool :=
  ⟨[], by simp, by simp⟩

theorem trans (first : Grows p pool middle) (second : Grows p middle pool') :
    Grows p pool pool' := by
  obtain ⟨some, eq, ofSome⟩ := first
  obtain ⟨more, eq', ofMore⟩ := second
  refine ⟨some ++ more, by rw [eq', eq, List.append_assoc], fun constant member => ?_⟩
  rcases List.mem_append.1 member with early | late
  · exact ofSome constant early
  · exact ofMore constant late

theorem mono (grows : Grows p pool pool') (weaker : ∀ value, p value → q value) :
    Grows q pool pool' := by
  obtain ⟨more, eq, ofMore⟩ := grows
  refine ⟨more, eq, fun constant member => ?_⟩
  obtain ⟨value, holds, rfl⟩ := ofMore constant member
  exact ⟨value, weaker value holds, rfl⟩

theorem pooled {index : Nat} {value : Literal} (grows : Grows p pool pool')
    (found : Pooled pool index value) : Pooled pool' index value := by
  obtain ⟨more, eq, _⟩ := grows
  obtain ⟨constant, atIndex, stands⟩ := found
  refine ⟨constant, ?_, stands⟩
  rw [← Array.getElem?_toList] at atIndex ⊢
  rw [eq, List.getElem?_append_left (List.getElem?_eq_some_iff.1 atIndex).1, atIndex]

theorem mem {constant : Scalar} (grows : Grows p #[] pool') (member : constant ∈ pool') :
    ∃ value, p value ∧ constant = .ofLiteral value := by
  obtain ⟨more, eq, ofMore⟩ := grows
  refine ofMore constant ?_
  rw [← Array.mem_toList_iff, eq] at member
  simpa using member

end Grows

/-- The first constant that equals the value is taken for it, and if there is none the value is added. -/
theorem Chunk.pooled_cases (pool : Array Scalar) (value : Scalar) :
    (∃ kept, pool.find? (·.same value) = some kept ∧ kept.same value = true ∧
        pool[(pooled pool value).1]? = some kept ∧ (pooled pool value).2 = pool) ∨
      pool.find? (·.same value) = none ∧ pooled pool value = (pool.size, pool.push value) := by
  unfold pooled
  split
  · next index found =>
    obtain ⟨bound, equal, first⟩ := Array.findIdx?_eq_some_iff_getElem.1 found
    refine .inl ⟨pool[index], ?_, equal, Array.getElem?_eq_getElem bound, rfl⟩
    refine Array.find?_eq_some_iff_getElem.2 ⟨equal, index, bound, rfl, fun j before => ?_⟩
    simpa using first j before
  · next missing =>
    refine .inr ⟨Array.find?_eq_none.2 fun constant member => ?_, rfl⟩
    simp [Array.findIdx?_eq_none_iff.1 missing constant member]

theorem pooled_spec {pool pool' : Array Scalar} {value : Literal} {index : Nat}
    (eq : Chunk.pooled pool (.ofLiteral value) = (index, pool')) :
    Grows (· = value) pool pool' ∧ Pooled pool' index value := by
  obtain ⟨kept, _, equal, here, unchanged⟩ | ⟨_, added⟩ := Chunk.pooled_cases pool (.ofLiteral value)
  · rw [eq] at here unchanged
    obtain rfl : pool' = pool := unchanged
    exact ⟨.refl _ _, kept, here, .inr equal⟩
  · rw [eq] at added
    cases added
    refine ⟨⟨[.ofLiteral value], by simp, by simp⟩, .ofLiteral value, ?_, .inl rfl⟩
    simp

namespace Generator

variable {α β : Type} {pool pool' : Array Scalar}

theorem bind_eq_ok {x : Generator α} {f : α → Generator β} {b : β} :
    (x >>= f) pool = .ok (b, pool') ↔
      ∃ a middle, x pool = .ok (a, middle) ∧ f a middle = .ok (b, pool') := by
  simp only [bind, StateT.bind, Except.bind]
  cases x pool with
  | error e => simp
  | ok result =>
    obtain ⟨a, middle⟩ := result
    simp [and_assoc]

theorem pure_eq_ok {a b : α} :
    (pure a : Generator α) pool = .ok (b, pool') ↔ a = b ∧ pool = pool' := by
  change Except.ok (a, pool) = .ok (b, pool') ↔ _
  simp

theorem constant_eq_ok {value : Scalar} {index : Nat} :
    constant value pool = .ok (index, pool') ↔ Chunk.pooled pool value = (index, pool') := by
  simp [constant]

theorem unsupported_ne_ok {kind : String} {result : α × Array Scalar} :
    (unsupported kind : Generator α) pool ≠ .ok result := by
  simp [unsupported]

end Generator

/-! ## Expressions -/

mutual

/-- Code that pushes the value of an expression. -/
inductive ExprCode (loads : Nat → Literal → Prop) : Expr → List Instr → Prop where
  | literal {index : Nat} {value : Literal} : loads index value →
      ExprCode loads (.literal value) [.loadConst index]
  | identifier (name : String) : ExprCode loads (.identifier name) [.loadVar name]
  | binary {op : BinaryOp} {left right : Expr} {leftCode rightCode : List Instr} :
      ExprCode loads left leftCode → ExprCode loads right rightCode →
      ExprCode loads (.binary op left right) (leftCode ++ rightCode ++ [.binary op])
  | assign {op : AssignOp} {target : String} {value : Expr} {code : List Instr} :
      op.binary? = none → ExprCode loads value code →
      ExprCode loads (.assign op target value) (code ++ [.dup, .storeVar target])
  | compound {op : AssignOp} {combine : BinaryOp} {target : String} {value : Expr}
      {code : List Instr} : op.binary? = some combine → ExprCode loads value code →
      ExprCode loads (.assign op target value)
        (.loadVar target :: code ++ [.binary combine, .dup, .storeVar target])
  | function {name : String} {arguments : List Expr} {code : List Instr} :
      ArgumentsCode loads arguments code →
      ExprCode loads (.call (.function name) arguments) (code ++ [.call name arguments.length])
  | method {receiver property : String} {arguments : List Expr} {code : List Instr} :
      ArgumentsCode loads arguments code →
      ExprCode loads (.call (.method receiver property) arguments)
        (code ++ [.call (Callee.method receiver property).displayName arguments.length])

/-- Code that pushes the values of expressions, the last on top. -/
inductive ArgumentsCode (loads : Nat → Literal → Prop) : List Expr → List Instr → Prop where
  | nil : ArgumentsCode loads [] []
  | cons {e : Expr} {rest : List Expr} {code restCode : List Instr} : ExprCode loads e code →
      ArgumentsCode loads rest restCode → ArgumentsCode loads (e :: rest) (code ++ restCode)

end

section

variable {loads loads' : Nat → Literal → Prop}

mutual

theorem ExprCode.mono {e : Expr} {code : List Instr} (made : ExprCode loads e code)
    (weaker : ∀ index value, .literal value ∈ e.nodes → loads index value → loads' index value) :
    ExprCode loads' e code := by
  cases made with
  | literal found => exact .literal (weaker _ _ (Expr.self_mem_nodes _) found)
  | identifier name => exact .identifier name
  | binary left right =>
    refine .binary (left.mono fun i v member => weaker i v ?_)
      (right.mono fun i v member => weaker i v ?_)
    · exact List.mem_cons_of_mem _ (List.mem_append_left _ member)
    · exact List.mem_cons_of_mem _ (List.mem_append_right _ member)
  | assign plain value =>
    exact .assign plain (value.mono fun i v member => weaker i v (List.mem_cons_of_mem _ member))
  | compound combined value =>
    exact .compound combined
      (value.mono fun i v member => weaker i v (List.mem_cons_of_mem _ member))
  | function arguments =>
    exact .function (arguments.mono fun i v member => weaker i v (List.mem_cons_of_mem _ member))
  | method arguments =>
    exact .method (arguments.mono fun i v member => weaker i v (List.mem_cons_of_mem _ member))

theorem ArgumentsCode.mono {es : List Expr} {code : List Instr}
    (made : ArgumentsCode loads es code)
    (weaker : ∀ index value, .literal value ∈ Expr.nodesAll es → loads index value →
      loads' index value) : ArgumentsCode loads' es code := by
  cases made with
  | nil => exact .nil
  | cons first rest =>
    exact .cons (first.mono fun i v member => weaker i v (List.mem_append_left _ member))
      (rest.mono fun i v member => weaker i v (List.mem_append_right _ member))

end

end

mutual

/-- Generation succeeds with code of the expression, and adds only its literals to the pool. -/
theorem Expr.generate_code {e : Expr} {code : List Instr} {pool pool' : Array Scalar}
    (generated : e.generate pool = .ok (code, pool')) :
    Grows (.literal · ∈ e.nodes) pool pool' ∧ ExprCode (Pooled pool') e code := by
  cases e with
  | literal value =>
    simp only [Expr.generate, Generator.bind_eq_ok, Generator.constant_eq_ok,
      Generator.pure_eq_ok] at generated
    obtain ⟨index, _, found, rfl, rfl⟩ := generated
    obtain ⟨grows, pooled⟩ := pooled_spec found
    exact ⟨grows.mono fun _ eq => by simp [Expr.nodes, eq], .literal pooled⟩
  | identifier name =>
    simp only [Expr.generate, Generator.pure_eq_ok] at generated
    obtain ⟨rfl, rfl⟩ := generated
    exact ⟨.refl _ _, .identifier name⟩
  | binary op left right =>
    simp only [Expr.generate, Generator.bind_eq_ok, Generator.pure_eq_ok] at generated
    obtain ⟨leftCode, middle, leftMade, rightCode, _, rightMade, rfl, rfl⟩ := generated
    obtain ⟨leftGrows, leftIs⟩ := left.generate_code leftMade
    obtain ⟨rightGrows, rightIs⟩ := right.generate_code rightMade
    refine ⟨.trans (leftGrows.mono fun v member => ?_) (rightGrows.mono fun v member => ?_),
      .binary (leftIs.mono fun _ _ _ => rightGrows.pooled) rightIs⟩
    · exact List.mem_cons_of_mem _ (List.mem_append_left _ member)
    · exact List.mem_cons_of_mem _ (List.mem_append_right _ member)
  | assign op target value =>
    cases combined : op.binary? with
    | some combine =>
      simp only [Expr.generate, combined, Generator.bind_eq_ok, Generator.pure_eq_ok] at generated
      obtain ⟨valueCode, _, valueMade, rfl, rfl⟩ := generated
      obtain ⟨grows, valueIs⟩ := value.generate_code valueMade
      exact ⟨grows.mono fun _ member => List.mem_cons_of_mem _ member, .compound combined valueIs⟩
    | none =>
      simp only [Expr.generate, combined, Generator.bind_eq_ok, Generator.pure_eq_ok] at generated
      obtain ⟨valueCode, _, valueMade, rfl, rfl⟩ := generated
      obtain ⟨grows, valueIs⟩ := value.generate_code valueMade
      exact ⟨grows.mono fun _ member => List.mem_cons_of_mem _ member, .assign combined valueIs⟩
  | call callee arguments =>
    cases callee with
    | function name =>
      simp only [Expr.generate, Generator.bind_eq_ok, Generator.pure_eq_ok] at generated
      obtain ⟨argumentsCode, _, argumentsMade, rfl, rfl⟩ := generated
      obtain ⟨grows, argumentsAre⟩ := Expr.generateAll_code argumentsMade
      exact ⟨grows.mono fun _ member => List.mem_cons_of_mem _ member, .function argumentsAre⟩
    | method receiver property =>
      simp only [Expr.generate, Generator.bind_eq_ok, Generator.pure_eq_ok] at generated
      obtain ⟨argumentsCode, _, argumentsMade, rfl, rfl⟩ := generated
      obtain ⟨grows, argumentsAre⟩ := Expr.generateAll_code argumentsMade
      exact ⟨grows.mono fun _ member => List.mem_cons_of_mem _ member, .method argumentsAre⟩
    | computed target =>
      rw [Expr.generate] at generated
      exact absurd generated Generator.unsupported_ne_ok
  | member object property =>
    rw [Expr.generate] at generated
    exact absurd generated Generator.unsupported_ne_ok
  | array elements =>
    rw [Expr.generate] at generated
    exact absurd generated Generator.unsupported_ne_ok
  | object fields =>
    rw [Expr.generate] at generated
    exact absurd generated Generator.unsupported_ne_ok

theorem Expr.generateAll_code {es : List Expr} {code : List Instr} {pool pool' : Array Scalar}
    (generated : Expr.generateAll es pool = .ok (code, pool')) :
    Grows (.literal · ∈ Expr.nodesAll es) pool pool' ∧ ArgumentsCode (Pooled pool') es code := by
  cases es with
  | nil =>
    simp only [Expr.generateAll, Generator.pure_eq_ok] at generated
    obtain ⟨rfl, rfl⟩ := generated
    exact ⟨.refl _ _, .nil⟩
  | cons e rest =>
    simp only [Expr.generateAll, Generator.bind_eq_ok, Generator.pure_eq_ok] at generated
    obtain ⟨firstCode, middle, firstMade, restCode, _, restMade, rfl, rfl⟩ := generated
    obtain ⟨firstGrows, firstIs⟩ := e.generate_code firstMade
    obtain ⟨restGrows, restAre⟩ := Expr.generateAll_code restMade
    refine ⟨.trans (firstGrows.mono fun v member => ?_) (restGrows.mono fun v member => ?_),
      .cons (firstIs.mono fun _ _ _ => restGrows.pooled) restAre⟩
    · exact List.mem_append_left _ member
    · exact List.mem_append_right _ member

end

/-! ## Clauses of a loop -/

/-- Code for the test of a loop, for each index that the jump out of it may be aimed at. -/
inductive TestCode (loads : Nat → Literal → Prop) : Option Expr → (Nat → List Instr) → Prop where
  | none : TestCode loads none fun _ => []
  | some {test : Expr} {code : List Instr} : ExprCode loads test code →
      TestCode loads (some test) fun exit => code ++ [.jumpIfFalse exit]

/-- Code that evaluates an expression for its effects. -/
inductive EffectCode (loads : Nat → Literal → Prop) : Option Expr → List Instr → Prop where
  | none : EffectCode loads none []
  | some {e : Expr} {code : List Instr} : ExprCode loads e code →
      EffectCode loads (some e) (code ++ [.pop])

section

variable {loads loads' : Nat → Literal → Prop}

theorem TestCode.mono {test : Option Expr} {code : Nat → List Instr}
    (made : TestCode loads test code)
    (weaker : ∀ index value, .literal value ∈ Expr.nodesOfClause test → loads index value →
      loads' index value) : TestCode loads' test code := by
  cases made with
  | none => exact .none
  | some test => exact .some (test.mono weaker)

theorem EffectCode.mono {e : Option Expr} {code : List Instr} (made : EffectCode loads e code)
    (weaker : ∀ index value, .literal value ∈ Expr.nodesOfClause e → loads index value →
      loads' index value) : EffectCode loads' e code := by
  cases made with
  | none => exact .none
  | some e => exact .some (e.mono weaker)

end

theorem Expr.generateTest_code {test : Option Expr} {code : Nat → List Instr}
    {pool pool' : Array Scalar} (generated : Expr.generateTest test pool = .ok (code, pool')) :
    Grows (.literal · ∈ Expr.nodesOfClause test) pool pool' ∧
      TestCode (Pooled pool') test code := by
  cases test with
  | none =>
    simp only [Expr.generateTest, Generator.pure_eq_ok] at generated
    obtain ⟨rfl, rfl⟩ := generated
    exact ⟨.refl _ _, .none⟩
  | some test =>
    simp only [Expr.generateTest, Generator.bind_eq_ok, Generator.pure_eq_ok] at generated
    obtain ⟨testCode, _, testMade, rfl, rfl⟩ := generated
    obtain ⟨grows, testIs⟩ := test.generate_code testMade
    exact ⟨grows, .some testIs⟩

theorem Expr.generateEffect_code {e : Option Expr} {code : List Instr} {pool pool' : Array Scalar}
    (generated : Expr.generateEffect e pool = .ok (code, pool')) :
    Grows (.literal · ∈ Expr.nodesOfClause e) pool pool' ∧ EffectCode (Pooled pool') e code := by
  cases e with
  | none =>
    simp only [Expr.generateEffect, Generator.pure_eq_ok] at generated
    obtain ⟨rfl, rfl⟩ := generated
    exact ⟨.refl _ _, .none⟩
  | some e =>
    simp only [Expr.generateEffect, Generator.bind_eq_ok, Generator.pure_eq_ok] at generated
    obtain ⟨valueCode, _, valueMade, rfl, rfl⟩ := generated
    obtain ⟨grows, valueIs⟩ := e.generate_code valueMade
    exact ⟨grows, .some valueIs⟩

/-! ## Statements -/

mutual

/-- Code of a statement that begins at `base`. An expression statement leaves its value if `keep` is
set. -/
inductive StmtCode (loads : Nat → Literal → Prop) : (base : Nat) → (keep : Bool) → Stmt →
    List Instr → Prop where
  | declare {base : Nat} {keep : Bool} {kind : DeclKind} {name : String} {init : Expr}
      {code : List Instr} : ExprCode loads init code →
      StmtCode loads base keep (.declare kind name init) (code ++ [.storeVar name])
  | kept {base : Nat} {value : Expr} {code : List Instr} : ExprCode loads value code →
      StmtCode loads base true (.expression value) code
  | dropped {base : Nat} {value : Expr} {code : List Instr} : ExprCode loads value code →
      StmtCode loads base false (.expression value) (code ++ [.pop])
  | ifThen {base : Nat} {keep : Bool} {test : Expr} {consequent : List Stmt}
      {testCode code : List Instr} : ExprCode loads test testCode →
      BlockCode loads (base + testCode.length + 1) consequent code →
      StmtCode loads base keep (.ifElse test consequent none)
        (testCode ++ .jumpIfFalse (base + testCode.length + 1 + code.length) :: code)
  | ifElse {base middle : Nat} {keep : Bool} {test : Expr} {consequent alternate : List Stmt}
      {testCode code alternateCode : List Instr} : ExprCode loads test testCode →
      BlockCode loads (base + testCode.length + 1) consequent code →
      middle = base + testCode.length + 1 + code.length + 1 →
      BlockCode loads middle alternate alternateCode →
      StmtCode loads base keep (.ifElse test consequent (some alternate))
        (testCode ++ .jumpIfFalse middle :: code ++
          .jump (middle + alternateCode.length) :: alternateCode)
  | whileLoop {base : Nat} {keep : Bool} {test : Expr} {body : List Stmt}
      {testCode : Nat → List Instr} {code : List Instr} : TestCode loads (some test) testCode →
      BlockCode loads (base + (testCode 0).length) body code →
      StmtCode loads base keep (.whileLoop test body)
        (testCode (base + (testCode 0).length + code.length + 1) ++ code ++ [.jump base])
  | forLoop {base again start : Nat} {keep : Bool} {init : Option Stmt} {test update : Option Expr}
      {body : List Stmt} {testCode : Nat → List Instr} {initCode code updateCode : List Instr} :
      ClauseCode loads base init initCode → again = base + initCode.length →
      TestCode loads test testCode → start = again + (testCode 0).length →
      BlockCode loads start body code → EffectCode loads update updateCode →
      StmtCode loads base keep (.forLoop init test update body)
        (initCode ++ testCode (start + code.length + updateCode.length + 1) ++ code ++
          updateCode ++ [.jump again])

/-- Code of statements one after the other. -/
inductive BlockCode (loads : Nat → Literal → Prop) : (base : Nat) → List Stmt → List Instr →
    Prop where
  | nil {base : Nat} : BlockCode loads base [] []
  | cons {base : Nat} {s : Stmt} {rest : List Stmt} {code restCode : List Instr} :
      StmtCode loads base false s code → BlockCode loads (base + code.length) rest restCode →
      BlockCode loads base (s :: rest) (code ++ restCode)

/-- Code of the first clause of a loop. -/
inductive ClauseCode (loads : Nat → Literal → Prop) : (base : Nat) → Option Stmt → List Instr →
    Prop where
  | none {base : Nat} : ClauseCode loads base none []
  | some {base : Nat} {s : Stmt} {code : List Instr} : StmtCode loads base false s code →
      ClauseCode loads base (some s) code

end

section

variable {loads loads' : Nat → Literal → Prop}

mutual

theorem StmtCode.mono {base : Nat} {keep : Bool} {s : Stmt} {code : List Instr}
    (made : StmtCode loads base keep s code)
    (weaker : ∀ index value, Node.literal value ∈ s.nodes → loads index value →
      loads' index value) : StmtCode loads' base keep s code := by
  cases made with
  | declare init =>
    exact .declare (init.mono fun i v member => weaker i v (by simp [Stmt.nodes, member]))
  | kept value =>
    exact .kept (value.mono fun i v member => weaker i v (by simp [Stmt.nodes, member]))
  | dropped value =>
    exact .dropped (value.mono fun i v member => weaker i v (by simp [Stmt.nodes, member]))
  | ifThen test consequent =>
    exact .ifThen (test.mono fun i v member => weaker i v (by simp [Stmt.nodes, member]))
      (consequent.mono fun i v member => weaker i v (by simp [Stmt.nodes, member]))
  | ifElse test consequent middle alternate =>
    exact .ifElse (test.mono fun i v member => weaker i v (by simp [Stmt.nodes, member]))
      (consequent.mono fun i v member => weaker i v (by simp [Stmt.nodes, member])) middle
      (alternate.mono fun i v member =>
        weaker i v (by simp [Stmt.nodes, Stmt.nodesOfBranch, member]))
  | whileLoop test body =>
    refine .whileLoop (test.mono fun i v member => weaker i v ?_)
      (body.mono fun i v member => weaker i v (by simp [Stmt.nodes, member]))
    simp only [Expr.nodesOfClause] at member
    simp [Stmt.nodes, member]
  | forLoop init again test start body update =>
    exact .forLoop (init.mono fun i v member => weaker i v (by simp [Stmt.nodes, member])) again
      (test.mono fun i v member => weaker i v (by simp [Stmt.nodes, member])) start
      (body.mono fun i v member => weaker i v (by simp [Stmt.nodes, member]))
      (update.mono fun i v member => weaker i v (by simp [Stmt.nodes, member]))

theorem BlockCode.mono {base : Nat} {block : List Stmt} {code : List Instr}
    (made : BlockCode loads base block code)
    (weaker : ∀ index value, Node.literal value ∈ Stmt.nodesAll block → loads index value →
      loads' index value) : BlockCode loads' base block code := by
  cases made with
  | nil => exact .nil
  | cons first rest =>
    exact .cons (first.mono fun i v member => weaker i v (by simp [Stmt.nodesAll, member]))
      (rest.mono fun i v member => weaker i v (by simp [Stmt.nodesAll, member]))

theorem ClauseCode.mono {base : Nat} {clause : Option Stmt} {code : List Instr}
    (made : ClauseCode loads base clause code)
    (weaker : ∀ index value, Node.literal value ∈ Stmt.nodesOfClause clause →
      loads index value → loads' index value) : ClauseCode loads' base clause code := by
  cases made with
  | none => exact .none
  | some s => exact .some (s.mono weaker)

end

end

mutual

/-- Generation succeeds with code of the statement, and adds only its literals to the pool. -/
theorem Stmt.generate_code {base : Nat} {keep : Bool} {s : Stmt} {code : List Instr}
    {pool pool' : Array Scalar} (generated : s.generate base keep pool = .ok (code, pool')) :
    Grows (Node.literal · ∈ s.nodes) pool pool' ∧
      StmtCode (Pooled pool') base keep s code := by
  cases s with
  | declare kind name init =>
    simp only [Stmt.generate, Generator.bind_eq_ok, Generator.pure_eq_ok] at generated
    obtain ⟨initCode, _, initMade, rfl, rfl⟩ := generated
    obtain ⟨grows, initIs⟩ := init.generate_code initMade
    exact ⟨grows.mono fun v member => by simp [Stmt.nodes, member], .declare initIs⟩
  | expression value =>
    simp only [Stmt.generate, Generator.bind_eq_ok, Generator.pure_eq_ok] at generated
    obtain ⟨valueCode, _, valueMade, rfl, rfl⟩ := generated
    obtain ⟨grows, valueIs⟩ := value.generate_code valueMade
    refine ⟨grows.mono fun v member => by simp [Stmt.nodes, member], ?_⟩
    cases keep with
    | true => exact .kept valueIs
    | false => exact .dropped valueIs
  | ifElse test consequent alternate =>
    cases alternate with
    | none =>
      simp only [Stmt.generate, Generator.bind_eq_ok, Generator.pure_eq_ok] at generated
      obtain ⟨testCode, _, testMade, consequentCode, _, consequentMade, rfl, rfl⟩ := generated
      obtain ⟨testGrows, testIs⟩ := test.generate_code testMade
      obtain ⟨grows, consequentIs⟩ := Stmt.generateAll_code consequentMade
      refine ⟨.trans (testGrows.mono fun v member => ?_) (grows.mono fun v member => ?_),
        .ifThen (testIs.mono fun _ _ _ => grows.pooled) consequentIs⟩
      · simp [Stmt.nodes, member]
      · simp [Stmt.nodes, member]
    | some alternate =>
      simp only [Stmt.generate, Generator.bind_eq_ok, Generator.pure_eq_ok] at generated
      obtain ⟨testCode, _, testMade, consequentCode, _, consequentMade, alternateCode, _,
        alternateMade, rfl, rfl⟩ := generated
      obtain ⟨testGrows, testIs⟩ := test.generate_code testMade
      obtain ⟨consequentGrows, consequentIs⟩ := Stmt.generateAll_code consequentMade
      obtain ⟨grows, alternateIs⟩ := Stmt.generateAll_code alternateMade
      refine ⟨.trans (testGrows.mono fun v member => ?_)
          (.trans (consequentGrows.mono fun v member => ?_) (grows.mono fun v member => ?_)),
        .ifElse (testIs.mono fun _ _ _ found => grows.pooled (consequentGrows.pooled found))
          (consequentIs.mono fun _ _ _ => grows.pooled) rfl alternateIs⟩
      · simp [Stmt.nodes, member]
      · simp [Stmt.nodes, member]
      · simp [Stmt.nodes, Stmt.nodesOfBranch, member]
  | whileLoop test body =>
    simp only [Stmt.generate, Generator.bind_eq_ok, Generator.pure_eq_ok] at generated
    obtain ⟨testCode, _, testMade, bodyCode, _, bodyMade, rfl, rfl⟩ := generated
    obtain ⟨testGrows, testIs⟩ := Expr.generateTest_code testMade
    obtain ⟨grows, bodyIs⟩ := Stmt.generateAll_code bodyMade
    refine ⟨.trans (testGrows.mono fun v member => ?_) (grows.mono fun v member => ?_),
      .whileLoop (testIs.mono fun _ _ _ => grows.pooled) bodyIs⟩
    · simp only [Expr.nodesOfClause] at member
      simp [Stmt.nodes, member]
    · simp [Stmt.nodes, member]
  | forLoop init test update body =>
    simp only [Stmt.generate, Generator.bind_eq_ok, Generator.pure_eq_ok] at generated
    obtain ⟨initCode, _, initMade, testCode, _, testMade, bodyCode, _, bodyMade, updateCode, _,
      updateMade, rfl, rfl⟩ := generated
    obtain ⟨initGrows, initIs⟩ := Stmt.generateClause_code initMade
    obtain ⟨testGrows, testIs⟩ := Expr.generateTest_code testMade
    obtain ⟨bodyGrows, bodyIs⟩ := Stmt.generateAll_code bodyMade
    obtain ⟨grows, updateIs⟩ := Expr.generateEffect_code updateMade
    refine ⟨.trans (initGrows.mono fun v member => ?_) (.trans (testGrows.mono fun v member => ?_)
        (.trans (bodyGrows.mono fun v member => ?_) (grows.mono fun v member => ?_))),
      .forLoop (initIs.mono fun _ _ _ found =>
          grows.pooled (bodyGrows.pooled (testGrows.pooled found))) rfl
        (testIs.mono fun _ _ _ found => grows.pooled (bodyGrows.pooled found)) rfl
        (bodyIs.mono fun _ _ _ => grows.pooled) updateIs⟩
    · simp [Stmt.nodes, member]
    · simp [Stmt.nodes, member]
    · simp [Stmt.nodes, member]
    · simp [Stmt.nodes, member]
  | function name params body site =>
    rw [Stmt.generate] at generated
    exact absurd generated Generator.unsupported_ne_ok
  | ret argument =>
    rw [Stmt.generate] at generated
    exact absurd generated Generator.unsupported_ne_ok

theorem Stmt.generateAll_code {base : Nat} {block : List Stmt} {code : List Instr}
    {pool pool' : Array Scalar} (generated : Stmt.generateAll base block pool = .ok (code, pool')) :
    Grows (Node.literal · ∈ Stmt.nodesAll block) pool pool' ∧
      BlockCode (Pooled pool') base block code := by
  cases block with
  | nil =>
    simp only [Stmt.generateAll, Generator.pure_eq_ok] at generated
    obtain ⟨rfl, rfl⟩ := generated
    exact ⟨.refl _ _, .nil⟩
  | cons s rest =>
    simp only [Stmt.generateAll, Generator.bind_eq_ok, Generator.pure_eq_ok] at generated
    obtain ⟨firstCode, _, firstMade, restCode, _, restMade, rfl, rfl⟩ := generated
    obtain ⟨firstGrows, firstIs⟩ := s.generate_code firstMade
    obtain ⟨grows, restAre⟩ := Stmt.generateAll_code restMade
    refine ⟨.trans (firstGrows.mono fun v member => ?_) (grows.mono fun v member => ?_),
      .cons (firstIs.mono fun _ _ _ => grows.pooled) restAre⟩
    · simp [Stmt.nodesAll, member]
    · simp [Stmt.nodesAll, member]

theorem Stmt.generateClause_code {base : Nat} {clause : Option Stmt} {code : List Instr}
    {pool pool' : Array Scalar}
    (generated : Stmt.generateClause base clause pool = .ok (code, pool')) :
    Grows (Node.literal · ∈ Stmt.nodesOfClause clause) pool pool' ∧
      ClauseCode (Pooled pool') base clause code := by
  cases clause with
  | none =>
    simp only [Stmt.generateClause, Generator.pure_eq_ok] at generated
    obtain ⟨rfl, rfl⟩ := generated
    exact ⟨.refl _ _, .none⟩
  | some s =>
    obtain ⟨grows, isCode⟩ := s.generate_code (by simpa only [Stmt.generateClause] using generated)
    exact ⟨grows, .some isCode⟩

end

/-! ## Programs -/

/-- The last statement of a program is an expression statement. -/
def Program.endsInExpression (p : Program) : Bool :=
  match p.getLast? with
  | some (.expression _) => true
  | _ => false

theorem Program.endsInExpression_cons {s : Stmt} {rest : Program} (more : rest ≠ []) :
    Program.endsInExpression (s :: rest) = rest.endsInExpression := by
  simp only [Program.endsInExpression, List.getLast?_cons_of_ne_nil more]

/-- Code of the statements of a program, the last of which may leave a value. -/
inductive ProgramCode (loads : Nat → Literal → Prop) : (base : Nat) → Program → List Instr →
    Prop where
  | nil {base : Nat} : ProgramCode loads base [] []
  | last {base : Nat} {s : Stmt} {code : List Instr} : StmtCode loads base true s code →
      ProgramCode loads base [s] code
  | cons {base : Nat} {s : Stmt} {rest : Program} {code restCode : List Instr} : rest ≠ [] →
      StmtCode loads base false s code → ProgramCode loads (base + code.length) rest restCode →
      ProgramCode loads base (s :: rest) (code ++ restCode)

theorem ProgramCode.mono {loads loads' : Nat → Literal → Prop} {base : Nat} {p : Program}
    {code : List Instr} (made : ProgramCode loads base p code)
    (weaker : ∀ index value, Node.literal value ∈ p.nodes → loads index value →
      loads' index value) : ProgramCode loads' base p code := by
  induction made with
  | nil => exact .nil
  | last s =>
    exact .last (s.mono fun i v member => weaker i v (by simp [Program.nodes, Stmt.nodesAll, member]))
  | cons more first _ ih =>
    refine .cons more (first.mono fun i v member => weaker i v ?_)
      (ih fun i v member => weaker i v ?_)
    · simp [Program.nodes, Stmt.nodesAll, member]
    · rw [Program.nodes, Stmt.nodesAll]
      exact List.mem_append_right _ member

theorem Program.generateFrom_code {base : Nat} {p : Program} {code : List Instr}
    {pool pool' : Array Scalar} (generated : Program.generateFrom base p pool = .ok (code, pool')) :
    Grows (Node.literal · ∈ p.nodes) pool pool' ∧ ProgramCode (Pooled pool') base p code := by
  induction p generalizing base code pool with
  | nil =>
    simp only [Program.generateFrom, Generator.pure_eq_ok] at generated
    obtain ⟨rfl, rfl⟩ := generated
    exact ⟨.refl _ _, .nil⟩
  | cons s rest ih =>
    cases rest with
    | nil =>
      obtain ⟨grows, isCode⟩ := s.generate_code generated
      refine ⟨grows.mono fun v member => ?_, .last isCode⟩
      simp [Program.nodes, Stmt.nodesAll, member]
    | cons next rest =>
      simp only [Program.generateFrom, Generator.bind_eq_ok, Generator.pure_eq_ok] at generated
      obtain ⟨firstCode, _, firstMade, restCode, _, restMade, rfl, rfl⟩ := generated
      obtain ⟨firstGrows, firstIs⟩ := s.generate_code firstMade
      obtain ⟨grows, restAre⟩ := ih restMade
      refine ⟨.trans (firstGrows.mono fun v member => ?_) (grows.mono fun v member => ?_),
        .cons (by simp) (firstIs.mono fun _ _ _ => grows.pooled) restAre⟩
      · simp [Program.nodes, Stmt.nodesAll, member]
      · rw [Program.nodes, Stmt.nodesAll]
        exact List.mem_append_right _ member

/-- What is known of the chunk of a program: its code is that of the statements and `halt`, its
constants are literals of the program, and it is valid. -/
theorem Program.generate_code {p : Program} {chunk : Chunk} (generated : p.generate = .ok chunk) :
    ∃ code, chunk.code = (code ++ [Instr.halt]).toArray ∧
      ProgramCode (Pooled chunk.constants) 0 p code ∧
      Grows (Node.literal · ∈ p.nodes) #[] chunk.constants ∧ chunk.validate = .ok () := by
  simp only [Program.generate_eq, bind, Except.bind] at generated
  split at generated
  · cases generated
  · next result made =>
    obtain ⟨code, constants⟩ := result
    split at generated
    · cases generated
    · next valid =>
      cases generated
      obtain ⟨grows, isCode⟩ := Program.generateFrom_code made
      exact ⟨code, rfl, isCode, grows, valid⟩

end TinyScript
