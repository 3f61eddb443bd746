import TinyScript.Bytecode.Vm
import TinyScript.Evaluator.Machine
import TinyScript.Proofs.Bytecode.Places
import TinyScript.Proofs.Bytecode.Run
import TinyScript.Proofs.Number.Equality
import TinyScript.Proofs.Parser.Literals

/-! # Code of portable programs in a chunk

A program is portable if it uses the names of the libraries only to call functions of `Math` that both
back ends have, with the number of arguments that both want.

`ExprAt`, `StmtAt`, `BlockAt` and `ProgramAt` say where in a chunk the code of a portable node begins
and where the code behind it begins.  Here loads find the very literals of the program: a pool never
confuses two literals that a text can spell (`Pooled.exact`).
-/

namespace TinyScript

/-- The names that are bound from the start. -/
def libraryNames : List String := ["Math", "Array", "String", "Date"]

/-! ## Portable programs -/

/-- A call of a function of `Math` that stack machines have, with as many arguments as they want. -/
def CallsMath (receiver operation : String) (argc : Nat) : Prop :=
  receiver = "Math" ∧ ∃ function, HostFunction.standard.get? ("Math." ++ operation) = some function ∧
    function.arity = argc

/-- What a node may do with the names of libraries: call functions of `Math`. -/
def Node.Portable : Node → Prop
  | .expr (.identifier name) => name ∉ libraryNames
  | .expr (.assign _ target _) => target ∉ libraryNames
  | .expr (.call (.function name) _) => name ∉ libraryNames
  | .expr (.call (.method receiver operation) args) =>
    receiver ∉ libraryNames ∨ CallsMath receiver operation args.length
  | .stmt (.declare _ name _) => name ∉ libraryNames
  | _ => True

def Expr.Portable (e : Expr) : Prop := e.All Node.Portable

def Stmt.Portable (s : Stmt) : Prop := s.All Node.Portable

def Program.Portable (p : Program) : Prop := ∀ n ∈ p.nodes, n.Portable

/-! ## Exact constants -/

theorem Scalar.eq_of_same {v w : Literal} (left : v.Spelled) (right : w.Spelled)
    (same : (Scalar.ofLiteral v).same (.ofLiteral w) = true) :
    Scalar.ofLiteral v = .ofLiteral w := by
  cases v with
  | number x =>
    cases w with
    | number y =>
      obtain ⟨ds, rfl⟩ := left
      obtain ⟨es, rfl⟩ := right
      exact congrArg Scalar.number (Number.ofDigits_eq_of_beq same)
    | string => cases same
    | boolean => cases same
  | string s =>
    cases w with
    | number => cases same
    | string t => exact congrArg Scalar.string (beq_iff_eq.1 same)
    | boolean => cases same
  | boolean a =>
    cases w with
    | number => cases same
    | string => cases same
    | boolean b => exact congrArg Scalar.boolean (beq_iff_eq.1 same)

/-- The constant with the given index is the literal. -/
def Chunk.Loads (chunk : Chunk) (index : Nat) (value : Literal) : Prop :=
  chunk.constants[index]? = some (.ofLiteral value)

theorem Pooled.exact {chunk : Chunk} {all : Literal → Prop} {index : Nat} {value : Literal}
    (grows : Grows all #[] chunk.constants) (spelled : ∀ v, all v → v.Spelled) (mine : value.Spelled)
    (found : Pooled chunk.constants index value) : chunk.Loads index value := by
  obtain ⟨constant, atIndex, stands⟩ := found
  rw [Chunk.Loads, atIndex]
  rcases stands with eq | same
  · rw [eq]
  · obtain ⟨other, member, rfl⟩ := grows.mem (Array.mem_of_getElem? atIndex)
    rw [Scalar.eq_of_same (spelled other member) mine same]

/-! ## Places of code -/

section

variable (chunk : Chunk)

mutual

/-- The code of an expression begins at the first index, and the code behind it at the second. What
code there is for a call that the evaluator never makes does not matter. -/
inductive ExprAt : Expr → Nat → Nat → Prop where
  | literal {start index : Nat} {value : Literal} : chunk.code[start]? = some (.loadConst index) →
      chunk.Loads index value → ExprAt (.literal value) start (start + 1)
  | identifier {start : Nat} {name : String} : name ∉ libraryNames →
      chunk.code[start]? = some (.loadVar name) → ExprAt (.identifier name) start (start + 1)
  | binary {start middle last : Nat} {op : BinaryOp} {left right : Expr} : ExprAt left start middle →
      ExprAt right middle last → chunk.code[last]? = some (.binary op) →
      ExprAt (.binary op left right) start (last + 1)
  | assign {start last : Nat} {op : AssignOp} {target : String} {value : Expr} : op.binary? = none →
      target ∉ libraryNames → ExprAt value start last → chunk.code[last]? = some .dup →
      chunk.code[last + 1]? = some (.storeVar target) →
      ExprAt (.assign op target value) start (last + 2)
  | compound {start last : Nat} {op : AssignOp} {combine : BinaryOp} {target : String} {value : Expr} :
      op.binary? = some combine → target ∉ libraryNames →
      chunk.code[start]? = some (.loadVar target) → ExprAt value (start + 1) last →
      chunk.code[last]? = some (.binary combine) → chunk.code[last + 1]? = some .dup →
      chunk.code[last + 2]? = some (.storeVar target) →
      ExprAt (.assign op target value) start (last + 3)
  | function {start next : Nat} {name : String} {args : List Expr} : name ∉ libraryNames →
      ExprAt (.call (.function name) args) start next
  | method {start next : Nat} {receiver operation : String} {args : List Expr} :
      receiver ∉ libraryNames → ExprAt (.call (.method receiver operation) args) start next
  | math {start last : Nat} {operation : String} {args : List Expr} :
      CallsMath "Math" operation args.length → ArgumentsAt args start last →
      chunk.code[last]? = some (.call ("Math." ++ operation) args.length) →
      ExprAt (.call (.method "Math" operation) args) start (last + 1)

inductive ArgumentsAt : List Expr → Nat → Nat → Prop where
  | nil {start : Nat} : ArgumentsAt [] start start
  | cons {start middle next : Nat} {e : Expr} {rest : List Expr} : ExprAt e start middle →
      ArgumentsAt rest middle next → ArgumentsAt (e :: rest) start next

end

/-- The test of a loop, which jumps to the last index when it fails. -/
inductive TestAt : Option Expr → (start next exit : Nat) → Prop where
  | none {start exit : Nat} : TestAt none start start exit
  | some {start last exit : Nat} {test : Expr} : ExprAt chunk test start last →
      chunk.code[last]? = some (.jumpIfFalse exit) → TestAt (some test) start (last + 1) exit

/-- An expression that is evaluated for its effects. -/
inductive EffectAt : Option Expr → Nat → Nat → Prop where
  | none {start : Nat} : EffectAt none start start
  | some {start last : Nat} {e : Expr} : ExprAt chunk e start last →
      chunk.code[last]? = some .pop → EffectAt (some e) start (last + 1)

mutual

/-- The code of a statement that leaves nothing on the stack, and the code behind it. -/
inductive StmtAt : Stmt → Nat → Nat → Prop where
  | declare {start last : Nat} {kind : DeclKind} {name : String} {init : Expr} :
      name ∉ libraryNames → ExprAt chunk init start last →
      chunk.code[last]? = some (.storeVar name) → StmtAt (.declare kind name init) start (last + 1)
  | expression {start last : Nat} {value : Expr} : ExprAt chunk value start last →
      chunk.code[last]? = some .pop → StmtAt (.expression value) start (last + 1)
  | ifThen {start last next : Nat} {test : Expr} {consequent : List Stmt} :
      ExprAt chunk test start last → chunk.code[last]? = some (.jumpIfFalse next) →
      BlockAt consequent (last + 1) next → StmtAt (.ifElse test consequent none) start next
  | ifElse {start last stop next : Nat} {test : Expr} {consequent alternate : List Stmt} :
      ExprAt chunk test start last → chunk.code[last]? = some (.jumpIfFalse (stop + 1)) →
      BlockAt consequent (last + 1) stop → chunk.code[stop]? = some (.jump next) →
      BlockAt alternate (stop + 1) next → StmtAt (.ifElse test consequent (some alternate)) start next
  | whileLoop {start next : Nat} {test : Expr} {body : List Stmt} :
      LoopAt ⟨some test, none, body⟩ start next → StmtAt (.whileLoop test body) start next
  | forLoop {start again next : Nat} {init : Option Stmt} {test update : Option Expr}
      {body : List Stmt} : ClauseAt init start again → LoopAt ⟨test, update, body⟩ again next →
      StmtAt (.forLoop init test update body) start next

inductive BlockAt : List Stmt → Nat → Nat → Prop where
  | nil {start : Nat} : BlockAt [] start start
  | cons {start middle next : Nat} {s : Stmt} {rest : List Stmt} : StmtAt s start middle →
      BlockAt rest middle next → BlockAt (s :: rest) start next

inductive ClauseAt : Option Stmt → Nat → Nat → Prop where
  | none {start : Nat} : ClauseAt none start start
  | some {start next : Nat} {s : Stmt} : StmtAt s start next → ClauseAt (some s) start next

/-- A loop, from the test to the jump back to it. -/
inductive LoopAt : Loop → Nat → Nat → Prop where
  | intro {again start post last : Nat} {loop : Loop} : TestAt chunk loop.test again start (last + 1) →
      BlockAt loop.body start post → EffectAt chunk loop.update post last →
      chunk.code[last]? = some (.jump again) → LoopAt loop again (last + 1)

end

/-- The code of a program up to `halt`. If it leaves a value, that of a last expression is kept. -/
inductive ProgramAt : (leaves : Bool) → Program → Nat → Prop where
  | nil {start : Nat} : chunk.code[start]? = some .halt → ProgramAt false [] start
  | last {start last : Nat} {value : Expr} : ExprAt chunk value start last →
      chunk.code[last]? = some .halt → ProgramAt true [.expression value] start
  | cons {leaves : Bool} {start middle : Nat} {s : Stmt} {rest : Program} :
      StmtAt chunk s start middle → ProgramAt leaves rest middle → ProgramAt leaves (s :: rest) start

end

/-! ## From code to places -/

section

variable {chunk : Chunk}

theorem ExprAt.to {e : Expr} {start next other : Nat} (placed : ExprAt chunk e start next)
    (eq : next = other) : ExprAt chunk e start other := eq ▸ placed

theorem StmtAt.to {s : Stmt} {start next other : Nat} (placed : StmtAt chunk s start next)
    (eq : next = other) : StmtAt chunk s start other := eq ▸ placed

mutual

theorem ExprCode.at {e : Expr} {code : List Instr} {start : Nat} (made : ExprCode chunk.Loads e code)
    (here : chunk.CodeAt start code) (portable : e.Portable) :
    ExprAt chunk e start (start + code.length) := by
  have self : Node.Portable (.expr e) := portable e e.self_mem_nodes
  cases made with
  | literal found => exact .literal (here 0 _ rfl) found
  | identifier name => exact .identifier self (here 0 _ rfl)
  | binary left right =>
    obtain ⟨_, leftPortable, rightPortable⟩ := Expr.all_binary.1 portable
    simp only [Chunk.codeAt_append, Chunk.codeAt_cons, List.length_append, ← Nat.add_assoc] at here
    obtain ⟨⟨leftHere, rightHere⟩, last, _⟩ := here
    have whole :=
      ExprAt.binary (left.at leftHere leftPortable) (right.at rightHere rightPortable) last
    simpa [Nat.add_assoc] using whole
  | assign plain value =>
    obtain ⟨_, valuePortable⟩ := Expr.all_assign.1 portable
    simp only [Chunk.codeAt_append, Chunk.codeAt_cons] at here
    obtain ⟨valueHere, dup, store, _⟩ := here
    have whole := ExprAt.assign plain self (value.at valueHere valuePortable) dup store
    simpa [Nat.add_assoc] using whole
  | @compound _ _ _ _ code combined value =>
    obtain ⟨_, valuePortable⟩ := Expr.all_assign.1 portable
    rw [List.cons_append] at here ⊢
    simp only [Chunk.codeAt_append, Chunk.codeAt_cons] at here
    obtain ⟨load, valueHere, combine, dup, store, _⟩ := here
    have whole :=
      ExprAt.compound combined self load (value.at valueHere valuePortable) combine dup store
    exact whole.to (by simp; omega)
  | function arguments => exact .function self
  | @method receiver operation args code arguments =>
    obtain ⟨_, _, argsPortable⟩ := Expr.all_call.1 portable
    simp only [Chunk.codeAt_append, Chunk.codeAt_cons] at here
    obtain ⟨argsHere, call, _⟩ := here
    rcases self with other | math
    · exact .method other
    · obtain ⟨rfl, known⟩ := math
      have whole := ExprAt.math ⟨rfl, known⟩ (arguments.at argsHere argsPortable) call
      simpa [Nat.add_assoc] using whole

theorem ArgumentsCode.at {es : List Expr} {code : List Instr} {start : Nat}
    (made : ArgumentsCode chunk.Loads es code) (here : chunk.CodeAt start code)
    (portable : ∀ e ∈ es, e.Portable) : ArgumentsAt chunk es start (start + code.length) := by
  cases made with
  | nil => exact .nil
  | @cons e rest code restCode first others =>
    rw [Chunk.codeAt_append] at here
    have whole := ArgumentsAt.cons (first.at here.1 (portable e (by simp)))
      (others.at here.2 fun e member => portable e (List.mem_cons_of_mem _ member))
    rwa [List.length_append, ← Nat.add_assoc]

end

theorem TestCode.at {test : Option Expr} {code : Nat → List Instr} {start exit : Nat}
    (made : TestCode chunk.Loads test code) (here : chunk.CodeAt start (code exit))
    (portable : ∀ e : Expr, test = .some e → e.Portable) :
    TestAt chunk test start (start + (code exit).length) exit := by
  cases made with
  | none => exact .none
  | some made =>
    simp only [Chunk.codeAt_append, Chunk.codeAt_cons] at here
    obtain ⟨testHere, branch, _⟩ := here
    have whole := TestAt.some (made.at testHere (portable _ rfl)) branch
    simpa [Nat.add_assoc] using whole

theorem EffectCode.at {e : Option Expr} {code : List Instr} {start : Nat}
    (made : EffectCode chunk.Loads e code) (here : chunk.CodeAt start code)
    (portable : ∀ e' : Expr, e = .some e' → e'.Portable) :
    EffectAt chunk e start (start + code.length) := by
  cases made with
  | none => exact .none
  | some made =>
    simp only [Chunk.codeAt_append, Chunk.codeAt_cons] at here
    obtain ⟨valueHere, pop, _⟩ := here
    have whole := EffectAt.some (made.at valueHere (portable _ rfl)) pop
    simpa [Nat.add_assoc] using whole

mutual

theorem StmtCode.at {s : Stmt} {code : List Instr} {start : Nat}
    (made : StmtCode chunk.Loads start false s code) (here : chunk.CodeAt start code)
    (portable : s.Portable) : StmtAt chunk s start (start + code.length) := by
  cases made with
  | declare init =>
    obtain ⟨self, initPortable⟩ := Stmt.all_declare.1 portable
    simp only [Chunk.codeAt_append, Chunk.codeAt_cons] at here
    obtain ⟨initHere, store, _⟩ := here
    exact (StmtAt.declare self (init.at initHere initPortable) store).to (by simp [Nat.add_assoc])
  | dropped value =>
    obtain ⟨_, valuePortable⟩ := Stmt.all_expression.1 portable
    simp only [Chunk.codeAt_append, Chunk.codeAt_cons] at here
    obtain ⟨valueHere, pop, _⟩ := here
    have whole := StmtAt.expression (value.at valueHere valuePortable) pop
    simpa [Nat.add_assoc] using whole
  | @ifThen _ _ _ _ testCode code test consequent =>
    obtain ⟨_, testPortable, blockPortable, _⟩ := Stmt.all_ifElse.1 portable
    simp only [Chunk.codeAt_append, Chunk.codeAt_cons] at here
    obtain ⟨testHere, branch, blockHere⟩ := here
    have whole := StmtAt.ifThen (test.at testHere testPortable) branch
      (consequent.at blockHere blockPortable)
    exact whole.to (by simp; omega)
  | @ifElse _ middle _ _ _ _ testCode code alternateCode test consequent eq alternate =>
    obtain ⟨_, testPortable, blockPortable, otherPortable⟩ := Stmt.all_ifElse.1 portable
    simp only [Chunk.codeAt_append, Chunk.codeAt_cons] at here
    obtain ⟨⟨testHere, branch, blockHere⟩, jump, otherHere⟩ := here
    have stop : start + (testCode ++ Instr.jumpIfFalse middle :: code).length =
        start + testCode.length + 1 + code.length := by
      simp
      omega
    rw [stop] at jump otherHere
    subst eq
    have whole := StmtAt.ifElse (test.at testHere testPortable) branch
      (consequent.at blockHere blockPortable) jump (alternate.at otherHere (otherPortable _ rfl))
    exact whole.to (by simp; omega)
  | @whileLoop _ _ condition block testCode code test body =>
    obtain ⟨_, testPortable, bodyPortable⟩ := Stmt.all_whileLoop.1 portable
    simp only [Chunk.codeAt_append, Chunk.codeAt_cons, List.length_append, test.length_eq,
      ← Nat.add_assoc] at here
    obtain ⟨⟨testHere, bodyHere⟩, jump, _⟩ := here
    have tested := test.at testHere fun e eq => Option.some.inj eq ▸ testPortable
    rw [test.length_eq] at tested
    have loop : LoopAt chunk ⟨some condition, none, block⟩ start _ :=
      .intro tested (body.at bodyHere bodyPortable) .none jump
    exact (StmtAt.whileLoop loop).to (by simp [test.length_eq]; omega)
  | @forLoop _ again first _ _ condition effect block testCode initCode code updateCode init eq test
      eq' body update =>
    obtain ⟨_, initPortable, testPortable, updatePortable, bodyPortable⟩ :=
      Stmt.all_forLoop.1 portable
    simp only [Chunk.codeAt_append, Chunk.codeAt_cons, List.length_append, test.length_eq,
      ← Nat.add_assoc, ← eq, ← eq'] at here
    obtain ⟨⟨⟨⟨initHere, testHere⟩, bodyHere⟩, updateHere⟩, jump, _⟩ := here
    have tested := test.at testHere testPortable
    rw [test.length_eq, ← eq'] at tested
    have loop : LoopAt chunk ⟨condition, effect, block⟩ again _ :=
      .intro tested (body.at bodyHere bodyPortable) (update.at updateHere updatePortable) jump
    have entered := init.at initHere initPortable
    rw [← eq] at entered
    exact (StmtAt.forLoop entered loop).to (by simp [test.length_eq]; omega)

theorem BlockCode.at {block : List Stmt} {code : List Instr} {start : Nat}
    (made : BlockCode chunk.Loads start block code) (here : chunk.CodeAt start code)
    (portable : ∀ s ∈ block, s.Portable) : BlockAt chunk block start (start + code.length) := by
  cases made with
  | nil => exact .nil
  | @cons _ s rest code restCode first others =>
    rw [Chunk.codeAt_append] at here
    have whole := BlockAt.cons (first.at here.1 (portable s (by simp)))
      (others.at here.2 fun s member => portable s (List.mem_cons_of_mem _ member))
    rwa [List.length_append, ← Nat.add_assoc]

theorem ClauseCode.at {clause : Option Stmt} {code : List Instr} {start : Nat}
    (made : ClauseCode chunk.Loads start clause code) (here : chunk.CodeAt start code)
    (portable : ∀ s, clause = some s → s.Portable) :
    ClauseAt chunk clause start (start + code.length) := by
  cases made with
  | none => exact .none
  | some made => exact .some (made.at here (portable _ rfl))

end

/-- Statements other than expressions leave nothing in any case. -/
theorem StmtCode.dropped_of_ne {loads : Nat → Literal → Prop} {start : Nat} {s : Stmt}
    {code : List Instr} (made : StmtCode loads start true s code) (other : ∀ e, s ≠ .expression e) :
    StmtCode loads start false s code := by
  cases made with
  | declare init => exact .declare init
  | kept value => exact absurd rfl (other _)
  | ifThen test consequent => exact .ifThen test consequent
  | ifElse test consequent middle alternate => exact .ifElse test consequent middle alternate
  | whileLoop test body => exact .whileLoop test body
  | forLoop init again test start body update => exact .forLoop init again test start body update

theorem ProgramCode.at {p : Program} {code : List Instr} {start : Nat}
    (made : ProgramCode chunk.Loads start p code) (here : chunk.CodeAt start (code ++ [.halt]))
    (portable : ∀ s ∈ p, s.Portable) : ProgramAt chunk p.endsInExpression p start := by
  induction made with
  | nil => exact .nil (here 0 _ rfl)
  | @last start s code made =>
    simp only [Chunk.codeAt_append, Chunk.codeAt_cons] at here
    obtain ⟨stmtHere, halt, _⟩ := here
    have portable := portable s (by simp)
    by_cases kept : ∃ e, s = .expression e
    · obtain ⟨e, rfl⟩ := kept
      cases made with
      | kept value => exact .last (value.at stmtHere (Stmt.all_expression.1 portable).2) halt
    · have other : ∀ e, s ≠ .expression e := fun e eq => kept ⟨e, eq⟩
      have leaves : Program.endsInExpression [s] = false := by
        cases s with
        | expression e => exact absurd rfl (other e)
        | _ => rfl
      rw [leaves]
      exact .cons ((made.dropped_of_ne other).at stmtHere portable) (.nil halt)
  | @cons start s rest code restCode more first _ ih =>
    rw [List.append_assoc, Chunk.codeAt_append] at here
    rw [Program.endsInExpression_cons more]
    exact .cons (first.at here.1 (portable s (by simp)))
      (ih here.2 fun s member => portable s (List.mem_cons_of_mem _ member))

/-! ## Sites

There are no function declarations to be numbered in what has a place. -/

mutual

theorem StmtAt.number_eq {s : Stmt} {start next : Nat} (placed : StmtAt chunk s start next) (n : Nat) :
    s.number n = (s, n) := by
  cases placed with
  | declare => rfl
  | expression => rfl
  | ifThen _ _ consequent =>
    simp only [Stmt.number, consequent.numberAll_eq, Stmt.numberBranch]
  | ifElse _ _ consequent _ alternate =>
    simp only [Stmt.number, consequent.numberAll_eq, Stmt.numberBranch, alternate.numberAll_eq]
  | whileLoop loop =>
    cases loop with
    | intro _ body _ _ => simp only [Stmt.number, body.numberAll_eq]
  | forLoop init loop =>
    cases loop with
    | intro _ body _ _ => simp only [Stmt.number, init.numberClause_eq, body.numberAll_eq]

theorem BlockAt.numberAll_eq {block : List Stmt} {start next : Nat}
    (placed : BlockAt chunk block start next) (n : Nat) : Stmt.numberAll n block = (block, n) := by
  cases placed with
  | nil => rfl
  | cons first others => simp only [Stmt.numberAll, first.number_eq, others.numberAll_eq]

theorem ClauseAt.numberClause_eq {clause : Option Stmt} {start next : Nat}
    (placed : ClauseAt chunk clause start next) (n : Nat) :
    Stmt.numberClause n clause = (clause, n) := by
  cases placed with
  | none => rfl
  | some placed => simp only [Stmt.numberClause, placed.number_eq]

end

theorem ProgramAt.numberAll_eq {leaves : Bool} {p : Program} {start : Nat}
    (placed : ProgramAt chunk leaves p start) (n : Nat) : Stmt.numberAll n p = (p, n) := by
  induction placed with
  | nil => rfl
  | last => rfl
  | cons first _ ih => simp only [Stmt.numberAll, first.number_eq, ih]

end

/-- The chunk of a program whose literals can be spelled.  Its pool is searched by equality, but such
literals are equal only if identical. -/
theorem Program.generate_loads {p : Program} {chunk : Chunk}
    (spelled : ∀ value, Node.literal value ∈ p.nodes → value.Spelled) (generated : p.generate = .ok chunk) :
    ∃ code, chunk.code = (code ++ [Instr.halt]).toArray ∧ ProgramCode chunk.Loads 0 p code ∧
      chunk.validate = .ok () := by
  obtain ⟨code, eq, made, grows, valid⟩ := p.generate_code generated
  refine ⟨code, eq, ?_, valid⟩
  exact made.mono fun index value member found => found.exact grows spelled (spelled value member)

/-- The chunk of a portable program that a text spells, from its first instruction on. -/
theorem Program.generate_at {source : String} {p : Program} {chunk : Chunk}
    (parsed : parseProgram source = .ok p) (generated : p.generate = .ok chunk)
    (portable : p.Portable) : ProgramAt chunk p.endsInExpression p 0 := by
  obtain ⟨code, eq, exact, _⟩ := p.generate_loads (fun _ => parseProgram_spelled parsed) generated
  exact exact.at (Chunk.codeAt_of_eq eq) (Stmt.all_nodesAll.1 portable)

end TinyScript
