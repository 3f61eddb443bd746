import TinyScript.Bytecode.Generate

/-! # Code in one piece

Code is emitted instruction by instruction, with jumps that are aimed when the code has come to their targets.
`Expr.generate` and `Stmt.generate` give the same code in one piece, with each jump aimed from the start, and
the pool of constants threaded through in the order of evaluation.

* `Writes`: an emitter appends the code that a generator gives for its place;
* `Emitter.patched`: to aim a jump by the index that was remembered is to have aimed it from the start;
* `Program.generate_eq`: so the chunk of a program is its code in one piece, and a `halt`.
-/

namespace TinyScript

/-- A computation that fills a pool of constants and may meet a node without stack code. -/
abbrev Generator := StateT (Array Scalar) (Except CompileError)

namespace Generator

/-- The index of a constant in the pool. -/
def constant (value : Scalar) : Generator Nat := fun pool => .ok (Chunk.pooled pool value)

def unsupported {α : Type} (kind : String) : Generator α := fun _ => .error (.unsupportedNode kind)

end Generator

mutual

/-- Code that pushes the value of an expression. -/
def Expr.generate : Expr → Generator (List Instr)
  | .literal value => do return [.loadConst (← Generator.constant (.ofLiteral value))]
  | .identifier name => return [.loadVar name]
  | .binary op left right => do
    let left ← left.generate
    let right ← right.generate
    return left ++ right ++ [.binary op]
  | .assign op target value =>
    match op.binary? with
    | some op => do
      return .loadVar target :: (← value.generate) ++ [.binary op, .dup, .storeVar target]
    | none => do return (← value.generate) ++ [.dup, .storeVar target]
  | .call (.computed target) _ => Generator.unsupported target.kind
  | .call (.function name) arguments => do
    return (← Expr.generateAll arguments) ++ [.call name arguments.length]
  | .call (.method receiver property) arguments => do
    return (← Expr.generateAll arguments) ++
      [.call (Callee.method receiver property).displayName arguments.length]
  | .member receiver property => Generator.unsupported (Expr.member receiver property).kind
  | .array elements => Generator.unsupported (Expr.array elements).kind
  | .object fields => Generator.unsupported (Expr.object fields).kind

/-- Code that pushes the values of expressions, the last on top. -/
def Expr.generateAll : List Expr → Generator (List Instr)
  | [] => return []
  | e :: rest => do return (← e.generate) ++ (← Expr.generateAll rest)

end

/-- Code for the test of a loop, with the jump out of it to be aimed at an index. -/
def Expr.generateTest : Option Expr → Generator (Nat → List Instr)
  | none => return fun _ => []
  | some test => do
    let test ← test.generate
    return fun exit => test ++ [.jumpIfFalse exit]

/-- Code that evaluates an expression for its effects. -/
def Expr.generateEffect : Option Expr → Generator (List Instr)
  | none => return []
  | some e => do return (← e.generate) ++ [.pop]

mutual

/-- Code of a statement that begins at index `base`. An expression statement leaves its value if
`keep` is set. -/
def Stmt.generate (base : Nat) (keep : Bool) : Stmt → Generator (List Instr)
  | .declare _ name init => do return (← init.generate) ++ [.storeVar name]
  | .expression value => do
    let code ← value.generate
    return if keep then code else code ++ [.pop]
  | .ifElse test consequent none => do
    let test ← test.generate
    let start := base + test.length + 1
    let consequent ← Stmt.generateAll start consequent
    return test ++ .jumpIfFalse (start + consequent.length) :: consequent
  | .ifElse test consequent (some alternate) => do
    let test ← test.generate
    let start := base + test.length + 1
    let consequent ← Stmt.generateAll start consequent
    let middle := start + consequent.length + 1
    let alternate ← Stmt.generateAll middle alternate
    return test ++ .jumpIfFalse middle :: consequent ++
      .jump (middle + alternate.length) :: alternate
  | .whileLoop test body => do
    let test ← Expr.generateTest (some test)
    let start := base + (test 0).length
    let body ← Stmt.generateAll start body
    return test (start + body.length + 1) ++ body ++ [.jump base]
  | .forLoop init test update body => do
    let init ← Stmt.generateClause base init
    let again := base + init.length
    let test ← Expr.generateTest test
    let start := again + (test 0).length
    let body ← Stmt.generateAll start body
    let update ← Expr.generateEffect update
    let exit := start + body.length + update.length + 1
    return init ++ test exit ++ body ++ update ++ [.jump again]
  | .function name params body site =>
    Generator.unsupported (Stmt.function name params body site).kind
  | .ret argument => Generator.unsupported (Stmt.ret argument).kind

/-- Code of statements one after the other. -/
def Stmt.generateAll (base : Nat) : List Stmt → Generator (List Instr)
  | [] => return []
  | s :: rest => do
    let first ← s.generate base false
    return first ++ (← Stmt.generateAll (base + first.length) rest)

/-- Code of the first clause of a loop. -/
def Stmt.generateClause (base : Nat) : Option Stmt → Generator (List Instr)
  | none => return []
  | some s => s.generate base false

end

/-- Code of the statements of a program, the last of which may leave a value. -/
def Program.generateFrom (base : Nat) : Program → Generator (List Instr)
  | [] => return []
  | [last] => last.generate base true
  | s :: rest => do
    let first ← s.generate base false
    return first ++ (← Program.generateFrom (base + first.length) rest)

/-! ## Emitters -/

/-- Behind any code, an emitter appends what the generator gives for that place. -/
def Writes (x : Emitter Unit) (y : Nat → Generator (List Instr)) : Prop :=
  ∀ (front : Array Instr) pool, x ⟨front, pool⟩ =
    (y front.size pool).map fun made => ((), ⟨front ++ made.1.toArray, made.2⟩)

/-- A jump whose target is still open. -/
def Aims (jump : Nat → Instr) : Prop := ∀ target target', (jump target).retarget? target' = some (jump target')

namespace Emitter

theorem bind_eq {α β : Type} (x : Emitter α) (f : α → Emitter β) (c : Chunk) :
    (x >>= f) c = match x c with
      | .error e => .error e
      | .ok (a, c) => f a c := by
  change Except.bind (x c) _ = _
  cases x c <;> rfl

end Emitter

theorem Generator.bind_eq {α β : Type} (x : Generator α) (f : α → Generator β) (pool : Array Scalar) :
    (x >>= f) pool = match x pool with
      | .error e => .error e
      | .ok (a, pool) => f a pool := by
  change Except.bind (x pool) _ = _
  cases x pool <;> rfl

namespace Writes

variable {x x' : Emitter Unit} {y y' : Nat → Generator (List Instr)}

theorem nothing : Writes (pure ()) fun _ => pure [] := by
  intro front pool
  change Except.ok _ = Except.ok _
  simp

theorem write (i : Instr) : Writes (Emitter.write i) fun _ => pure [i] := by
  intro front pool
  change Except.ok _ = Except.ok _
  simp

theorem unsupported (kind : String) :
    Writes (Emitter.unsupported kind) fun _ => Generator.unsupported kind := fun _ _ => rfl

theorem bind (first : Writes x y) (second : Writes x' y') :
    Writes (do x; x') fun base => do
      let made ← y base
      let more ← y' (base + made.length)
      return made ++ more := by
  intro front pool
  simp only [Emitter.bind_eq, Generator.bind_eq, first front pool]
  cases y front.size pool with
  | error e => rfl
  | ok done =>
    obtain ⟨made, pool⟩ := done
    have size : (front ++ made.toArray).size = front.size + made.length := by simp
    have next := second (front ++ made.toArray) pool
    rw [size] at next
    refine next.trans ?_
    dsimp only
    cases y' (front.size + made.length) pool with
    | error e => rfl
    | ok done =>
      change Except.ok _ = Except.ok _
      simp

end Writes

/-- A jump is aimed by the index under which it was written. -/
theorem Chunk.patchJump_written {jump : Nat → Instr} (aims : Aims jump) (front : Array Instr) (target : Nat)
    (behind : List Instr) (pool : Array Scalar) (target' : Nat) :
    Chunk.patchJump ⟨front ++ (jump target :: behind).toArray, pool⟩ front.size target' =
      some ⟨front ++ (jump target' :: behind).toArray, pool⟩ := by
  simp [patchJump, aims target target']

theorem aims_jump : Aims .jump := fun _ _ => rfl

theorem aims_jumpIfFalse : Aims .jumpIfFalse := fun _ _ => rfl

namespace Writes

variable {x x' : Emitter Unit} {y y' : Nat → Generator (List Instr)} {jump : Nat → Instr}

/-- To aim a jump when its target has been come to is to have aimed it from the start. -/
theorem patched (aims : Aims jump) (writes : Writes x y) (front : Array Instr) (pool : Array Scalar) :
    (do x; Emitter.patchToHere front.size : Emitter Unit) ⟨front.push (jump 0), pool⟩ =
      (y (front.size + 1) pool).map fun made =>
        ((), ⟨front ++ (jump (front.size + 1 + made.1.length) :: made.1).toArray, made.2⟩) := by
  simp only [Emitter.bind_eq, writes (front.push (jump 0)) pool, Array.size_push]
  cases y (front.size + 1) pool with
  | error e => rfl
  | ok done =>
    obtain ⟨made, pool⟩ := done
    have written : front.push (jump 0) ++ made.toArray = front ++ (jump 0 :: made).toArray := by simp
    have size : (front ++ (jump 0 :: made).toArray).size = front.size + 1 + made.length := by
      simp
      omega
    simp only [Except.map, Emitter.patchToHere, written, size, Chunk.patchJump_written aims, Option.getD_some]

/-- A jump over what is written behind it. -/
theorem jumped (aims : Aims jump) (writes : Writes x y) :
    Writes (do let index ← Emitter.place (jump 0); x; Emitter.patchToHere index) fun base => do
      let made ← y (base + 1)
      return jump (base + 1 + made.length) :: made := by
  intro front pool
  refine (writes.patched aims front pool).trans ?_
  simp only [Generator.bind_eq]
  cases y (front.size + 1) pool <;> rfl

/-- Two branches, with a jump to the second one and a jump over it. -/
theorem branches (first : Writes x y) (second : Writes x' y') :
    Writes (do
      let otherwise ← Emitter.place (.jumpIfFalse 0)
      x
      let behind ← Emitter.place (.jump 0)
      Emitter.patchToHere otherwise
      x'
      Emitter.patchToHere behind) fun base => do
        let made ← y (base + 1)
        let more ← y' (base + 1 + made.length + 1)
        return .jumpIfFalse (base + 1 + made.length + 1) :: made ++
          .jump (base + 1 + made.length + 1 + more.length) :: more := by
  intro front pool
  have begun := first (front.push (.jumpIfFalse 0)) pool
  rw [Array.size_push] at begun
  simp only [Emitter.bind_eq, Generator.bind_eq, Emitter.place, Chunk.emit, begun]
  cases y (front.size + 1) pool with
  | error e => rfl
  | ok done =>
    obtain ⟨made, pool⟩ := done
    have reached : (front.push (.jumpIfFalse 0) ++ made.toArray).size = front.size + 1 + made.length := by
      simp
      omega
    have written : (front.push (.jumpIfFalse 0) ++ made.toArray).push (.jump 0) =
        front ++ (.jumpIfFalse 0 :: (made ++ [.jump 0])).toArray := by simp
    have size : (front ++ (Instr.jumpIfFalse 0 :: (made ++ [.jump 0])).toArray).size =
        front.size + 1 + made.length + 1 := by
      rw [← written, Array.size_push, reached]
    -- With the first jump aimed, what is before the second one is code in one piece again.
    generalize eq : front ++ (Instr.jumpIfFalse (front.size + 1 + made.length + 1) :: made).toArray = front'
    have aimed : Emitter.patchToHere front.size
        ⟨(front.push (.jumpIfFalse 0) ++ made.toArray).push (.jump 0), pool⟩ =
          .ok ((), ⟨front'.push (.jump 0), pool⟩) := by
      simp only [Emitter.patchToHere, written, size, Chunk.patchJump_written aims_jumpIfFalse,
        Option.getD_some, ← eq]
      simp
    have size' : front'.size = front.size + 1 + made.length := by
      simp [← eq]
      omega
    have rest := second.patched aims_jump front' pool
    simp only [Emitter.bind_eq, size'] at rest
    simp only [Except.map, aimed, reached]
    refine rest.trans ?_
    cases y' (front.size + 1 + made.length + 1) pool with
    | error e => rfl
    | ok done =>
      change Except.ok _ = Except.ok _
      simp [← eq]

/-- What is written may name the place where it begins. -/
theorem here {x : Nat → Emitter Unit} {y : Nat → Nat → Generator (List Instr)}
    (writes : ∀ again, Writes (x again) (y again)) :
    Writes (do let again ← Emitter.here; x again) fun base => y base base := by
  intro front pool
  exact writes front.size front pool

end Writes

mutual

theorem Expr.writes (e : Expr) : Writes e.emit fun _ => e.generate := by
  cases e with
  | literal value =>
    rw [Expr.emit, Expr.generate]
    intro front pool
    exact Writes.write (.loadConst (Chunk.pooled pool (.ofLiteral value)).1) front
      (Chunk.pooled pool (.ofLiteral value)).2
  | identifier name =>
    rw [Expr.emit, Expr.generate]
    exact .write _
  | binary op left right =>
    rw [Expr.emit, Expr.generate]
    simpa using left.writes.bind (right.writes.bind (.write (.binary op)))
  | assign op target value =>
    rw [Expr.emit, Expr.generate]
    have stored : Writes (do Emitter.write .dup; Emitter.write (.storeVar target)) fun _ =>
      pure [.dup, .storeVar target] := .bind (.write _) (.write _)
    cases op.binary? with
    | some op =>
      have combined := value.writes.bind (.bind (.write (.binary op)) stored)
      simpa using Writes.bind (.write (.loadVar target)) combined
    | none => simpa using value.writes.bind stored
  | call callee arguments =>
    cases callee with
    | computed target =>
      rw [Expr.emit, Expr.generate]
      exact .unsupported _
    | function name =>
      rw [Expr.emit, Expr.generate]
      simpa using (Expr.writes_all arguments).bind (.write _)
    | method receiver property =>
      rw [Expr.emit, Expr.generate]
      simpa using (Expr.writes_all arguments).bind (.write _)
  | member receiver property =>
    rw [Expr.emit, Expr.generate]
    exact .unsupported _
  | array elements =>
    rw [Expr.emit, Expr.generate]
    exact .unsupported _
  | object fields =>
    rw [Expr.emit, Expr.generate]
    exact .unsupported _

theorem Expr.writes_all (es : List Expr) : Writes (Expr.emitAll es) fun _ => Expr.generateAll es := by
  cases es with
  | nil =>
    rw [Expr.emitAll, Expr.generateAll]
    exact .nothing
  | cons e rest =>
    rw [Expr.emitAll, Expr.generateAll]
    exact e.writes.bind (Expr.writes_all rest)

end

theorem Expr.writes_effect (e : Option Expr) :
    Writes (e.forM fun e => do e.emit; Emitter.write .pop) fun _ => Expr.generateEffect e := by
  cases e with
  | none => exact .nothing
  | some e => simpa [Expr.generateEffect] using e.writes.bind (.write .pop)

mutual

theorem Stmt.writes (s : Stmt) (keep : Bool) : Writes (s.emit keep) fun base => s.generate base keep := by
  cases s with
  | declare kind name init =>
    simpa [Stmt.emit, Stmt.generate] using init.writes.bind (.write (.storeVar name))
  | expression value =>
    cases keep with
    | true => simpa [Stmt.emit, Stmt.generate] using value.writes
    | false => simpa [Stmt.emit, Stmt.generate] using value.writes.bind (.write .pop)
  | ifElse test consequent alternate =>
    cases alternate with
    | none =>
      simpa [Stmt.emit, Stmt.generate] using
        test.writes.bind (.jumped aims_jumpIfFalse (Stmt.writes_all consequent))
    | some alternate =>
      simpa [Stmt.emit, Stmt.generate] using
        test.writes.bind (.branches (Stmt.writes_all consequent) (Stmt.writes_all alternate))
  | whileLoop test body =>
    have loop := Writes.here fun again => test.writes.bind
      (.jumped aims_jumpIfFalse ((Stmt.writes_all body).bind (.write (.jump again))))
    simpa [Stmt.emit, Stmt.generate, Expr.generateTest, Nat.add_assoc] using loop
  | forLoop init test update body =>
    have behind (again : Nat) : Writes _ _ :=
      (Stmt.writes_all body).bind ((Expr.writes_effect update).bind (.write (.jump again)))
    cases test with
    | none =>
      have loop := (Stmt.writes_clause init).bind (.here behind)
      simpa [Stmt.emit, Stmt.generate, Expr.generateTest, Nat.add_assoc] using loop
    | some test =>
      have loop := (Stmt.writes_clause init).bind (.here fun again =>
        test.writes.bind (.jumped aims_jumpIfFalse (behind again)))
      simpa [Stmt.emit, Stmt.generate, Expr.generateTest, Nat.add_assoc] using loop
  | function name params body site =>
    rw [Stmt.emit]
    exact .unsupported _
  | ret argument =>
    rw [Stmt.emit]
    exact .unsupported _

theorem Stmt.writes_all (ss : List Stmt) : Writes (Stmt.emitAll ss) fun base => Stmt.generateAll base ss := by
  cases ss with
  | nil => simpa [Stmt.emitAll, Stmt.generateAll] using Writes.nothing
  | cons s rest => simpa [Stmt.emitAll, Stmt.generateAll] using (Stmt.writes s false).bind (Stmt.writes_all rest)

theorem Stmt.writes_clause (s : Option Stmt) :
    Writes (Stmt.emitClause s) fun base => Stmt.generateClause base s := by
  cases s with
  | none => simpa [Stmt.emitClause, Stmt.generateClause] using Writes.nothing
  | some s => simpa [Stmt.emitClause, Stmt.generateClause] using Stmt.writes s false

end

theorem Program.writes (p : Program) : Writes p.emit fun base => Program.generateFrom base p := by
  match p with
  | [] => simpa [Program.emit, Program.generateFrom] using Writes.nothing
  | [last] => simpa [Program.emit, Program.generateFrom] using last.writes true
  | s :: next :: rest =>
    simpa [Program.emit, Program.generateFrom] using (s.writes false).bind (Program.writes (next :: rest))

/-- The chunk of a program is its code in one piece, and a `halt`. -/
theorem Program.generate_eq (p : Program) : p.generate = do
    let (code, constants) ← Program.generateFrom 0 p #[]
    let chunk : Chunk := ⟨(code ++ [Instr.halt]).toArray, constants⟩
    chunk.validate
    return chunk := by
  have made : (do p.emit; Emitter.write .halt) Chunk.empty =
      (Program.generateFrom 0 p #[]).map fun made => ((), ⟨(made.1 ++ [Instr.halt]).toArray, made.2⟩) := by
    refine (p.writes.bind (.write .halt) #[] #[]).trans ?_
    simp only [Generator.bind_eq, List.size_toArray, List.length_nil]
    cases Program.generateFrom 0 p #[] with
    | error e => rfl
    | ok done =>
      change Except.ok _ = Except.ok _
      simp
  simp only [Program.generate, StateT.run, made]
  cases Program.generateFrom 0 p #[] <;> rfl

end TinyScript
