import TinyScript.Proofs.Bytecode.StackHeight

/-! # What is generated, and for which programs

Generation looks at every node of a program and fails at the first that has no stack code
(`Expr.generate_decides`, `Stmt.generate_decides`), and at nothing else: the code that it makes loads
constants of the pool, halts nowhere but at its end, and jumps forward, or back to where an enclosing
loop is repeated from (`StmtCode.sound`), so it is always valid.
-/

namespace TinyScript

/-! ## Nodes with stack code -/

/-- Functions and `return`, property reads, arrays, objects and computed callees have no stack code. -/
def Node.HasStackCode : Node → Prop
  | .stmt (.function ..) | .stmt (.ret _) => False
  | .expr (.member ..) | .expr (.array _) | .expr (.object _) | .expr (.call (.computed _) _) => False
  | _ => True

/-- The computation succeeds if a condition holds, and otherwise has met a node without stack code. -/
def Generator.Decides {α : Type} (condition : Prop) (g : Generator α) : Prop :=
  ∀ pool, condition ∧ (∃ result, g pool = .ok result) ∨
    ¬condition ∧ ∃ kind, g pool = .error (.unsupportedNode kind)

namespace Generator.Decides

variable {α β : Type} {p q : Prop} {g : Generator α}

theorem pure (a : α) : Decides True (Pure.pure a : Generator α) :=
  fun pool => .inl ⟨trivial, (a, pool), rfl⟩

theorem constant (value : Scalar) : Decides True (Generator.constant value) :=
  fun pool => .inl ⟨trivial, Chunk.pooled pool value, rfl⟩

theorem unsupported (kind : String) (failed : ¬p) : Decides p (Generator.unsupported kind : Generator α) :=
  fun _ => .inr ⟨failed, kind, rfl⟩

theorem bind {f : α → Generator β} (first : Decides p g) (next : ∀ a, Decides q (f a)) :
    Decides (p ∧ q) (g >>= f) := by
  intro pool
  rcases first pool with ⟨holds, ⟨a, middle⟩, eq⟩ | ⟨fails, kind, eq⟩
  · have rest : (g >>= f) pool = f a middle := by simp only [Bind.bind, StateT.bind, eq, Except.bind]
    rw [rest]
    rcases next a middle with ⟨holds', result⟩ | ⟨fails, error⟩
    · exact .inl ⟨⟨holds, holds'⟩, result⟩
    · exact .inr ⟨fun both => fails both.2, error⟩
  · refine .inr ⟨fun both => fails both.1, kind, ?_⟩
    simp only [Bind.bind, StateT.bind, eq, Except.bind]

/-- What is done with the result does not matter. -/
theorem map (first : Decides p g) (f : α → β) : Decides p (g >>= fun a => Pure.pure (f a)) := by
  have both := first.bind fun a => pure (f a)
  rwa [and_true] at both

theorem congr (decides : Decides p g) (same : p ↔ q) : Decides q g := by
  rwa [← same]

end Generator.Decides

mutual

theorem Expr.generate_decides (e : Expr) : e.generate.Decides (e.All Node.HasStackCode) := by
  cases e with
  | literal value =>
    rw [Expr.generate]
    exact ((Generator.Decides.constant _).map _).congr (by simp [Expr.All, Expr.nodes, Node.HasStackCode])
  | identifier name =>
    rw [Expr.generate]
    exact (Generator.Decides.pure _).congr (by simp [Expr.All, Expr.nodes, Node.HasStackCode])
  | binary op left right =>
    rw [Expr.generate]
    exact (left.generate_decides.bind fun _ => right.generate_decides.map _).congr
      (by simp [Expr.all_binary, Node.HasStackCode])
  | assign op target value =>
    have same : value.All Node.HasStackCode ↔ (Expr.assign op target value).All Node.HasStackCode := by
      simp [Expr.all_assign, Node.HasStackCode]
    rw [Expr.generate]
    split
    · exact (value.generate_decides.map _).congr same
    · exact (value.generate_decides.map _).congr same
  | call callee arguments =>
    cases callee with
    | function name =>
      rw [Expr.generate]
      exact ((Expr.generateAll_decides arguments).map _).congr
        (by simp [Expr.all_call, Callee.nodes, Node.HasStackCode])
    | method receiver property =>
      rw [Expr.generate]
      exact ((Expr.generateAll_decides arguments).map _).congr
        (by simp [Expr.all_call, Callee.nodes, Node.HasStackCode])
    | computed target =>
      rw [Expr.generate]
      exact .unsupported _ (by simp [Expr.all_call, Node.HasStackCode])
  | member object property =>
    rw [Expr.generate]
    exact .unsupported _ (by simp [Expr.all_member, Node.HasStackCode])
  | array elements =>
    rw [Expr.generate]
    exact .unsupported _ (by simp [Expr.all_array, Node.HasStackCode])
  | object fields =>
    rw [Expr.generate]
    exact .unsupported _ (by simp [Expr.all_object, Node.HasStackCode])

theorem Expr.generateAll_decides (es : List Expr) :
    (Expr.generateAll es).Decides (∀ e ∈ es, e.All Node.HasStackCode) := by
  cases es with
  | nil =>
    rw [Expr.generateAll]
    exact (Generator.Decides.pure _).congr (by simp)
  | cons e rest =>
    rw [Expr.generateAll]
    exact (e.generate_decides.bind fun _ => (Expr.generateAll_decides rest).map _).congr (by simp)

end

theorem Expr.generateTest_decides (test : Option Expr) :
    (Expr.generateTest test).Decides (∀ e, test = some e → e.All Node.HasStackCode) := by
  cases test with
  | none => exact (Generator.Decides.pure _).congr (by simp)
  | some e => exact (e.generate_decides.map _).congr (by simp)

theorem Expr.generateEffect_decides (e : Option Expr) :
    (Expr.generateEffect e).Decides (∀ x, e = some x → x.All Node.HasStackCode) := by
  cases e with
  | none => exact (Generator.Decides.pure _).congr (by simp)
  | some e => exact (e.generate_decides.map _).congr (by simp)

mutual

theorem Stmt.generate_decides (s : Stmt) (base : Nat) (keep : Bool) :
    (s.generate base keep).Decides (s.All Node.HasStackCode) := by
  cases s with
  | declare kind name init =>
    rw [Stmt.generate]
    exact (init.generate_decides.map _).congr (by simp [Stmt.all_declare, Node.HasStackCode])
  | expression value =>
    rw [Stmt.generate]
    exact (value.generate_decides.map _).congr (by simp [Stmt.all_expression, Node.HasStackCode])
  | ifElse test consequent alternate =>
    cases alternate with
    | none =>
      rw [Stmt.generate]
      exact (test.generate_decides.bind fun _ => (Stmt.generateAll_decides consequent _).map _).congr
        (by simp [Stmt.all_ifElse, Node.HasStackCode])
    | some alternate =>
      rw [Stmt.generate]
      exact (test.generate_decides.bind fun _ => (Stmt.generateAll_decides consequent _).bind fun _ =>
        (Stmt.generateAll_decides alternate _).map _).congr
        (by simp [Stmt.all_ifElse, Node.HasStackCode])
  | whileLoop test body =>
    rw [Stmt.generate]
    exact ((Expr.generateTest_decides (some test)).bind fun _ =>
      (Stmt.generateAll_decides body _).map _).congr (by simp [Stmt.all_whileLoop, Node.HasStackCode])
  | forLoop init test update body =>
    rw [Stmt.generate]
    exact ((Stmt.generateClause_decides init base).bind fun _ =>
      (Expr.generateTest_decides test).bind fun _ => (Stmt.generateAll_decides body _).bind fun _ =>
        (Expr.generateEffect_decides update).map _).congr
        (by simp [Stmt.all_forLoop, Node.HasStackCode]; tauto)
  | function name params body site =>
    rw [Stmt.generate]
    exact .unsupported _ (by simp [Stmt.all_function, Node.HasStackCode])
  | ret argument =>
    rw [Stmt.generate]
    exact .unsupported _ (by simp [Stmt.all_ret, Node.HasStackCode])

theorem Stmt.generateAll_decides (block : List Stmt) (base : Nat) :
    (Stmt.generateAll base block).Decides (∀ s ∈ block, s.All Node.HasStackCode) := by
  cases block with
  | nil =>
    rw [Stmt.generateAll]
    exact (Generator.Decides.pure _).congr (by simp)
  | cons s rest =>
    rw [Stmt.generateAll]
    exact ((s.generate_decides base false).bind fun _ =>
      (Stmt.generateAll_decides rest _).map _).congr (by simp)

theorem Stmt.generateClause_decides (clause : Option Stmt) (base : Nat) :
    (Stmt.generateClause base clause).Decides (∀ s, clause = some s → s.All Node.HasStackCode) := by
  cases clause with
  | none =>
    rw [Stmt.generateClause]
    exact (Generator.Decides.pure _).congr (by simp)
  | some s =>
    rw [Stmt.generateClause]
    exact (s.generate_decides base false).congr (by simp)

end

theorem Program.generateFrom_decides (p : Program) (base : Nat) :
    (Program.generateFrom base p).Decides (∀ n ∈ p.nodes, n.HasStackCode) := by
  rw [Program.nodes, Stmt.all_nodesAll]
  induction p generalizing base with
  | nil => exact (Generator.Decides.pure _).congr (by simp)
  | cons s rest ih =>
    cases rest with
    | nil => exact (s.generate_decides base true).congr (by simp)
    | cons next rest =>
      exact ((s.generate_decides base false).bind fun _ => (ih _).map _).congr (by simp)

/-! ## Sound code -/

/-- The index from which a loop is repeated: its first instruction, or the first one behind its
initializer. -/
def Stmt.repeatsFrom? (base : Nat) : Stmt → Option Nat
  | .whileLoop _ _ => some base
  | .forLoop init _ _ _ => some (base + Stmt.codeSizeOfClause init)
  | _ => none

/-- One of the placed statements is a loop that is repeated from `again`, and the instruction with the
given index is one of those that are. -/
def InLoop (places : List (Nat × Stmt)) (index again : Nat) : Prop :=
  ∃ base loop, (base, loop) ∈ places ∧ loop.repeatsFrom? base = some again ∧ again ≤ index ∧
    index < base + loop.codeSize false

/-- The instruction with the given index loads a constant of the pool, jumps forward but not behind
`limit`, or back to where a loop around it is repeated from. -/
def Instr.Sound (constants : Array Scalar) (places : List (Nat × Stmt)) (limit index : Nat) :
    Instr → Prop
  | .loadConst constant => constant < constants.size
  | .jumpIfFalse target => index < target ∧ target ≤ limit
  | .jump target => index < target ∧ target ≤ limit ∨ InLoop places index target
  | .halt => False
  | _ => True

/-- Every instruction of code that begins at `base` is sound. -/
def SoundCode (constants : Array Scalar) (places : List (Nat × Stmt)) (limit base : Nat)
    (code : List Instr) : Prop :=
  ∀ (k : Nat) (i : Instr), code[k]? = some i → i.Sound constants places limit (base + k)

namespace SoundCode

variable {constants : Array Scalar} {places places' : List (Nat × Stmt)} {limit limit' base middle : Nat}
  {left right code : List Instr}

theorem nil : SoundCode constants places limit base [] := by
  intro k i found
  cases found

theorem single {i : Instr} (sound : i.Sound constants places limit base) :
    SoundCode constants places limit base [i] := by
  intro k j found
  obtain ⟨rfl, rfl⟩ : k = 0 ∧ i = j := by simpa [List.getElem?_singleton] using found
  exact sound

theorem append (first : SoundCode constants places limit base left)
    (second : SoundCode constants places limit middle right) (eq : middle = base + left.length) :
    SoundCode constants places limit base (left ++ right) := by
  intro k i found
  rw [List.getElem?_append] at found
  split at found
  · exact first k i found
  · next behind =>
    have sound := second _ i found
    rw [eq, Nat.add_assoc, Nat.add_sub_cancel' (Nat.not_lt.1 behind)] at sound
    exact sound

theorem cons {i : Instr} (first : i.Sound constants places limit base)
    (rest : SoundCode constants places limit middle code) (eq : middle = base + 1) :
    SoundCode constants places limit base (i :: code) :=
  (single first).append rest eq

end SoundCode

theorem Pooled.lt_size {pool : Array Scalar} {index : Nat} {value : Literal}
    (pooled : Pooled pool index value) : index < pool.size := by
  obtain ⟨constant, found, _⟩ := pooled
  exact (Array.getElem?_eq_some_iff.1 found).1

section

variable {constants : Array Scalar} {places : List (Nat × Stmt)} {limit base : Nat}

mutual

theorem ExprCode.sound {base : Nat} {e : Expr} {code : List Instr}
    (made : ExprCode (Pooled constants) e code) : SoundCode constants places limit base code := by
  cases made with
  | literal found => exact .single found.lt_size
  | identifier name => exact .single trivial
  | binary left right => exact (left.sound.append right.sound rfl).append (.single trivial) rfl
  | assign plain value => exact value.sound.append (.cons trivial (.single trivial) rfl) rfl
  | compound combined value =>
    refine .cons trivial (value.sound.append ?_ rfl) rfl
    exact .cons trivial (.cons trivial (.single trivial) rfl) rfl
  | function arguments => exact arguments.sound.append (.single trivial) rfl
  | method arguments => exact arguments.sound.append (.single trivial) rfl

theorem ArgumentsCode.sound {base : Nat} {es : List Expr} {code : List Instr}
    (made : ArgumentsCode (Pooled constants) es code) :
    SoundCode constants places limit base code := by
  cases made with
  | nil => exact .nil
  | cons first rest => exact first.sound.append rest.sound rfl

end

theorem TestCode.sound {test : Option Expr} {code : Nat → List Instr} {exit : Nat}
    (made : TestCode (Pooled constants) test code) (later : base + (code 0).length ≤ exit)
    (inside : exit ≤ limit) : SoundCode constants places limit base (code exit) := by
  cases made with
  | none => exact .nil
  | some test =>
    simp only [List.length_append, List.length_singleton] at later
    exact test.sound.append (.single ⟨by omega, inside⟩) rfl

theorem EffectCode.sound {e : Option Expr} {code : List Instr}
    (made : EffectCode (Pooled constants) e code) : SoundCode constants places limit base code := by
  cases made with
  | none => exact .nil
  | some e => exact e.sound.append (.single trivial) rfl

mutual

/-- The code of a statement is sound in the code of a program in which it has its place. -/
theorem StmtCode.sound {base : Nat} {keep : Bool} {s : Stmt} {code : List Instr}
    (made : StmtCode (Pooled constants) base keep s code)
    (placed : ∀ place ∈ s.places base, place ∈ places) (room : base + code.length ≤ limit) :
    SoundCode constants places limit base code := by
  have length := made.length_eq
  cases made with
  | declare init => exact init.sound.append (.single trivial) rfl
  | kept value => exact value.sound
  | dropped value => exact value.sound.append (.single trivial) rfl
  | ifThen test consequent =>
    simp only [Stmt.places, ← test.length_eq, List.forall_mem_cons] at placed
    simp only [List.length_append, List.length_cons] at room
    exact test.sound.append
      (.cons ⟨by omega, by omega⟩ (consequent.sound placed.2 (by omega)) rfl) rfl
  | ifElse test consequent middle alternate =>
    simp only [Stmt.places, ← test.length_eq, ← consequent.length_eq, ← middle, List.forall_mem_cons,
      List.forall_mem_append] at placed
    obtain ⟨_, first, second⟩ := placed
    simp only [List.length_append, List.length_cons] at room
    refine .append (.append test.sound
        (.cons ⟨by omega, by omega⟩ (consequent.sound first (by omega)) rfl) rfl)
      (.cons (.inl ⟨?_, by omega⟩) (alternate.sound second (by omega)) ?_) rfl
    · simp only [List.length_append, List.length_cons]
      omega
    · simp only [List.length_append, List.length_cons]
      omega
  | @whileLoop _ _ _ _ testCode code test body =>
    have same := test.length_eq (base + (testCode 0).length + code.length + 1)
    have zero := test.length_zero
    simp only [Stmt.places, List.forall_mem_cons] at placed
    simp only [Expr.codeSizeOfClause] at zero
    rw [Nat.add_assoc base, ← zero] at placed
    simp only [Stmt.codeSize, List.length_append, List.length_singleton] at room length
    refine .append (.append (test.sound (by omega) (by omega)) (body.sound placed.2 (by omega))
      (by omega)) (.single (.inr ⟨base, _, placed.1, rfl, by omega, ?_⟩)) rfl
    simp only [Stmt.codeSize, List.length_append]
    omega
  | @forLoop _ again start _ _ _ _ _ testCode initCode code updateCode init eq test eq' body update =>
    have same := test.length_eq (start + code.length + updateCode.length + 1)
    simp only [Stmt.places, ← init.length_eq, ← eq, ← test.length_zero, ← eq', List.forall_mem_cons,
      List.forall_mem_append] at placed
    obtain ⟨whole, first, inside⟩ := placed
    simp only [Stmt.codeSize, List.length_append, List.length_singleton] at room length
    refine .append (.append (.append (.append (init.sound first (by omega))
        (test.sound (by omega) (by omega)) rfl) (body.sound inside (by omega)) ?_) update.sound rfl)
      (.single (.inr ⟨base, _, whole, ?_, ?_, ?_⟩)) rfl
    · simp only [List.length_append]
      omega
    · rw [Stmt.repeatsFrom?, ← init.length_eq, eq]
    · simp only [List.length_append]
      omega
    · simp only [Stmt.codeSize, List.length_append]
      omega

theorem BlockCode.sound {base : Nat} {block : List Stmt} {code : List Instr}
    (made : BlockCode (Pooled constants) base block code)
    (placed : ∀ place ∈ Stmt.placesAll base block, place ∈ places) (room : base + code.length ≤ limit) :
    SoundCode constants places limit base code := by
  cases made with
  | nil => exact .nil
  | cons first rest =>
    rw [Stmt.placesAll, ← first.length_eq, List.forall_mem_append] at placed
    rw [List.length_append] at room
    exact (first.sound placed.1 (by omega)).append (rest.sound placed.2 (by omega)) rfl

theorem ClauseCode.sound {base : Nat} {clause : Option Stmt} {code : List Instr}
    (made : ClauseCode (Pooled constants) base clause code)
    (placed : ∀ place ∈ Stmt.placesOfClause base clause, place ∈ places)
    (room : base + code.length ≤ limit) : SoundCode constants places limit base code := by
  cases made with
  | none => exact .nil
  | some s => exact s.sound placed room

end

theorem ProgramCode.sound {p : Program} {code : List Instr}
    (made : ProgramCode (Pooled constants) base p code)
    (placed : ∀ place ∈ Stmt.placesAll base p, place ∈ places) (room : base + code.length ≤ limit) :
    SoundCode constants places limit base code := by
  induction made with
  | nil => exact .nil
  | last s =>
    rw [Stmt.placesAll, Stmt.placesAll, List.append_nil] at placed
    exact s.sound placed room
  | cons _ first _ ih =>
    rw [Stmt.placesAll, ← first.length_eq, List.forall_mem_append] at placed
    rw [List.length_append] at room
    exact (first.sound placed.1 (by omega)).append (ih placed.2 (by omega)) rfl

end

/-! ## Valid chunks -/

theorem Chunk.faultFrom?_eq_none {chunk : Chunk} {index : Nat} {code : List Instr}
    (sound : ∀ (k : Nat) (i : Instr), code[k]? = some i → chunk.fault? (index + k) i = none) :
    chunk.faultFrom? index code = none := by
  induction code generalizing index with
  | nil => rfl
  | cons i rest ih =>
    have first : chunk.fault? index i = none := sound 0 i rfl
    rw [Chunk.faultFrom?, first]
    refine ih fun k j found => ?_
    have later := sound (k + 1) j found
    rwa [Nat.add_comm k 1, ← Nat.add_assoc] at later

theorem Chunk.validate_eq_ok {chunk : Chunk}
    (sound : ∀ (k : Nat) (i : Instr), chunk.code[k]? = some i → chunk.fault? k i = none) :
    chunk.validate = .ok () := by
  have none : chunk.faultFrom? 0 chunk.code.toList = none := by
    refine Chunk.faultFrom?_eq_none fun k i found => ?_
    rw [Nat.zero_add]
    exact sound k i (by rwa [← Array.getElem?_toList])
  rw [Chunk.validate, none]

namespace SoundCode

variable {constants : Array Scalar} {places : List (Nat × Stmt)} {code : List Instr}

/-- An instruction of a chunk is one of its sound code, or the `halt` behind. -/
theorem cases (sound : SoundCode constants places code.length 0 code) {index : Nat} {i : Instr}
    (found : (code ++ [Instr.halt]).toArray[index]? = some i) :
    index < code.length ∧ i.Sound constants places code.length index ∨
      index = code.length ∧ i = .halt := by
  rw [List.getElem?_toArray, List.getElem?_append] at found
  split at found
  · next inside =>
    have here := sound index i found
    rw [Nat.zero_add] at here
    exact .inl ⟨inside, here⟩
  · simp only [List.getElem?_singleton] at found
    split at found
    · cases found
      exact .inr ⟨by omega, rfl⟩
    · cases found

theorem validate (sound : SoundCode constants places code.length 0 code) :
    Chunk.validate ⟨(code ++ [Instr.halt]).toArray, constants⟩ = .ok () := by
  generalize eq : Chunk.mk (code ++ [Instr.halt]).toArray constants = chunk
  have size : chunk.code.size = code.length + 1 := by simp [← eq]
  refine Chunk.validate_eq_ok fun index i found => ?_
  rw [← eq] at found
  rcases sound.cases found with ⟨inside, here⟩ | ⟨_, rfl⟩
  · cases i with
    | loadConst constant =>
      rw [← eq]
      exact if_pos here
    | jumpIfFalse target =>
      refine if_pos ?_
      have bound := here.2
      omega
    | jump target =>
      refine if_pos ?_
      rcases here with ⟨_, bound⟩ | ⟨base, loop, _, _, back, _⟩
      · omega
      · omega
    | _ => rfl
  · rfl

end SoundCode

/-- Code that has been made passes the final check. -/
theorem Program.generate_of_generateFrom {p : Program} {code : List Instr} {constants : Array Scalar}
    (made : Program.generateFrom 0 p #[] = .ok (code, constants)) :
    p.generate = .ok ⟨(code ++ [Instr.halt]).toArray, constants⟩ := by
  have isCode := (Program.generateFrom_code made).2
  have sound : SoundCode constants p.places code.length 0 code :=
    isCode.sound (fun _ => id) (by omega)
  simp only [Program.generate_eq, made, bind, Except.bind, sound.validate]
  rfl

/-- The code of a statement stands where it is placed. -/
theorem Placed.codeAt {loads : Nat → Literal → Prop} {code more : List Instr} {place : Nat × Stmt}
    {chunk : Chunk} (placed : Placed loads 0 code place) (eq : chunk.code = (code ++ more).toArray) :
    ∃ keep own, StmtCode loads place.1 keep place.2 own ∧ chunk.CodeAt place.1 own := by
  obtain ⟨keep, own, rest, made, between, rfl, start, _⟩ := placed
  have all := Chunk.codeAt_toArray (between ++ (own ++ rest) ++ more) chunk.constants
  rw [← eq, Chunk.codeAt_append, Chunk.codeAt_append, Chunk.codeAt_append] at all
  rw [start]
  exact ⟨keep, own, start ▸ made, all.1.2.1⟩

theorem Program.generate_cases (p : Program) :
    ((∀ n ∈ p.nodes, n.HasStackCode) ∧ ∃ chunk, p.generate = .ok chunk) ∨
      (¬∀ n ∈ p.nodes, n.HasStackCode) ∧ ∃ kind, p.generate = .error (.unsupportedNode kind) := by
  rcases p.generateFrom_decides 0 #[] with ⟨all, ⟨code, constants⟩, made⟩ | ⟨some, kind, failed⟩
  · exact .inl ⟨all, _, Program.generate_of_generateFrom made⟩
  · refine .inr ⟨some, kind, ?_⟩
    simp only [Program.generate_eq, failed, bind, Except.bind]

/-- Stack code is generated for the programs all of whose nodes have it, and no others; generation
fails for no other reason.  The code is valid, ends at its only `halt`, and every jump in it leads
forward, but for those at the end of a loop, which lead to where the loop is repeated from. -/
theorem Program.generates_exactly (p : Program) :
    ((∃ chunk, p.generate = .ok chunk) ↔ ∀ n ∈ p.nodes, n.HasStackCode) ∧
    (∀ error, p.generate = .error error → ∃ kind, error = .unsupportedNode kind) ∧
    ∀ chunk, p.generate = .ok chunk →
      chunk.validate = .ok () ∧
      (∀ index : Nat, chunk.code[index]? = some .halt ↔ index + 1 = chunk.code.size) ∧
      (∀ index target : Nat, chunk.code[index]? = some (.jumpIfFalse target) → index < target) ∧
      (∀ index target : Nat, chunk.code[index]? = some (.jump target) →
        index < target ∨ InLoop p.places index target) ∧
      ∀ place ∈ p.places, ∃ keep code, StmtCode (Pooled chunk.constants) place.1 keep place.2 code ∧
        chunk.CodeAt place.1 code := by
  refine ⟨?_, fun error failed => ?_, fun chunk generated => ?_⟩
  · rcases p.generate_cases with ⟨all, made⟩ | ⟨some, kind, failed⟩
    · exact iff_of_true made all
    · simp [failed, some]
  · rcases p.generate_cases with ⟨_, chunk, made⟩ | ⟨_, kind, failed'⟩
    · cases failed.symm.trans made
    · cases failed.symm.trans failed'
      exact ⟨kind, rfl⟩
  · obtain ⟨code, eq, isCode, _, valid⟩ := p.generate_code generated
    have sound : SoundCode chunk.constants p.places code.length 0 code :=
      isCode.sound (fun _ => id) (by omega)
    rw [eq]
    refine ⟨valid, fun index => ⟨fun found => ?_, fun last => ?_⟩, fun index target found => ?_,
      fun index target found => ?_, fun place member => ?_⟩
    · rcases sound.cases found with ⟨_, halts⟩ | ⟨rfl, _⟩
      · exact halts.elim
      · simp
    · have index_eq : index = code.length := by simpa using last
      simp [index_eq]
    · rcases sound.cases found with ⟨_, forward, _⟩ | ⟨_, halts⟩
      · exact forward
      · cases halts
    · rcases sound.cases found with ⟨_, ⟨forward, _⟩ | back⟩ | ⟨_, halts⟩
      · exact .inl forward
      · exact .inr back
      · cases halts
    · exact (isCode.placed place member).codeAt eq

end TinyScript
