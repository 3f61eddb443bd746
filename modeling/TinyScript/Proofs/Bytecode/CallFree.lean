import TinyScript.Proofs.Bytecode.Run
import TinyScript.Proofs.Bytecode.Layout

/-! # Code without calls

Host functions are called only where a program has a call (`Program.callFree`), so that a program without
calls has the same runs whatever the functions are (`Chunk.CallFree.reaches`).
-/

namespace TinyScript

/-- No call. -/
def Node.CallFree : Node → Prop
  | .expr (.call _ _) => False
  | _ => True

/-- No instruction calls a function. -/
def CallFreeCode (code : List Instr) : Prop := ∀ name argc, Instr.call name argc ∉ code

namespace CallFreeCode

variable {left right : List Instr} {i : Instr}

theorem nil : CallFreeCode [] := by simp [CallFreeCode]

theorem append (first : CallFreeCode left) (second : CallFreeCode right) : CallFreeCode (left ++ right) := by
  intro name argc member
  rcases List.mem_append.1 member with inLeft | inRight
  · exact first name argc inLeft
  · exact second name argc inRight

theorem cons (other : ∀ name argc, i ≠ .call name argc) (rest : CallFreeCode right) :
    CallFreeCode (i :: right) := by
  intro name argc member
  rcases List.mem_cons.1 member with rfl | inRest
  · exact other name argc rfl
  · exact rest name argc inRest

theorem single (other : ∀ name argc, i ≠ .call name argc) : CallFreeCode [i] := cons other nil

end CallFreeCode

section

variable {loads : Nat → Literal → Prop}

theorem ExprCode.callFree {e : Expr} {code : List Instr} (made : ExprCode loads e code)
    (free : e.All Node.CallFree) : CallFreeCode code := by
  cases made with
  | literal => exact .single (by simp)
  | identifier => exact .single (by simp)
  | binary left right =>
    obtain ⟨_, leftFree, rightFree⟩ := Expr.all_binary.1 free
    exact ((left.callFree leftFree).append (right.callFree rightFree)).append (.single (by simp))
  | assign _ value =>
    obtain ⟨_, valueFree⟩ := Expr.all_assign.1 free
    exact (value.callFree valueFree).append (.cons (by simp) (.single (by simp)))
  | compound _ value =>
    obtain ⟨_, valueFree⟩ := Expr.all_assign.1 free
    exact .cons (by simp) ((value.callFree valueFree).append
      (.cons (by simp) (.cons (by simp) (.single (by simp)))))
  | function => exact (Expr.all_call.1 free).1.elim
  | method => exact (Expr.all_call.1 free).1.elim

theorem TestCode.callFree {test : Option Expr} {code : Nat → List Instr} (made : TestCode loads test code)
    (free : ∀ e, test = .some e → e.All Node.CallFree) (exit : Nat) : CallFreeCode (code exit) := by
  cases made with
  | none => exact .nil
  | some test => exact (test.callFree (free _ rfl)).append (.single (by simp))

theorem EffectCode.callFree {effect : Option Expr} {code : List Instr}
    (made : EffectCode loads effect code) (free : ∀ e, effect = .some e → e.All Node.CallFree) :
    CallFreeCode code := by
  cases made with
  | none => exact .nil
  | some e => exact (e.callFree (free _ rfl)).append (.single (by simp))

mutual

theorem StmtCode.callFree {base : Nat} {keep : Bool} {s : Stmt} {code : List Instr}
    (made : StmtCode loads base keep s code) (free : s.All Node.CallFree) : CallFreeCode code := by
  cases made with
  | declare init =>
    exact (init.callFree (Stmt.all_declare.1 free).2).append (.single (by simp))
  | kept value => exact value.callFree (Stmt.all_expression.1 free).2
  | dropped value =>
    exact (value.callFree (Stmt.all_expression.1 free).2).append (.single (by simp))
  | ifThen test consequent =>
    obtain ⟨_, testFree, blockFree, _⟩ := Stmt.all_ifElse.1 free
    exact (test.callFree testFree).append (.cons (by simp) (consequent.callFree blockFree))
  | ifElse test consequent _ alternate =>
    obtain ⟨_, testFree, blockFree, otherFree⟩ := Stmt.all_ifElse.1 free
    exact ((test.callFree testFree).append (.cons (by simp) (consequent.callFree blockFree))).append
      (.cons (by simp) (alternate.callFree (otherFree _ rfl)))
  | whileLoop test body =>
    obtain ⟨_, testFree, bodyFree⟩ := Stmt.all_whileLoop.1 free
    have tested := test.callFree (fun e eq => Option.some.inj eq ▸ testFree)
    exact ((tested _).append (body.callFree bodyFree)).append (.single (by simp))
  | forLoop init _ test _ body update =>
    obtain ⟨_, initFree, testFree, updateFree, bodyFree⟩ := Stmt.all_forLoop.1 free
    exact ((((init.callFree initFree).append (test.callFree testFree _)).append
      (body.callFree bodyFree)).append (update.callFree updateFree)).append (.single (by simp))

theorem BlockCode.callFree {base : Nat} {block : List Stmt} {code : List Instr}
    (made : BlockCode loads base block code) (free : ∀ s ∈ block, s.All Node.CallFree) :
    CallFreeCode code := by
  cases made with
  | nil => exact .nil
  | cons first rest =>
    rw [List.forall_mem_cons] at free
    exact (first.callFree free.1).append (rest.callFree free.2)

theorem ClauseCode.callFree {base : Nat} {clause : Option Stmt} {code : List Instr}
    (made : ClauseCode loads base clause code) (free : ∀ s, clause = .some s → s.All Node.CallFree) :
    CallFreeCode code := by
  cases made with
  | none => exact .nil
  | some s => exact s.callFree (free _ rfl)

end

theorem ProgramCode.callFree {base : Nat} {p : Program} {code : List Instr}
    (made : ProgramCode loads base p code) (free : ∀ s ∈ p, s.All Node.CallFree) : CallFreeCode code := by
  induction made with
  | nil => exact .nil
  | last made => exact made.callFree (free _ (by simp))
  | cons _ first _ ih =>
    rw [List.forall_mem_cons] at free
    exact (first.callFree free.1).append (ih free.2)

end

/-! ## Runs -/

/-- The chunk calls no function. -/
def Chunk.CallFree (chunk : Chunk) : Prop :=
  ∀ (index : Nat) name argc, chunk.code[index]? ≠ some (.call name argc)

theorem Program.callFree {p : Program} {chunk : Chunk} (generated : p.generate = .ok chunk)
    (free : ∀ n ∈ p.nodes, n.CallFree) : chunk.CallFree := by
  obtain ⟨code, eq, made, _, _⟩ := p.generate_code generated
  have codeFree : CallFreeCode (code ++ [Instr.halt]) :=
    (made.callFree (Stmt.all_nodesAll.1 free)).append (.single (by simp))
  intro index name argc found
  rw [eq, List.getElem?_toArray] at found
  exact codeFree name argc (List.mem_of_getElem? found)

/-- Only calls look at the functions. -/
theorem Config.dispatch_of_callFree {i : Instr} (other : ∀ name argc, i ≠ .call name argc)
    (functions functions' : NameMap HostFunction) (constants : Array Scalar) (c : Config) :
    c.dispatch functions constants i = c.dispatch functions' constants i := by
  cases i with
  | call name argc => exact absurd rfl (other name argc)
  | _ => rfl

theorem Chunk.CallFree.reaches {chunk : Chunk} (free : chunk.CallFree)
    {functions : NameMap HostFunction} (functions' : NameMap HostFunction) {c d : Config}
    (reaches : chunk.Reaches functions c d) : chunk.Reaches functions' c d := by
  induction reaches with
  | refl c => exact .refl c
  | @step c _ _ i found dispatched _ ih =>
    refine .step found ?_ ih
    rw [← dispatched]
    exact Config.dispatch_of_callFree (fun name argc eq => free c.index name argc (eq ▸ found)) ..

end TinyScript
