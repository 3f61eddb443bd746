import TinyScript.Bytecode.Operation
import TinyScript.Proofs.Bytecode.Layout
import TinyScript.Proofs.Number.Equality

/-! # Pools of constants

A constant that is added to a chunk is found under the index returned, whatever is done with the chunk
afterwards, and no two constants of a pool become equal.  What is found there is the constant itself, with one
exception: a pool looks for a constant that is equal, and the two zeros are equal, so that the zero which
comes second is given up for the one that is there (`Chunk.added_constant_kept`).
-/

namespace TinyScript

/-! ## Equal constants -/

namespace Scalar

/-- The two zeros, which are equal and still not the same. -/
inductive OtherZero : Scalar → Scalar → Prop where
  | negative : OtherZero (.number 0) (.number (-0))
  | positive : OtherZero (.number (-0)) (.number 0)

/-- Nothing that a program can do tells one constant from the other: they are of one kind, have one text, are
alike as conditions, and as operands on either side. -/
structure Alike (a b : Scalar) : Prop where
  kind : a.kind = b.kind
  text : a.text = b.text
  truthy : a.isTruthy = b.isTruthy
  left : ∀ (op : BinaryOp) (c : Scalar), Instr.combine op a c = Instr.combine op b c
  right : ∀ (op : BinaryOp) (c : Scalar), Instr.combine op c a = Instr.combine op c b

variable {a b : Scalar}

/-- Their texts differ, and so does what comes of a division by them. -/
theorem OtherZero.not_alike (zeros : OtherZero a b) : ¬a.Alike b := by
  intro alike
  have texts := alike.text
  cases zeros with
  | negative => exact absurd texts (by decide)
  | positive => exact absurd texts (by decide)

theorem OtherZero.symm (zeros : OtherZero a b) : OtherZero b a := by
  cases zeros with
  | negative => exact .positive
  | positive => exact .negative

theorem OtherZero.same (zeros : OtherZero a b) : a.same b = true := by
  cases zeros with
  | negative => decide
  | positive => decide

/-- Equal constants are the same one but for the zeros. -/
theorem eq_or_otherZero_of_same (equal : a.same b = true) : a = b ∨ OtherZero a b := by
  cases a with
  | undefined =>
    cases b with
    | undefined => exact .inl rfl
    | _ => cases equal
  | boolean value =>
    cases b with
    | boolean value' => exact .inl (congrArg boolean (eq_of_beq equal))
    | _ => cases equal
  | number value =>
    cases b with
    | number value' =>
      obtain rfl | ⟨rfl, rfl⟩ | ⟨rfl, rfl⟩ := Number.eq_or_zeros_of_beq equal
      · exact .inl rfl
      · exact .inr .negative
      · exact .inr .positive
    | _ => cases equal
  | string text =>
    cases b with
    | string text' => exact .inl (congrArg string (eq_of_beq equal))
    | _ => cases equal

theorem same_symm (equal : a.same b = true) : b.same a = true := by
  rcases eq_or_otherZero_of_same equal with rfl | zeros
  · exact equal
  · exact zeros.symm.same

end Scalar

/-! ## One more constant -/

namespace Chunk

/-- No constant of a pool equals another one. -/
def Distinct (pool : Array Scalar) : Prop :=
  ∀ (i j : Nat) (a b : Scalar), i ≠ j → pool[i]? = some a → pool[j]? = some b → a.same b = false

variable {pool : Array Scalar} {value : Scalar}

/-- The constants that were there stay where they were. -/
theorem getElem?_pooled {i : Nat} (bound : i < pool.size) : (pooled pool value).2[i]? = pool[i]? := by
  obtain ⟨_, _, _, _, same⟩ | ⟨_, added⟩ := pooled_cases pool value
  · rw [same]
  · rw [added, Array.getElem?_push, if_neg (Nat.ne_of_lt bound)]

open Scalar in
/-- The value is found under its index, or else the other zero, which was there before. -/
theorem found_pooled (pool : Array Scalar) (value : Scalar) :
    ∃ kept, (pooled pool value).2[(pooled pool value).1]? = some kept ∧
      (kept = value ∨ OtherZero value kept ∧ pool.find? (·.same value) = some kept) := by
  obtain ⟨kept, first, equal, here, same⟩ | ⟨_, added⟩ := pooled_cases pool value
  · refine ⟨kept, by rwa [same], ?_⟩
    rcases eq_or_otherZero_of_same equal with rfl | zeros
    · exact .inl rfl
    · exact .inr ⟨zeros.symm, first⟩
  · refine ⟨value, ?_, .inl rfl⟩
    rw [added]
    exact Array.getElem?_push_size

theorem found_pooled_of_find? {kept : Scalar} (first : pool.find? (·.same value) = some kept) :
    (pooled pool value).2[(pooled pool value).1]? = some kept := by
  obtain ⟨kept', first', _, here, same⟩ | ⟨missing, _⟩ := pooled_cases pool value
  · rw [first] at first'
    cases first'
    rwa [same]
  · rw [first] at missing
    cases missing

theorem Distinct.pooled (distinct : Distinct pool) (value : Scalar) : Distinct (pooled pool value).2 := by
  obtain ⟨_, _, _, _, same⟩ | ⟨missing, added⟩ := pooled_cases pool value
  · rwa [same]
  · have apart (i : Nat) (a : Scalar) (found : pool[i]? = some a) : a.same value = false := by
      simpa using Array.find?_eq_none.1 missing a (Array.mem_of_getElem? found)
    have apart' (i : Nat) (a : Scalar) (found : pool[i]? = some a) : value.same a = false := by
      rw [← Bool.not_eq_true]
      intro equal
      exact absurd (Scalar.same_symm equal) (by simp [apart i a found])
    rw [added]
    intro i j a b different first second
    simp only [Array.getElem?_push] at first second
    split at first
    · next last =>
      cases first
      rw [if_neg (last ▸ different.symm)] at second
      exact apart' j b second
    · split at second
      · cases second
        exact apart i a first
      · exact distinct i j a b different first second

/-! ## Building a chunk -/

/-- What is done with a chunk that is built by hand. -/
inductive Edit where
  | emit (i : Instr)
  | constant (value : Scalar)
  /-- Aims the jump at an index elsewhere, if there is one. -/
  | patch (index target : Nat)

def edit (c : Chunk) : Edit → Chunk
  | .emit i => (c.emit i).2
  | .constant value => (c.addConstant value).2
  | .patch index target => (c.patchJump index target).getD c

def build (c : Chunk) (edits : List Edit) : Chunk := edits.foldl edit c

theorem addConstant_eq (c : Chunk) (value : Scalar) :
    c.addConstant value =
      ((pooled c.constants value).1, { c with constants := (pooled c.constants value).2 }) := rfl

/-- Instructions are another matter. -/
theorem constants_patchJump {c d : Chunk} {index target : Nat} (patched : c.patchJump index target = some d) :
    d.constants = c.constants := by
  simp only [patchJump, Option.bind_eq_bind, Option.bind_eq_some_iff] at patched
  obtain ⟨_, _, _, _, done⟩ := patched
  cases done
  rfl

/-- What holds of a pool and is kept when a constant is added holds of the pool of the finished chunk. -/
theorem build_induction {P : Array Scalar → Prop}
    (added : ∀ pool value, P pool → P (pooled pool value).2) {c : Chunk} (edits : List Edit)
    (start : P c.constants) : P (c.build edits).constants := by
  induction edits generalizing c with
  | nil => exact start
  | cons e edits ih =>
    refine ih (c := c.edit e) ?_
    cases e with
    | emit i => exact start
    | constant value => exact added _ _ start
    | patch index target =>
      rw [edit]
      cases patched : c.patchJump index target with
      | none => exact start
      | some d => exact (constants_patchJump patched).symm ▸ start

theorem getElem?_build (c : Chunk) (edits : List Edit) {i : Nat} {a : Scalar} (found : c.constants[i]? = some a) :
    (c.build edits).constants[i]? = some a := by
  refine build_induction (P := fun pool => pool[i]? = some a) (fun pool value found => ?_) edits found
  rwa [getElem?_pooled (Array.getElem?_eq_some_iff.1 found).1]

end Chunk

/-! ## What is kept -/

open Scalar in
/-- Whatever is done with a chunk before and afterwards, the index of an added constant refers to it, unless it
is a zero and the first constant that equals it at that time is the other zero: then the index refers to that
one, which can be told from it.  No constant is moved, and if no constant equals another one at first, none
ever does. -/
theorem Chunk.added_constant_kept (c : Chunk) (before after : List Edit) (value : Scalar) :
    let earlier := c.build before
    let index := (earlier.addConstant value).1
    let later := (earlier.addConstant value).2.build after
    (∃ kept, later.constants[index]? = some kept ∧
      (kept = value ∨ OtherZero value kept ∧ earlier.constants.find? (·.same value) = some kept)) ∧
    (∀ kept, OtherZero value kept → earlier.constants.find? (·.same value) = some kept →
      later.constants[index]? = some kept ∧ ¬kept.Alike value) ∧
    (∀ (i : Nat) a, earlier.constants[i]? = some a → later.constants[i]? = some a) ∧
    (Distinct c.constants → Distinct later.constants) := by
  intro earlier index later
  have stays {i : Nat} {a : Scalar} (found : (pooled earlier.constants value).2[i]? = some a) :
      later.constants[i]? = some a := getElem?_build _ after found
  have step (pool : Array Scalar) (value : Scalar) (distinct : Distinct pool) := distinct.pooled value
  refine ⟨?_, fun kept zeros first => ⟨stays (found_pooled_of_find? first), zeros.symm.not_alike⟩,
    fun i a found => stays ?_, fun distinct => ?_⟩
  · obtain ⟨kept, found, kind⟩ := found_pooled earlier.constants value
    exact ⟨kept, stays found, kind⟩
  · rwa [getElem?_pooled (Array.getElem?_eq_some_iff.1 found).1]
  · exact build_induction step after (step _ value (build_induction step before distinct))

namespace Chunk

/-- A pool that holds a zero. -/
def zeroPooled : Chunk := Chunk.empty.build [.constant (.number 0)]

/-- The other zero is added, and loaded by the index returned. -/
def otherZeroLoaded : Chunk := (zeroPooled.addConstant (.number (-0))).2.build [.emit (.loadConst 0)]

theorem added_constant_kept_of_zeros :
    Scalar.OtherZero (.number (-0)) (.number 0) ∧ Distinct Chunk.empty.constants ∧
    zeroPooled.constants.find? (·.same (.number (-0))) = some (.number 0) ∧
    (zeroPooled.addConstant (.number (-0))).1 = 0 ∧
    otherZeroLoaded.constants[0]? = some (.number 0) ∧ ¬(Scalar.number 0).Alike (.number (-0)) ∧
    Distinct otherZeroLoaded.constants := by
  have equal : (Scalar.number 0).same (.number (-0)) = true := Scalar.OtherZero.negative.same
  have pool : zeroPooled.constants = #[.number 0] := by
    simp [zeroPooled, build, edit, addConstant, pooled, Chunk.empty]
  have first : zeroPooled.constants.find? (·.same (.number (-0))) = some (.number 0) := by
    simp [pool, equal]
  have index : (zeroPooled.addConstant (.number (-0))).1 = 0 := by
    simp [addConstant_eq, pooled, pool, equal, List.findIdx?_cons]
  have distinct : Distinct Chunk.empty.constants := fun _ _ _ _ _ found _ => by cases found
  obtain ⟨_, given, _, apart⟩ :=
    added_constant_kept Chunk.empty [.constant (.number 0)] [.emit (.loadConst 0)] (.number (-0))
  obtain ⟨found, differs⟩ := given (.number 0) .positive first
  exact ⟨.positive, distinct, first, index, index ▸ found, differs, apart distinct⟩

end Chunk

end TinyScript
