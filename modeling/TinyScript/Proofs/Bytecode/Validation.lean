import TinyScript.Proofs.Bytecode.Counting
import TinyScript.Proofs.Bytecode.Splitting

/-! # Validation

`Chunk.validate` looks for faults, one instruction after the other, and answers with the first
(`Chunk.validate_eq_error`).  Without one, no run leaves the code or misses a constant
(`Chunk.Sound.reaches`), so that the machine, which looks again at every constant that it loads, never
finds anything (`Chunk.validation_is_enough`).
-/

namespace TinyScript

namespace Chunk

/-! ## Faults -/

/-- The instruction at an index jumps out of the code, or loads a constant that the pool does not
have. -/
inductive Fault (chunk : Chunk) (index : Nat) : CompileError → Prop where
  | target {i : Instr} {target : Nat} : chunk.code[index]? = some i → i.target? = some target →
      chunk.code.size ≤ target →
      Fault chunk index (.invalidJumpTarget index target chunk.code.size)
  | constant {constant : Nat} : chunk.code[index]? = some (.loadConst constant) →
      chunk.constants.size ≤ constant →
      Fault chunk index (.invalidConstant index constant chunk.constants.size)

/-- No instruction has a fault. -/
def Sound (chunk : Chunk) : Prop := ∀ index error, ¬chunk.Fault index error

variable {chunk : Chunk} {index : Nat} {error : CompileError} {i : Instr}

theorem fault?_eq_some (found : chunk.code[index]? = some i) :
    chunk.fault? index i = some error ↔ chunk.Fault index error := by
  constructor
  · intro wrong
    cases i with
    | jump target | jumpIfFalse target =>
      simp only [Chunk.fault?] at wrong
      split at wrong
      · cases wrong
      · next outside =>
        cases wrong
        exact .target found rfl (Nat.not_lt.1 outside)
    | loadConst constant =>
      simp only [Chunk.fault?] at wrong
      split at wrong
      · cases wrong
      · next outside =>
        cases wrong
        exact .constant found (Nat.not_lt.1 outside)
    | _ => cases wrong
  · rintro (⟨found', jumps, outside⟩ | ⟨found', outside⟩)
    · cases found.symm.trans found'
      cases i with
      | jump target | jumpIfFalse target =>
        cases jumps
        exact if_neg (Nat.not_lt.2 outside)
      | _ => cases jumps
    · cases found.symm.trans found'
      exact if_neg (Nat.not_lt.2 outside)

theorem Fault.exists_instr (fault : chunk.Fault index error) : ∃ i, chunk.code[index]? = some i := by
  cases fault with
  | target found => exact ⟨_, found⟩
  | constant found => exact ⟨_, found⟩

/-- The answer is the fault of the first instruction that has one. -/
theorem faultFrom?_eq_some {code : List Instr} :
    chunk.faultFrom? index code = some error ↔
      ∃ k i, code[k]? = some i ∧ chunk.fault? (index + k) i = some error ∧
        ∀ earlier j, earlier < k → code[earlier]? = some j → chunk.fault? (index + earlier) j = none := by
  induction code generalizing index with
  | nil => simp [Chunk.faultFrom?]
  | cons first rest ih =>
    have shift (k : Nat) : index + 1 + k = index + (k + 1) := by omega
    rw [Chunk.faultFrom?]
    cases here : chunk.fault? index first with
    | some wrong =>
      constructor
      · intro same
        cases same
        exact ⟨0, first, rfl, here, fun earlier j before => absurd before (Nat.not_lt_zero _)⟩
      · rintro ⟨k, i, found, fault, before⟩
        cases k with
        | zero =>
          cases found
          exact here.symm.trans fault
        | succ k =>
          have free := before 0 first (Nat.succ_pos k) rfl
          cases here.symm.trans free
    | none =>
      rw [ih]
      constructor
      · rintro ⟨k, i, found, fault, before⟩
        refine ⟨k + 1, i, found, by rwa [← shift], fun earlier j smaller found' => ?_⟩
        cases earlier with
        | zero =>
          cases found'
          exact here
        | succ earlier =>
          rw [← shift]
          exact before earlier j (Nat.lt_of_succ_lt_succ smaller) found'
      · rintro ⟨k, i, found, fault, before⟩
        cases k with
        | zero =>
          cases found
          cases here.symm.trans fault
        | succ k =>
          refine ⟨k, i, found, by rwa [shift], fun earlier j smaller found' => ?_⟩
          rw [shift]
          exact before (earlier + 1) j (Nat.succ_lt_succ smaller) found'

/-- Validation reports the fault with the lowest index. -/
theorem validate_eq_error : chunk.validate = .error error ↔
    ∃ index, chunk.Fault index error ∧ ∀ earlier, earlier < index → ∀ other, ¬chunk.Fault earlier other := by
  have answer : chunk.validate = .error error ↔
      chunk.faultFrom? 0 chunk.code.toList = some error := by
    rw [Chunk.validate]
    cases chunk.faultFrom? 0 chunk.code.toList <;> simp
  rw [answer, faultFrom?_eq_some]
  simp only [Nat.zero_add, Array.getElem?_toList]
  constructor
  · rintro ⟨index, i, found, fault, before⟩
    refine ⟨index, (fault?_eq_some found).1 fault, fun earlier smaller other wrong => ?_⟩
    obtain ⟨j, found'⟩ := wrong.exists_instr
    have free := before earlier j smaller found'
    rw [(fault?_eq_some found').2 wrong] at free
    cases free
  · rintro ⟨index, fault, before⟩
    obtain ⟨i, found⟩ := fault.exists_instr
    refine ⟨index, i, found, (fault?_eq_some found).2 fault, fun earlier j smaller found' => ?_⟩
    rw [Option.eq_none_iff_forall_ne_some]
    intro other wrong
    exact before earlier smaller other ((fault?_eq_some found').1 wrong)

/-- If anything is wrong, validation says so. -/
theorem Fault.not_valid (fault : chunk.Fault index error) : ∃ first, chunk.validate = .error first := by
  classical
  have some : ∃ index, ∃ error, chunk.Fault index error := ⟨index, error, fault⟩
  obtain ⟨first, wrong⟩ := Nat.find_spec some
  exact ⟨first, validate_eq_error.2 ⟨Nat.find some, wrong, fun earlier smaller other another =>
    Nat.find_min some smaller ⟨other, another⟩⟩⟩

theorem validate_eq_ok_iff : chunk.validate = .ok () ↔ chunk.Sound := by
  constructor
  · intro valid index error fault
    obtain ⟨first, failed⟩ := fault.not_valid
    cases valid.symm.trans failed
  · intro sound
    refine validate_eq_ok fun index i found => ?_
    rw [Option.eq_none_iff_forall_ne_some]
    exact fun error wrong => sound index error ((fault?_eq_some found).1 wrong)

/-! ## Runs without faults -/

namespace Sound

variable {functions : NameMap HostFunction} {c d : Config}

/-- The constant that an instruction loads is in the pool. -/
theorem constant (sound : chunk.Sound) {constant : Nat}
    (found : chunk.code[index]? = some (.loadConst constant)) :
    ∃ value, chunk.constants[constant]? = some value := by
  have inside : constant < chunk.constants.size := by
    by_contra outside
    exact sound index _ (.constant found (Nat.not_lt.1 outside))
  exact ⟨_, Array.getElem?_eq_getElem inside⟩

/-- An instruction leads to another one, or to the end of the code. -/
theorem step (sound : chunk.Sound) (found : chunk.code[c.index]? = some i)
    (dispatched : c.dispatch functions chunk.constants i = .ok (some d)) :
    d.index ≤ chunk.code.size := by
  rcases (Config.dispatch_effect dispatched).2.2 with next | jumps
  · rw [next]
    exact (Array.getElem?_eq_some_iff.1 found).1
  · by_contra outside
    exact sound c.index _ (.target found jumps (Nat.le_of_not_le outside))

theorem reaches (sound : chunk.Sound) (reaches : chunk.Reaches functions c d)
    (inside : c.index ≤ chunk.code.size) : d.index ≤ chunk.code.size := by
  induction reaches with
  | refl => exact inside
  | step found dispatched _ ih => exact ih (sound.step found dispatched)

/-- The machine finds nothing that validation has missed. -/
theorem dispatch_ne (sound : chunk.Sound) {fault : CompileError}
    (unfeigned : Unfeigned functions (.invalidBytecode fault)) (found : chunk.code[c.index]? = some i) :
    c.dispatch functions chunk.constants i ≠ .error (.invalidBytecode fault) := by
  intro failed
  cases Config.dispatch_objects failed with
  | constant missing => exact absurd (.constant found missing) (sound _ _)
  | host answers => exact unfeigned answers

end Sound

end Chunk

namespace Vm

/-- The ways in which a run of a valid chunk ends, each with its result and the machine afterwards. -/
inductive Stops (vm : Vm) (chunk : Chunk) : Except ExecutionError Scalar → Vm → Prop where
  | halt {c : Config} : chunk.Reaches vm.functions vm.start c →
      chunk.code[c.index]? = some .halt → Stops vm chunk (.ok c.result) (vm.after c)
  | past {c : Config} : chunk.Reaches vm.functions vm.start c →
      c.index = chunk.code.size → Stops vm chunk (.ok c.result) (vm.after c)
  | fail {c : Config} {i : Instr} {error : ExecutionError} :
      chunk.Reaches vm.functions vm.start c → chunk.code[c.index]? = some i →
      c.dispatch vm.functions chunk.constants i = .error error →
      (∀ fault, Unfeigned vm.functions (.invalidBytecode fault) → error ≠ .invalidBytecode fault) →
      Stops vm chunk (.error error) (vm.after (c.abandon vm.functions i))
  | limit {c : Config} {limit : Nat} : vm.stepLimit = some limit →
      chunk.Reaches vm.functions vm.start c → c.index < chunk.code.size →
      Stops vm chunk (.error (.stepLimitExceeded limit)) (vm.after c)

variable {vm last : Vm} {chunk : Chunk} {patience : Nat} {result : Except ExecutionError Scalar}

theorem stops_of_run (valid : chunk.validate = .ok ())
    (ran : vm.run patience chunk = some (result, last)) : vm.Stops chunk result last := by
  have sound := Chunk.validate_eq_ok_iff.1 valid
  rcases run_cases valid ran with
    ⟨_, progress, _, _, ⟨n, _, c, counted, stops, _⟩, ending⟩ |
    ⟨limit, c, limited, _, counted, inside, ended⟩
  · have reaches := counted.reaches
    cases stops with
    | past found =>
      cases ending
      have outside : chunk.code.size ≤ c.index := Array.getElem?_eq_none_iff.1 found
      exact .past reaches (Nat.le_antisymm (sound.reaches reaches (Nat.zero_le _)) outside)
    | halt found =>
      cases ending
      exact .halt reaches found
    | @fail i error found failed =>
      cases ending
      refine .fail reaches found failed fun fault unfeigned => ?_
      rintro rfl
      exact sound.dispatch_ne unfeigned found failed
  · cases ended
    exact .limit limited counted.reaches inside

theorem run_of_invalid {fault : CompileError} (invalid : chunk.validate = .error fault) (vm : Vm)
    (patience : Nat) : vm.run patience chunk = some (.error (.invalidBytecode fault), vm) := by
  simp only [Vm.run, invalid]

/-- A run says that a chunk is not valid if and only if that is so. -/
theorem run_invalid_iff {fault : CompileError} (unfeigned : Unfeigned vm.functions (.invalidBytecode fault)) :
    (∃ last, vm.run patience chunk = some (.error (.invalidBytecode fault), last)) ↔
      chunk.validate = .error fault := by
  refine ⟨?_, fun invalid => ⟨vm, run_of_invalid invalid vm patience⟩⟩
  rintro ⟨last, ran⟩
  cases valid : chunk.validate with
  | error first =>
    rw [run_of_invalid valid] at ran
    cases ran
    rfl
  | ok =>
    generalize eq : (Except.error (.invalidBytecode fault) : Except ExecutionError Scalar) = result at ran
    cases stops_of_run valid ran with
    | fail _ _ _ other =>
      cases eq
      exact absurd rfl (other fault unfeigned)
    | _ => cases eq

end Vm

/-- Validation finds the first jump that leads out of the code or constant that is not in the pool, and a
chunk in which there is one does not run at all: whatever the machine is, it stays as it is.  All other
chunks are safe to run, however they were made.  No instruction leads further than just behind the code,
no constant is missing, and a run ends at a `halt`, at the end of the code, with an error of another kind,
unless a host function feigns this one, or at the step limit. -/
theorem Chunk.validation_is_enough (chunk : Chunk) :
    (∀ error, chunk.validate = .error error ↔ ∃ index, chunk.Fault index error ∧
      ∀ earlier, earlier < index → ∀ other, ¬chunk.Fault earlier other) ∧
    (chunk.validate = .ok () ↔ ∀ index error, ¬chunk.Fault index error) ∧
    (∀ error, chunk.validate = .error error → ∀ (vm : Vm) patience,
      vm.run patience chunk = some (.error (.invalidBytecode error), vm)) ∧
    (∀ error (vm : Vm) patience, Unfeigned vm.functions (.invalidBytecode error) →
      ((∃ last, vm.run patience chunk = some (.error (.invalidBytecode error), last)) ↔
        chunk.validate = .error error)) ∧
    (chunk.validate = .ok () → ∀ vm : Vm,
      (∀ c, chunk.Reaches vm.functions vm.start c → c.index ≤ chunk.code.size ∧
        ∀ constant, chunk.code[c.index]? = some (.loadConst constant) →
          ∃ value, chunk.constants[constant]? = some value) ∧
      ∀ patience result last, vm.run patience chunk = some (result, last) →
        vm.Stops chunk result last) := by
  refine ⟨fun error => validate_eq_error, validate_eq_ok_iff, fun error invalid vm patience =>
    vm.run_of_invalid invalid patience, fun error vm patience unfeigned => Vm.run_invalid_iff unfeigned,
    fun valid vm => ⟨?_, ?_⟩⟩
  · intro c reaches
    have sound := validate_eq_ok_iff.1 valid
    exact ⟨sound.reaches reaches (Nat.zero_le _), fun constant found => sound.constant found⟩
  · exact fun patience result last ran => Vm.stops_of_run valid ran

/-- A jump that leads out of the code, behind a constant that is not there. -/
theorem validation_is_enough_of_faults :
    let chunk : Chunk := ⟨#[.halt, .loadConst 0, .jump 9], #[]⟩
    chunk.validate = .error (.invalidConstant 1 0 0) ∧
    ∀ fault, (∃ last, (Vm.new none).run 5 chunk = some (.error (.invalidBytecode fault), last)) ↔
      fault = .invalidConstant 1 0 0 := by
  intro chunk
  have invalid : chunk.validate = .error (.invalidConstant 1 0 0) := by decide
  obtain ⟨_, _, _, reported, _⟩ := chunk.validation_is_enough
  refine ⟨invalid, fun fault => (reported fault (Vm.new none) 5 (unfeigned_standard nofun)).trans ?_⟩
  rw [invalid]
  exact ⟨fun same => (Except.error.inj same).symm, fun same => congrArg _ same.symm⟩

end TinyScript
