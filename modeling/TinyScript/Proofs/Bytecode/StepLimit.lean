import TinyScript.Proofs.Bytecode.Validation

/-! # Step limits

A step limit does not change what a run does, only how long it may go on: a run within its limit is the run
of every machine with a larger one, and a run that exceeds it stops in the state to which as many
instructions lead without it (`Vm.limits_only_cut`).
-/

namespace TinyScript

namespace Vm

/-- The same machine with another step limit, or with none. -/
def limited (vm : Vm) (limit : Option Nat) : Vm := { vm with stepLimit := limit }

/-- But for the step limit, a run ends after exactly so many instructions, with this result and machine. -/
inductive EndsAfter (vm : Vm) (chunk : Chunk) : Nat → Except ExecutionError Scalar → Vm → Prop where
  | invalid {fault : CompileError} : chunk.validate = .error fault →
      EndsAfter vm chunk 0 (.error (.invalidBytecode fault)) vm
  | valid {k : Nat} {progress : Progress} {result : Except ExecutionError Scalar} {last : Vm} :
      chunk.validate = .ok () → chunk.EndsIn vm.functions k vm.start progress →
      vm.ending? progress = some (result, last) → EndsAfter vm chunk k result last

/-- A run has an instruction left after as many as the step limit allows, and stops there. -/
inductive Exceeds (vm : Vm) (chunk : Chunk) : Except ExecutionError Scalar → Vm → Prop where
  | mk {limit : Nat} {c : Config} : chunk.validate = .ok () → vm.stepLimit = some limit →
      chunk.ReachesIn vm.functions limit vm.start c → c.index < chunk.code.size →
      Exceeds vm chunk (.error (.stepLimitExceeded limit)) (vm.after c)

variable {vm last : Vm} {chunk : Chunk} {k n patience : Nat} {limit : Option Nat}
  {result : Except ExecutionError Scalar}

theorem EndsAfter.limited (ends : vm.EndsAfter chunk k result last) (limit : Option Nat) :
    (vm.limited limit).EndsAfter chunk k result (last.limited limit) := by
  cases ends with
  | invalid invalid => exact .invalid invalid
  | @valid _ progress _ _ valid ends ending =>
    refine .valid valid ends ?_
    cases progress with
    | cut => cases ending
    | _ =>
      cases ending
      rfl

theorem EndsAfter.run (ends : vm.EndsAfter chunk k result last) (allows : vm.Allows k)
    (enough : k ≤ patience) : vm.run patience chunk = some (result, last) := by
  cases ends with
  | invalid invalid => exact run_of_invalid invalid _ _
  | valid valid ends ending => rw [run_of_endsIn valid ends allows enough, ending]

theorem Exceeds.run (exceeds : vm.Exceeds chunk result last)
    (enough : ∀ limit, vm.stepLimit = some limit → limit ≤ patience) :
    vm.run patience chunk = some (result, last) := by
  obtain ⟨valid, limited, counted, inside⟩ := exceeds
  exact run_of_reachesIn valid limited counted (Array.getElem?_eq_getElem inside) (enough _ limited)

/-- A run ends within the limit or exceeds it. -/
theorem endsAfter_or_exceeds (ran : vm.run patience chunk = some (result, last)) :
    (∃ k, k ≤ patience ∧ vm.Allows k ∧ vm.EndsAfter chunk k result last) ∨
      vm.Exceeds chunk result last := by
  cases valid : chunk.validate with
  | error fault =>
    rw [run_of_invalid valid] at ran
    cases ran
    exact .inl ⟨0, Nat.zero_le _, fun _ _ => Nat.zero_le _, .invalid valid⟩
  | ok =>
    rcases run_cases valid ran with
      ⟨k, progress, few, allows, ends, ending⟩ | ⟨limit, c, limited, _, counted, inside, exceeded⟩
    · exact .inl ⟨k, few, allows, .valid valid ends ending⟩
    · cases exceeded
      exact .inr ⟨valid, limited, counted, inside⟩

/-- What has a limit ends. -/
theorem exists_run (limited : vm.stepLimit = some n) (enough : n ≤ patience) :
    ∃ result last, vm.run patience chunk = some (result, last) := by
  cases valid : chunk.validate with
  | error fault => exact ⟨_, _, run_of_invalid valid _ _⟩
  | ok =>
    have same (bound : Nat) (eq : vm.stepLimit = some bound) : n = bound :=
      Option.some.inj (limited.symm.trans eq)
    rcases chunk.runFor_cases vm.functions n vm.start with ⟨c, counted, inside, _⟩ | ⟨k, few, ends⟩
    · have exceeds : vm.Exceeds chunk _ _ := ⟨valid, limited, counted, inside⟩
      exact ⟨_, _, exceeds.run fun bound eq => same bound eq ▸ enough⟩
    · obtain ⟨⟨result, last⟩, ending⟩ := ending?_of_endsIn ends
      have ends' : vm.EndsAfter chunk k result last := .valid valid ends ending
      exact ⟨result, last, ends'.run (fun bound eq => same bound eq ▸ few) (Nat.le_trans few enough)⟩

theorem ends_iff_endsAfter (unlimited : vm.stepLimit = none) :
    vm.Ends chunk (result, last) ↔ ∃ k, vm.EndsAfter chunk k result last := by
  constructor
  · rintro ⟨patience, ran⟩
    rcases endsAfter_or_exceeds ran with ⟨k, _, _, ends⟩ | ⟨_, limited, _, _⟩
    · exact ⟨k, ends⟩
    · cases unlimited.symm.trans limited
  · rintro ⟨k, ends⟩
    exact ⟨k, ends.run (by simp [Allows, unlimited]) (Nat.le_refl k)⟩

/-- A larger limit makes no difference to a run that does not exceed its own. -/
theorem run_of_larger (larger : ∀ bound, limit = some bound → n ≤ bound)
    (ran : (vm.limited (some n)).run patience chunk = some (result, last))
    (within : result ≠ .error (.stepLimitExceeded n)) :
    (vm.limited limit).run patience chunk = some (result, last.limited limit) := by
  rcases endsAfter_or_exceeds ran with ⟨k, few, allows, ends⟩ | ⟨_, limited, _, _⟩
  · exact (ends.limited limit).run
      (fun bound same => Nat.le_trans (allows n rfl) (larger bound same)) few
  · cases limited
    exact absurd rfl within

/-- Only the limit itself says that it is exceeded, and at its last instruction. -/
theorem reachesIn_of_exceeded (unfeigned : Unfeigned vm.functions (.stepLimitExceeded n))
    (ran : (vm.limited (some n)).run patience chunk = some (.error (.stepLimitExceeded n), last)) :
    ∃ c, chunk.ReachesIn vm.functions n vm.start c ∧ c.index < chunk.code.size ∧
      last = (vm.limited (some n)).after c := by
  generalize eq : (Except.error (.stepLimitExceeded n) : Except ExecutionError Scalar) = result at ran
  rcases endsAfter_or_exceeds ran with ⟨_, _, _, _ | ⟨_, ⟨_, _, c, _, stops, _⟩, ending⟩⟩ |
    ⟨_, limited, counted, inside⟩
  · cases eq
  · cases stops with
    | fail found failed =>
      cases ending
      cases eq
      cases Config.dispatch_objects failed with
      | host answers => exact absurd answers unfeigned
    | _ =>
      cases ending
      cases eq
  · cases limited
    exact ⟨_, counted, inside, rfl⟩

/-- A run that takes more instructions exceeds the limit. -/
theorem EndsAfter.exceeds (ends : vm.EndsAfter chunk k result last) (limited : vm.stepLimit = some n)
    (few : n < k) : ∃ last, vm.Exceeds chunk (.error (.stepLimitExceeded n)) last := by
  cases ends with
  | invalid => cases few
  | valid valid ends =>
    obtain ⟨c, counted, inside⟩ := ends.earlier few
    exact ⟨_, valid, limited, counted, inside⟩

end Vm

/-- A step limit does nothing but cut a run short.

A run with a limit ends.  If it does not exceed its limit, it has the same result on the same machine with
a larger limit or none, and leaves it alike.  If it does, as many instructions as the limit have been
dispatched, and the machine is left as they leave it.  A run without a limit ends if it does so after some
number of instructions.  No limit of that number or more makes a difference to it, and every smaller one
cuts it. -/
theorem Vm.limits_only_cut (vm : Vm) (chunk : Chunk) :
    (∀ n patience, n ≤ patience →
      ∃ result last, (vm.limited (some n)).run patience chunk = some (result, last)) ∧
    (∀ n patience result last, (vm.limited (some n)).run patience chunk = some (result, last) →
      result ≠ .error (.stepLimitExceeded n) →
      ∀ limit, (∀ bound, limit = some bound → n ≤ bound) →
        (vm.limited limit).run patience chunk = some (result, last.limited limit)) ∧
    (∀ n patience last, Unfeigned vm.functions (.stepLimitExceeded n) →
      (vm.limited (some n)).run patience chunk = some (.error (.stepLimitExceeded n), last) →
      ∃ c, chunk.ReachesIn vm.functions n vm.start c ∧ c.index < chunk.code.size ∧
        last = (vm.limited (some n)).after c) ∧
    (∀ result last, (vm.limited none).Ends chunk (result, last) ↔
      ∃ k, (vm.limited none).EndsAfter chunk k result last) ∧
    ∀ k result last, (vm.limited none).EndsAfter chunk k result last → ∀ n patience, n ≤ patience →
      (k ≤ n → (vm.limited (some n)).run patience chunk = some (result, last.limited (some n))) ∧
      (n < k → ∃ last, (vm.limited (some n)).run patience chunk =
        some (.error (.stepLimitExceeded n), last)) := by
  refine ⟨fun n patience enough => exists_run rfl enough,
    fun n patience result last ran within limit larger => run_of_larger larger ran within,
    fun n patience last unfeigned ran => reachesIn_of_exceeded unfeigned ran,
    fun result last => ends_iff_endsAfter rfl,
    fun k result last ends n patience enough => ⟨fun allows => ?_, fun few => ?_⟩⟩
  · have ends' := ends.limited (some n)
    refine ends'.run (fun bound same => ?_) (Nat.le_trans allows enough)
    cases same
    exact allows
  · obtain ⟨last, exceeds⟩ := (ends.limited (some n)).exceeds rfl few
    refine ⟨last, exceeds.run fun bound same => ?_⟩
    cases same
    exact enough

/-- A loop without end. -/
theorem limits_only_cut_of_loop :
    ∃ last, ((Vm.new none).limited (some 3)).run 4 ⟨#[.jump 0], #[]⟩ =
        some (.error (.stepLimitExceeded 3), last) ∧
      ∃ c, Chunk.ReachesIn ⟨#[.jump 0], #[]⟩ HostFunction.standard 3 (Vm.new none).start c := by
  obtain ⟨_, _, exceeds, _⟩ := (Vm.new none).limits_only_cut ⟨#[.jump 0], #[]⟩
  obtain ⟨c, counted, _⟩ := exceeds 3 4 (Vm.new (some 3)) (unfeigned_standard nofun) rfl
  exact ⟨Vm.new (some 3), rfl, c, counted⟩

/-- A `halt` counts as an instruction, and the end of the code does not. -/
example : (Vm.new (some 1)).run 1 ⟨#[.halt], #[]⟩ = some (.ok .undefined, Vm.new (some 1)) ∧
    (Vm.new (some 0)).run 0 ⟨#[.halt], #[]⟩ =
      some (.error (.stepLimitExceeded 0), Vm.new (some 0)) ∧
    (Vm.new (some 0)).run 0 ⟨#[], #[]⟩ = some (.ok .undefined, Vm.new (some 0)) :=
  ⟨rfl, rfl, rfl⟩

end TinyScript
