import TinyScript.Proofs.Bytecode.Splitting

/-! # Runs, instruction by instruction

`Chunk.ReachesIn` counts the instructions between two states of a run, and `Chunk.StopsAt` says what
comes of a state in which the run ends, with the instruction that this takes: one for a `halt` or a
failure, none at the end of the code.  A bounded run either ends in this way or has used up its steps
(`Chunk.runFor_cases`).
-/

namespace TinyScript

namespace Chunk

/-! ## Counted runs -/

/-- Exactly so many instructions lead from one state to the other, and none of them fails. -/
inductive ReachesIn (chunk : Chunk) (functions : NameMap HostFunction) :
    Nat → Config → Config → Prop where
  | refl (c : Config) : ReachesIn chunk functions 0 c c
  | step {n : Nat} {c d e : Config} {i : Instr} : chunk.code[c.index]? = some i →
      c.dispatch functions chunk.constants i = .ok (some d) → ReachesIn chunk functions n d e →
      ReachesIn chunk functions (n + 1) c e

/-- A run ends in a state, after so many more instructions. -/
inductive StopsAt (chunk : Chunk) (functions : NameMap HostFunction) (c : Config) :
    Nat → Progress → Prop where
  | past : chunk.code[c.index]? = none → StopsAt chunk functions c 0 (.finished c)
  | halt : chunk.code[c.index]? = some .halt → StopsAt chunk functions c 1 (.finished c)
  | fail {i : Instr} {error : ExecutionError} : chunk.code[c.index]? = some i →
      c.dispatch functions chunk.constants i = .error error →
      StopsAt chunk functions c 1 (.failed error (c.abandon functions i))

/-- A run from a state on dispatches exactly so many instructions, and this is what comes of it. -/
def EndsIn (chunk : Chunk) (functions : NameMap HostFunction) (k : Nat) (c : Config)
    (progress : Progress) : Prop :=
  ∃ n last d, chunk.ReachesIn functions n c d ∧ chunk.StopsAt functions d last progress ∧ k = n + last

variable {chunk : Chunk} {functions : NameMap HostFunction} {c d e : Config} {i : Instr} {k n : Nat}
  {progress : Progress}

theorem ReachesIn.reaches (counted : chunk.ReachesIn functions n c d) : chunk.Reaches functions c d := by
  induction counted with
  | refl c => exact .refl c
  | step found dispatched _ ih => exact .step found dispatched ih

/-- After exactly as many instructions, what is left of the run is a run from where it has come to. -/
theorem ReachesIn.runFor (counted : chunk.ReachesIn functions k c d) (n : Nat) :
    chunk.runFor functions (k + n) c = chunk.runFor functions n d := by
  induction counted with
  | refl => rw [Nat.zero_add]
  | step found dispatched _ ih => rw [Nat.add_right_comm, runFor_succ found dispatched, ih]

/-- A run that comes far has an instruction left after any smaller number of them. -/
theorem ReachesIn.earlier (counted : chunk.ReachesIn functions k c d) (few : n < k) :
    ∃ e, chunk.ReachesIn functions n c e ∧ e.index < chunk.code.size := by
  induction counted generalizing n with
  | refl => cases few
  | @step _ c _ _ _ found dispatched _ ih =>
    cases n with
    | zero => exact ⟨c, .refl c, (Array.getElem?_eq_some_iff.1 found).1⟩
    | succ n =>
      obtain ⟨e, earlier, inside⟩ := ih (Nat.lt_of_succ_lt_succ few)
      exact ⟨e, .step found dispatched earlier, inside⟩

theorem StopsAt.runFor (stops : chunk.StopsAt functions c k progress) (enough : k ≤ n) :
    chunk.runFor functions n c = progress := by
  obtain ⟨n, rfl⟩ := Nat.exists_eq_add_of_le' enough
  cases stops with
  | past found => simp only [Chunk.runFor, found]
  | halt found => exact runFor_succ_halt found n
  | fail found failed => exact runFor_succ_error found failed n

/-- A run that stops here with an instruction has that instruction left. -/
theorem StopsAt.inside (stops : chunk.StopsAt functions c k progress) (counts : 0 < k) :
    k = 1 ∧ c.index < chunk.code.size := by
  cases stops with
  | past => cases counts
  | halt found => exact ⟨rfl, (Array.getElem?_eq_some_iff.1 found).1⟩
  | fail found => exact ⟨rfl, (Array.getElem?_eq_some_iff.1 found).1⟩

theorem EndsIn.step (found : chunk.code[c.index]? = some i)
    (dispatched : c.dispatch functions chunk.constants i = .ok (some d))
    (rest : chunk.EndsIn functions k d progress) : chunk.EndsIn functions (k + 1) c progress := by
  obtain ⟨n, last, e, counted, stops, rfl⟩ := rest
  exact ⟨n + 1, last, e, .step found dispatched counted, stops, Nat.add_right_comm ..⟩

theorem StopsAt.endsIn (stops : chunk.StopsAt functions c k progress) :
    chunk.EndsIn functions k c progress :=
  ⟨0, k, c, .refl c, stops, (Nat.zero_add k).symm⟩

theorem EndsIn.runFor (ends : chunk.EndsIn functions k c progress) (enough : k ≤ n) :
    chunk.runFor functions n c = progress := by
  obtain ⟨m, last, d, counted, stops, rfl⟩ := ends
  obtain ⟨left, rfl⟩ := Nat.exists_eq_add_of_le (Nat.le_trans (Nat.le_add_right m last) enough)
  rw [counted.runFor]
  exact stops.runFor (Nat.le_of_add_le_add_left enough)

theorem EndsIn.earlier (ends : chunk.EndsIn functions k c progress) (few : n < k) :
    ∃ e, chunk.ReachesIn functions n c e ∧ e.index < chunk.code.size := by
  obtain ⟨m, last, d, counted, stops, rfl⟩ := ends
  by_cases before : n < m
  · exact counted.earlier before
  · obtain ⟨one, inside⟩ := stops.inside (by omega)
    obtain rfl : n = m := by omega
    exact ⟨d, counted, inside⟩

/-- A bounded run dispatches as many instructions as it may and has one left, or it comes to an end. -/
theorem runFor_cases (chunk : Chunk) (functions : NameMap HostFunction) (n : Nat) (c : Config) :
    (∃ d, chunk.ReachesIn functions n c d ∧ d.index < chunk.code.size ∧
      chunk.runFor functions n c = .cut d) ∨
    ∃ k, k ≤ n ∧ chunk.EndsIn functions k c (chunk.runFor functions n c) := by
  induction n generalizing c with
  | zero =>
    cases found : chunk.code[c.index]? with
    | none =>
      have stops : chunk.StopsAt functions c 0 (.finished c) := .past found
      rw [stops.runFor (Nat.le_refl 0)]
      exact .inr ⟨0, Nat.le_refl 0, stops.endsIn⟩
    | some i =>
      have inside : c.index < chunk.code.size := (Array.getElem?_eq_some_iff.1 found).1
      exact .inl ⟨c, .refl c, inside, runFor_zero found⟩
  | succ n ih =>
    have ended {last : Nat} {progress : Progress} (stops : chunk.StopsAt functions c last progress)
        (enough : last ≤ n + 1) :
        ∃ k, k ≤ n + 1 ∧ chunk.EndsIn functions k c (chunk.runFor functions (n + 1) c) := by
      rw [stops.runFor enough]
      exact ⟨last, enough, stops.endsIn⟩
    cases found : chunk.code[c.index]? with
    | none => exact .inr (ended (.past found) (Nat.zero_le _))
    | some i =>
      cases dispatched : c.dispatch functions chunk.constants i with
      | error error => exact .inr (ended (.fail found dispatched) (Nat.le_add_left 1 n))
      | ok next =>
        cases next with
        | none =>
          obtain rfl := Config.eq_halt_of_dispatch dispatched
          exact .inr (ended (.halt found) (Nat.le_add_left 1 n))
        | some d =>
          rw [runFor_succ found dispatched]
          obtain ⟨last, counted, inside, cut⟩ | ⟨k, bound, ends⟩ := ih d
          · exact .inl ⟨last, .step found dispatched counted, inside, cut⟩
          · exact .inr ⟨k + 1, Nat.succ_le_succ bound, ends.step found dispatched⟩

end Chunk

/-! ## Whole runs -/

namespace Vm

variable {vm : Vm} {chunk : Chunk} {patience k : Nat} {progress : Progress}
  {outcome : Except ExecutionError Scalar × Vm}

/-- The step limit allows so many instructions. -/
def Allows (vm : Vm) (k : Nat) : Prop := ∀ limit, vm.stepLimit = some limit → k ≤ limit

theorem ending?_of_endsIn {c : Config} (ends : chunk.EndsIn vm.functions k c progress) :
    ∃ outcome, vm.ending? progress = some outcome := by
  obtain ⟨_, _, _, _, stops, _⟩ := ends
  cases stops <;> exact ⟨_, rfl⟩

theorem run_of_endsIn (valid : chunk.validate = .ok ())
    (ends : chunk.EndsIn vm.functions k vm.start progress) (allows : vm.Allows k)
    (enough : k ≤ patience) : vm.run patience chunk = vm.ending? progress := by
  obtain ⟨outcome, ending⟩ : ∃ outcome, vm.ending? progress = some outcome := ending?_of_endsIn ends
  simp only [Vm.run, valid, Vm.execute]
  cases limit : vm.stepLimit with
  | none =>
    simp only [ends.runFor enough]
    cases progress with
    | cut => cases ending
    | _ => rfl
  | some bound =>
    simp only [ends.runFor (Nat.le_min.2 ⟨allows bound limit, enough⟩)]
    cases progress with
    | cut => cases ending
    | _ => rfl

/-- A run that has an instruction left after as many as it may dispatch fails there. -/
theorem run_of_reachesIn {limit : Nat} {last : Config} {i : Instr} (valid : chunk.validate = .ok ())
    (limited : vm.stepLimit = some limit)
    (counted : chunk.ReachesIn vm.functions limit vm.start last)
    (found : chunk.code[last.index]? = some i) (enough : limit ≤ patience) :
    vm.run patience chunk = some (.error (.stepLimitExceeded limit), vm.after last) := by
  have cut : chunk.runFor vm.functions limit vm.start = .cut last :=
    (counted.runFor 0).trans (Chunk.runFor_zero found)
  simp only [Vm.run, valid, Vm.execute, limited, Nat.min_eq_left enough, cut, if_pos enough]

/-- A run of a valid chunk that comes to an end has either come there by itself or been stopped by the
step limit. -/
theorem run_cases (valid : chunk.validate = .ok ()) (ran : vm.run patience chunk = some outcome) :
    (∃ k progress, k ≤ patience ∧ vm.Allows k ∧ chunk.EndsIn vm.functions k vm.start progress ∧
      vm.ending? progress = some outcome) ∨
    ∃ limit last, vm.stepLimit = some limit ∧ limit ≤ patience ∧
      chunk.ReachesIn vm.functions limit vm.start last ∧ last.index < chunk.code.size ∧
      outcome = (.error (.stepLimitExceeded limit), vm.after last) := by
  have answer := ran
  simp only [Vm.run, valid, Vm.execute] at answer
  cases limited : vm.stepLimit with
  | none =>
    have allows (k : Nat) : vm.Allows k := by simp [Allows, limited]
    simp only [limited] at answer
    rcases chunk.runFor_cases vm.functions patience vm.start with ⟨last, _, _, cut⟩ | ⟨k, few, ends⟩
    · simp [cut] at answer
    · exact .inl ⟨k, _, few, allows k, ends, (run_of_endsIn valid ends (allows k) few).symm.trans ran⟩
  | some limit =>
    simp only [limited] at answer
    rcases chunk.runFor_cases vm.functions (min limit patience) vm.start with
      ⟨last, counted, inside, cut⟩ | ⟨k, few, ends⟩
    · simp only [cut] at answer
      split at answer
      · next enough =>
        rw [Nat.min_eq_left enough] at counted
        exact .inr ⟨limit, last, rfl, enough, counted, inside, (Option.some.inj answer).symm⟩
      · cases answer
    · obtain ⟨fewer, few⟩ := Nat.le_min.1 few
      have allows : vm.Allows k := by
        intro bound same
        cases limited.symm.trans same
        exact fewer
      exact .inl ⟨k, _, few, allows, ends, (run_of_endsIn valid ends allows few).symm.trans ran⟩

end Vm

end TinyScript
