import TinyScript.Proofs.Bytecode.Generation
import TinyScript.Proofs.Bytecode.Relocation

/-! # Programs run in pieces

To run a program is to run its pieces, one after the other on one machine (`Program.runs_in_pieces`).

The code of the whole carries that of each piece (`Chunk.Joins`), but where a piece halts with its value
on the stack, the whole takes the value off and goes on.  So a run of the whole is one of the first piece,
and then, if that has not failed, one of the second that begins with an empty stack.
-/

namespace TinyScript

/-! ## Runs that end -/

namespace Vm

/-- Some number of instructions is enough for the run to end, with this result and this machine. -/
def Ends (vm : Vm) (chunk : Chunk) (outcome : Except ExecutionError Scalar × Vm) : Prop :=
  ∃ patience, vm.run patience chunk = some outcome

/-- Runs chunks one after the other up to the first that fails; the value is that of the last. -/
def runEach (vm : Vm) (patience : Nat) : List Chunk → Option (Except ExecutionError Scalar × Vm)
  | [] => some (.ok .undefined, vm)
  | [chunk] => vm.run patience chunk
  | chunk :: rest =>
    match vm.run patience chunk with
    | some (.ok _, next) => next.runEach patience rest
    | stopped => stopped

def EndsEach (vm : Vm) (chunks : List Chunk) (outcome : Except ExecutionError Scalar × Vm) : Prop :=
  ∃ patience, vm.runEach patience chunks = some outcome

/-- It is all the same whether a machine runs a chunk or the others one after the other. -/
structure RunsAs (vm : Vm) (whole : Chunk) (pieces : List Chunk) : Prop where
  /-- They end with the same value or error, and leave the machine alike. -/
  ends : ∀ outcome, vm.Ends whole outcome ↔ vm.EndsEach pieces outcome
  /-- One of them never ends if the other never does. -/
  never : (∀ patience, vm.run patience whole = none) ↔ ∀ patience, vm.runEach patience pieces = none

variable {vm : Vm} {chunk : Chunk} {outcome : Except ExecutionError Scalar × Vm} {c d : Config}

theorem runsAs_of_ends {whole : Chunk} {pieces : List Chunk}
    (ends : ∀ outcome, vm.Ends whole outcome ↔ vm.EndsEach pieces outcome) : vm.RunsAs whole pieces where
  ends := ends
  never := by
    have none_iff (run : Nat → Option (Except ExecutionError Scalar × Vm)) :
        (∀ patience, run patience = none) ↔ ∀ outcome, ¬∃ patience, run patience = some outcome := by
      simp only [Option.eq_none_iff_forall_ne_some, not_exists]
      exact forall_comm
    rw [none_iff, none_iff]
    exact forall_congr' fun outcome => not_congr (ends outcome)

/-- A run leaves the step limit of the machine as it is. -/
theorem Ends.stepLimit_eq (ends : vm.Ends chunk outcome) : outcome.2.stepLimit = vm.stepLimit := by
  obtain ⟨patience, ran⟩ := ends
  simp only [Vm.run, Vm.execute] at ran
  repeat' split at ran
  all_goals cases ran
  all_goals rfl

/-- More patience does not change what has come to an end. -/
theorem run_mono {n m : Nat} (ran : vm.run n chunk = some outcome) (more : n ≤ m) :
    vm.run m chunk = some outcome := by
  cases valid : chunk.validate with
  | error fault => simpa only [Vm.run, valid] using ran
  | ok =>
    simp only [Vm.run, valid, Vm.execute] at ran ⊢
    cases limit : vm.stepLimit with
    | none =>
      simp only [limit] at ran ⊢
      rwa [Chunk.runFor_mono (fun last cut => by simp [cut] at ran) more]
    | some bound =>
      by_cases reached : bound ≤ n
      · have later : bound ≤ m := Nat.le_trans reached more
        simp only [limit, Nat.min_eq_left reached, if_pos reached] at ran
        simpa only [limit, Nat.min_eq_left later, if_pos later] using ran
      · have steps : n ≤ min bound m := by omega
        simp only [limit, Nat.min_eq_right (Nat.le_of_not_le reached), if_neg reached] at ran ⊢
        rw [Chunk.runFor_mono (fun last cut => by simp [cut] at ran) steps]
        cases progress : chunk.runFor vm.functions n vm.start with
        | cut last => simp [progress] at ran
        | _ => simpa [progress] using ran

theorem runEach_cons {rest : List Chunk} (more : rest ≠ []) (patience : Nat) :
    vm.runEach patience (chunk :: rest) = match vm.run patience chunk with
      | some (.ok _, next) => next.runEach patience rest
      | stopped => stopped := by
  cases rest with
  | nil => exact absurd rfl more
  | cons => rfl

theorem runEach_mono {chunks : List Chunk} {n m : Nat} (ran : vm.runEach n chunks = some outcome)
    (more : n ≤ m) : vm.runEach m chunks = some outcome := by
  induction chunks generalizing vm with
  | nil => exact ran
  | cons chunk rest ih =>
    by_cases single : rest = []
    · subst single
      exact run_mono ran more
    · rw [runEach_cons single] at ran ⊢
      cases first : vm.run n chunk with
      | none => simp [first] at ran
      | some ended =>
        rw [run_mono first more]
        rw [first] at ran
        obtain ⟨error | value, next⟩ := ended
        · exact ran
        · exact ih ran

theorem endsEach_singleton : vm.EndsEach [chunk] outcome ↔ vm.Ends chunk outcome := Iff.rfl

/-- The first chunk fails, or what comes of the others comes of all. -/
theorem endsEach_cons {rest : List Chunk} (more : rest ≠ []) :
    vm.EndsEach (chunk :: rest) outcome ↔
      (∃ error last, vm.Ends chunk (.error error, last) ∧ outcome = (.error error, last)) ∨
      ∃ value next, vm.Ends chunk (.ok value, next) ∧ next.EndsEach rest outcome := by
  constructor
  · rintro ⟨n, ran⟩
    rw [runEach_cons more] at ran
    cases first : vm.run n chunk with
    | none => simp [first] at ran
    | some ended =>
      rw [first] at ran
      obtain ⟨error | value, next⟩ := ended
      · exact .inl ⟨error, next, ⟨n, first⟩, (Option.some.inj ran).symm⟩
      · exact .inr ⟨value, next, ⟨n, first⟩, n, ran⟩
  · rintro (⟨error, last, ⟨n, first⟩, rfl⟩ | ⟨value, next, ⟨n, first⟩, m, later⟩)
    · exact ⟨n, by rw [runEach_cons more, first]⟩
    · -- Each run has had a patience of its own; the larger one is enough for both.
      refine ⟨max n m, ?_⟩
      rw [runEach_cons more, run_mono first (Nat.le_max_left n m)]
      exact runEach_mono later (Nat.le_max_right n m)

/-- What a run leaves that has come this far, if it has ended. -/
def ending? (vm : Vm) : Progress → Option (Except ExecutionError Scalar × Vm)
  | .finished last => some (.ok last.result, vm.after last)
  | .failed error last => some (.error error, vm.after last)
  | .cut _ => none

theorem run_of_unlimited (unlimited : vm.stepLimit = none) (valid : chunk.validate = .ok ())
    (patience : Nat) :
    vm.run patience chunk = vm.ending? (chunk.runFor vm.functions patience vm.start) := by
  simp only [Vm.run, valid, Vm.execute, unlimited]
  cases chunk.runFor vm.functions patience vm.start <;> rfl

/-- From a state in the middle of a run on. -/
def EndsFrom (vm : Vm) (chunk : Chunk) (c : Config) (outcome : Except ExecutionError Scalar × Vm) :
    Prop :=
  ∃ n, vm.ending? (chunk.runFor vm.functions n c) = some outcome

theorem ends_iff (unlimited : vm.stepLimit = none) (valid : chunk.validate = .ok ()) :
    vm.Ends chunk outcome ↔ vm.EndsFrom chunk vm.start outcome := by
  simp only [Ends, EndsFrom, run_of_unlimited unlimited valid]

/-- It does not matter from where on the way to its end a run is looked at. -/
theorem endsFrom_iff_of_reaches (reaches : chunk.Reaches vm.functions c d) :
    vm.EndsFrom chunk c outcome ↔ vm.EndsFrom chunk d outcome := by
  constructor
  · rintro ⟨n, ended⟩
    obtain ⟨last, cut⟩ | ⟨left, _, same⟩ := reaches.runFor_cases n
    · simp [cut, ending?] at ended
    · exact ⟨left, by rwa [← same]⟩
  · rintro ⟨n, ended⟩
    obtain ⟨k, later⟩ := reaches.runFor
    exact ⟨k + n, by rwa [later]⟩

theorem start_moved (distance : Nat) :
    vm.start.moved distance = ⟨distance, [], vm.globals, vm.clock⟩ := by
  simp [start, Config.moved]

theorem endsFrom_halt (halt : chunk.code[c.index]? = some .halt) :
    vm.EndsFrom chunk c outcome ↔ outcome = (.ok c.result, vm.after c) := by
  constructor
  · rintro ⟨n, ended⟩
    cases n with
    | zero => simp [Chunk.runFor_zero halt, ending?] at ended
    | succ n =>
      rw [Chunk.runFor_succ_halt halt] at ended
      exact (Option.some.inj ended).symm
  · rintro rfl
    exact ⟨1, by rw [Chunk.runFor_succ_halt halt]; rfl⟩

theorem ending?_moved (distance : Nat) (progress : Progress) :
    vm.ending? (progress.moved distance) = vm.ending? progress := by
  cases progress <;> rfl

/-- What a machine was before does not show in what it becomes, but for what a run cannot change. -/
theorem endsFrom_after (last : Config) :
    (vm.after last).EndsFrom chunk c outcome ↔ vm.EndsFrom chunk c outcome := by
  have same (progress : Progress) : (vm.after last).ending? progress = vm.ending? progress := by
    cases progress <;> rfl
  simp only [EndsFrom, same]
  exact Iff.rfl

theorem endsFrom_ok_iff {value : Scalar} {next : Vm} : vm.EndsFrom chunk c (.ok value, next) ↔
    ∃ last, chunk.Finishes vm.functions c last ∧ value = last.result ∧ next = vm.after last := by
  constructor
  · rintro ⟨n, ended⟩
    cases progress : chunk.runFor vm.functions n c with
    | finished last =>
      simp only [progress, ending?, Option.some.injEq, Prod.mk.injEq, Except.ok.injEq] at ended
      exact ⟨last, ⟨n, progress⟩, ended.1.symm, ended.2.symm⟩
    | failed error last => simp [progress, ending?] at ended
    | cut last => simp [progress, ending?] at ended
  · rintro ⟨last, ⟨n, finished⟩, rfl, rfl⟩
    exact ⟨n, by rw [finished]; rfl⟩

end Vm

/-! ## Runs of a chunk inside another -/

namespace Chunk

variable {vm : Vm} {whole part first second : Chunk} {distance middle : Nat} {c : Config}
  {outcome : Except ExecutionError Scalar × Vm}

/-- A run of the whole in the code of a part fails if that of the part does, and goes on from where the
part finishes. -/
theorem Carries.endsFrom_iff (carries : whole.Carries part distance) (leveled : part.Leveled)
    (here : part.AtHeight c) :
    vm.EndsFrom whole (c.moved distance) outcome ↔
      (∃ error last, vm.EndsFrom part c (.error error, last) ∧ outcome = (.error error, last)) ∨
      ∃ last, part.Finishes vm.functions c last ∧
        vm.EndsFrom whole (last.moved distance) outcome := by
  constructor
  · rintro ⟨n, ended⟩
    obtain ⟨last, finished, reaches⟩ | ⟨unfinished, same⟩ := carries.runFor_cases leveled here n
    · exact .inr ⟨last, ⟨n, finished⟩, (Vm.endsFrom_iff_of_reaches reaches).1 ⟨n, ended⟩⟩
    · rw [same, Vm.ending?_moved] at ended
      cases progress : part.runFor vm.functions n c with
      | finished last => exact absurd progress (unfinished last)
      | failed error last =>
        rw [progress] at ended
        exact .inl ⟨error, vm.after last, ⟨n, by rw [progress]; rfl⟩, (Option.some.inj ended).symm⟩
      | cut last => simp [progress, Vm.ending?] at ended
  · rintro (⟨error, last, ⟨n, ended⟩, rfl⟩ | ⟨last, ⟨n, finished⟩, ended⟩)
    · obtain ⟨other, finished, _⟩ | ⟨_, same⟩ := carries.runFor_cases leveled here n
      · rw [finished] at ended
        cases ended
      · exact ⟨n, by rw [same, Vm.ending?_moved, ended]⟩
    · obtain ⟨other, finished', reaches⟩ | ⟨unfinished, _⟩ := carries.runFor_cases leveled here n
      · cases finished.symm.trans finished'
        exact (Vm.endsFrom_iff_of_reaches reaches).2 ended
      · exact absurd finished (unfinished last)

/-- The whole does what the first chunk does and then, from the index `middle` on and with an empty stack,
what the second does. -/
structure Joins (whole first second : Chunk) (middle : Nat) : Prop where
  front : whole.Carries first 0
  between : ∀ (functions : NameMap HostFunction) (last : Config), first.AtHeight last →
    first.code[last.index]? = some .halt →
    whole.Reaches functions last ⟨middle, [], last.globals, last.clock⟩
  back : whole.Carries second middle
  halts : ∀ index : Nat, second.code[index]? = some .halt → whole.code[index + middle]? = some .halt

namespace Joins

theorem endsFrom_middle (joins : whole.Joins first second middle) (leveled : second.Leveled) (vm : Vm) :
    vm.EndsFrom whole (vm.start.moved middle) outcome ↔ vm.EndsFrom second vm.start outcome := by
  rw [joins.back.endsFrom_iff leveled (leveled.start vm)]
  constructor
  · rintro (⟨error, last, ended, rfl⟩ | ⟨last, finishes, ended⟩)
    · exact ended
    · have halt := joins.halts _ (leveled.finishes (leveled.start vm) finishes).2
      rw [(Vm.endsFrom_halt (c := last.moved middle) halt).1 ended]
      exact Vm.endsFrom_ok_iff.2 ⟨last, finishes, rfl, rfl⟩
  · intro ended
    obtain ⟨error | value, next⟩ := outcome
    · exact .inl ⟨error, next, ended, rfl⟩
    · obtain ⟨last, finishes, rfl, rfl⟩ := Vm.endsFrom_ok_iff.1 ended
      have halt := joins.halts _ (leveled.finishes (leveled.start vm) finishes).2
      exact .inr ⟨last, finishes, (Vm.endsFrom_halt (c := last.moved middle) halt).2 rfl⟩

theorem endsFrom_start (joins : whole.Joins first second middle) (leveled : first.Leveled)
    (leveled' : second.Leveled) :
    vm.EndsFrom whole vm.start outcome ↔
      (∃ error last, vm.EndsFrom first vm.start (.error error, last) ∧ outcome = (.error error, last)) ∨
      ∃ value next, vm.EndsFrom first vm.start (.ok value, next) ∧
        next.EndsFrom second next.start outcome := by
  have goesOn (last : Config) (finishes : first.Finishes vm.functions vm.start last) :
      vm.EndsFrom whole last outcome ↔
        (vm.after last).EndsFrom second (vm.after last).start outcome := by
    obtain ⟨there, halt⟩ := leveled.finishes (leveled.start vm) finishes
    rw [← joins.endsFrom_middle leveled', Vm.endsFrom_after, Vm.start_moved]
    exact Vm.endsFrom_iff_of_reaches (joins.between vm.functions last there halt)
  refine (joins.front.endsFrom_iff leveled (leveled.start vm)).trans ?_
  simp only [Config.moved_zero]
  constructor
  · rintro (failed | ⟨last, finishes, ended⟩)
    · exact .inl failed
    · exact .inr ⟨last.result, vm.after last, Vm.endsFrom_ok_iff.2 ⟨last, finishes, rfl, rfl⟩,
        (goesOn last finishes).1 ended⟩
  · rintro (failed | ⟨value, next, ended, later⟩)
    · exact .inl failed
    · obtain ⟨last, finishes, rfl, rfl⟩ := Vm.endsFrom_ok_iff.1 ended
      exact .inr ⟨last, finishes, (goesOn last finishes).2 later⟩

end Joins

end Chunk

/-! ## The code of two programs -/

/-- In front of other statements, all statements of a program leave the stack as they found it. -/
theorem ProgramCode.split {loads : Nat → Literal → Prop} {base : Nat} {p q : Program}
    {code : List Instr} (more : q ≠ []) (made : ProgramCode loads base (p ++ q) code) :
    ∃ front back, code = front ++ back ∧ BlockCode loads base p front ∧
      ProgramCode loads (base + front.length) q back := by
  induction p generalizing base code with
  | nil => exact ⟨[], code, rfl, .nil, made⟩
  | cons s rest ih =>
    have behind : rest ++ q ≠ [] := by simp [more]
    rw [List.cons_append] at made
    generalize rest ++ q = others at made behind ih
    cases made with
    | last => exact absurd rfl behind
    | @cons _ _ _ code _ _ first later =>
      obtain ⟨front, back, rfl, block, program⟩ := ih later
      refine ⟨code ++ front, back, (List.append_assoc ..).symm, .cons first block, ?_⟩
      rwa [List.length_append, ← Nat.add_assoc]

/-- The instruction that takes the value of a program off the stack, if there is one. -/
def Program.cleanup (p : Program) : List Instr := if p.endsInExpression then [.pop] else []

theorem Program.cleanup_cons {s : Stmt} {rest : Program} (more : rest ≠ []) :
    Program.cleanup (s :: rest) = rest.cleanup := by
  rw [Program.cleanup, Program.endsInExpression_cons more, Program.cleanup]

/-- By itself, a program keeps the value that it drops in front of other statements. -/
theorem ProgramCode.moved_block {part whole : Chunk} {base base' distance : Nat} {p : Program}
    {code code' : List Instr} (made : ProgramCode part.Loads base p code)
    (made' : BlockCode whole.Loads base' p code') (eq : base' = base + distance) :
    ∃ front, code' = front ++ p.cleanup ∧
      MovedCode distance part.constants whole.constants code front := by
  induction made generalizing base' code' with
  | nil =>
    cases made' with
    | nil => exact ⟨[], rfl, .nil⟩
  | @last _ s _ made =>
    cases made' with
    | cons made' rest =>
      cases rest with
      | nil =>
        cases s with
        | expression value =>
          -- Here alone the two differ, by the instruction that drops the value.
          cases made with
          | kept value =>
            cases made' with
            | @dropped _ _ front value' =>
              exact ⟨front, List.append_nil _, value.moved value'⟩
        | _ => exact ⟨_, rfl, (made.dropped_of_ne nofun).moved made' eq⟩
  | cons more first _ ih =>
    cases made' with
    | @cons _ _ _ code' _ first' rest' =>
      have lengths := first.length_eq.trans first'.length_eq.symm
      obtain ⟨front, rfl, moved⟩ := ih rest' (by omega)
      refine ⟨code' ++ front, ?_, (first.moved first' eq).append moved⟩
      rw [Program.cleanup_cons more, List.append_assoc]

/-- The chunk of a program: the code of the statements, which loads the very literals, and `halt`. -/
structure Chunk.Of (chunk : Chunk) (p : Program) (code : List Instr) : Prop where
  code_eq : chunk.code = (code ++ [Instr.halt]).toArray
  made : ProgramCode chunk.Loads 0 p code
  valid : chunk.validate = .ok ()

namespace Chunk.Of

variable {chunk first second whole : Chunk} {p q : Program} {code code' : List Instr}

theorem leveled (of : chunk.Of p code) : chunk.Leveled := by
  obtain ⟨_, constants⟩ := chunk
  obtain ⟨rfl, made, _⟩ := of
  exact made.disciplined.leveled

theorem index_of_halt (of : chunk.Of p code) {index : Nat} (halt : chunk.code[index]? = some .halt) :
    index = code.length := by
  rw [of.code_eq, List.getElem?_toArray, List.getElem?_append] at halt
  split at halt
  · have moved : MovedCode 0 chunk.constants chunk.constants code code := of.made.moved of.made rfl
    obtain ⟨_, _, none⟩ := moved.getElem? halt
    cases none
  · have bound := (List.getElem?_eq_some_iff.1 halt).1
    rw [List.length_singleton] at bound
    omega

/-- A program halts with its value on the stack, if it has one. -/
theorem length_stack (of : chunk.Of p code) {c : Config} (here : chunk.AtHeight c)
    (halt : chunk.code[c.index]? = some .halt) : c.stack.length = p.cleanup.length := by
  have height := here.2
  rw [of.index_of_halt halt, Chunk.height, of.code_eq, List.take_left,
    of.made.disciplined.ends] at height
  rw [height, Program.cleanup]
  cases p.endsInExpression <;> rfl

/-- Taking the value of a program off the stack leaves nothing. -/
theorem reaches_cleanup (of : chunk.Of p code) {functions : NameMap HostFunction} {c : Config}
    (here : chunk.AtHeight c) (halt : chunk.code[c.index]? = some .halt)
    (next : whole.CodeAt c.index p.cleanup) :
    whole.Reaches functions c ⟨c.index + p.cleanup.length, [], c.globals, c.clock⟩ := by
  have height := of.length_stack here halt
  rw [Program.cleanup] at height next ⊢
  by_cases keeps : p.endsInExpression
  · rw [if_pos keeps] at height next ⊢
    obtain ⟨value, stack⟩ := List.length_eq_one_iff.1 height
    exact .one (codeAt_cons.1 next).1 (Config.dispatch_pop stack)
  · rw [if_neg keeps] at height ⊢
    obtain ⟨index, stack, globals, clock⟩ := c
    obtain rfl : stack = [] := List.length_eq_zero_iff.1 height
    exact .refl _

/-- The chunk of two programs does what the chunks of the two do. -/
theorem joins {wholeCode : List Instr} (of : first.Of p code) (of' : second.Of q code')
    (both : whole.Of (p ++ q) wholeCode) (more : q ≠ []) : ∃ middle, whole.Joins first second middle := by
  obtain ⟨block, back, rfl, blockMade, backMade⟩ := both.made.split more
  obtain ⟨front, rfl, moved⟩ : ∃ front, block = front ++ p.cleanup ∧
      MovedCode 0 first.constants whole.constants code front := of.made.moved_block blockMade rfl
  have moved' : MovedCode (front ++ p.cleanup).length second.constants whole.constants code' back :=
    of'.made.moved backMade rfl
  have all : whole.CodeAt 0 (front ++ (p.cleanup ++ (back ++ [.halt]))) := by
    simpa only [List.append_assoc] using codeAt_of_eq both.code_eq
  obtain ⟨_, behind⟩ := codeAt_append.1 all
  obtain ⟨cleanup, last⟩ := codeAt_append.1 behind
  rw [Nat.zero_add] at cleanup
  rw [Nat.zero_add, ← List.length_append] at last
  refine ⟨(front ++ p.cleanup).length, ?_, fun functions c here halts => ?_, ?_, fun index halts => ?_⟩
  · obtain ⟨next, rest, eq⟩ : ∃ next rest, p.cleanup ++ (back ++ [Instr.halt]) = next :: rest :=
      List.exists_cons_of_ne_nil (by simp)
    rw [eq, List.append_cons, codeAt_append] at all
    exact carries_of_moved of.code_eq moved all.1
  · have index := (of.index_of_halt halts).trans moved.length_eq
    rw [List.length_append, ← index]
    rw [← index] at cleanup
    exact of.reaches_cleanup here halts cleanup
  · exact carries_of_moved of'.code_eq moved' last
  · rw [of'.index_of_halt halts, moved'.length_eq, Nat.add_comm]
    exact last back.length .halt (by simp)

theorem ends_iff {wholeCode : List Instr} {vm : Vm} {outcome : Except ExecutionError Scalar × Vm}
    (of : first.Of p code) (of' : second.Of q code') (both : whole.Of (p ++ q) wholeCode) (more : q ≠ [])
    (unlimited : vm.stepLimit = none) :
    vm.Ends whole outcome ↔
      (∃ error last, vm.Ends first (.error error, last) ∧ outcome = (.error error, last)) ∨
      ∃ value next, vm.Ends first (.ok value, next) ∧ next.Ends second outcome := by
  obtain ⟨middle, joins⟩ := of.joins of' both more
  rw [Vm.ends_iff unlimited both.valid, joins.endsFrom_start of.leveled of'.leveled]
  simp only [← Vm.ends_iff unlimited of.valid]
  refine or_congr_right (exists₂_congr fun value next => and_congr_right fun ended => ?_)
  exact (Vm.ends_iff (ended.stepLimit_eq.trans unlimited) of'.valid).symm

end Chunk.Of

/-! ## Programs -/

/-- Stack code is generated for the program, and a text can spell it. -/
def Program.Ready (p : Program) : Prop := ∀ n ∈ p.nodes, n.HasStackCode ∧ n.Spelled

namespace Program

variable {p q : Program} {chunk : Chunk}

theorem ready_append : Ready (p ++ q) ↔ p.Ready ∧ q.Ready := by
  simp only [Ready, Program.nodes, Stmt.all_nodesAll, List.forall_mem_append]

theorem ready_of_parsed {source : String} (parsed : parseProgram source = .ok p)
    (generated : p.generate = .ok chunk) : p.Ready := by
  intro n member
  constructor
  · obtain ⟨all, _⟩ | ⟨_, kind, failed⟩ := p.generate_cases
    · exact all n member
    · cases generated.symm.trans failed
  · unfold Node.Spelled
    split
    · exact parseProgram_spelled parsed member
    · trivial

theorem Ready.of (ready : p.Ready) (generated : p.generate = .ok chunk) : ∃ code, chunk.Of p code := by
  obtain ⟨code, eq, made, valid⟩ := p.generate_loads (fun _ member => (ready _ member).2) generated
  exact ⟨code, eq, made, valid⟩

theorem Ready.generate (ready : p.Ready) : ∃ chunk, p.generate = .ok chunk := by
  obtain ⟨_, made⟩ | ⟨some, _⟩ := p.generate_cases
  · exact made
  · exact absurd (fun n member => (ready n member).1) some

/-- One statement at a time. -/
theorem Ready.lines (ready : p.Ready) (some : p ≠ []) (generated : p.generate = .ok chunk) :
    ∃ lines, List.Forall₂ (fun s line => Program.generate [s] = .ok line) p lines ∧
      ∀ vm : Vm, vm.stepLimit = none → ∀ outcome, vm.Ends chunk outcome ↔ vm.EndsEach lines outcome := by
  induction p generalizing chunk with
  | nil => exact absurd rfl some
  | cons s rest ih =>
    by_cases last : rest = []
    · subst last
      exact ⟨[chunk], .cons generated .nil, fun vm _ outcome => Vm.endsEach_singleton.symm⟩
    · obtain ⟨ready₁, ready₂⟩ := ready_append.1 (show Ready ([s] ++ rest) from ready)
      obtain ⟨first, generated₁⟩ := ready₁.generate
      obtain ⟨second, generated₂⟩ := ready₂.generate
      obtain ⟨_, of₁⟩ := ready₁.of generated₁
      obtain ⟨_, of₂⟩ := ready₂.of generated₂
      obtain ⟨_, both⟩ := ready.of generated
      obtain ⟨lines, generatedEach, same⟩ := ih ready₂ last generated₂
      have more : lines ≠ [] := by
        rintro rfl
        cases generatedEach
        exact last rfl
      refine ⟨first :: lines, .cons generated₁ generatedEach, fun vm unlimited outcome => ?_⟩
      rw [of₁.ends_iff of₂ both last unlimited, Vm.endsEach_cons more]
      refine or_congr_right (exists₂_congr fun value next => and_congr_right fun ended => ?_)
      exact same next (ended.stepLimit_eq.trans unlimited) outcome

end Program

/-- A machine without a step limit runs two programs together as it runs one and then, unless that fails,
the other: it comes to the same value or error with the same variables, or to no end.  So it also runs
them as it runs their statements line by line. -/
theorem Program.runs_in_pieces {source source' : String} {p q : Program} {first second : Chunk}
    (parsed : parseProgram source = .ok p) (parsed' : parseProgram source' = .ok q) (more : q ≠ [])
    (generated : p.generate = .ok first) (generated' : q.generate = .ok second) :
    ∃ whole lines, Program.generate (p ++ q) = .ok whole ∧
      List.Forall₂ (fun s line => Program.generate [s] = .ok line) (p ++ q) lines ∧
      ∀ vm : Vm, vm.stepLimit = none →
        vm.RunsAs whole [first, second] ∧ vm.RunsAs whole lines := by
  have ready := ready_of_parsed parsed generated
  have ready' := ready_of_parsed parsed' generated'
  have both := ready_append.2 ⟨ready, ready'⟩
  obtain ⟨whole, generatedBoth⟩ := both.generate
  obtain ⟨_, of⟩ := ready.of generated
  obtain ⟨_, of'⟩ := ready'.of generated'
  obtain ⟨_, ofBoth⟩ := both.of generatedBoth
  obtain ⟨lines, generatedEach, same⟩ := both.lines (by simp [more]) generatedBoth
  refine ⟨whole, lines, generatedBoth, generatedEach, fun vm unlimited => ⟨?_, ?_⟩⟩
  · refine Vm.runsAs_of_ends fun outcome => ?_
    rw [of.ends_iff of' ofBoth more unlimited, Vm.endsEach_cons (List.cons_ne_nil second [])]
    simp only [Vm.endsEach_singleton]
  · exact Vm.runsAs_of_ends (same vm unlimited)

set_option maxRecDepth 4000 in
/-- The value of the first text is dropped, and the loop of the second has other constants and stands
elsewhere in the code of both. -/
theorem Program.runs_in_pieces_of_loop : ∃ (p q : Program) (first second whole : Chunk) (lines : List Chunk),
    parseProgram "let x = true; x" = .ok p ∧
      parseProgram "while (x) \x7b x = false; \x7d x" = .ok q ∧ q ≠ [] ∧
      p.generate = .ok first ∧ q.generate = .ok second ∧ Program.generate (p ++ q) = .ok whole ∧
      (Vm.new none).RunsAs whole [first, second] ∧ (Vm.new none).RunsAs whole lines ∧
      ∃ last, (Vm.new none).Ends whole (.ok (.boolean false), last) ∧
        last.globals.get? "x" = some (.boolean false) := by
  have parsed : parseProgram "let x = true; x" =
      .ok [.declare .letD "x" (.literal (.boolean true)), .expression (.identifier "x")] := by cbv
  have parsed' : parseProgram "while (x) \x7b x = false; \x7d x" =
      .ok [.whileLoop (.identifier "x") [.expression (.assign .assign "x" (.literal (.boolean false)))],
        .expression (.identifier "x")] := by cbv
  have generated : Program.generate
      [.declare .letD "x" (.literal (.boolean true)), .expression (.identifier "x")] =
      .ok ⟨#[.loadConst 0, .storeVar "x", .loadVar "x", .halt], #[.boolean true]⟩ := by cbv
  have generated' : Program.generate
      [.whileLoop (.identifier "x") [.expression (.assign .assign "x" (.literal (.boolean false)))],
        .expression (.identifier "x")] =
      .ok ⟨#[.loadVar "x", .jumpIfFalse 7, .loadConst 0, .dup, .storeVar "x", .pop, .jump 0,
        .loadVar "x", .halt], #[.boolean false]⟩ := by cbv
  obtain ⟨whole, lines, both, _, runs⟩ :=
    Program.runs_in_pieces parsed parsed' (List.cons_ne_nil _ _) generated generated'
  obtain ⟨pieces, each⟩ := runs (Vm.new none) rfl
  exact ⟨_, _, _, _, whole, lines, parsed, parsed', List.cons_ne_nil _ _, generated, generated', both,
    pieces, each, _, (pieces.ends _).2 ⟨20, rfl⟩, rfl⟩

end TinyScript
