import TinyScript.Proofs.Typing.Session
import TinyScript.Session

/-! # Sessions retain no garbage

If garbage is collected after every script, then after every call of a session each object on the heap
can be reached from a global name, and texts of values are made before their objects may be freed
(`session_retains_no_garbage`).

What a script leaves behind on the heap does not matter for this, be it that the script has failed in
the middle of a call: `Session.execute_cases` says that a script changes the interpreter only by a run,
and that a run is followed by a collection whether or not it has a value.
-/

namespace TinyScript

/-! ## Interpreters -/

namespace Interpreter

/-- Every object on the heap can be reached from a global name. -/
def NoGarbage (i : Interpreter) : Prop :=
  ∀ a, i.world.heap.contains a = true → i.world.heap.Reaches (Env.roots [i.global]) a

variable {i : Interpreter}

/-- There is nothing on the heap but the cells of the libraries. -/
theorem noGarbage_new : Interpreter.new.NoGarbage := by
  have cells : ∀ a ∈ Interpreter.new.world.heap.liveHandles, a ∈ Env.roots [Interpreter.new.global] := by
    decide
  intro a live
  exact .root (cells a (Heap.mem_liveHandles.2 live)) live

theorem Typed.noGarbage_collectGarbage (typed : i.Typed) : i.collectGarbage.2.NoGarbage := by
  intro a live
  have wf := typed.heap.wellFormed
  have reached := ((Heap.contains_collect wf (Env.roots [i.global]) a).1 live).2
  exact Heap.reaches_collect wf reached

/-- Where there is no garbage, the objects are those that can be reached. -/
theorem NoGarbage.liveObjects (noGarbage : i.NoGarbage) (typed : i.Typed) :
    ∃ objects : Finset Handle,
      (∀ a, a ∈ objects ↔ i.world.heap.Reaches (Env.roots [i.global]) a) ∧
      i.liveObjects = objects.card := by
  refine ⟨i.world.heap.liveHandles.toFinset, fun a => ?_, ?_⟩
  · rw [List.mem_toFinset, Heap.mem_liveHandles]
    exact ⟨noGarbage a, Heap.Reaches.contains⟩
  · rw [List.toFinset_card_of_nodup (Heap.nodup_liveHandles _),
      Heap.length_liveHandles typed.heap.wellFormed.toFreeListExact]
    rfl

end Interpreter

/-! ## Calls -/

namespace Session

/-- What can be asked of a session. -/
inductive Call where
  | execute (patience : Nat) (source : String)
  | setBackend (backend : Backend)
  /-- Load a module from the files as they are then. -/
  | loadModule (patience : Nat) (view : FileView) (path : String)
  | setStepLimit (limit : Option Nat)
  | collectGarbage
  /-- Let time pass. -/
  | setClock (clock : Clock)

/-- The session after a call, unless the call is not done within its patience. -/
def after? (s : Session) : Call → Option Session
  | .execute patience source => (s.execute patience source).map (·.2)
  | .setBackend backend => some (s.setBackend backend)
  | .loadModule patience view path => (s.loadModule patience view path).map (·.2)
  | .setStepLimit limit => some (s.setStepLimit limit)
  | .collectGarbage => some s.collectGarbage.2
  | .setClock clock => some (s.setClock clock)

/-- The session after calls, one after the other. -/
def afterAll? (s : Session) : List Call → Option Session
  | [] => some s
  | call :: rest => (s.after? call).bind (·.afterAll? rest)

variable {s s' : Session} {patience : Nat}

/-- On the evaluator, a program is run, its value is shown, and the collection follows. -/
theorem runTree_cases {p : Program} {result : Except Failure Shown}
    (ran : s.runTree patience p = some (result, s')) :
    ∃ answer i, s.interpreter.run patience p = some (answer, i) ∧ s' = { s with interpreter := i }.tidy ∧
      ∀ shown, result = .ok shown → ∃ value, answer = .ok value ∧ shown.text = i.display value := by
  cases outcome : s.interpreter.run patience p with
  | none => simp [runTree, outcome] at ran
  | some after =>
    obtain ⟨answer, i⟩ := after
    refine ⟨answer, i, rfl, ?_⟩
    cases answer with
    | ok value =>
      simp only [runTree, outcome] at ran
      cases ran
      exact ⟨rfl, fun shown eq => ⟨value, rfl, by cases eq; rfl⟩⟩
    | error error =>
      simp only [runTree, outcome] at ran
      cases ran
      exact ⟨rfl, fun shown eq => by cases eq⟩

/-- On the stack machine, a chunk is run and nothing else changes. -/
theorem runChunk_cases {chunk : Chunk} {result : Except Failure Shown}
    (ran : s.runChunk patience chunk = some (result, s')) :
    ∃ answer vm, s.vm.run patience chunk = some (answer, vm) ∧ s' = { s with vm } ∧
      ∀ shown, result = .ok shown → ∃ value, answer = .ok value ∧ shown.text = value.text := by
  cases outcome : s.vm.run patience chunk with
  | none => simp [runChunk, outcome] at ran
  | some after =>
    obtain ⟨answer, vm⟩ := after
    refine ⟨answer, vm, rfl, ?_⟩
    cases answer with
    | ok value =>
      simp only [runChunk, outcome] at ran
      cases ran
      exact ⟨rfl, fun shown eq => ⟨value, rfl, by cases eq; rfl⟩⟩
    | error error =>
      simp only [runChunk, outcome] at ran
      cases ran
      exact ⟨rfl, fun shown eq => by cases eq⟩

/-- What a script can do: it fails before it runs, it is run by the evaluator, which is followed by a
collection, or it is run as stack code. -/
theorem execute_cases {source : String} {x : Execution}
    (executed : s.execute patience source = some (x, s')) :
    (s' = s ∧ ∃ failure, x.result = .error failure) ∨
    (s.settings.backend = .tree ∧ ∃ p result i, parseProgram source = .ok p ∧
      s.interpreter.run patience p = some (result, i) ∧ s' = { s with interpreter := i }.tidy ∧
      ∀ shown, x.result = .ok shown → ∃ value, result = .ok value ∧ shown.text = i.display value) ∨
    (s.settings.backend = .bytecode ∧ ∃ p chunk result vm, parseProgram source = .ok p ∧
      p.generate = .ok chunk ∧ s.vm.run patience chunk = some (result, vm) ∧ s' = { s with vm } ∧
      ∀ shown, x.result = .ok shown → ∃ value, result = .ok value ∧ shown.text = value.text) := by
  unfold execute at executed
  split at executed
  · cases executed
    exact .inl ⟨rfl, _, rfl⟩
  · split at executed
    · cases executed
      exact .inl ⟨rfl, _, rfl⟩
    · next p parsed =>
      simp only [runProgram] at executed
      split at executed
      · next tree =>
        split at executed
        · cases executed
        · next result after ran =>
          cases executed
          obtain ⟨answer, i, run, tidied, shows⟩ := runTree_cases ran
          exact .inr (.inl ⟨tree, p, answer, i, parsed, run, tidied, shows⟩)
      · next bytecode =>
        split at executed
        · cases executed
          exact .inl ⟨rfl, _, rfl⟩
        · next chunk generated =>
          split at executed
          · cases executed
          · next result after ran =>
            cases executed
            obtain ⟨answer, vm, run, changed, shows⟩ := runChunk_cases ran
            exact .inr (.inr ⟨bytecode, p, chunk, answer, vm, parsed, generated, run, changed, shows⟩)

/-- Loading a module concerns nothing but the modules. -/
theorem loadModule_cases {view : FileView} {path : String} {result : Except Failure Shown}
    (loaded : s.loadModule patience view path = some (result, s')) :
    ∃ answer modules, s.modules.load patience s.clock view path = some (answer, modules) ∧
      s' = { s with modules } ∧
      ∀ shown, result = .ok shown → ∃ module, answer = .ok module ∧ shown.text = module.text := by
  unfold loadModule at loaded
  split at loaded
  · cases loaded
  · next module modules answered =>
    cases loaded
    exact ⟨_, modules, answered, rfl, fun shown eq => ⟨module, rfl, by cases eq; rfl⟩⟩
  · next error modules answered =>
    cases loaded
    exact ⟨_, modules, answered, rfl, fun shown eq => by cases eq⟩

/-! ## Tidy sessions -/

/-- A session that collects garbage after every script, and has none now. -/
structure Tidy (s : Session) : Prop where
  collects : s.settings.collectAfterRun = true
  typed : s.interpreter.Typed
  noGarbage : s.interpreter.NoGarbage

theorem tidy_of_collects (collects : s.settings.collectAfterRun = true) (i : Interpreter) :
    { s with interpreter := i }.tidy = { s with interpreter := i.collectGarbage.2 } := by
  rw [tidy, if_pos collects]
  rfl

namespace Tidy

theorem new {settings : Settings} (collects : settings.collectAfterRun = true) :
    (Session.new settings).Tidy :=
  ⟨collects, .new, Interpreter.noGarbage_new⟩

theorem collected {i : Interpreter} (collects : s.settings.collectAfterRun = true) (typed : i.Typed) :
    Tidy { s with interpreter := i.collectGarbage.2 } :=
  ⟨collects, typed.collectGarbage, typed.noGarbage_collectGarbage⟩

theorem execute (tidy : s.Tidy) {source : String} {x : Execution}
    (executed : s.execute patience source = some (x, s')) : s'.Tidy := by
  rcases execute_cases executed with ⟨rfl, _⟩ | ⟨_, p, result, i, _, ran, rfl, _⟩ |
    ⟨_, _, _, _, vm, _, _, _, rfl, _⟩
  · exact tidy
  · rw [tidy_of_collects tidy.collects]
    exact collected tidy.collects (tidy.typed.run ran)
  · exact ⟨tidy.collects, tidy.typed, tidy.noGarbage⟩

theorem after (tidy : s.Tidy) {call : Call} (answered : s.after? call = some s') : s'.Tidy := by
  cases call with
  | execute patience source =>
    obtain ⟨⟨x, _⟩, executed, rfl⟩ := Option.map_eq_some_iff.1 answered
    exact tidy.execute executed
  | setBackend backend =>
    cases answered
    exact ⟨tidy.collects, tidy.typed, tidy.noGarbage⟩
  | loadModule patience view path =>
    obtain ⟨⟨result, _⟩, loaded, rfl⟩ := Option.map_eq_some_iff.1 answered
    obtain ⟨_, modules, _, rfl, _⟩ := loadModule_cases loaded
    exact ⟨tidy.collects, tidy.typed, tidy.noGarbage⟩
  | setStepLimit limit =>
    cases answered
    exact ⟨tidy.collects, tidy.typed, tidy.noGarbage⟩
  | collectGarbage =>
    cases answered
    exact collected tidy.collects tidy.typed
  | setClock clock =>
    cases answered
    exact ⟨tidy.collects, ⟨tidy.typed.table, tidy.typed.heap, tidy.typed.global⟩, tidy.noGarbage⟩

theorem afterAll (tidy : s.Tidy) {calls : List Call} (answered : s.afterAll? calls = some s') :
    s'.Tidy := by
  induction calls generalizing s with
  | nil =>
    cases answered
    exact tidy
  | cons call rest ih =>
    obtain ⟨middle, first, others⟩ := Option.bind_eq_some_iff.1 answered
    exact ih (tidy.after first) others

end Tidy

end Session

/-- After any calls of a session that collects garbage after every script, the objects on the heap of the
interpreter are those that can be reached from global names, and their number is as reported.  If a
script then has a value, the text that is shown for it is that of the value at the end of the run, before
the collection; the text of a module is that of its exports. -/
theorem session_retains_no_garbage (settings : Settings) (collects : settings.collectAfterRun = true)
    (calls : List Session.Call) {s : Session} (answered : (Session.new settings).afterAll? calls = some s) :
    (∃ objects : Finset Handle,
      (∀ a, a ∈ objects ↔ s.interpreter.world.heap.Reaches (Env.roots [s.interpreter.global]) a) ∧
      s.interpreter.liveObjects = objects.card) ∧
    (∀ patience source x s' shown, s.execute patience source = some (x, s') → x.result = .ok shown →
      ∃ p, parseProgram source = .ok p ∧
        match s.settings.backend with
        | .tree => ∃ value i, s.interpreter.run patience p = some (.ok value, i) ∧
            shown.text = i.display value ∧ s'.interpreter = i.collectGarbage.2
        | .bytecode => ∃ chunk value vm, p.generate = .ok chunk ∧
            s.vm.run patience chunk = some (.ok value, vm) ∧ shown.text = value.text ∧
            s'.interpreter = s.interpreter) ∧
    ∀ patience view path shown s', s.loadModule patience view path = some (.ok shown, s') →
      ∃ module, s.modules.load patience s.clock view path = some (.ok module, s'.modules) ∧
        shown.text = module.interpreter.display module.exports ∧ s'.interpreter = s.interpreter := by
  have tidy : s.Tidy := (Session.Tidy.new collects).afterAll answered
  refine ⟨tidy.noGarbage.liveObjects tidy.typed, ?_, ?_⟩
  · intro patience source x s' shown executed success
    rcases Session.execute_cases executed with ⟨_, failure, failed⟩ |
      ⟨tree, p, result, i, parsed, ran, rfl, shows⟩ |
      ⟨bytecode, p, chunk, result, vm, parsed, generated, ran, rfl, shows⟩
    · rw [failed] at success
      cases success
    · obtain ⟨value, rfl, text⟩ := shows shown success
      rw [tree, Session.tidy_of_collects tidy.collects]
      exact ⟨p, parsed, value, i, ran, text, rfl⟩
    · obtain ⟨value, rfl, text⟩ := shows shown success
      rw [bytecode]
      exact ⟨p, parsed, chunk, value, vm, generated, ran, text, rfl⟩
  · intro patience view path shown s' loaded
    obtain ⟨_, modules, loads, rfl, shows⟩ := Session.loadModule_cases loaded
    obtain ⟨module, rfl, text⟩ := shows shown rfl
    exact ⟨module, loads, text, rfl⟩

set_option maxRecDepth 4000 in
/-- An array that has a name when its script fails, one that has none, and a text that is no program. -/
theorem session_retains_no_garbage_on_failures : ∃ (s : Session) (objects : Finset Handle),
    (Session.new {}).afterAll? [.execute 40 "let a = [true]; a + b", .setBackend .bytecode,
      .execute 40 "let", .setBackend .tree, .execute 40 "[a, [a]]"] = some s ∧
    (∀ a, a ∈ objects ↔ s.interpreter.world.heap.Reaches (Env.roots [s.interpreter.global]) a) ∧
    objects.card = 6 := by
  have ran : ((Session.new {}).afterAll? [.execute 40 "let a = [true]; a + b", .setBackend .bytecode,
      .execute 40 "let", .setBackend .tree, .execute 40 "[a, [a]]"]).map
      (·.interpreter.liveObjects) = some 6 := by cbv
  obtain ⟨s, answered, live⟩ := Option.map_eq_some_iff.1 ran
  obtain ⟨⟨objects, exact, card⟩, _⟩ := session_retains_no_garbage {} rfl _ answered
  exact ⟨s, objects, answered, exact, card.symm.trans live⟩

end TinyScript
