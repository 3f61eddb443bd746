import Mathlib
import TinyScript.Modules

/-! # What loading a module gives

Files change while modules are loaded.  The files are any state whatever, with a `view` of it, and
change in any way between two loads; `Answer` records what each load was given.

* `firstLoaded`: the module that the first successful load of a file has given;
* `Consistent`: the modules at hand are those, one for each file that has been loaded;
* `modules_loaded_once`: what the next load gives, and what becomes of the modules.

The canonical name of a path is that of the time of the load: the same path may lead to another file
later, and another path to the same file.

`cbv` evaluates the example at the end, by equations of library functions that are spread over Mathlib.
-/

namespace TinyScript

theorem NameMap.size_insert_of_get?_eq_none {α : Type} {m : NameMap α} {name : String}
    (fresh : m.get? name = none) (value : α) : (m.insert name value).size = m.size + 1 := by
  obtain ⟨entries⟩ := m
  simp only [NameMap.get?, NameMap.size, NameMap.insert] at fresh ⊢
  induction entries with
  | nil => rfl
  | cons entry rest ih =>
    obtain ⟨key, old⟩ := entry
    rw [lookup_cons] at fresh
    split at fresh
    · cases fresh
    · next other =>
      rw [insertEntry, if_neg other]
      split
      · rfl
      · simp [ih fresh]

namespace Modules

/-! ## One load -/

section

variable {modules modules' : Modules} {patience : Nat} {clock : Clock} {view : FileView}
  {path name : String} {module : Module}

theorem canonical_eq_ok : canonical view path = .ok name ↔ view.canonical path = .ok name := by
  unfold canonical
  split <;> simp_all

/-- A script becomes a module if it can be read and has a value in an interpreter of its own. -/
theorem run_eq_ok : run patience clock view name = some (.ok module) ↔
    ∃ bytes source value i, view.read name = .ok bytes ∧ String.fromUTF8? bytes = some source ∧
      { Interpreter.new with world := { Interpreter.new.world with clock } }.eval patience source =
        some (.ok value, i) ∧ module = ⟨name, i, value⟩ := by
  unfold run FileView.readText
  cases view.read name with
  | error error => simp [bind, Except.bind]
  | ok bytes =>
    simp only [bind, Except.bind, Except.ok.injEq]
    cases decoded : String.fromUTF8? bytes with
    | none => simp [decoded, throw, throwThe, MonadExceptOf.throw]
    | some source =>
      simp only [pure, Except.pure]
      cases evaluated : { Interpreter.new with
          world := { Interpreter.new.world with clock } }.eval patience source with
      | none => simp [decoded, evaluated]
      | some outcome =>
        obtain ⟨result, i⟩ := outcome
        cases result with
        | error error => simp [decoded, evaluated]
        | ok value => simp [decoded, evaluated, eq_comm]

theorem load_of_cached (leads : view.canonical path = .ok name) (cached : modules.get? name = some module) :
    modules.load patience clock view path = some (.ok module, modules) := by
  simp only [load, canonical_eq_ok.2 leads, cached]

/-- What a load can do: fail, find a module, or make one. -/
theorem load_cases {result : Except ModuleError Module}
    (loaded : modules.load patience clock view path = some (result, modules')) :
    (modules' = modules ∧ ∃ error, result = .error error) ∨
    ∃ name module, view.canonical path = .ok name ∧ result = .ok module ∧
      (modules' = modules ∧ modules.get? name = some module ∨
        modules' = modules.insert name module ∧ modules.get? name = none ∧
          run patience clock view name = some (.ok module)) := by
  unfold load at loaded
  split at loaded
  · cases loaded
    exact .inl ⟨rfl, _, rfl⟩
  · next name leads =>
    have leads := canonical_eq_ok.1 leads
    split at loaded
    · next module cached =>
      cases loaded
      exact .inr ⟨name, module, leads, rfl, .inl ⟨rfl, cached⟩⟩
    · next fresh =>
      split at loaded
      · cases loaded
      · cases loaded
        exact .inl ⟨rfl, _, rfl⟩
      · next module made =>
        cases loaded
        exact .inr ⟨name, module, leads, rfl, .inr ⟨rfl, fresh, made⟩⟩

/-- A file that no module has been made of is made one if its script can be run. -/
theorem load_eq_ok_iff_of_fresh (fresh : ∀ name, view.canonical path = .ok name → modules.get? name = none) :
    (∃ modules', modules.load patience clock view path = some (.ok module, modules')) ↔
      ∃ name, view.canonical path = .ok name ∧ run patience clock view name = some (.ok module) := by
  constructor
  · rintro ⟨modules', loaded⟩
    rcases load_cases loaded with ⟨_, error, failed⟩ | ⟨name, _, leads, eq, ⟨_, cached⟩ | ⟨_, _, made⟩⟩
    · cases failed
    · rw [fresh name leads] at cached
      cases cached
    · cases eq
      exact ⟨name, leads, made⟩
  · rintro ⟨name, leads, made⟩
    exact ⟨modules.insert name module, by
      simp only [load, canonical_eq_ok.2 leads, fresh name leads, made]⟩

end

/-! ## Sessions -/

/-- What can happen to the files and the modules. -/
inductive Event (Files : Type) where
  /-- Files are written or deleted. -/
  | change (f : Files → Files)
  | load (patience : Nat) (clock : Clock) (path : String)

/-- What a load was given: the files as they were, and the path that was asked for. -/
structure Answer (Files : Type) where
  files : Files
  path : String
  result : Except ModuleError Module

structure State (Files : Type) where
  files : Files
  modules : Modules := .empty
  /-- The answers to all loads so far, in order. -/
  answers : List (Answer Files) := []

variable {Files : Type} (view : Files → FileView)

/-- The state after an event, unless it is a load that is not done within its patience. -/
def State.after? (s : State Files) : Event Files → Option (State Files)
  | .change f => some { s with files := f s.files }
  | .load patience clock path =>
    (s.modules.load patience clock (view s.files) path).map fun (result, modules) =>
      { s with modules, answers := s.answers ++ [⟨s.files, path, result⟩] }

def State.afterAll? (s : State Files) : List (Event Files) → Option (State Files)
  | [] => some s
  | event :: rest => (s.after? view event).bind (·.afterAll? rest)

/-- The canonical name that the path of a load had at the time. -/
def Answer.name? (a : Answer Files) : Option String := ((view a.files).canonical a.path).toOption

/-- The module that a load has given for a file. -/
def Answer.moduleOf? (a : Answer Files) (name : String) : Option Module :=
  if a.name? view = some name then a.result.toOption else none

/-- The module that the first successful load of a file has given. -/
def firstLoaded (answers : List (Answer Files)) (name : String) : Option Module :=
  answers.findSome? (·.moduleOf? view name)

/-- The names of the files that have been loaded successfully, once for each load. -/
def loadedNames (answers : List (Answer Files)) : List String :=
  answers.filterMap fun a => if a.result.isOk then a.name? view else none

variable {view} {answers : List (Answer Files)} {a : Answer Files} {name : String}

theorem Answer.moduleOf?_of_error {error : ModuleError} (failed : a.result = .error error) (name : String) :
    a.moduleOf? view name = none := by
  rw [Answer.moduleOf?, failed]
  split <;> rfl

theorem Answer.moduleOf?_of_ok {module : Module} (leads : (view a.files).canonical a.path = .ok name)
    (success : a.result = .ok module) (other : String) :
    a.moduleOf? view other = if other = name then some module else none := by
  have named : a.name? view = some name := by rw [Answer.name?, leads]; rfl
  rw [Answer.moduleOf?, named, success]
  simp [Except.toOption, eq_comm]

theorem firstLoaded_append (answers : List (Answer Files)) (a : Answer Files) (name : String) :
    firstLoaded view (answers ++ [a]) name = (firstLoaded view answers name).or (a.moduleOf? view name) := by
  rw [firstLoaded, List.findSome?_append]
  simp only [List.findSome?_singleton]
  rfl

theorem mem_loadedNames : name ∈ loadedNames view answers ↔ firstLoaded view answers name ≠ none := by
  rw [loadedNames, List.mem_filterMap, firstLoaded, Ne, List.findSome?_eq_none_iff]
  push Not
  refine exists_congr fun a => and_congr_right fun _ => ?_
  rw [Answer.moduleOf?]
  cases a.result with
  | error error => simp [Except.isOk, Except.toBool, Except.toOption]
  | ok module => simp [Except.isOk, Except.toBool, Except.toOption]

theorem loadedNames_append_of_error {error : ModuleError} (failed : a.result = .error error) :
    loadedNames view (answers ++ [a]) = loadedNames view answers := by
  rw [loadedNames, List.filterMap_append]
  simp [failed, Except.isOk, Except.toBool, loadedNames]

theorem loadedNames_append_of_ok {module : Module} (leads : (view a.files).canonical a.path = .ok name)
    (success : a.result = .ok module) :
    loadedNames view (answers ++ [a]) = loadedNames view answers ++ [name] := by
  rw [loadedNames, List.filterMap_append]
  simp [success, leads, Answer.name?, Except.isOk, Except.toBool, Except.toOption, loadedNames]

/-! ## Consistency -/

variable (view) in
/-- There is one module for each file that has been loaded, the first. -/
structure State.Consistent (s : State Files) : Prop where
  cached : ∀ name, s.modules.get? name = firstLoaded view s.answers name
  size : s.modules.size = (loadedNames view s.answers).toFinset.card

namespace State.Consistent

variable {s s' : State Files}

theorem new (files : Files) : State.Consistent view ⟨files, .empty, []⟩ := ⟨fun _ => rfl, rfl⟩

theorem after (consistent : s.Consistent view) {event : Event Files}
    (happened : s.after? view event = some s') : s'.Consistent view := by
  cases event with
  | change f =>
    cases happened
    exact ⟨consistent.cached, consistent.size⟩
  | load patience clock path =>
    obtain ⟨⟨result, modules⟩, loaded, rfl⟩ := Option.map_eq_some_iff.1 happened
    rcases load_cases loaded with ⟨rfl, error, rfl⟩ |
      ⟨name, module, leads, rfl, ⟨rfl, cached⟩ | ⟨rfl, fresh, _⟩⟩
    · refine ⟨fun other => ?_, ?_⟩
      · rw [firstLoaded_append, Answer.moduleOf?_of_error rfl, Option.or_none]
        exact consistent.cached other
      · rw [loadedNames_append_of_error rfl]
        exact consistent.size
    · have before := (consistent.cached name).symm.trans cached
      refine ⟨fun other => ?_, ?_⟩
      · rw [firstLoaded_append, Answer.moduleOf?_of_ok leads rfl, consistent.cached]
        split
        · next eq => rw [eq, before, Option.some_or]
        · rw [Option.or_none]
      · have member : name ∈ loadedNames view s.answers := mem_loadedNames.2 (by simp [before])
        rw [loadedNames_append_of_ok leads rfl, List.toFinset_append, consistent.size]
        simp [member]
    · have before := (consistent.cached name).symm.trans fresh
      refine ⟨fun other => ?_, ?_⟩
      · rw [firstLoaded_append, Answer.moduleOf?_of_ok leads rfl, NameMap.get?_insert, consistent.cached]
        split
        · next eq => rw [eq, before, Option.none_or]
        · rw [Option.or_none]
      · have missing : name ∉ loadedNames view s.answers := fun member => mem_loadedNames.1 member before
        rw [loadedNames_append_of_ok leads rfl, NameMap.size_insert_of_get?_eq_none fresh, consistent.size,
          List.toFinset_append]
        simp [missing]

theorem afterAll (consistent : s.Consistent view) {events : List (Event Files)}
    (happened : s.afterAll? view events = some s') : s'.Consistent view := by
  induction events generalizing s with
  | nil =>
    cases happened
    exact consistent
  | cons event rest ih =>
    obtain ⟨middle, first, others⟩ := Option.bind_eq_some_iff.1 happened
    exact ih (consistent.after first) others

end State.Consistent

/-! ## Modules at hand -/

theorem State.get?_after {s s' : State Files} {event : Event Files} {module : Module}
    (happened : s.after? view event = some s') (cached : s.modules.get? name = some module) :
    s'.modules.get? name = some module := by
  cases event with
  | change f =>
    cases happened
    exact cached
  | load patience clock path =>
    obtain ⟨⟨result, modules⟩, loaded, rfl⟩ := Option.map_eq_some_iff.1 happened
    rcases load_cases loaded with ⟨rfl, _⟩ | ⟨other, made, _, _, ⟨rfl, _⟩ | ⟨rfl, fresh, _⟩⟩
    · exact cached
    · exact cached
    · rw [NameMap.get?_insert, if_neg, cached]
      rintro rfl
      rw [fresh] at cached
      cases cached

theorem State.get?_afterAll {s s' : State Files} {events : List (Event Files)} {module : Module}
    (happened : s.afterAll? view events = some s') (cached : s.modules.get? name = some module) :
    s'.modules.get? name = some module := by
  induction events generalizing s with
  | nil =>
    cases happened
    exact cached
  | cons event rest ih =>
    obtain ⟨middle, first, others⟩ := Option.bind_eq_some_iff.1 happened
    exact ih others (State.get?_after first cached)

/-- After any loads, and any changes of the files before and between them: a path that leads to a file
that has been loaded gives the module of the first load of the file that was successful, whatever the
file holds now.  Any other gives a module if and only if it leads to a file whose text can be read and
has a value in a fresh interpreter, and then that value is what the module exports.  A load that fails
leaves the modules as they are.  There are as many modules as files that have been loaded, and a module
stays what it is from then on, and so does its text. -/
theorem modules_loaded_once (view : Files → FileView) (files : Files) (events : List (Event Files))
    {s : State Files} (happened : State.afterAll? view ⟨files, .empty, []⟩ events = some s) :
    (∀ path name module, (view s.files).canonical path = .ok name →
      firstLoaded view s.answers name = some module → ∀ patience clock,
        s.modules.load patience clock (view s.files) path = some (.ok module, s.modules)) ∧
    (∀ path, (∀ name, (view s.files).canonical path = .ok name →
        firstLoaded view s.answers name = none) → ∀ patience clock module,
      (∃ modules, s.modules.load patience clock (view s.files) path = some (.ok module, modules)) ↔
        ∃ name bytes source value i, (view s.files).canonical path = .ok name ∧
          (view s.files).read name = .ok bytes ∧ String.fromUTF8? bytes = some source ∧
          { Interpreter.new with world := { Interpreter.new.world with clock } }.eval patience source =
            some (.ok value, i) ∧ module = ⟨name, i, value⟩) ∧
    (∀ path patience clock error modules,
      s.modules.load patience clock (view s.files) path = some (.error error, modules) →
        modules = s.modules) ∧
    s.modules.size = (loadedNames view s.answers).toFinset.card ∧
    ∀ name module, s.modules.get? name = some module → ∀ later s', s.afterAll? view later = some s' →
      s'.modules.get? name = some module ∧
        (s'.modules.get? name).map Module.text = some module.text := by
  have consistent : s.Consistent view := (State.Consistent.new files).afterAll happened
  refine ⟨fun path name module leads first patience clock => ?_, fun path fresh patience clock module => ?_,
    fun path patience clock error modules failed => ?_, consistent.size,
    fun name module cached later s' happens => ?_⟩
  · exact load_of_cached leads ((consistent.cached name).trans first)
  · rw [load_eq_ok_iff_of_fresh fun name leads => (consistent.cached name).trans (fresh name leads)]
    simp only [run_eq_ok, exists_and_left]
  · rcases load_cases failed with ⟨same, _⟩ | ⟨_, _, _, success, _⟩
    · exact same
    · cases success
  · have kept := State.get?_afterAll happens cached
    exact ⟨kept, by rw [kept, Option.map_some]⟩

set_option maxRecDepth 4000 in
/-- A file that does not exist yet, then has a value, and then is overwritten: another path to it still
gives the value, and the file that no value was found for is not among the modules. -/
theorem modules_loaded_once_on_overwritten_file : ∃ (s : State FileTree) (module : Module),
    State.afterAll? FileTree.view ⟨⟨"/w", []⟩, .empty, []⟩
      [.load 20 default "m", .change (·.write "m" "true".toUTF8), .load 20 default "m",
        .change (·.write "m" "let".toUTF8), .change (·.write "n" "x".toUTF8),
        .load 20 default "n"] = some s ∧
    s.modules.size = 1 ∧ module.text = "true" ∧
    s.modules.load 0 default (FileTree.view s.files) "./m" = some (.ok module, s.modules) := by
  have ran : (State.afterAll? FileTree.view ⟨⟨"/w", []⟩, .empty, []⟩
      [.load 20 default "m", .change (·.write "m" "true".toUTF8), .load 20 default "m",
        .change (·.write "m" "let".toUTF8), .change (·.write "n" "x".toUTF8),
        .load 20 default "n"]).map (fun s => ((firstLoaded FileTree.view s.answers "/w/m").map Module.text,
          (FileTree.view s.files).canonical "./m", loadedNames FileTree.view s.answers)) =
      some (some "true", .ok "/w/m", ["/w/m"]) := by cbv
  obtain ⟨s, happened, seen⟩ := Option.map_eq_some_iff.1 ran
  obtain ⟨text, others⟩ := Prod.mk.inj seen
  obtain ⟨leads, names⟩ := Prod.mk.inj others
  obtain ⟨module, first, text⟩ := Option.map_eq_some_iff.1 text
  obtain ⟨again, _, _, size, _⟩ := modules_loaded_once FileTree.view ⟨"/w", []⟩ _ happened
  exact ⟨s, module, happened, by rw [size, names]; rfl, text, again _ _ _ leads first 0 default⟩

end Modules

end TinyScript
