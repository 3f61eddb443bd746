import Mathlib.Data.Nat.Basic
import TinyScript.Proofs.Renaming.Machine

/-! # Collections cannot be observed

All that can be seen of a session is its `transcript`: after each text, its error or what its value looks
like, and what the values of all global names look like.  Two sessions with the same texts have the same
transcript, wherever garbage is collected in between, if no text reads the clock
(`collection_transparent`).

Each of the two is compared with the session that never collects: its interpreter stays `Alike` to that
of the other all along, since the cells of global names are all that a program leaves behind for the
next, and a collection keeps what they reach.
-/

namespace TinyScript

/-! ## Transcripts -/

/-- What can be seen of a value. -/
structure Appearance where
  kind : Kind
  truthy : Bool
  text : String

/-- What can be seen after a text has been evaluated. -/
structure Observation where
  outcome : Except ScriptError Appearance
  globals : String → Option String

/-- The texts of a session. -/
def sources : List Request → List String
  | [] => []
  | .eval source :: rest => source :: sources rest
  | .collect :: rest => sources rest

namespace Interpreter

def appearance (i : Interpreter) (value : Value) : Appearance :=
  ⟨value.kind, value.isTruthy, i.display value⟩

def globalText? (i : Interpreter) (name : String) : Option String := (i.global? name).map i.display

/-- What can be seen of a session, up to a text that is not done within `patience` steps. -/
def transcript (patience : Nat) : List Request → Interpreter → List Observation
  | [], _ => []
  | .collect :: rest, i => i.collectGarbage.2.transcript patience rest
  | .eval source :: rest, i =>
    (i.eval patience source).elim [] fun (result, i) =>
      ⟨result.map i.appearance, i.globalText?⟩ :: i.transcript patience rest

def withClock (i : Interpreter) (clock : Clock) : Interpreter :=
  { i with world := { i.world with clock } }

/-- No text reads the clock, within `patience` steps each, when they are evaluated one after the other. -/
def neverReadsClock (patience : Nat) : List String → Interpreter → Bool
  | [], _ => true
  | source :: rest, i =>
    ((parseProgram source).toOption.all fun p =>
      (i.start (Stmt.numberAll i.sites p).1).quietFor patience) &&
    (i.eval patience source).all fun outcome => outcome.2.neverReadsClock patience rest

end Interpreter

/-! ## Interpreters -/

structure Interpreter.Renamed (ρ : Renaming) (i i' : Interpreter) : Prop where
  table : i.table = .standard
  table' : i'.table = .standard
  sites : i.sites = i'.sites
  depth : i.depth = i'.depth
  global : NameMap.Related ρ i.global i'.global
  heap : i.world.heap.Renamed ρ i'.world.heap

def Interpreter.Alike (i i' : Interpreter) : Prop := ∃ ρ, Interpreter.Renamed ρ i i'

theorem bindLibraries_renamed {ρ : Renaming} (names : List String) {global global' : Scope}
    {world world' : World} (scopes : global.Related ρ global')
    (heaps : world.heap.Renamed ρ world'.heap) :
    ∃ σ : Renaming, (Interpreter.bindLibraries names global world).1.Related σ
        (Interpreter.bindLibraries names global' world').1 ∧
      (Interpreter.bindLibraries names global world).2.heap.Renamed σ
        (Interpreter.bindLibraries names global' world').2.heap := by
  induction names generalizing ρ global global' world world' with
  | nil => exact ⟨ρ, scopes, heaps⟩
  | cons name names ih =>
    rw [Interpreter.bindLibraries_cons, Interpreter.bindLibraries_cons]
    obtain ⟨σ, more, pair, after⟩ := heaps.allocate (.binding (.library name))
    exact ih ((scopes.mono more).insert name pair) after

namespace Interpreter

variable {i i' : Interpreter}

theorem alike_new (clock : Clock) : (new.withClock clock).Alike new := by
  have empty : ({} : World).heap.Renamed _ ({} : World).heap := Heap.Renamed.empty
  obtain ⟨σ, scopes, heaps⟩ :=
    bindLibraries_renamed BuiltinTable.standard.names NameMap.Related.empty empty
  exact ⟨σ, rfl, rfl, rfl, rfl, scopes, heaps⟩

namespace Alike

theorem collectGarbage (alike : i.Alike i') : i.collectGarbage.2.Alike i' := by
  obtain ⟨ρ, renamed⟩ := alike
  refine ⟨_, renamed.table, renamed.table', renamed.sites, renamed.depth, ?_, renamed.heap.collect _⟩
  refine renamed.global.restrict fun a b member pair => ⟨pair, .root ?_ ?_⟩
  · simpa [Env.roots] using member
  · obtain ⟨o, _, found, _⟩ := renamed.heap.objects a b pair
    exact Heap.contains_iff.2 ⟨o, found⟩

/-- What two runs that have ended have in common. -/
def Outcomes {ε : Type} (outcome outcome' : Except ε Value × Interpreter) : Prop :=
  ∃ ρ, SameResult (Value.Renamed ρ) outcome.1 outcome'.1 ∧ Renamed ρ outcome.2 outcome'.2

theorem run (alike : i.Alike i') {patience : Nat} {p : Program}
    (quiet : (i'.start (Stmt.numberAll i'.sites p).1).quietFor patience = true) :
    Option.Rel Outcomes (i.run patience p) (i'.run patience p) := by
  obtain ⟨ρ, renamed⟩ := alike
  have fresh : Machine.Matched ρ ⟨.give .undefined, [], none, i.depth, i.global, i.world⟩
      ⟨.give .undefined, [], none, i'.depth, i'.global, i'.world⟩ :=
    ⟨.nil, .none, renamed.depth, renamed.global, renamed.heap⟩
  have ended := (fresh.enter _).run quiet
  simp only [Interpreter.run, renamed.sites, renamed.table, renamed.table']
  change Machine.Alike (Machine.run .standard patience (i.start (Stmt.numberAll i'.sites p).1))
    (Machine.run .standard patience (i'.start (Stmt.numberAll i'.sites p).1)) at ended
  generalize Machine.run .standard patience (i.start _) = m at ended ⊢
  generalize Machine.run .standard patience (i'.start _) = m' at ended ⊢
  obtain ⟨σ, matched, control⟩ := ended
  obtain ⟨_, frames, locals, depth, global, world⟩ := m
  obtain ⟨_, frames', locals', depth', global', world'⟩ := m'
  cases control with
  | halted result => exact .some ⟨σ, result, rfl, rfl, rfl, matched.depth, matched.global, matched.heap⟩
  | _ => exact .none

theorem eval (alike : i.Alike i') {patience : Nat} {source : String}
    (quiet : ∀ p, parseProgram source = .ok p →
      (i'.start (Stmt.numberAll i'.sites p).1).quietFor patience = true) :
    Option.Rel Outcomes (i.eval patience source) (i'.eval patience source) := by
  unfold Interpreter.eval
  cases parsed : parseProgram source with
  | error error =>
    obtain ⟨ρ, renamed⟩ := alike
    exact .some ⟨ρ, .error _, renamed⟩
  | ok p =>
    have ended := alike.run (quiet p parsed)
    simp only
    generalize i.run patience p = x at ended ⊢
    generalize i'.run patience p = y at ended ⊢
    cases ended with
    | none => exact .none
    | @some outcome outcome' same =>
      obtain ⟨result, last⟩ := outcome
      obtain ⟨result', last'⟩ := outcome'
      obtain ⟨ρ, same, renamed⟩ := same
      cases same with
      | ok value => exact .some ⟨ρ, .ok value, renamed⟩
      | error error => exact .some ⟨ρ, .error _, renamed⟩

end Alike

/-! ## Observations -/

theorem Renamed.appearance_eq {ρ : Renaming} (renamed : i.Renamed ρ i') {v v' : Value}
    (value : v.Renamed ρ v') : i.appearance v = i'.appearance v' := by
  simp only [appearance, value.kind_eq, value.isTruthy_eq, display, renamed.heap.display_eq value]

theorem Renamed.globalText?_eq {ρ : Renaming} (renamed : i.Renamed ρ i') :
    i.globalText? = i'.globalText? := by
  funext name
  have found : Option.Rel (Value.Renamed ρ) (i.global? name) (i'.global? name) :=
    lookup?_renamed (.cons renamed.global .nil) renamed.heap name
  unfold globalText?
  generalize i.global? name = x at found ⊢
  generalize i'.global? name = y at found ⊢
  cases found with
  | some value => rw [Option.map_some, Option.map_some, display, display, renamed.heap.display_eq value]
  | none => rw [Option.map_none, Option.map_none]

theorem Alike.transcript_eq (alike : i.Alike i') {patience : Nat} (session : List Request)
    (quiet : i'.neverReadsClock patience (sources session) = true) :
    i.transcript patience session = i'.transcript patience ((sources session).map .eval) := by
  induction session generalizing i i' with
  | nil => rfl
  | cons request rest ih =>
    cases request with
    | collect =>
      simp only [sources, transcript] at quiet ⊢
      exact ih alike.collectGarbage quiet
    | eval source =>
      simp only [sources, neverReadsClock, Bool.and_eq_true, Option.all_eq_true] at quiet
      obtain ⟨quiet, later⟩ := quiet
      have ended := alike.eval fun p parsed => quiet p (by rw [parsed]; rfl)
      simp only [sources, List.map_cons, transcript]
      generalize i.eval patience source = x at ended ⊢
      generalize i'.eval patience source = y at ended later ⊢
      cases ended with
      | none => rw [Option.elim_none, Option.elim_none]
      | @some outcome outcome' same =>
        obtain ⟨result, last⟩ := outcome
        obtain ⟨result', last'⟩ := outcome'
        obtain ⟨ρ, same, renamed⟩ := same
        have outcomes : result.map last.appearance = result'.map last'.appearance := by
          cases same with
          | ok value => simp only [Except.map, renamed.appearance_eq value]
          | error error => simp only [Except.map]
        rw [Option.elim_some, Option.elim_some, outcomes, renamed.globalText?_eq,
          ih ⟨ρ, renamed⟩ (later _ rfl)]

end Interpreter

/-- Where garbage is collected between evaluations cannot be observed. -/
theorem collection_transparent (patience : Nat) (clock clock' : Clock) (first second : List Request)
    (same : sources first = sources second)
    (quiet : Interpreter.new.neverReadsClock patience (sources first) = true) :
    (Interpreter.new.withClock clock).transcript patience first =
      (Interpreter.new.withClock clock').transcript patience second := by
  rw [(Interpreter.alike_new clock).transcript_eq first quiet]
  rw [same] at quiet ⊢
  rw [(Interpreter.alike_new clock').transcript_eq second quiet]

set_option maxRecDepth 4000 in
/-- An array that has become garbage is freed in the second session, and its slot used again. -/
theorem collection_transparent_on_arrays :
    (Interpreter.new.transcript 30 [.eval "let a = [true]; a = false", .eval "[a]"]).map
      (·.outcome.map (·.text)) = [.ok "false", .ok "[false]"] ∧
    Interpreter.new.transcript 30 [.eval "let a = [true]; a = false", .eval "[a]"] =
      Interpreter.new.transcript 30
        [.eval "let a = [true]; a = false", .collect, .eval "[a]", .collect] :=
  ⟨by decide +kernel, collection_transparent 30 default default _ _ rfl (by decide +kernel)⟩

end TinyScript
