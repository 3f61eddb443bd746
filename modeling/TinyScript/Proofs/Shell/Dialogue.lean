import TinyScript.Proofs.Shell.Blocks

/-! # What a dialogue runs

A shell knows its session only as a `Runtime`.  `noting` is such a runtime that writes down every text it
is given to execute, so a dialogue with it shows which texts are passed on, in which order and how often:
those of the pieces that the input is made of (`dialogue_evaluates_blocks`).

* `Notes`: one computation does what the other one does, and notes these texts;
* `notes_dialogue`: a dialogue notes what the reader has evaluated.
-/

namespace TinyScript.Shell

variable {σ α β : Type}

/-- Computations over a state and the texts that have been noted, which are kept when there is no end. -/
abbrev Noting (σ : Type) : Type → Type := OptionT (StateM (σ × List String))

namespace Noting

/-- A computation that notes nothing. -/
def lift (x : StateT σ Option α) : Noting σ α := fun (s, texts) =>
  match x s with
  | none => (none, s, texts)
  | some (a, s) => (some a, s, texts)

def note (text : String) : Noting σ Unit := fun (s, texts) => (some (), s, texts ++ [text])

theorem bind_eq (x : Noting σ α) (f : α → Noting σ β) (rest : σ × List String) :
    (x >>= f) rest = match x rest with
      | (none, rest) => (none, rest)
      | (some a, rest) => f a rest := by
  cases ran : x rest with
  | mk result rest' =>
    cases result with
    | none =>
      simp only [Bind.bind, OptionT.bind, OptionT.mk, StateT.bind, ran]
      rfl
    | some a => simp only [Bind.bind, OptionT.bind, OptionT.mk, StateT.bind, ran]

end Noting

/-- The runtime, with every text noted that it is given to execute. -/
def noting (r : Runtime (StateT σ Option)) : Runtime (Noting σ) where
  backend := .lift r.backend
  setBackend backend := .lift (r.setBackend backend)
  execute source := do
    Noting.note source
    .lift (r.execute source)
  loadModule path := .lift (r.loadModule path)
  collectGarbage := .lift r.collectGarbage

/-- The first computation does what the second one does, and notes the texts; if there is no end, it notes
those that it comes to. -/
def Notes (x : Noting σ α) (y : StateT σ Option α) (texts : List String) : Prop :=
  ∀ s before,
    (∀ a s', y s = some (a, s') → x (s, before) = (some a, s', before ++ texts)) ∧
    (y s = none → ∃ s' told, told <+: texts ∧ x (s, before) = (none, s', before ++ told))

namespace Notes

variable {x : Noting σ α} {y : StateT σ Option α} {texts others : List String}

theorem pure (a : α) : Notes (Pure.pure a : Noting σ α) (Pure.pure a) [] := by
  intro s before
  refine ⟨?_, fun stuck => nomatch stuck⟩
  rintro _ _ ⟨⟩
  rw [List.append_nil]
  rfl

theorem lift (y : StateT σ Option α) : Notes (.lift y) y [] := by
  intro s before
  simp only [List.append_nil, Noting.lift]
  cases y s with
  | none => exact ⟨nofun, fun _ => ⟨s, [], List.prefix_rfl, by rw [List.append_nil]⟩⟩
  | some done => exact ⟨by rintro _ _ ⟨⟩; rfl, nofun⟩

theorem note (text : String) : Notes (.note text : Noting σ Unit) (Pure.pure ()) [text] := by
  intro s before
  refine ⟨?_, fun stuck => nomatch stuck⟩
  rintro _ _ ⟨⟩
  rfl

theorem bind {f : α → Noting σ β} {g : α → StateT σ Option β} (first : Notes x y texts)
    (second : ∀ a, Notes (f a) (g a) others) : Notes (x >>= f) (y >>= g) (texts ++ others) := by
  intro s before
  obtain ⟨ends, stops⟩ := first s before
  have plain : (y >>= g) s = (y s).bind fun done => g done.1 done.2 := rfl
  cases ran : y s with
  | none =>
    obtain ⟨s', told, begins, stopped⟩ := stops ran
    refine ⟨fun b last ended => ?_, fun _ => ⟨s', told, begins.trans (List.prefix_append ..), ?_⟩⟩
    · rw [plain, ran] at ended
      cases ended
    · rw [Noting.bind_eq, stopped]
  | some done =>
    obtain ⟨a, mid⟩ := done
    obtain ⟨ends', stops'⟩ := second a mid (before ++ texts)
    have goesOn : (x >>= f) (s, before) = f a (mid, before ++ texts) := by
      rw [Noting.bind_eq, ends a mid ran]
    rw [plain, ran, goesOn]
    refine ⟨fun b last ended => ?_, fun stuck => ?_⟩
    · rw [ends' b last ended, List.append_assoc]
    · obtain ⟨s', told, begins, stopped⟩ := stops' stuck
      exact ⟨s', texts ++ told, (List.prefix_append_right_inj texts).2 begins,
        by rw [stopped, List.append_assoc]⟩

end Notes

theorem notes_backendCommand (r : Runtime (StateT σ Option)) (argument : String) :
    Notes (backendCommand (noting r) argument) (backendCommand r argument) [] := by
  unfold backendCommand
  split
  · exact Notes.bind (.lift _) fun _ => .pure _
  · split
    · exact Notes.bind (.lift _) fun _ => .pure _
    · exact .pure _

theorem notes_loadCommand (r : Runtime (StateT σ Option)) (path : String) :
    Notes (loadCommand (noting r) path) (loadCommand r path) [] := by
  unfold loadCommand
  split
  · exact .pure _
  · exact Notes.bind (.lift _) fun loaded => by cases loaded <;> exact .pure _

/-- No command has a text executed. -/
theorem notes_command (r : Runtime (StateT σ Option)) (text : String) :
    Notes (command (noting r) text) (command r text) [] := by
  unfold command
  simp only
  split
  · exact .pure _
  · exact Notes.bind (.lift _) fun _ => .pure _
  · exact notes_backendCommand r _
  · exact notes_loadCommand r _
  all_goals exact .pure _

theorem notes_perform (r : Runtime (StateT σ Option)) (action : Action) :
    Notes (perform (noting r) action) (perform r action) action.source?.toList := by
  cases action with
  | evaluate source =>
    have executed : Notes ((noting r).execute source) (r.execute source) [source] :=
      Notes.bind (.note source) fun _ => .lift (r.execute source)
    exact executed.bind fun _ => .pure _
  | command text => exact notes_command r text
  | wait | nothingToRun | exit => exact .pure _

theorem notes_dialogue (r : Runtime (StateT σ Option)) (reader : Reader) (input : List String) :
    Notes (dialogue (noting r) reader input) (dialogue r reader input)
      ((reader.actions input).filterMap Action.source?) := by
  induction input generalizing reader with
  | nil => exact .pure _
  | cons line rest ih =>
    rw [Reader.actions, dialogue, dialogue]
    generalize reader.receive line = received
    obtain ⟨action, next⟩ := received
    by_cases exits : action = .exit
    · subst exits
      exact .pure _
    · simp only [if_neg exits]
      have done := (notes_perform r action).bind fun written =>
        (ih next).bind fun others => Notes.pure (written ++ others)
      cases told : action.source? <;> simpa [told] using done

theorem notes_run (r : Runtime (StateT σ Option)) (input : List String) :
    Notes (run (noting r) input) (run r input) ((Reader.actions {} input).filterMap Action.source?) := by
  have done : Notes (run (noting r) input) (run r input)
      ([] ++ ((Reader.actions {} input).filterMap Action.source? ++ [])) :=
    Notes.bind (.lift r.backend) fun backend => (notes_dialogue r {} input).bind fun written => .pure _
  simpa only [List.nil_append, List.append_nil] using done

/-- The input of a dialogue is made of proper pieces, and however it is divided into such pieces, each of
them begins at a prompt with nothing in the buffer, and the dialogue passes the texts of the pieces to the
session to execute, in their order and each of them once, and no other text; if a script or a module does
not end, it does so up to there.  Nothing is in the buffer at any prompt. -/
theorem dialogue_evaluates_blocks (input : List String) :
    (∃ pieces, Pieces pieces ∧ pieces.flatMap Piece.lines = input) ∧
    (∀ pieces, Pieces pieces → pieces.flatMap Piece.lines = input →
      (∀ before piece behind, pieces = before ++ piece :: behind →
        piece.Proper ∧ Reader.after {} (before.flatMap Piece.lines) = {} ∧
          (piece.isLast = true → behind = [])) ∧
      ∀ (patience : Nat) (view : FileView),
        (∀ source s, (Session.runtime patience view).execute source s = s.execute patience source) ∧
        Notes (run (noting (Session.runtime patience view)) input)
          (run (Session.runtime patience view) input) (pieces.filterMap Piece.source?)) ∧
    ∀ lines, lines <+: input → (Reader.after {} lines).mode = .prompt →
      (Reader.after {} lines).buffer = "" := by
  refine ⟨exists_pieces input, ?_, ?_⟩
  · rintro pieces all rfl
    refine ⟨?_, fun patience view => ⟨fun _ _ => rfl, ?_⟩⟩
    · rintro before piece behind rfl
      exact ⟨all.proper piece (by simp), all.at⟩
    · rw [← all.sources_eq]
      exact notes_run _ _
  · intro lines _
    exact Reader.Clear.after (fun _ => rfl) lines

/-- A text of two lines, a command, a stay in the editor and an exit word with a line behind it. -/
def mixedDialogue : List Piece :=
  [.text ["[1,", "2]"], .command ".clear", .edited ".editor" ["f()"] "done", .exit "quit" ["3"]]

theorem pieces_mixedDialogue : Pieces mixedDialogue := by
  refine .cons ?text rfl
    (.cons ?command rfl (.cons ?edited rfl (.last ?exit)))
  case text =>
    refine ⟨⟨_, _, rfl, by decide +kernel, by decide +kernel⟩, by decide +kernel, fun n nonempty less => ?_⟩
    obtain rfl : n = 1 := Nat.le_antisymm (Nat.le_of_lt_succ less) nonempty
    decide +kernel
  case command =>
    exact ⟨⟨by decide +kernel, by decide +kernel⟩, fun opens => absurd opens.2 (by decide +kernel)⟩
  case edited =>
    exact ⟨⟨⟨by decide +kernel, by decide +kernel⟩, by decide +kernel⟩, by decide +kernel, by decide +kernel⟩
  case exit =>
    change isExit _ = true
    decide +kernel

/-- No file is there. -/
def noFiles : FileView where
  canonical _ := .error .notFound
  read _ := .error .notFound

theorem dialogue_evaluates_blocks_of_mixed : ∃ written last,
    run (noting (Session.runtime 100 noFiles)) ["[1,", "2]", ".clear", ".editor", "f()", "done", "quit", "3"]
      (Session.new {}, []) = (some written, last, ["[1,\n2]", "f()\n"]) := by
  obtain ⟨_, evaluated⟩ := (dialogue_evaluates_blocks _).2.1 mixedDialogue pieces_mixedDialogue rfl
  have ends : (run (Session.runtime 100 noFiles) (mixedDialogue.flatMap Piece.lines) (Session.new {})).isSome =
      true := by decide +kernel
  obtain ⟨⟨written, last⟩, ran⟩ := Option.isSome_iff_exists.1 ends
  have sources : mixedDialogue.filterMap Piece.source? = ["[1,\n2]", "f()\n"] := by decide +kernel
  exact ⟨written, last, sources ▸ ((evaluated 100 noFiles).2 (Session.new {}) []).1 written last ran⟩

end TinyScript.Shell
