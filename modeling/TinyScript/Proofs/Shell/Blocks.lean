import Mathlib.Data.List.TakeWhile
import Mathlib.Data.Nat.Find
import TinyScript.Shell

/-! # The pieces of a dialogue

The input of the shell is cut into pieces, one behind the other: texts that are evaluated, commands, stays
in the editor, and at the end what is left unfinished or follows an exit word.  A piece is `Proper` if it
is what its kind says it is, and that is said without the reader.

* `exists_pieces`: every input is made of proper pieces;
* `Piece.Proper.leads`: a proper piece is read from an empty prompt to the next empty prompt, and its own
  text is all that is evaluated on the way;
* `Pieces.sources_eq`: so the texts of the pieces are all that the reader has evaluated.
-/

namespace TinyScript.Shell

/-! ## Lines -/

/-- A line that begins a text at the prompt. -/
def OpensText (line : String) : Prop :=
  isExit (Text.trim line) = false ∧ (Text.trim line).startsWith "." = false

/-- A command at the prompt. -/
def IsCommand (line : String) : Prop :=
  isExit (Text.trim line) = false ∧ (Text.trim line).startsWith "." = true

/-- A command that opens the editor. -/
def OpensEditor (line : String) : Prop :=
  IsCommand line ∧ commandName (Text.trim line) = ".editor"

/-- A line that leaves the editor. -/
def LeavesEditor (line : String) : Prop := Text.trim line = "done"

instance (line : String) : Decidable (LeavesEditor line) := inferInstanceAs (Decidable (_ = _))

/-- Lines with line feeds between them. -/
def joined (lines : List String) : String := "\n".intercalate lines

/-- Lines with a line feed after each of them. -/
def typed (lines : List String) : String := String.join (lines.map (· ++ "\n"))

theorem joined_concat {lines : List String} (nonempty : lines ≠ []) (line : String) :
    joined (lines ++ [line]) = joined lines ++ "\n" ++ line := by
  rw [joined, String.intercalate_append_of_ne_nil nonempty (by simp)]
  simp [joined]

theorem typed_concat (lines : List String) (line : String) :
    typed (lines ++ [line]) = typed lines ++ line ++ "\n" := by
  simp [typed, String.append_assoc]

/-- A text all of whose characters are blank. -/
def IsBlankText (text : String) : Prop := ∀ c ∈ text.toList, Text.isBlank c = true

instance (text : String) : Decidable (IsBlankText text) := List.decidableBAll ..

theorem trimChars_eq_nil {cs : List Char} : Text.trimChars cs = [] ↔ ∀ c ∈ cs, Text.isBlank c = true := by
  rw [← List.dropWhile_eq_nil_iff, Text.trimChars, List.reverse_eq_nil_iff]
  refine ⟨fun blank => ?_, fun nothing => by rw [nothing]; rfl⟩
  rw [List.dropWhile_eq_nil_iff] at blank
  cases left : cs.dropWhile Text.isBlank with
  | nil => rfl
  | cons c rest =>
    have solid := List.head?_dropWhile_not Text.isBlank cs
    rw [left] at blank solid
    have here := blank c (by simp)
    simp [here] at solid

theorem isEmpty_trim (text : String) : (Text.trim text).isEmpty = true ↔ IsBlankText text := by
  rw [Text.trim, String.isEmpty_iff, String.ofList_eq_empty_iff]
  exact trimChars_eq_nil

/-! ## Pieces -/

/-- A stretch of the input. -/
inductive Piece where
  /-- The lines of a complete text. -/
  | text (lines : List String)
  /-- The line that opens the editor, those that are typed into it, and the one that leaves it. -/
  | edited (opening : String) (body : List String) (closing : String)
  /-- A command that does not open the editor. -/
  | command (line : String)
  /-- An exit word, and the lines behind it. -/
  | exit (line : String) (unread : List String)
  /-- The lines of a text that is not complete when the input ends. -/
  | openText (lines : List String)
  /-- A stay in the editor that the input does not end. -/
  | openEditor (opening : String) (body : List String)

namespace Piece

def lines : Piece → List String
  | text lines | openText lines => lines
  | edited opening body closing => opening :: (body ++ [closing])
  | command line => [line]
  | exit line unread => line :: unread
  | openEditor opening body => opening :: body

/-- The text that is evaluated. -/
def source? : Piece → Option String
  | text lines => some (joined lines)
  | edited _ body _ => if IsBlankText (typed body) then none else some (typed body)
  | command _ | exit .. | openText _ | openEditor .. => none

/-- Nothing comes behind the piece. -/
def isLast : Piece → Bool
  | exit .. | openText _ | openEditor .. => true
  | text _ | edited .. | command _ => false

/-- The piece is what its kind says.  A text is complete with its last line and not before. -/
def Proper : Piece → Prop
  | text lines => (∃ first rest, lines = first :: rest ∧ OpensText first) ∧
      isComplete (joined lines) = true ∧
      ∀ n, 0 < n → n < lines.length → isComplete (joined (lines.take n)) = false
  | edited opening body closing =>
    OpensEditor opening ∧ (∀ line ∈ body, ¬LeavesEditor line) ∧ LeavesEditor closing
  | command line => IsCommand line ∧ ¬OpensEditor line
  | exit line _ => isExit (Text.trim line) = true
  | openText lines => (∃ first rest, lines = first :: rest ∧ OpensText first) ∧
      ∀ n, 0 < n → n ≤ lines.length → isComplete (joined (lines.take n)) = false
  | openEditor opening body => OpensEditor opening ∧ ∀ line ∈ body, ¬LeavesEditor line

end Piece

/-! ### Every input is made of pieces -/

/-- A proper piece stands at the beginning of the input, and is all of it if it has to be the last one. -/
def StartsProper (input : List String) : Prop :=
  ∃ (piece : Piece) (behind : List String), input = piece.lines ++ behind ∧ piece.lines ≠ [] ∧
    piece.Proper ∧ (piece.isLast = true → behind = [])

/-- The lines from a text on: up to the first line that completes it, if there is one. -/
theorem starts_text {first : String} {rest : List String} (opens : OpensText first) :
    StartsProper (first :: rest) := by
  by_cases ends : ∃ n, 0 < n ∧ n ≤ (first :: rest).length ∧
      isComplete (joined ((first :: rest).take n)) = true
  · obtain ⟨positive, fits, complete⟩ := Nat.find_spec ends
    have earlier (n : Nat) (less : n < Nat.find ends) := Nat.find_min ends less
    generalize Nat.find ends = size at positive fits complete earlier
    have length : ((first :: rest).take size).length = size := List.length_take_of_le fits
    refine ⟨.text ((first :: rest).take size), (first :: rest).drop size,
      (List.take_append_drop ..).symm, ?_, ⟨?_, complete, ?_⟩, by simp [Piece.isLast]⟩
    · exact List.ne_nil_of_length_pos (by rw [Piece.lines, length]; exact positive)
    · cases size with
      | zero => omega
      | succ size => exact ⟨first, rest.take size, rfl, opens⟩
    · intro n some less
      rw [length] at less
      rw [List.take_take, Nat.min_eq_left (Nat.le_of_lt less)]
      exact Bool.eq_false_iff.2 fun done => earlier n less ⟨some, by omega, done⟩
  · refine ⟨.openText (first :: rest), [], (List.append_nil _).symm, by simp [Piece.lines],
      ⟨⟨first, rest, rfl, opens⟩, ?_⟩, fun _ => rfl⟩
    intro n some fits
    exact Bool.eq_false_iff.2 fun done => ends ⟨n, some, fits, done⟩

theorem starts_editor {opening : String} {rest : List String} (opens : OpensEditor opening) :
    StartsProper (opening :: rest) := by
  have split := List.takeWhile_append_dropWhile (p := fun line => !decide (LeavesEditor line)) (l := rest)
  have body (line : String) (member : line ∈ rest.takeWhile fun line => !decide (LeavesEditor line)) :
      ¬LeavesEditor line := by simpa using List.mem_takeWhile_imp member
  cases left : rest.dropWhile fun line => !decide (LeavesEditor line) with
  | nil =>
    rw [left, List.append_nil] at split
    rw [split] at body
    exact ⟨.openEditor opening rest, [], by simp [Piece.lines], by simp [Piece.lines], ⟨opens, body⟩,
      fun _ => rfl⟩
  | cons closing behind =>
    have leaves := List.head?_dropWhile_not (fun line => !decide (LeavesEditor line)) rest
    rw [left] at split leaves
    refine ⟨.edited opening _ closing, behind, ?_, by simp [Piece.lines], ⟨opens, body, ?_⟩,
      by simp [Piece.isLast]⟩
    · simp [Piece.lines, split]
    · simpa using leaves

/-- The first piece of an input that is not empty. -/
theorem starts_piece (line : String) (rest : List String) :
    StartsProper (line :: rest) := by
  cases exits : isExit (Text.trim line) with
  | true => exact ⟨.exit line rest, [], by simp [Piece.lines], by simp [Piece.lines], exits, fun _ => rfl⟩
  | false =>
    cases dotted : (Text.trim line).startsWith "." with
    | false => exact starts_text ⟨exits, dotted⟩
    | true =>
      by_cases opens : OpensEditor line
      · exact starts_editor opens
      · exact ⟨.command line, rest, rfl, by simp [Piece.lines], ⟨⟨exits, dotted⟩, opens⟩,
          by simp [Piece.isLast]⟩

/-- Proper pieces, the last one of which may be one that the input ends in. -/
inductive Pieces : List Piece → Prop where
  | nil : Pieces []
  | last {piece : Piece} : piece.Proper → Pieces [piece]
  | cons {piece : Piece} {pieces : List Piece} : piece.Proper → piece.isLast = false → Pieces pieces →
      Pieces (piece :: pieces)

theorem exists_pieces (input : List String) :
    ∃ pieces, Pieces pieces ∧ pieces.flatMap Piece.lines = input := by
  induction length : input.length using Nat.strongRecOn generalizing input with
  | ind size ih =>
    cases input with
    | nil => exact ⟨[], .nil, rfl⟩
    | cons line rest =>
      obtain ⟨piece, behind, split, nonempty, proper, ends⟩ := starts_piece line rest
      cases last : piece.isLast with
      | true =>
        refine ⟨[piece], .last proper, ?_⟩
        rw [split, ends last]
        simp
      | false =>
        have shorter : behind.length < size := by
          have := List.length_pos_iff.2 nonempty
          rw [← length, split, List.length_append]
          omega
        obtain ⟨pieces, all, covers⟩ := ih _ shorter behind rfl
        exact ⟨piece :: pieces, .cons proper last all, by rw [List.flatMap_cons, covers, split]⟩

/-! ## Reading pieces -/

/-- The text that an action evaluates. -/
def Action.source? : Action → Option String
  | evaluate source => some source
  | wait | nothingToRun | command _ | exit => none

namespace Reader

/-- What the lines lead to, up to an exit. -/
def actions : Reader → List String → List Action
  | _, [] => []
  | r, line :: rest =>
    let (action, r) := r.receive line
    if action = .exit then [action] else action :: actions r rest

/-- The reader after some lines. -/
def after (r : Reader) (lines : List String) : Reader :=
  lines.foldl (fun r line => (r.receive line).2) r

theorem after_append (r : Reader) (lines more : List String) :
    r.after (lines ++ more) = (r.after lines).after more := by
  simp [after]

/-- The lines are read one by one, none of them as an exit. -/
inductive Leads : Reader → List String → List Action → Reader → Prop where
  | nil (r : Reader) : Leads r [] [] r
  | cons {r mid last : Reader} {line : String} {lines : List String} {action : Action}
      {actions : List Action} : r.receive line = (action, mid) → action ≠ .exit →
      Leads mid lines actions last → Leads r (line :: lines) (action :: actions) last

namespace Leads

variable {r mid last : Reader} {lines more : List String} {acts others : List Action}

theorem single {line : String} {action : Action} (received : r.receive line = (action, mid))
    (goesOn : action ≠ .exit) : Leads r [line] [action] mid :=
  .cons received goesOn (.nil mid)

theorem append (first : Leads r lines acts mid) (second : Leads mid more others last) :
    Leads r (lines ++ more) (acts ++ others) last := by
  induction first with
  | nil r => exact second
  | cons received goesOn _ ih => exact .cons received goesOn (ih second)

theorem after_eq (leads : Leads r lines acts last) : r.after lines = last := by
  induction leads with
  | nil r => rfl
  | cons received _ _ ih =>
    rw [← ih, after, List.foldl_cons, received]
    rfl

theorem actions_append (leads : Leads r lines acts last) (rest : List String) :
    r.actions (lines ++ rest) = acts ++ last.actions rest := by
  induction leads with
  | nil r => rfl
  | cons received goesOn _ ih =>
    rw [List.cons_append, Reader.actions, received]
    simp only [if_neg goesOn, ih, List.cons_append]

end Leads

/-! ### Texts -/

/-- The reader with the lines of a text that is not complete, or with none. -/
def collecting : List String → Reader
  | [] => {}
  | lines => ⟨.continuation, joined lines⟩

theorem receive_collecting {lines : List String} {line : String} (opens : lines = [] → OpensText line) :
    (collecting lines).receive line = extend (joined (lines ++ [line])) := by
  cases lines with
  | nil =>
    obtain ⟨noExit, noCommand⟩ := opens rfl
    simp [collecting, receive, noExit, noCommand, joined]
  | cons first rest =>
    rw [joined_concat (by simp)]
    rfl

/-- While the text is not complete, nothing is done. -/
theorem leads_collecting (lines more : List String)
    (opens : ∀ line, (lines ++ more).head? = some line → OpensText line)
    (incomplete : ∀ n, lines.length < n → n ≤ (lines ++ more).length →
      isComplete (joined ((lines ++ more).take n)) = false) :
    Leads (collecting lines) more (List.replicate more.length .wait) (collecting (lines ++ more)) := by
  induction more generalizing lines with
  | nil =>
    rw [List.append_nil]
    exact .nil _
  | cons line more ih =>
    have split : lines ++ line :: more = (lines ++ [line]) ++ more := by simp
    have opens' : lines = [] → OpensText line := by
      rintro rfl
      exact opens line rfl
    have here := incomplete (lines.length + 1) (by omega) (by simp)
    rw [split, List.take_left' (by simp)] at here
    have waits : (collecting lines).receive line = (.wait, collecting (lines ++ [line])) := by
      rw [receive_collecting opens', extend, if_neg (by simp [here])]
      cases lines <;> rfl
    rw [split] at opens incomplete ⊢
    refine .cons waits (by simp) (ih _ opens fun n further => incomplete n ?_)
    simp only [List.length_append, List.length_singleton] at further
    omega

/-! ### The editor -/

theorem leads_editor (body : List String) {more : List String} (stays : ∀ line ∈ more, ¬LeavesEditor line) :
    Leads ⟨.editor, typed body⟩ more (List.replicate more.length .wait) ⟨.editor, typed (body ++ more)⟩ := by
  induction more generalizing body with
  | nil =>
    rw [List.append_nil]
    exact .nil _
  | cons line more ih =>
    obtain ⟨here, behind⟩ := List.forall_mem_cons.1 stays
    have kept : receive ⟨.editor, typed body⟩ line = (.wait, ⟨.editor, typed (body ++ [line])⟩) := by
      rw [typed_concat]
      exact if_neg here
    rw [List.append_cons]
    exact .cons kept (by simp) (ih _ behind)

theorem receive_command {line : String} (isCommand : IsCommand line) :
    receive {} line = (.command (Text.trim line), afterCommand {} (Text.trim line)) := by
  obtain ⟨noExit, dotted⟩ := isCommand
  simp [receive, noExit, dotted]

/-- The editor is opened and has been filled. -/
theorem leads_openEditor {opening : String} {body : List String} (opens : OpensEditor opening)
    (stays : ∀ line ∈ body, ¬LeavesEditor line) :
    Leads {} (opening :: body) (.command (Text.trim opening) :: List.replicate body.length .wait)
      ⟨.editor, typed body⟩ := by
  have opened : receive {} opening = (.command (Text.trim opening), ⟨.editor, typed []⟩) := by
    rw [receive_command opens.1, afterCommand, if_pos opens.2]
    rfl
  exact .cons opened (by simp) (leads_editor [] stays)

theorem receive_closing (body : List String) {closing : String} (leaves : LeavesEditor closing) :
    receive ⟨.editor, typed body⟩ closing =
      (if IsBlankText (typed body) then .nothingToRun else .evaluate (typed body), {}) := by
  have left : Text.trim closing = "done" := leaves
  by_cases blank : IsBlankText (typed body)
  · simp [receive, left, blank, (isEmpty_trim _).2 blank]
  · have solid : (Text.trim (typed body)).isEmpty = false := by
      rw [← Bool.not_eq_true, isEmpty_trim]
      exact blank
    simp [receive, left, blank, solid]

end Reader

/-! ### Pieces -/

open Reader

/-- Waiting evaluates nothing. -/
theorem sources_wait (n : Nat) : (List.replicate n Action.wait).filterMap Action.source? = [] := by
  induction n with
  | zero => rfl
  | succ n ih => exact ih

/-- A proper piece with something behind it is read from an empty prompt to an empty prompt. -/
theorem Piece.Proper.leads {piece : Piece} (proper : piece.Proper) (goesOn : piece.isLast = false) :
    ∃ actions, Leads {} piece.lines actions {} ∧
      actions.filterMap Action.source? = piece.source?.toList := by
  cases piece with
  | text lines =>
    obtain ⟨⟨first, rest, split, opens⟩, complete, shortest⟩ := proper
    have nonempty : lines ≠ [] := by simp [split]
    have divided := List.dropLast_concat_getLast nonempty
    generalize lines.getLast nonempty = final at divided
    generalize lines.dropLast = before at divided
    subst divided
    have opens' : ∀ line, (before ++ [final]).head? = some line → OpensText line := by
      simpa [split] using opens
    have waits := leads_collecting [] before
      (fun line here => opens' line (by simp at here; simp [here])) fun n some fits => by
        have := shortest n some (by simp at fits ⊢; omega)
        rwa [List.take_append_of_le_length (by simpa using fits)] at this
    have ends : (collecting before).receive final = (.evaluate (joined (before ++ [final])), {}) := by
      rw [receive_collecting (by rintro rfl; exact opens' final rfl), extend, if_pos complete]
    refine ⟨_, waits.append (.single ends (by simp)), ?_⟩
    rw [List.filterMap_append, sources_wait]
    rfl
  | edited opening body closing =>
    obtain ⟨opens, stays, leaves⟩ := proper
    have closes := receive_closing body leaves
    refine ⟨_, (leads_openEditor opens stays).append (.single closes (by split <;> simp)), ?_⟩
    rw [List.filterMap_append, List.filterMap_cons_none rfl, sources_wait, Piece.source?]
    split <;> rfl
  | command line =>
    obtain ⟨isCommand, other⟩ := proper
    refine ⟨[.command (Text.trim line)], .single ?_ (by simp), rfl⟩
    rw [receive_command isCommand, afterCommand, if_neg fun name => other ⟨isCommand, name⟩]
  | exit | openText | openEditor => cases goesOn

/-- A piece that the input ends in evaluates nothing. -/
theorem Piece.Proper.actions_last {piece : Piece} (proper : piece.Proper) (last : piece.isLast = true) :
    (Reader.actions {} piece.lines).filterMap Action.source? = [] := by
  cases piece with
  | text | edited | command => cases last
  | exit line unread =>
    have exits : receive {} line = (.exit, {}) := if_pos proper
    rw [Piece.lines, Reader.actions, exits]
    rfl
  | openText lines =>
    obtain ⟨⟨first, rest, rfl, opens⟩, incomplete⟩ := proper
    have waits := leads_collecting [] (first :: rest) (by simpa using opens) incomplete
    rw [Piece.lines, ← List.append_nil (first :: rest)]
    rw [show ({} : Reader) = collecting [] from rfl, waits.actions_append [], List.filterMap_append,
      sources_wait]
    rfl
  | openEditor opening body =>
    obtain ⟨opens, stays⟩ := proper
    have leads := leads_openEditor opens stays
    rw [Piece.lines, ← List.append_nil (opening :: body), leads.actions_append [], List.filterMap_append,
      List.filterMap_cons_none rfl, sources_wait]
    rfl

theorem Pieces.sources_eq {pieces : List Piece} (all : Pieces pieces) :
    (Reader.actions {} (pieces.flatMap Piece.lines)).filterMap Action.source? =
      pieces.filterMap Piece.source? := by
  induction all with
  | nil => rfl
  | @last piece proper =>
    cases last : piece.isLast with
    | true =>
      have nothing : piece.source? = none := by cases piece <;> first | rfl | cases last
      simpa [nothing] using proper.actions_last last
    | false =>
      obtain ⟨actions, leads, sources⟩ := proper.leads last
      rw [List.flatMap_cons, leads.actions_append, List.filterMap_append, sources]
      cases found : piece.source? <;> simp [found, Reader.actions]
  | @cons piece pieces proper goesOn _ ih =>
    obtain ⟨actions, leads, sources⟩ := proper.leads goesOn
    rw [List.flatMap_cons, leads.actions_append, List.filterMap_append, sources, ih]
    cases found : piece.source? <;> simp [found]

theorem Pieces.of_cons {piece : Piece} {pieces : List Piece} (all : Pieces (piece :: pieces))
    (more : pieces ≠ []) : piece.Proper ∧ piece.isLast = false ∧ Pieces pieces := by
  cases all with
  | last => exact absurd rfl more
  | cons proper goesOn others => exact ⟨proper, goesOn, others⟩

theorem Pieces.proper {pieces : List Piece} (all : Pieces pieces) : ∀ piece ∈ pieces, piece.Proper := by
  induction all with
  | nil => simp
  | last proper => simpa using proper
  | cons proper _ _ ih => exact List.forall_mem_cons.2 ⟨proper, ih⟩

/-- Every piece begins at an empty prompt, and nothing follows one that the input ends in. -/
theorem Pieces.at {before behind : List Piece} {piece : Piece} (all : Pieces (before ++ piece :: behind)) :
    Reader.after {} (before.flatMap Piece.lines) = {} ∧ (piece.isLast = true → behind = []) := by
  induction before with
  | nil =>
    refine ⟨rfl, fun last => ?_⟩
    by_contra more
    obtain ⟨_, goesOn, _⟩ := all.of_cons more
    simp [goesOn] at last
  | cons first before ih =>
    obtain ⟨proper, goesOn, others⟩ := all.of_cons (by simp)
    obtain ⟨actions, leads, _⟩ := proper.leads goesOn
    rw [List.flatMap_cons, after_append, leads.after_eq]
    exact ih others

/-! ## The buffer -/

/-- Nothing has been collected at a prompt. -/
def Reader.Clear (r : Reader) : Prop := r.mode = .prompt → r.buffer = ""

theorem Reader.clear_extend (source : String) : (extend source).2.Clear := by
  unfold extend
  split
  · exact fun _ => rfl
  · exact fun prompt => nomatch prompt

theorem Reader.Clear.receive {r : Reader} (clear : r.Clear) (line : String) : (r.receive line).2.Clear := by
  unfold Reader.receive
  simp only
  split
  · split
    · split <;> exact fun _ => rfl
    · exact fun prompt => nomatch prompt
  · split
    · exact clear
    · split
      · unfold afterCommand
        split
        · exact fun prompt => nomatch prompt
        · exact clear
      · exact clear_extend _
  · exact clear_extend _

theorem Reader.Clear.after {r : Reader} (clear : r.Clear) (lines : List String) : (r.after lines).Clear := by
  induction lines generalizing r with
  | nil => exact clear
  | cons line lines ih => exact ih (clear.receive line)

end TinyScript.Shell
