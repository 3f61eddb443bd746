import Mathlib.Data.Nat.Basic
import TinyScript.Proofs.Lexer.Progress

/-! # Looking ahead changes nothing

A lexer that is asked to `next` and to `peek` in any order stands where one stands that has only ever been
asked to `next`, or it holds the token that the other one would take and stands behind it (`Lexer.InStep`).
So whatever it is asked for, it shows what the other one shows next (`peek_transparent`).
-/

namespace TinyScript

namespace Lexer

variable {l m : Lexer} {k : Nat} {t : Token} {calls : List Call}

/-! ## What calls show -/

/-- What can be seen of a call: its answer, the start of the token scanned last, and how many characters
have been read. -/
structure Sight where
  answer : Except LexError Token
  start : Position
  offset : Nat
  deriving DecidableEq

def see (l : Lexer) (c : Call) : Sight where
  answer := (l.call c).1
  start := (l.call c).2.start
  offset := (l.call c).2.offset

/-- Calls one after the other, with their answers. -/
def answers (l : Lexer) : List Call → List (Call × Except LexError Token)
  | [] => []
  | c :: rest => (c, (l.call c).1) :: (l.call c).2.answers rest

/-- The answers to the calls that take a token. -/
def takings (answers : List (Call × Except LexError Token)) : List (Except LexError Token) :=
  (answers.filter (·.1 = .next)).map (·.2)

/-- With nothing in hand both calls scan, and show what the scan finds. -/
theorem see_of_fresh (fresh : l.ahead = none) (c : Call) :
    l.see c = ⟨l.scan.1, l.scan.2.start, l.scan.2.offset⟩ := by
  obtain ⟨token, _, held, _⟩ | ⟨_, ahead, called⟩ := l.call_cases c
  · rw [fresh] at held
    cases held
  · rw [see, called]
    rfl

/-- A token in hand is what both calls show. -/
theorem see_of_held (held : l.ahead = some t) (c : Call) : l.see c = ⟨.ok t, l.start, l.offset⟩ := by
  obtain ⟨token, ahead, found, called⟩ | ⟨fresh, _⟩ := l.call_cases c
  · rw [held] at found
    cases found
    rw [see, called]
    rfl
  · rw [held] at fresh
    cases fresh

theorem peek_of_scan (fresh : l.ahead = none) (scanned : l.scan = (.ok t, m)) :
    l.call .peek = (.ok t, { m with ahead := some t }) := by
  rw [call, peek, fresh]
  simp only [scanned]

theorem scan_of_peek (fresh : l.ahead = none) (answered : (l.call .peek).1.isOk = true) :
    ∃ t m, l.scan = (.ok t, m) := by
  cases scanned : l.scan with
  | mk answer m =>
    cases answer with
    | ok t => exact ⟨t, m, rfl⟩
    | error e =>
      rw [call, peek, fresh, scanned] at answered
      cases answered

/-! ## Only taking -/

/-- The lexer that has taken so many tokens and has never looked ahead. -/
def taken (l : Lexer) (k : Nat) : Lexer := l.after (List.replicate k .next)

/-- What it shows when it takes one more. -/
def alone (l : Lexer) (k : Nat) : Sight := (l.taken k).see .next

theorem ahead_scanToken (l : Lexer) : l.scanToken.2.ahead = l.ahead := by
  cases here : l.cursor.rest with
  | nil =>
    rw [scanToken, here]
    simp only
    split <;> rfl
  | cons c rest =>
    have branch := scanToken_branch here
    generalize l.scanToken = answer at branch
    cases branch <;> rfl

/-- A scan does not touch what is in hand, whatever it finds. -/
theorem ahead_scan (l : Lexer) : l.scan.2.ahead = l.ahead := by
  unfold scan
  split
  · rfl
  · exact ahead_scanToken _

/-- A lexer that has read the end reads it again and stays as it is. -/
theorem scan_of_eof (scanned : l.scan = (.ok .eof, m)) : m.scan = (.ok .eof, m) := by
  obtain ⟨gap, own, reads⟩ := scan_reads scanned
  obtain ⟨rfl, nothing, closed⟩ := reads.eof rfl
  have here : m.cursor.position = m.start := reads.position
  rw [scan_at_end nothing closed, here]

section

variable (fresh : l.ahead = none)

include fresh

theorem ahead_taken (k : Nat) : (l.taken k).ahead = none := by
  induction k with
  | zero => exact fresh
  | succ k ih =>
    rw [taken, List.replicate_succ', after_append]
    change (l.taken k).next.2.ahead = none
    rw [next_eq_scan ih, ahead_scan, ih]

theorem taken_succ (k : Nat) : l.taken (k + 1) = (l.taken k).scan.2 := by
  rw [taken, List.replicate_succ', after_append]
  exact congrArg Prod.snd (next_eq_scan (ahead_taken fresh k))

theorem alone_eq (k : Nat) :
    l.alone k = ⟨(l.taken k).scan.1, (l.taken k).scan.2.start, (l.taken k).scan.2.offset⟩ :=
  see_of_fresh (ahead_taken fresh k) .next

/-- After the end has been taken, it is taken again and again. -/
theorem alone_of_eof (atEnd : (l.alone k).answer = .ok .eof) (n : Nat) : l.alone (k + n) = l.alone k := by
  induction n with
  | zero => rfl
  | succ n ih =>
    rw [← ih, alone_eq fresh] at atEnd
    have scanned : (l.taken (k + n)).scan = (.ok .eof, l.taken (k + n + 1)) :=
      Prod.ext atEnd (taken_succ fresh (k + n)).symm
    rw [← ih, ← Nat.add_assoc, alone_eq fresh, alone_eq fresh, scan_of_eof scanned, scanned]

end

/-! ## Two lexers -/

/-- The second lexer stands where the first one stands when it has taken so many tokens, or it has scanned
one more, which it holds. -/
inductive InStep (l : Lexer) (k : Nat) : Lexer → Prop where
  | level : InStep l k (l.taken k)
  | held {t : Token} {m : Lexer} : (l.taken k).scan = (.ok t, m) → InStep l k { m with ahead := some t }

namespace InStep

variable (fresh : l.ahead = none)

include fresh

theorem see (inStep : InStep l k m) (c : Call) : m.see c = l.alone k := by
  rw [alone_eq fresh]
  cases inStep with
  | level => exact see_of_fresh (ahead_taken fresh k) c
  | held scanned =>
    rw [scanned]
    exact see_of_held rfl c

theorem next (inStep : InStep l k m) : InStep l (k + 1) (m.call .next).2 := by
  cases inStep with
  | level =>
    have called : (l.taken k).call .next = (l.taken k).scan := next_eq_scan (ahead_taken fresh k)
    rw [called, ← taken_succ fresh]
    exact .level
  | @held t m scanned =>
    have reached : l.taken (k + 1) = m := by rw [taken_succ fresh, scanned]
    have empty : m.ahead = none := reached ▸ ahead_taken fresh (k + 1)
    have given : { m with ahead := none } = m := by rw [← empty]
    change InStep l (k + 1) { m with ahead := none }
    rw [given, ← reached]
    exact .level

theorem peek (inStep : InStep l k m) (answered : (m.call .peek).1.isOk = true) :
    InStep l k (m.call .peek).2 := by
  cases inStep with
  | level =>
    obtain ⟨t, m, scanned⟩ := scan_of_peek (ahead_taken fresh k) answered
    rw [peek_of_scan (ahead_taken fresh k) scanned]
    exact .held scanned
  | held scanned => exact .held scanned

/-- Only the calls that take a token count. -/
theorem call (inStep : InStep l k m) {c : Call} (answered : (m.call c).1.isOk = true) :
    InStep l (k + [c].count .next) (m.call c).2 := by
  cases c with
  | next => exact inStep.next fresh
  | peek => exact inStep.peek fresh answered

theorem after (inStep : InStep l k m) (answered : ∀ a ∈ m.answers calls, a.2.isOk = true) :
    InStep l (k + calls.count .next) (m.after calls) := by
  induction calls generalizing k m with
  | nil => exact inStep
  | cons c calls ih =>
    obtain ⟨first, others⟩ := List.forall_mem_cons.1 answered
    rw [← List.singleton_append, List.count_append, ← Nat.add_assoc]
    exact ih (inStep.call fresh first) others

/-- What is taken are the tokens that would have been taken, in their order. -/
theorem takings (inStep : InStep l k m) (answered : ∀ a ∈ m.answers calls, a.2.isOk = true) :
    Lexer.takings (m.answers calls) =
      (List.range' k (calls.count .next)).map fun j => (l.alone j).answer := by
  induction calls generalizing k m with
  | nil => rfl
  | cons c calls ih =>
    obtain ⟨first, others⟩ := List.forall_mem_cons.1 answered
    have rest := ih (inStep.call fresh first) others
    cases c with
    | next =>
      have here : (m.call .next).1 = (l.alone k).answer := congrArg Sight.answer (inStep.see fresh .next)
      rw [List.count_cons_self, List.range'_succ, List.map_cons, ← here]
      exact congrArg (_ :: ·) rest
    | peek => exact rest

/-- Looking once more, and then again, finds the same token and moves nothing. -/
theorem repeated (inStep : InStep l k m) (answered : (m.see .peek).answer = .ok t) (n : Nat) :
    InStep l k (m.after (List.replicate n .peek)) := by
  induction n with
  | zero => exact inStep
  | succ n ih =>
    rw [List.replicate_succ', after_append]
    refine ih.peek fresh ?_
    have same : ((m.after (List.replicate n .peek)).see .peek).answer = .ok t := by
      rw [ih.see fresh, ← inStep.see fresh .peek, answered]
    exact congrArg Except.isOk same

end InStep

end Lexer

/-! ## All calls -/

/-- After calls that have all been answered with a token, those that took one have taken, in order, what is
taken without looking ahead; and any further call shows, be it a token or the first error, what the next such
taking shows: its answer, the start of the token, and the offset.  So a token that is looked at stays the same
however often it is looked at, nothing moves meanwhile, and it is the one that is taken then.  The end is
taken again and again. -/
theorem peek_transparent {source : String} {calls : List Lexer.Call}
    (answered : ∀ a ∈ (Lexer.ofSource source).answers calls, a.2.isOk = true) :
    let fresh := Lexer.ofSource source
    let l := fresh.after calls
    let k := calls.count .next
    Lexer.takings (fresh.answers calls) = (List.range k).map (fun j => (fresh.alone j).answer) ∧
    (∀ c, l.see c = fresh.alone k) ∧
    (∀ t, (l.see .peek).answer = .ok t →
      ∀ n c, (l.after (List.replicate n .peek)).see c = l.see .peek) ∧
    ∀ j, (fresh.alone j).answer = .ok .eof → ∀ n, fresh.alone (j + n) = fresh.alone j := by
  intro fresh l k
  have empty : fresh.ahead = none := rfl
  have start : fresh.InStep 0 fresh := .level
  have inStep : fresh.InStep k l := Nat.zero_add k ▸ start.after empty answered
  refine ⟨?_, inStep.see empty, fun t found n c => ?_, fun j atEnd => Lexer.alone_of_eof empty atEnd⟩
  · rw [start.takings empty answered, List.range_eq_range']
  · rw [(inStep.repeated empty found n).see empty, inStep.see empty]

/-- A template with a string in its interpolation, and a character that begins no token behind it. -/
def peekedSource : String := "\x60a$\x7b 'b' \x7d\x60 ?"

/-- Two looks before the first token is taken, one before the third, and none before the second. -/
def peekedCalls : List Lexer.Call := [.peek, .peek, .next, .next, .peek, .next]

set_option maxRecDepth 4000 in
theorem peek_transparent_of_peekedSource :
    (∀ a ∈ (Lexer.ofSource peekedSource).answers peekedCalls, a.2.isOk = true) ∧
    Lexer.takings ((Lexer.ofSource peekedSource).answers peekedCalls) =
      [.ok (.templateStart "a"), .ok (.string "b"), .ok (.templateEnd "")] ∧
    ∀ c, ((Lexer.ofSource peekedSource).after peekedCalls).see c =
      ⟨.error (.unexpectedCharacter '?' ⟨1, 13, 12⟩), ⟨1, 13, 12⟩, 13⟩ := by
  have answers : (Lexer.ofSource peekedSource).answers peekedCalls =
      [(.peek, .ok (.templateStart "a")), (.peek, .ok (.templateStart "a")), (.next, .ok (.templateStart "a")),
        (.next, .ok (.string "b")), (.peek, .ok (.templateEnd "")), (.next, .ok (.templateEnd ""))] := by decide +kernel
  have answered : ∀ a ∈ (Lexer.ofSource peekedSource).answers peekedCalls, a.2.isOk = true := by
    rw [answers]
    simp [Except.isOk, Except.toBool]
  have next : (Lexer.ofSource peekedSource).alone 3 =
      ⟨.error (.unexpectedCharacter '?' ⟨1, 13, 12⟩), ⟨1, 13, 12⟩, 13⟩ := by decide +kernel
  refine ⟨answered, ?_, fun c => ((peek_transparent answered).2.1 c).trans next⟩
  rw [answers]
  rfl

end TinyScript
