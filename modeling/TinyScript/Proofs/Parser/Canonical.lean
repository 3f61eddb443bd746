import TinyScript.Proofs.Lexer.Scan
import TinyScript.Proofs.Number.Digits
import TinyScript.Proofs.Parser.Grammar

/-! # Programs that are read are canonical

The names that a lexer delivers are names, and its numbers are values of runs of digits
(`Lexer.canonical_streamUpTo`).  Every production keeps to what can be written down, given such tokens
(`establishes_canonical`), so that a program that a text spells is canonical at every node
(`parseProgram_canonical`).
-/

namespace TinyScript

/-! ## Tokens -/

/-- A token whose name is a name, or whose number is the value of a run of digits. -/
def Token.Canonical : Token → Prop
  | .identifier name => IsName name
  | .number x => ∃ ds, IsDigits ds ∧ Number.ofDigits ds = x
  | _ => True

theorem Token.canonical_of_isTemplate {t : Token} (template : t.isTemplate = true) : t.Canonical := by
  cases t with
  | identifier | number => cases template
  | _ => trivial

namespace Lexer

variable {l l' : Lexer} {t : Token}

/-- A word that is no keyword is a name. -/
theorem canonical_word {cs : List Char} (isWord : IsWord cs) : (word (String.ofList cs)).Canonical := by
  unfold word
  split
  · trivial
  · next noKeyword => exact ⟨by rwa [String.toList_ofList], noKeyword⟩

theorem Consists.canonical {own : List Char} (consists : Consists own t) : t.Canonical := by
  cases consists with
  | number digits => exact ⟨own, digits, rfl⟩
  | word isWord => exact canonical_word isWord
  | string | punctuator => trivial

theorem canonical_scan (scanned : l.scan = (.ok t, l')) : t.Canonical := by
  rcases scan_eq_ok scanned with ⟨rfl, _⟩ | ⟨_, c, rest, p, _, token⟩
  · trivial
  · obtain ⟨own, _, consists | continues⟩ := scanToken_consists rfl token
    · exact consists.canonical
    · exact Token.canonical_of_isTemplate continues.isTemplate

theorem canonical_streamUpTo (n : Nat) (l : Lexer) : (l.streamUpTo n).All Token.Canonical := by
  induction n generalizing l with
  | zero => trivial
  | succ n ih =>
    unfold streamUpTo
    split
    · trivial
    · trivial
    · next t l' _ scanned => exact ⟨canonical_scan scanned, ih l'⟩

end Lexer

/-! ## Nodes -/

/-- The callee that an expression denotes is written as it is called. -/
theorem Callee.canonical_ofExpr {base : Expr} (canonical : base.All Node.Canonical) :
    (Callee.ofExpr base).Canonical := by
  have self : (Node.expr base).Canonical := canonical base (Expr.self_mem_nodes base)
  unfold Callee.ofExpr
  split
  · exact self
  · next object property => exact ⟨canonical (.identifier object) (by simp), self⟩
  · next noName noProperty =>
    unfold Callee.Canonical
    split <;> simp_all

theorem establishes_canonical : Parser.Establishes Token.Canonical Node.Canonical := by
  constructor
  case number => exact fun _ isNumber => isNumber
  case identifier => exact fun _ isName => isName
  case member => exact fun _ _ isName => isName
  case assign | declare => exact fun _ _ _ isName => isName
  case call => exact fun _ _ canonical => Callee.canonical_ofExpr canonical
  case function => exact fun _ _ _ isName areNames => ⟨isName, areNames, rfl⟩
  case forLoop =>
    intro init test update body clause
    cases init with
    | none => trivial
    | some init => exact clause init rfl
  all_goals
    intros
    trivial

/-! ## Programs -/

theorem Program.canonical_of_parse {source : String} {p : Program} (parsed : parseProgram source = .ok p) :
    p.Canonical := by
  have tokens := Lexer.canonical_streamUpTo (source.length + 1) (.ofSource source)
  obtain ⟨s', done⟩ := Parser.parse_eq_ok parsed
  exact Stmt.all_nodesAll.2 (establishes_canonical.readProgram _ p s' tokens done).1

/-- A program that a text spells is canonical: an expression that is called is neither a name nor a property
of one, all names are names and no keywords, loops begin with a declaration or an expression, and every number
is the value of a run of digits, which is a number and not below zero. -/
theorem parseProgram_canonical {source : String} {p : Program} (parsed : parseProgram source = .ok p) :
    p.Canonical ∧ ∀ x, Node.literal (.number x) ∈ p.nodes →
      (∃ ds, IsDigits ds ∧ x = Number.ofDigits ds) ∧ x.isNaN = false ∧ ¬ x < 0 := by
  have canonical := Program.canonical_of_parse parsed
  refine ⟨canonical, fun x member => ?_⟩
  obtain ⟨ds, digits, rfl⟩ := canonical _ member
  exact ⟨⟨ds, digits, rfl⟩, Number.isNaN_ofDigits ds, Number.not_ofDigits_lt_zero ds⟩

def Node.isNumber : Node → Bool
  | .expr (.literal (.number _)) => true
  | _ => false

theorem Node.exists_number {n : Node} (isNumber : n.isNumber = true) : ∃ x, n = .literal (.number x) := by
  unfold Node.isNumber at isNumber
  split at isNumber
  · exact ⟨_, rfl⟩
  · cases isNumber

/-- Callees in parentheses, a call of what a call gives, and a number inside a template. -/
theorem canonical_of_calls : ∃ p x,
    parseProgram "(f)(); (o.m)(\x60$\x7b7\x7d\x60)();" = .ok p ∧ Node.literal (.number x) ∈ p.nodes ∧
      p.Canonical ∧ (∃ ds, IsDigits ds ∧ x = Number.ofDigits ds) ∧ x.isNaN = false ∧ ¬ x < 0 := by
  have number : (parseProgram "(f)(); (o.m)(\x60$\x7b7\x7d\x60)();").toOption.any
      (·.nodes.any Node.isNumber) = true := by decide +kernel
  cases parsed : parseProgram "(f)(); (o.m)(\x60$\x7b7\x7d\x60)();" with
  | error e =>
    rw [parsed] at number
    cases number
  | ok p =>
    rw [parsed] at number
    obtain ⟨n, member, isNumber⟩ := List.any_eq_true.1 number
    obtain ⟨x, rfl⟩ := Node.exists_number isNumber
    exact ⟨p, x, rfl, member, (parseProgram_canonical parsed).1, (parseProgram_canonical parsed).2 x member⟩

end TinyScript
