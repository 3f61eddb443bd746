import TinyScript.Heap.Collect
import TinyScript.Value

/-! # Scopes

A scope maps names to cells of the heap; an environment is a chain of scopes, innermost first.

* `define`: bind a name in the innermost scope, to a fresh cell;
* `lookup?`: the value of a name in the nearest scope that binds it;
* `assign`: overwrite that value;
* `roots`: the cells of all scopes of the chain.
-/

namespace TinyScript

/-- The cells of the names bound in one place. -/
abbrev Scope := NameMap Handle

namespace Scope

def define (scope : Scope) (h : Heap Object) (name : String) (value : Value) :
    Scope × Heap Object :=
  let (cell, h) := h.allocate (.binding value)
  (scope.insert name cell, h)

/-- Binds names to values in turn; a name without a value is bound to `undefined`. -/
def defineAll (scope : Scope) (h : Heap Object) : List String → List Value → Scope × Heap Object
  | [], _ => (scope, h)
  | name :: names, values =>
    let (scope, h) := scope.define h name (values.headD .undefined)
    defineAll scope h names values.tail

end Scope

abbrev Env := List Scope

namespace Env

/-- The cell of a name in the nearest scope that binds it. -/
def resolve? (env : Env) (name : String) : Option Handle := env.findSome? (·.get? name)

def cellValue? (h : Heap Object) (cell : Handle) : Option Value :=
  match h.get? cell with
  | some (.binding value) => some value
  | _ => none

def lookup? (env : Env) (h : Heap Object) (name : String) : Option Value :=
  (env.resolve? name).bind (cellValue? h)

def cell? (env : Env) (h : Heap Object) (name : String) : Option Handle :=
  match env.resolve? name with
  | some cell => if (cellValue? h cell).isSome then some cell else none
  | none => none

def assign (env : Env) (h : Heap Object) (name : String) (value : Value) :
    Except ExecutionError Unit × Heap Object :=
  match env.cell? h name with
  | some cell => (.ok (), h.update cell fun _ => .binding value)
  | none => (.error (.undefinedIdentifier name), h)

def roots (env : Env) : List Handle := env.flatMap (·.values)

def collect (env : Env) (h : Heap Object) : Heap.Stats × Heap Object := h.collect env.roots

end Env

end TinyScript
