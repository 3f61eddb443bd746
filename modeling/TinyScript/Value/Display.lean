import TinyScript.Value

/-! # The text of a value

Arrays and objects are written out in full, down to a value that is being written already, which
stands as `[Circular]`. Strings are quoted only inside them.

* `Heap.display`: the text of a value;
* `onValues`: the operators, of which `+` joins such texts.
-/

namespace TinyScript

/-- The text of a value inside the arrays and objects of `path`, of which at most `depth` further
ones can be nested. -/
def Heap.displayIn (h : Heap Object) : (depth : Nat) → (path : List Handle) → Value → String
  | 0, _, value => value.label
  | depth + 1, path, value =>
    match value with
    | .scalar (.string text) => if path.isEmpty then text else "\"" ++ text ++ "\""
    | .array handle | .object handle =>
      if path.contains handle then "[Circular]"
      else
        match h.get? handle with
        | some (.array elements) =>
          "[" ++ String.intercalate ", "
            (elements.toList.map (h.displayIn depth (handle :: path))) ++ "]"
        | some (.record fields) =>
          if fields.isEmpty then "\x7b\x7d"
          else "\x7b " ++ String.intercalate ", "
            (fields.entries.map fun entry =>
              entry.1 ++ ": " ++ h.displayIn depth (handle :: path) entry.2) ++ " \x7d"
        | _ => value.label
    | other => other.label

/-- The text of a value, as a script prints it. Objects on one path are all different, so no path is
longer than the heap has slots. -/
def Heap.display (h : Heap Object) (value : Value) : String :=
  h.displayIn (h.capacity + 1) [] value

def BinaryOp.onValues (op : BinaryOp) (h : Heap Object) (left right : Value) :
    Except ExecutionError Value :=
  match left, right with
  | .scalar a, .scalar b => (op.onScalars a b).map .scalar
  | _, _ =>
    match op with
    | .equal => .ok (.boolean (left.same right))
    | .notEqual => .ok (.boolean (!left.same right))
    | .add =>
      if left.kind = .string ∨ right.kind = .string then
        .ok (.string (h.display left ++ h.display right))
      else .error (.typeMismatch op.symbol left.kind right.kind)
    | _ => .error (.typeMismatch op.symbol left.kind right.kind)

end TinyScript
