import TinyScript.Heap
import TinyScript.NameMap
import TinyScript.Scalar

/-! # Values and objects

Scalars are values by themselves; arrays and objects are handles of the heap, so two names of one
array see each other's changes. The heap also holds a cell for every binding of a name.

* `Value.kind`, `Value.isTruthy`, `Value.same`: as for scalars; arrays, objects and functions are
  compared by identity;
* `Object`: what the heap holds;
* `readProperty`: the property of a value.
-/

namespace TinyScript

/-- A declared function. Two functions are the same if they come from the same place in the same
program, and `site` numbers these places. -/
structure Function where
  name : String
  params : List String
  body : List Stmt
  site : Nat

inductive Value where
  | scalar (value : Scalar)
  | array (handle : Handle)
  | object (handle : Handle)
  | function (code : Function)
  | library (name : String)

namespace Value

def undefined : Value := scalar .undefined

def number (x : Float) : Value := scalar (.number x)

def string (s : String) : Value := scalar (.string s)

def boolean (b : Bool) : Value := scalar (.boolean b)

instance : Inhabited Value := ⟨undefined⟩

def kind : Value → Kind
  | scalar value => value.kind
  | array _ => .array
  | object _ => .object
  | function _ => .function
  | library _ => .library

def isTruthy : Value → Bool
  | scalar value => value.isTruthy
  | _ => true

def number? : Value → Option Float
  | scalar value => value.number?
  | _ => none

def handle? : Value → Option Handle
  | array handle => some handle
  | object handle => some handle
  | _ => none

def same : Value → Value → Bool
  | scalar a, scalar b => a.same b
  | array a, array b => a = b
  | object a, object b => a = b
  | function a, function b => a.site == b.site
  | library a, library b => a == b
  | _, _ => false

/-- The text of a value without a look at the heap. -/
def label : Value → String
  | scalar value => value.text
  | array _ => "[array]"
  | object _ => "[object]"
  | function code => "[Function: " ++ code.name ++ "]"
  | library name => "[object " ++ name ++ "]"

end Value

/-- What the heap holds. -/
inductive Object where
  /-- The cell of a bound name. -/
  | binding (value : Value)
  | array (elements : Array Value)
  | record (fields : NameMap Value)

def Object.handles : Object → List Handle
  | binding value => value.handle?.toList
  | array elements => elements.toList.filterMap (·.handle?)
  | record fields => fields.values.filterMap (·.handle?)

instance : HasHandles Object := ⟨Object.handles⟩

def Heap.elements? (h : Heap Object) (handle : Handle) : Option (Array Value) :=
  match h.get? handle with
  | some (.array elements) => some elements
  | _ => none

/-- The property of a value: the field of an object, or the length of an array or string. What is
not there is `undefined`; a value of another kind has no properties at all. -/
def readProperty (h : Heap Object) (receiver : Value) (property : String) :
    Except ExecutionError Value :=
  match receiver with
  | .object handle =>
    match h.get? handle with
    | some (.record fields) => .ok ((fields.get? property).getD .undefined)
    | _ => .ok .undefined
  | .array handle =>
    if property = "length" then
      match h.elements? handle with
      | some elements => .ok (.number elements.size.toFloat)
      | none => .ok .undefined
    else .ok .undefined
  | .scalar (.string text) =>
    .ok (if property = "length" then .number text.length.toFloat else .undefined)
  | _ => .error (.notAnObject property)

end TinyScript
