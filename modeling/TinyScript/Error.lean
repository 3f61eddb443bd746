import TinyScript.Parser.Basic
import TinyScript.Program

/-! # Failures of a script

One type per stage after parsing, and `ScriptError` for all of them.

* `CompileError`: a program has no stack code, or stack code is not well formed;
* `ExecutionError`: evaluation stopped;
* `ScriptError`: any stage failed; its message begins with the name of the stage.
-/

namespace TinyScript

inductive Kind where
  | undefined | boolean | number | string | array | object | function | library
  deriving Repr, DecidableEq

def Kind.name : Kind → String
  | undefined => "undefined"
  | boolean => "boolean"
  | number => "number"
  | string => "string"
  | array => "array"
  | object => "object"
  | function => "function"
  | library => "namespace"

inductive CompileError where
  | unsupportedNode (kind : String)
  | invalidJumpTarget (index target length : Nat)
  | invalidConstant (index constant length : Nat)
  deriving Repr, DecidableEq

def CompileError.message : CompileError → String
  | unsupportedNode kind => kind ++ " cannot be compiled to bytecode"
  | invalidJumpTarget index target length =>
    "instruction " ++ toString index ++ " jumps to " ++ toString target ++ ", outside 0.." ++
      toString length
  | invalidConstant index constant length =>
    "instruction " ++ toString index ++ " loads constant " ++ toString constant ++
      ", outside 0.." ++ toString length

/-- What is wrong with the arguments of a builtin. Indices count from zero. -/
inductive ArgumentFault where
  | missing (index : Nat)
  | wrongKind (index : Nat) (wanted : Kind) (found : Kind)
  | freedArray
  | refused (reason : String)
  deriving Repr, DecidableEq

def Kind.phrase : Kind → String
  | .array => "an array"
  | .object => "an object"
  | .undefined => "undefined"
  | other => "a " ++ other.name

def ArgumentFault.message : ArgumentFault → String
  | missing index => "missing argument " ++ toString (index + 1)
  | wrongKind index wanted found =>
    "argument " ++ toString (index + 1) ++ " must be " ++ wanted.phrase ++ ", got " ++ found.name
  | freedArray => "array has been freed"
  | refused reason => reason

/-- Why evaluation stopped, on either back end. -/
inductive ExecutionError where
  | unknownOperator (symbol : String)
  | undefinedIdentifier (name : String)
  | functionNotFound (name : String)
  | notCallable (name : String)
  | unknownBuiltin (library operation : String)
  | typeMismatch (operator : String) (left right : Kind)
  | notAnObject (property : String)
  | argument (function : String) (fault : ArgumentFault)
  | arityMismatch (name : String) (expected found : Nat)
  | stackUnderflow (index : Nat)
  | stepLimitExceeded (limit : Nat)
  | callDepthExceeded (limit : Nat)
  | invalidBytecode (error : CompileError)
  deriving Repr, DecidableEq

def ExecutionError.message : ExecutionError → String
  | unknownOperator symbol => "unknown operator '" ++ symbol ++ "'"
  | undefinedIdentifier name => name ++ " is not defined"
  | functionNotFound name => "function " ++ name ++ " is not defined"
  | notCallable name => name ++ " is not a function"
  | unknownBuiltin library operation =>
    library ++ "." ++ operation ++ " is not a builtin operation"
  | typeMismatch operator left right =>
    "cannot apply '" ++ operator ++ "' to " ++ left.name ++ " and " ++ right.name
  | notAnObject property => "cannot read property '" ++ property ++ "' of a non-object"
  | argument function fault => function ++ ": " ++ fault.message
  | arityMismatch name expected found =>
    name ++ " expects " ++ toString expected ++ " arguments, got " ++ toString found
  | stackUnderflow index => "operand stack underflow at instruction " ++ toString index
  | stepLimitExceeded limit => "step limit of " ++ toString limit ++ " instructions exceeded"
  | callDepthExceeded limit => "maximum call depth of " ++ toString limit ++ " exceeded"
  | invalidBytecode error => "invalid bytecode: " ++ error.message

def BinaryOp.ofSymbol (symbol : String) : Except ExecutionError BinaryOp :=
  match BinaryOp.ofSymbol? symbol with
  | some op => .ok op
  | none => .error (.unknownOperator symbol)

/-- Why a script did not run to its end. -/
inductive ScriptError where
  | lex (error : LexError)
  | parse (error : ParseError)
  | compile (error : CompileError)
  | execution (error : ExecutionError)
  deriving DecidableEq

namespace ScriptError

/-- A failure to parse; where the tokens already fail, it is theirs. -/
def ofParse : ParseError → ScriptError
  | .lex error => lex error
  | other => parse other

def message : ScriptError → String
  | lex error => "lex error: " ++ error.message
  | parse error => "parse error: " ++ error.message
  | compile error => "compile error: " ++ error.message
  | execution error => "execution error: " ++ error.message

end ScriptError

end TinyScript
