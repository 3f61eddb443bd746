import TinyScript.Text.Printable

/-! # Quoted text

Text between double quotes in which every character that would not be seen as itself is escaped:
the usual letters for NUL, tab, line feed and carriage return, a backslash before a backslash or
a quote, and the scalar value in hexadecimal for the rest.
-/

namespace TinyScript.Text

/-- The scalar value of a character in lower-case hexadecimal, in braces after `\u`. -/
def escapeCode (c : Char) : String :=
  "\\u\x7b" ++ String.ofList (Nat.toDigits 16 c.toNat) ++ "\x7d"

def escape (c : Char) : String :=
  if c = '\x00' then "\\0"
  else if c = '\t' then "\\t"
  else if c = '\n' then "\\n"
  else if c = '\r' then "\\r"
  else if c = '"' then "\\\""
  else if c = '\\' then "\\\\"
  else if isPrintable c then String.singleton c
  else escapeCode c

def quoted (s : String) : String :=
  "\"" ++ s.toList.foldl (fun out c => out ++ escape c) "" ++ "\""

/-- Quoted text in which only backslashes and quotes are escaped. -/
def plainQuoted (s : String) : String :=
  "\"" ++ s.toList.foldl (fun out c =>
    if c = '"' ∨ c = '\\' then (out.push '\\').push c else out.push c) "" ++ "\""

end TinyScript.Text
