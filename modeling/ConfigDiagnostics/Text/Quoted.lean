import ConfigDiagnostics.Text.Extending
import ConfigDiagnostics.Text.Invisible

/-!
# Texts between quotes

An error that names a text it was given shows it between double quotes, so that a reader sees
where it starts, where it ends, and every character in it.

## Main definitions

* `Text.spelled`: how one character is written between the quotes
* `Text.quoted`: the text between quotes
-/

namespace ConfigDiagnostics.Text

/-- A character by its number, in lower-case hexadecimal between braces. -/
def numbered (c : Char) : List Char :=
  ['\\', 'u', '\x7b'] ++ Nat.toDigits 16 c.toNat ++ ['\x7d']

/-- A character as it is written between the quotes: a short escape for the quote, the backslash
and four common controls, its number where it cannot be seen on its own, and itself otherwise. -/
def spelled (c : Char) : List Char :=
  if c = '\x00' then ['\\', '0']
  else if c = '\t' then ['\\', 't']
  else if c = '\n' then ['\\', 'n']
  else if c = '\r' then ['\\', 'r']
  else if c = '\x22' then ['\\', '\x22']
  else if c = '\\' then ['\\', '\\']
  else if isExtending c || isInvisible c then numbered c
  else [c]

/-- The text between double quotes, each character spelled so that it can be seen. -/
def quoted (text : String) : String :=
  "\"" ++ String.ofList (text.toList.flatMap spelled) ++ "\""

end ConfigDiagnostics.Text
