import PathRouter.Text.Printable

/-!
# Quoted — text as messages show it

Messages name a path or a value between double quotes, with what cannot be read written as an
escape.  This file defines

* `Text.hexDigits`, lower-case hexadecimal;
* `Text.escape`, the form of one character, and `Text.quote`, the form of a text;
* `quoted`, the same for a `String`.
-/

namespace PathRouter
namespace Text

def hexDigits (n : Nat) : Text := Nat.toDigits 16 n

/-- One character inside quotes. -/
def escape (c : Char) : Text :=
  if c = '"' then ['\\', '"']
  else if c = '\\' then ['\\', '\\']
  else if c = '\x00' then ['\\', '0']
  else if c = '\t' then ['\\', 't']
  else if c = '\n' then ['\\', 'n']
  else if c = '\r' then ['\\', 'r']
  else if isPrintable c then [c]
  else ['\\', 'u', '{'] ++ hexDigits c.toNat ++ ['}']

/-- A text between double quotes. -/
def quote (s : Text) : Text := '"' :: s.flatMap escape ++ ['"']

end Text

/-- A text as messages show it. -/
def quoted (s : Text) : String := String.ofList (Text.quote s)

end PathRouter
