import PathRouter.Text.Quoted

/-!
# Json — indented JSON

A value is kept as the lines it is written on, so that putting values into a list or an object
moves their lines to the right.  This file defines

* `Json.Lines`, and `Json.number`, `Json.string`, `Json.list` and `Json.object`, which make them;
* `Json.toText`, the lines as one text.
-/

namespace PathRouter
namespace Json

abbrev Lines := List Text

def escape (c : Char) : Text :=
  if c = '"' then ['\\', '"']
  else if c = '\\' then ['\\', '\\']
  else if c = '\x08' then ['\\', 'b']
  else if c = '\t' then ['\\', 't']
  else if c = '\n' then ['\\', 'n']
  else if c = '\x0c' then ['\\', 'f']
  else if c = '\r' then ['\\', 'r']
  else if c.toNat < 32 then
    ['\\', 'u', '0', '0', Nat.digitChar (c.toNat / 16), Nat.digitChar (c.toNat % 16)]
  else [c]

def quote (s : Text) : Text := '"' :: s.flatMap escape ++ ['"']

def string (s : Text) : Lines := [quote s]

def number (n : Nat) : Lines := [(toString n).toList]

/-- The lines with a comma at the end of the last. -/
def comma : Lines → Lines
  | [] => []
  | [line] => [line ++ [',']]
  | line :: lines => line :: comma lines

/-- The lines of neighbours, with commas between them. -/
def separate : List Lines → Lines
  | [] => []
  | [item] => item
  | item :: items => comma item ++ separate items

/-- Neighbours between brackets, two places further to the right. -/
def enclose (opening closing : Char) : List Lines → Lines
  | [] => [[opening, closing]]
  | items => [opening] :: (separate items).map (' ' :: ' ' :: ·) ++ [[closing]]

def list (items : List Lines) : Lines := enclose '[' ']' items

def field (key : Text) : Lines → Lines
  | [] => []
  | line :: lines => (quote key ++ [':', ' '] ++ line) :: lines

def object (fields : List (Text × Lines)) : Lines :=
  enclose '\x7b' '\x7d' (fields.map fun (key, value) => field key value)

def toText (lines : Lines) : Text := Text.join ['\n'] lines

end Json
end PathRouter
