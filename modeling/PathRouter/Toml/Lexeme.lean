import PathRouter.Text.Basic

/-!
# Lexeme — blanks, strings and keys of a configuration file

A reader takes something off the start of a text and answers with it and the rest, or with nothing
if the text does not start that way.  This file defines

* `Toml.Reader`, and the readers of blanks, comments and line ends;
* the readers of the four kinds of strings, `Toml.string?`;
* the readers of keys, `Toml.keyPath?`.
-/

namespace PathRouter
namespace Toml

/-- Takes something off the start of a text. -/
abbrev Reader (α : Type) := Text → Option (α × Text)

/-! ## Blanks -/

def isSpace (c : Char) : Bool := c = ' ' || c = '\t'

/-- The text from the first character on that is no space. -/
def skipSpaces (s : Text) : Text := s.dropWhile isSpace

/-- The text after a line end. -/
def newline? : Text → Option Text
  | '\n' :: rest => some rest
  | '\r' :: '\n' :: rest => some rest
  | _ => none

/-- A character that is no control character other than the tab. -/
def isPlain (c : Char) : Bool := c = '\t' || (' ' ≤ c && c ≠ '\x7f')

def skipComment : Text → Text
  | '#' :: rest => rest.dropWhile isPlain
  | s => s

/-- The text after spaces, perhaps a comment, and the end of the line or of the text. -/
def lineEnd? (s : Text) : Option Text :=
  let s := skipComment (skipSpaces s)
  if s.isEmpty then some [] else newline? s

/-- The text after spaces, line ends and comments.  In a comment up to its end. -/
def skipLines (comment : Bool) : Text → Text
  | [] => []
  | '\n' :: rest => skipLines false rest
  | '\r' :: '\n' :: rest => skipLines false rest
  | c :: rest =>
    if comment && isPlain c then skipLines true rest
    else if c = '#' then skipLines true rest
    else if isSpace c then skipLines false rest
    else c :: rest

/-! ## Strings -/

/-- The character whose code point the digits give. -/
def codePoint? (digits : List Char) : Option Char :=
  match digits.mapM Text.hexValue? with
  | none => none
  | some values =>
    let n := values.foldl (fun n d => 16 * n + d) 0
    if n.isValidChar then some (Char.ofNat n) else none

/-- The character that a letter stands for after a backslash. -/
def escaped? (c : Char) : Option Char :=
  if c = 'b' then some '\x08'
  else if c = 't' then some '\t'
  else if c = 'n' then some '\n'
  else if c = 'f' then some '\x0c'
  else if c = 'r' then some '\r'
  else if c = '"' then some '"'
  else if c = '\\' then some '\\'
  else none

/-- A character more at the start of what has been read. -/
def push (c : Char) (read : Option (Text × Text)) : Option (Text × Text) :=
  read.map fun (value, rest) => (c :: value, rest)

/-- The rest of a string between double quotes. -/
def basic? : Reader Text
  | [] => none
  | '"' :: rest => some ([], rest)
  | '\\' :: 'u' :: a :: b :: c :: d :: rest =>
    (codePoint? [a, b, c, d]).bind (push · (basic? rest))
  | '\\' :: 'U' :: a :: b :: c :: d :: e :: f :: g :: h :: rest =>
    (codePoint? [a, b, c, d, e, f, g, h]).bind (push · (basic? rest))
  | '\\' :: c :: rest => (escaped? c).bind (push · (basic? rest))
  | c :: rest => if c ≠ '\\' && isPlain c then push c (basic? rest) else none

/-- Whether a backslash before the text takes the end of its line with it. -/
def continuesLine (s : Text) : Bool := (newline? (skipSpaces s)).isSome

/-- The rest of a string between three double quotes.  After an escaped line end, blanks are
skipped. -/
def basicLines? (skipping : Bool) : Reader Text
  | [] => none
  | '"' :: '"' :: '"' :: '"' :: '"' :: rest =>
    if rest.head? == some '"' then none else some (['"', '"'], rest)
  | '"' :: '"' :: '"' :: '"' :: rest => some (['"'], rest)
  | '"' :: '"' :: '"' :: rest => some ([], rest)
  | '\\' :: 'u' :: a :: b :: c :: d :: rest =>
    (codePoint? [a, b, c, d]).bind (push · (basicLines? false rest))
  | '\\' :: 'U' :: a :: b :: c :: d :: e :: f :: g :: h :: rest =>
    (codePoint? [a, b, c, d, e, f, g, h]).bind (push · (basicLines? false rest))
  | '\\' :: c :: rest =>
    if continuesLine (c :: rest) then
      if c = '\r' || c = '\n' || isSpace c then basicLines? true rest else none
    else (escaped? c).bind (push · (basicLines? false rest))
  | '\r' :: '\n' :: rest =>
    if skipping then basicLines? true rest else push '\n' (basicLines? false rest)
  | c :: rest =>
    if skipping && (isSpace c || c = '\n') then basicLines? true rest
    else if c ≠ '\\' && (isPlain c || c = '\n') then push c (basicLines? false rest)
    else none

/-- The rest of a string between single quotes. -/
def literal? : Reader Text
  | [] => none
  | '\'' :: rest => some ([], rest)
  | c :: rest => if isPlain c then push c (literal? rest) else none

/-- The rest of a string between three single quotes. -/
def literalLines? : Reader Text
  | [] => none
  | '\'' :: '\'' :: '\'' :: '\'' :: '\'' :: rest =>
    if rest.head? == some '\'' then none else some (['\'', '\''], rest)
  | '\'' :: '\'' :: '\'' :: '\'' :: rest => some (['\''], rest)
  | '\'' :: '\'' :: '\'' :: rest => some ([], rest)
  | '\r' :: '\n' :: rest => push '\n' (literalLines? rest)
  | c :: rest => if isPlain c || c = '\n' then push c (literalLines? rest) else none

/-- The text after a line end, if it starts with one. -/
def skipNewline (s : Text) : Text := (newline? s).getD s

def string? : Reader Text
  | '"' :: '"' :: '"' :: rest => basicLines? false (skipNewline rest)
  | '"' :: rest => basic? rest
  | '\'' :: '\'' :: '\'' :: rest => literalLines? (skipNewline rest)
  | '\'' :: rest => literal? rest
  | _ => none

/-! ## Keys -/

/-- A character of a key without quotes. -/
def isBare (c : Char) : Bool := Text.isLetter c || Text.isDigit c || c = '-' || c = '_'

def key? : Reader Text
  | '"' :: rest => basic? rest
  | '\'' :: rest => literal? rest
  | s =>
    let (key, rest) := s.span isBare
    if key.isEmpty then none else some (key, rest)

/-- Keys with points between them, at most as many as the first argument says. -/
def keysUpTo? : Nat → Reader (List Text)
  | 0, _ => none
  | count + 1, s =>
    (key? (skipSpaces s)).bind fun (key, rest) =>
      match skipSpaces rest with
      | '.' :: rest => (keysUpTo? count rest).map fun (keys, rest) => (key :: keys, rest)
      | rest => some ([key], rest)

/-- How deeply values and paths may nest. -/
def depthLimit : Nat := 79

/-- A path of keys and the key at its end, with spaces around. -/
def keyPath? : Reader (List Text × Text) := fun s =>
  (keysUpTo? depthLimit s).bind fun (keys, rest) =>
    keys.getLast?.map fun key => ((keys.dropLast, key), rest)

end Toml
end PathRouter
