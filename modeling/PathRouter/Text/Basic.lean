/-!
# Text — sequences of characters and the cuts the router makes in them

Paths, patterns and parameter values are lists of Unicode characters.  This file defines

* `Text`, the type, and `Text.utf8Length`, the size in which offsets are reported;
* `Text.expect?`, `Text.breakAt`, `Text.splitOn` and `Text.breakOn`, the cuts at a character and at
  a phrase;
* `Text.join`, the inverse of splitting.

Taking a known beginning or ending off a text is `List.isPrefixOf?` and `List.isSuffixOf?`.
-/

namespace PathRouter

/-- A path, a pattern or a value taken from one. -/
abbrev Text := List Char

namespace Text

/-- The number of bytes of the text in UTF-8. -/
def utf8Length : Text → Nat
  | [] => 0
  | c :: rest => c.utf8Size + utf8Length rest

@[simp] theorem utf8Length_nil : utf8Length [] = 0 := rfl

@[simp] theorem utf8Length_cons (c : Char) (rest : Text) :
    utf8Length (c :: rest) = c.utf8Size + utf8Length rest := rfl

theorem utf8Length_append (s t : Text) :
    utf8Length (s ++ t) = utf8Length s + utf8Length t := by
  induction s with
  | nil => simp
  | cons c rest ih => simp [ih, Nat.add_assoc]

/-! ## Cuts -/

/-- The text after a character, if it starts with it. -/
def expect? (c : Char) : Text → Option Text
  | d :: rest => if c = d then some rest else none
  | [] => none

/-- The text before the first `sep`, and the text after it where there is one. -/
def breakAt (sep : Char) : Text → Text × Option Text
  | [] => ([], none)
  | c :: rest =>
    if c = sep then ([], some rest)
    else
      let (before, after) := breakAt sep rest
      (c :: before, after)

/-- The pieces between the occurrences of `sep`; there is always at least one. -/
def splitOn (sep : Char) : Text → List Text
  | [] => [[]]
  | c :: rest =>
    if c = sep then [] :: splitOn sep rest
    else
      match splitOn sep rest with
      | [] => [[c]]
      | piece :: pieces => (c :: piece) :: pieces

/-- The text before the first occurrence of `phrase` and the text after it. -/
def breakOn (phrase : Text) : Text → Option (Text × Text)
  | [] => if phrase = [] then some ([], []) else none
  | c :: rest =>
    match phrase.isPrefixOf? (c :: rest) with
    | some after => some ([], after)
    | none => (breakOn phrase rest).map fun (before, after) => (c :: before, after)

def contains (phrase s : Text) : Bool := (breakOn phrase s).isSome

/-- The pieces with `sep` between them. -/
def join (sep : Text) : List Text → Text
  | [] => []
  | [piece] => piece
  | piece :: pieces => piece ++ sep ++ join sep pieces

/-! ## ASCII classes -/

def isDigit (c : Char) : Bool := '0' ≤ c && c ≤ '9'

def isLetter (c : Char) : Bool := ('a' ≤ c && c ≤ 'z') || ('A' ≤ c && c ≤ 'Z')

/-- The value of a hexadecimal digit. -/
def hexValue? (c : Char) : Option Nat :=
  if '0' ≤ c && c ≤ '9' then some (c.toNat - '0'.toNat)
  else if 'a' ≤ c && c ≤ 'f' then some (c.toNat - 'a'.toNat + 10)
  else if 'A' ≤ c && c ≤ 'F' then some (c.toNat - 'A'.toNat + 10)
  else none

end Text
end PathRouter
