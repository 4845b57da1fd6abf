import PathRouter.Text.Basic

/-!
# Regex — the regular expressions that route templates become

This file defines

* `Regex`, expressions that are matched from the start of a text;
* `Regex.source`, their written form, in which the captures are named `p0`, `p1`, … in the order
  in which they open;
* `Regex.depth`, how deeply the written form nests, and `Regex.nestLimit`.
-/

namespace PathRouter

/-- An expression matched from the start of a text. -/
inductive Regex where
  | empty
  | text (cs : Text)
  /-- One or more characters other than a slash, as many as possible. -/
  | segment
  | seq (first second : Regex)
  | alt (first second : Regex)
  /-- The group, or else nothing. -/
  | optional (body : Regex)
  | group (body : Regex)
  | capture (body : Regex)
  /-- The end of the text. -/
  | stop
  deriving DecidableEq, Repr

namespace Regex

/-- How many captures the expression has. -/
def captures : Regex → Nat
  | .seq first second => first.captures + second.captures
  | .alt first second => first.captures + second.captures
  | .optional body => body.captures
  | .group body => body.captures
  | .capture body => body.captures + 1
  | _ => 0

/-! ## Written form -/

/-- Whether the character is written with a backslash before it. -/
def isSpecial (c : Char) : Bool :=
  [ '\\', '.', '+', '*', '?', '(', ')', '|', '[', ']', '{', '}', '^', '$', '#', '&', '-',
    '~' ].contains c

/-- A text that stands for itself. -/
def escape (cs : Text) : Text := cs.flatMap fun c => if isSpecial c then ['\\', c] else [c]

/-- The written form of an expression before which `n` captures open. -/
def write (n : Nat) : Regex → Text
  | .empty => []
  | .text cs => escape cs
  | .segment => ['[', '^', '/', ']', '+']
  | .seq first second => first.write n ++ second.write (n + first.captures)
  | .alt first second => first.write n ++ '|' :: second.write (n + first.captures)
  | .optional body => '(' :: body.write n ++ [')', '?']
  | .group body => '(' :: body.write n ++ [')']
  | .capture body =>
    ['(', '?', 'P', '<', 'p'] ++ (toString n).toList ++ '>' :: body.write (n + 1) ++ [')']
  | .stop => ['$']

/-- The written form of an expression, with the mark that holds it to the start of a text. -/
def source (r : Regex) : Text := '^' :: r.write 0

/-! ## Nesting -/

/-- How many items stand side by side in the written form. -/
def items : Regex → Nat
  | .empty => 0
  | .text cs => cs.length
  | .seq first second => first.items + second.items
  | _ => 1

/-- One level for a list of two or more neighbours. -/
def listLevel (r : Regex) : Nat := if 2 ≤ r.items then 1 else 0

/-- One level for the list of neighbours or of alternatives between two parentheses. -/
def bodyLevel : Regex → Nat
  | .alt _ _ => 1
  | r => r.listLevel

/-- The greatest depth of the items, each taken on its own.  Every group, repetition and class is a
level. -/
def itemDepth : Regex → Nat
  | .empty => 0
  | .text _ => 0
  | .segment => 2
  | .seq first second => max first.itemDepth second.itemDepth
  | .alt first second =>
    max (first.itemDepth + first.listLevel) (second.itemDepth + second.listLevel)
  | .optional body => body.itemDepth + body.bodyLevel + 2
  | .group body => body.itemDepth + body.bodyLevel + 1
  | .capture body => body.itemDepth + body.bodyLevel + 1
  | .stop => 0

/-- How deeply the written form nests; the mark at its start is a neighbour of the items. -/
def depth (r : Regex) : Nat := r.itemDepth + if r.items = 0 then 0 else 1

def nestLimit : Nat := 250

end Regex
end PathRouter
