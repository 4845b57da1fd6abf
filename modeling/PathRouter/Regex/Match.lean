import PathRouter.Regex.Basic

/-!
# Match — running a regular expression over a text

An expression may match the start of a text in several ways, which are tried in a fixed order: the
longer run of a segment first, the body of an optional group before its absence, and alternatives
from left to right.  The first way that carries the whole expression through is the match.  It is
found from the end: before a part of the expression is looked at, the first way through all that
follows it is known for every place of the text, so no part is tried twice at one place.  This file
defines

* `Regex.Match`, the spans of the captures and the text that is left;
* `Regex.Way`, such a match as far as it is known from its end, and `Regex.Table`, one for each
  place of a text;
* `Regex.run`, the table before an expression, given the table after it, and `Regex.match?`.
-/

namespace PathRouter
namespace Regex

/-! ## Ways -/

/-- A piece of a text, given by what is left at its start and at its end. -/
structure Span where
  start : Text
  rest : Text

def Span.text (s : Span) : Text := s.start.take (s.start.length - s.rest.length)

/-- One way in which an expression matches. -/
structure Match where
  /-- One entry for each capture, empty where the capture was passed over. -/
  captures : List (Option Span)
  /-- The text after the match. -/
  rest : Text

/-- The text of a match at the start of `s`. -/
def Match.whole (m : Match) (s : Text) : Text := Span.text ⟨s, m.rest⟩

/-- A match of the last parts of an expression. -/
structure Way extends Match where
  /-- What is left at the ends of the captures whose starts are still to come, innermost first. -/
  ends : List Text

namespace Way

/-- A way that passes over so many captures first. -/
def passOver (count : Nat) (w : Way) : Way :=
  { w with captures := List.replicate count none ++ w.captures }

/-- A way before which a capture ends. -/
def close (rest : Text) (w : Way) : Way := { w with ends := rest :: w.ends }

/-- A way at whose start the capture opens that ends next. -/
def enter (start : Text) (w : Way) : Way :=
  match w.ends with
  | [] => w
  | rest :: ends => ⟨⟨some ⟨start, rest⟩ :: w.captures, w.rest⟩, ends⟩

end Way

/-! ## Tables -/

/-- For every place of a text, from its start to its end, the first way on from there. -/
abbrev Table := List (Option Way)

/-- What is left at every place of a text. -/
def places : Text → List Text
  | [] => [[]]
  | c :: s => (c :: s) :: places s

namespace Table

/-- The way on from the first place. -/
def here (t : Table) : Option Way := t.head?.join

/-- The table at the end of an expression. -/
def final (s : Text) : Table := (places s).map fun rest => some ⟨⟨[], rest⟩, []⟩

/-- The ways of one table, and where it has none those of another. -/
def orElse (first second : Table) : Table := List.zipWith (fun a b => a <|> b) first second

/-- The ways, each passing over so many captures first. -/
def passOver (count : Nat) (t : Table) : Table := t.map (Option.map (Way.passOver count))

/-- The ways, each with a capture that ends before it. -/
def close (s : Text) (t : Table) : Table :=
  List.zipWith (fun rest way => way.map (Way.close rest)) (places s) t

/-- The ways, each with a capture that opens at its start. -/
def enter (s : Text) (t : Table) : Table :=
  List.zipWith (fun start way => way.map (Way.enter start)) (places s) t

/-- The ways through a fixed text, given those from as many places further on as it is long. -/
def text (cs : Text) : Text → Table → Table
  | [], ahead => [ahead.here.filter fun _ => cs.isEmpty]
  | c :: s, ahead => (ahead.here.filter fun _ => cs.isPrefixOf (c :: s)) :: text cs s ahead.tail

/-- The ways through one or more characters other than a slash, as many as possible. -/
def segment : Text → Table → Table
  | [], _ => [none]
  | c :: s, next =>
    let later := segment s next.tail
    (if c = '/' then none else later.here <|> here next.tail) :: later

/-- The ways from the end of the text. -/
def stop : Text → Table → Table
  | [], next => [next.here]
  | _ :: s, next => none :: stop s next.tail

end Table

/-! ## Running -/

/-- The ways through an expression and then on by one of the given ways. -/
def run : Regex → Text → Table → Table
  | .empty, _, next => next
  | .text cs, s, next => Table.text cs s (next.drop cs.length)
  | .segment, s, next => next.segment s
  | .seq first second, s, next => first.run s (second.run s next)
  | .alt first second, s, next =>
    (first.run s (next.passOver second.captures)).orElse
      ((second.run s next).passOver first.captures)
  | .optional body, s, next => (body.run s next).orElse (next.passOver body.captures)
  | .group body, s, next => body.run s next
  | .capture body, s, next => (body.run s (next.close s)).enter s
  | .stop, s, next => next.stop s

/-- The way in which an expression matches the start of a text. -/
def match? (r : Regex) (s : Text) : Option Match := (r.run s (.final s)).here.map Way.toMatch

end Regex
end PathRouter
