import PathRouter.Toml.Number

/-!
# Document — from the text of a configuration file to its contents

This file defines

* `Toml.value?`, the reader of values, which nest up to a fixed depth;
* `Toml.Document`, the tables read so far and the one that assignments go to;
* `Toml.parse?`, the contents of a whole text.
-/

namespace PathRouter
namespace Toml

/-! ## Values -/

def boolean? (s : Text) : Option (Bool × Text) :=
  match "true".toList.isPrefixOf? s with
  | some rest => some (true, rest)
  | none => ("false".toList.isPrefixOf? s).map (false, ·)

/-- A value that is neither an array nor a table. -/
def scalar? : Reader Item := fun s =>
  match s with
  | [] => none
  | c :: _ =>
    if c = '"' || c = '\'' then (string? s).map fun (value, rest) => (.string value, rest)
    else if c = 't' || c = 'f' then (boolean? s).map fun (value, rest) => (.boolean value, rest)
    else number? s

/-- The elements of an array after its bracket; the first argument bounds their number. -/
def elements? (value : Reader Item) : Nat → Reader (List Item)
  | 0, _ => none
  | count + 1, s =>
    match skipLines false s with
    | ']' :: rest => some ([], rest)
    | s =>
      (value s).bind fun (item, rest) =>
        match skipLines false rest with
        | ',' :: rest =>
          (elements? value count rest).map fun (items, rest) => (item :: items, rest)
        | ']' :: rest => some ([item], rest)
        | _ => none

/-- An assignment, after which spaces are skipped. -/
def assignment? (value : Reader Item) : Reader ((List Text × Text) × Item) := fun s =>
  (keyPath? s).bind fun (path, rest) =>
    (Text.expect? '=' rest).bind fun rest =>
      (value (skipSpaces rest)).map fun (item, rest) => ((path, item), skipSpaces rest)

/-- The assignments of a table between braces from one of them on; the first argument bounds their
number. -/
def assignments? (value : Reader Item) : Nat → Table → Reader Table
  | 0, _, _ => none
  | count + 1, t, s =>
    (assignment? value s).bind fun (((path, key), item), rest) =>
      (t.assign true path key item).bind fun t =>
        match rest with
        | ',' :: rest => assignments? value count t rest
        | '}' :: rest => some (t, rest)
        | _ => none

/-- A value that nests no deeper than the first argument says. -/
def value? : Nat → Reader Item
  | 0, s =>
    match s with
    | '[' :: _ => none
    | '{' :: _ => none
    | _ => scalar? s
  | depth + 1, s =>
    match s with
    | '[' :: rest =>
      (elements? (value? depth) s.length rest).map fun (items, rest) => (.array items, rest)
    | '{' :: rest =>
      match skipSpaces rest with
      | '}' :: rest => some (.braced .empty, rest)
      | _ =>
        (assignments? (value? depth) s.length .empty rest).map fun (t, rest) => (.braced t, rest)
    | _ => scalar? s

/-! ## Documents -/

/-- The tables of a document, and the path of the one that assignments go to. -/
structure Document where
  root : Table
  current : List Text

namespace Document

def empty : Document := ⟨.empty, []⟩

/-- An assignment to the current table. -/
def assign (d : Document) (path : List Text) (key : Text) (item : Item) : Option Document :=
  (Table.descend false false (Table.assign false path key item) d.current d.root).map
    fun root => { d with root := root }

def openTable (d : Document) (path : List Text) (key : Text) : Option Document :=
  (d.root.openTable path key).map (⟨·, path ++ [key]⟩)

/-- The header of an element of an array of tables. -/
def openElement (d : Document) (path : List Text) (key : Text) : Option Document :=
  (d.root.openElement path key).map (⟨·, path ++ [key]⟩)

/-- A line that is not empty, up to the spaces before its end. -/
def readLine (d : Document) (s : Text) : Option (Document × Text) :=
  match s with
  | '[' :: '[' :: rest => do
    let ((path, key), rest) ← keyPath? rest
    let rest ← Text.expect? ']' rest
    let rest ← Text.expect? ']' rest
    return (← d.openElement path key, rest)
  | '[' :: rest => do
    let ((path, key), rest) ← keyPath? rest
    let rest ← Text.expect? ']' rest
    return (← d.openTable path key, rest)
  | _ => do
    let (((path, key), item), rest) ← assignment? (value? depthLimit) s
    return (← d.assign path key item, rest)

/-- The lines of a text; the first argument bounds their number. -/
def readLines : Nat → Document → Text → Option Document
  | 0, _, _ => none
  | count + 1, d, s =>
    match skipSpaces s with
    | [] => some d
    | s =>
      match lineEnd? s with
      | some rest => readLines count d rest
      | none =>
        (d.readLine s).bind fun (d, rest) =>
          (lineEnd? rest).bind fun rest => readLines count d rest

end Document

/-- The text without a byte order mark. -/
def withoutMark : Text → Text
  | '\ufeff' :: rest => rest
  | s => s

def parse? (s : Text) : Option Table :=
  let s := withoutMark s
  (Document.readLines (s.length + 1) .empty s).map Document.root

end Toml
end PathRouter
