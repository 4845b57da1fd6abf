import PathRouter.Text.Basic

/-!
# Toml — the contents of a configuration file

This file defines

* `Toml.Item`, a value or a table, and `Toml.Table`, items by key;
* `Toml.Table.descend`, work on a table below another one, along a path of keys;
* `Toml.Table.assign`, `Toml.Table.openTable` and `Toml.Table.openElement`, what the three kinds of
  lines of a document do, each refused where it would define something a second time.

Floating-point numbers, dates and times are kept without their values, which no setting needs.
-/

namespace PathRouter
namespace Toml

mutual

/-- A value or a table. -/
inductive Item where
  | string (value : Text)
  | integer (value : Int)
  | float
  | boolean (value : Bool)
  | datetime
  | array (items : List Item)
  /-- A table written between braces. -/
  | braced (table : Table)
  /-- A table with a header, or one that a path of keys implies. -/
  | table (table : Table)
  /-- The tables under headers in double brackets. -/
  | tables (elements : List Table)

/-- Items by key, in the order of the document. -/
structure Table where
  /-- Whether the table has so far been implied only, by a longer path. -/
  implied : Bool
  /-- Whether the longer path was that of an assignment. -/
  dotted : Bool
  entries : List (Text × Item)

end

namespace Table

def empty : Table := ⟨false, false, []⟩

instance : Inhabited Table := ⟨empty⟩

def get? (t : Table) (key : Text) : Option Item := t.entries.lookup key

/-- The entries with an item in place of the one under its key, or else at the end. -/
def putEntry (key : Text) (item : Item) : List (Text × Item) → List (Text × Item)
  | [] => [(key, item)]
  | (k, old) :: rest =>
    if k = key then (key, item) :: rest else (k, old) :: putEntry key item rest

/-- The table with an item under a key. -/
def put (t : Table) (key : Text) (item : Item) : Table :=
  { t with entries := putEntry key item t.entries }

/-- Work on the table at the end of a path of keys.  Tables on the way are made as needed; an
assignment may not pass through one that has been defined otherwise.  Of an array of tables the last
is meant.  Inside braces there are only tables between braces. -/
def descend (braced dotted : Bool) (f : Table → Option Table) : List Text → Table → Option Table
  | [], t => f t
  | key :: path, t =>
    let inner (sub : Table) : Option Table :=
      if dotted && !sub.implied then none else descend braced dotted f path sub
    match t.get? key with
    | none =>
      (descend braced dotted f path ⟨true, dotted, []⟩).map fun sub =>
        t.put key (if braced then .braced sub else .table sub)
    | some (.braced sub) =>
      if braced then (inner sub).map fun sub => t.put key (.braced sub) else none
    | some (.table sub) =>
      if braced then none else (inner sub).map fun sub => t.put key (.table sub)
    | some (.tables elements) =>
      if braced then none
      else
        elements.getLast?.bind fun sub =>
          (descend braced dotted f path sub).map fun sub =>
            t.put key (.tables (elements.dropLast ++ [sub]))
    | some _ => none

/-- The table with an item under a path and a key that are new to it. -/
def assign (braced : Bool) (path : List Text) (key : Text) (item : Item) (t : Table) :
    Option Table :=
  let place (t : Table) : Option Table :=
    if t.dotted = path.isEmpty || (t.get? key).isSome then none else some (t.put key item)
  descend braced true place path t

/-- The table with a table under a path and a key, which has at most been implied. -/
def openTable (path : List Text) (key : Text) (t : Table) : Option Table :=
  let place (t : Table) : Option Table :=
    match t.get? key with
    | none => some (t.put key (.table empty))
    | some (.table sub) =>
      if sub.implied && !sub.dotted then some (t.put key (.table ⟨false, false, sub.entries⟩))
      else none
    | some _ => none
  descend false false place path t

/-- The table with one more element in the array of tables under a path and a key. -/
def openElement (path : List Text) (key : Text) (t : Table) : Option Table :=
  let place (t : Table) : Option Table :=
    match t.get? key with
    | none => some (t.put key (.tables [empty]))
    | some (.tables elements) => some (t.put key (.tables (elements ++ [empty])))
    | some _ => none
  descend false false place path t

end Table
end Toml
end PathRouter
