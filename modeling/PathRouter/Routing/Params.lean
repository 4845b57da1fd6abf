import PathRouter.Assoc
import PathRouter.Text.Quoted

/-!
# Params — the values captured along a route

A name may be captured at several levels of a route, so each name has a history of values.  This
file defines

* `ParamValue`, one value or several, in the order of capture;
* `Params`, histories by name, with `set`, `add` and `merge`;
* `Params.parse`, which reads the latest value as something other than text, and `ParamError`.
-/

namespace PathRouter

inductive ParamValue where
  | one (value : Text)
  | many (values : List Text)
  deriving DecidableEq, Repr

namespace ParamValue

def values : ParamValue → List Text
  | .one value => [value]
  | .many values => values

def last : ParamValue → Text
  | .one value => value
  | .many values => values.getLast?.getD []

def push (value : Text) : ParamValue → ParamValue
  | .one first => .many [first, value]
  | .many values => .many (values ++ [value])

end ParamValue

/-- The captured values by name, in ascending order of the names. -/
structure Params where
  entries : List (Text × ParamValue)
  deriving DecidableEq, Repr

inductive ParamError where
  | missing (name : Text)
  | invalid (name value : Text)
  deriving DecidableEq, Repr

def ParamError.message : ParamError → String
  | .missing name => s!"route parameter {quoted name} is missing"
  | .invalid name value => s!"route parameter {quoted name} has invalid value {quoted value}"

namespace Params

def empty : Params := ⟨[]⟩

instance : Inhabited Params := ⟨empty⟩

def size (p : Params) : Nat := p.entries.length

def isEmpty (p : Params) : Bool := p.entries.isEmpty

def get? (p : Params) (name : Text) : Option ParamValue := Assoc.get? name p.entries

def latest? (p : Params) (name : Text) : Option Text := (p.get? name).map ParamValue.last

def all (p : Params) (name : Text) : List Text :=
  ((p.get? name).map ParamValue.values).getD []

/-- The value in place of whatever is stored under the name. -/
def set (p : Params) (name value : Text) : Params :=
  ⟨Assoc.insert name (.one value) p.entries⟩

/-- The value after those already stored under the name. -/
def add (p : Params) (name value : Text) : Params :=
  ⟨Assoc.alter name (fun | none => .one value | some old => old.push value) p.entries⟩

/-- The values of `q` after those of `p`, name by name. -/
def merge (p q : Params) : Params :=
  q.entries.foldl (fun r (name, value) => value.values.foldl (fun r v => r.add name v) r) p

/-- The values given as a list of pairs, each added in turn. -/
def ofList (pairs : List (Text × Text)) : Params :=
  pairs.foldl (fun p (name, value) => p.add name value) empty

/-- The latest value under a name, as `read` understands it. -/
def parse {α : Type} (read : Text → Option α) (p : Params) (name : Text) :
    Except ParamError α :=
  match p.latest? name with
  | none => .error (.missing name)
  | some value =>
    match read value with
    | none => .error (.invalid name value)
    | some a => .ok a

end Params
end PathRouter
