/-!
# Assoc — association lists in ascending order of their keys

This file defines

* `Assoc.get?`, the value under a key;
* `Assoc.alter`, which changes the value under one key and keeps the keys ascending;
* `Assoc.Sorted`, strictly ascending keys.
-/

namespace PathRouter
namespace Assoc

variable {κ ν : Type} [LT κ] [DecidableLT κ] [DecidableEq κ]

def get? (k : κ) : List (κ × ν) → Option ν
  | [] => none
  | (key, value) :: rest => if k = key then some value else get? k rest

/-- The list with the value under `k` replaced by `f` of it. -/
def alter (k : κ) (f : Option ν → ν) : List (κ × ν) → List (κ × ν)
  | [] => [(k, f none)]
  | (key, value) :: rest =>
    if k = key then (key, f (some value)) :: rest
    else if k < key then (k, f none) :: (key, value) :: rest
    else (key, value) :: alter k f rest

def insert (k : κ) (v : ν) : List (κ × ν) → List (κ × ν) := alter k fun _ => v

/-- Keys strictly ascending. -/
def Sorted (entries : List (κ × ν)) : Prop := entries.Pairwise fun a b => a.1 < b.1

omit [LT κ] [DecidableLT κ] in
@[simp] theorem get?_nil (k : κ) : get? k ([] : List (κ × ν)) = none := rfl

end Assoc
end PathRouter
