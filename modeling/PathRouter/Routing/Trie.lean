import PathRouter.Text.Basic

/-!
# Trie — values under texts, found by the beginnings of a path

This file defines

* `Trie`, a tree of characters with a value at some of its places;
* `Trie.update`, which changes the value under a key, and `Trie.get?`, which reads it;
* `Trie.prefixes`, all keys that a path starts with, longest first;
* `Trie.entries`, all keys in ascending order, and `Trie.size`, their number.

Characters are compared by code point, which is also the order of their bytes in UTF-8.
-/

namespace PathRouter

/-- Neighbouring branches in ascending order of their characters: the first branch with its value
and what lies below it, and the branches after it. -/
inductive Branches (V : Type) where
  | nil
  | cons (c : Char) (value : Option V) (down next : Branches V)

structure Trie (V : Type) where
  root : Option V
  branches : Branches V

namespace Branches

variable {V : Type}

/-- The value at the end of a single branch along a key, and the branch. -/
def stem (v : V) : Text → Option V × Branches V
  | [] => (some v, .nil)
  | c :: key =>
    let (value, down) := stem v key
    (none, .cons c value down .nil)

/-- The branches with the value under the key `c :: key` replaced by `f` of it. -/
def update (f : Option V → V) (c : Char) (key : Text) : Branches V → Branches V
  | .nil =>
    let (value, down) := stem (f none) key
    .cons c value down .nil
  | .cons d value down next =>
    if c = d then
      match key with
      | [] => .cons d (some (f value)) down next
      | e :: key => .cons d value (down.update f e key) next
    else if c < d then
      let (new, below) := stem (f none) key
      .cons c new below (.cons d value down next)
    else .cons d value down (next.update f c key)

def get? (c : Char) (key : Text) : Branches V → Option V
  | .nil => none
  | .cons d value down next =>
    if c = d then
      match key with
      | [] => value
      | e :: key => down.get? e key
    else next.get? c key

/-- The keys that the path `c :: rest` starts with, shortest first: each with what follows it in
the path and with its value.  `key` is reversed and holds what leads to these branches. -/
def prefixes (key : Text) (c : Char) (rest : Text) : Branches V → List (Text × Text × V)
  | .nil => []
  | .cons d value down next =>
    if c = d then
      let here := value.toList.map fun v => ((c :: key).reverse, rest, v)
      match rest with
      | [] => here
      | e :: after => here ++ down.prefixes (c :: key) e after
    else next.prefixes key c rest

/-- All keys with their values, in ascending order. -/
def entries (key : Text) : Branches V → List (Text × V)
  | .nil => []
  | .cons c value down next =>
    value.toList.map (fun v => ((c :: key).reverse, v)) ++ down.entries (c :: key) ++
      next.entries key

def size : Branches V → Nat
  | .nil => 0
  | .cons _ value down next => (if value.isSome then 1 else 0) + down.size + next.size

end Branches

namespace Trie

variable {V : Type}

def empty : Trie V := ⟨none, .nil⟩

instance : Inhabited (Trie V) := ⟨empty⟩

/-- The trie with the value under a key replaced by `f` of it. -/
def update (f : Option V → V) (t : Trie V) : Text → Trie V
  | [] => { t with root := some (f t.root) }
  | c :: key => { t with branches := t.branches.update f c key }

def get? (t : Trie V) : Text → Option V
  | [] => t.root
  | c :: key => t.branches.get? c key

/-- The keys that a path starts with, longest first: each with what follows it in the path and with
its value. -/
def prefixes (t : Trie V) (path : Text) : List (Text × Text × V) :=
  let here := t.root.toList.map fun v => ([], path, v)
  match path with
  | [] => here
  | c :: rest => (here ++ t.branches.prefixes [] c rest).reverse

/-- All keys with their values, in ascending order. -/
def entries (t : Trie V) : List (Text × V) :=
  t.root.toList.map (fun v => ([], v)) ++ t.branches.entries []

def size (t : Trie V) : Nat := (if t.root.isSome then 1 else 0) + t.branches.size

def isEmpty (t : Trie V) : Bool := t.size = 0

end Trie
end PathRouter
