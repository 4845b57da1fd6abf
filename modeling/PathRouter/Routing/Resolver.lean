import PathRouter.Pattern.Basic
import PathRouter.Routing.Params
import PathRouter.Routing.Trie

/-!
# Resolver — from a path to the route that answers it

The routes of one router compete for a path.  The one that takes the longest beginning of it wins;
a literal route beats an expression that takes as much, an exact literal beats a mount, and of two
expressions the one registered first wins.  This file defines

* `Resolver`, the routes of one router, and `Resolver.insert`;
* `Resolver.resolve`, the winner, as a `Resolution`;
* `Resolver.order`, the routes in the order of a walk.
-/

namespace PathRouter

/-- How a route takes a path. -/
structure RouteMatch where
  /-- The beginning of the path that the route takes. -/
  taken : Text
  /-- What is left; empty or from a slash on. -/
  remainder : Text
  node : Nat
  params : Params

inductive Resolution where
  | matched (m : RouteMatch)
  /-- A mount was addressed without its final slash. -/
  | redirect (m : RouteMatch)
  | notFound

structure Slot where
  exact : Option Nat
  mount : Option Nat

/-- A way in which some route takes the path, and whether the route is a mount. -/
structure Candidate where
  matched : RouteMatch
  mount : Bool

structure Resolver where
  literals : Trie Slot
  patterns : List (Pattern × Nat)

namespace Resolver

def empty : Resolver := ⟨.empty, []⟩

instance : Inhabited Resolver := ⟨empty⟩

/-- The routes with one more, numbered `node`.  A later literal takes the place of an earlier one
with the same key and of the same kind. -/
def insert (r : Resolver) (pattern : Pattern) (node : Nat) : Resolver :=
  match pattern.key? with
  | some key =>
    let place (slot : Option Slot) : Slot :=
      let slot := slot.getD ⟨none, none⟩
      if pattern.isMount then { slot with mount := some node }
      else { slot with exact := some node }
    { r with literals := r.literals.update place key }
  | none => { r with patterns := r.patterns ++ [(pattern, node)] }

/-! ## Literal routes -/

/-- How the literal routes with the key `key` take the path `key ++ rest`.  The mount with the key
`/` takes nothing. -/
def slotCandidate (path key rest : Text) (slot : Slot) : Option Candidate :=
  let exact : Option Candidate :=
    if rest.isEmpty then slot.exact.map fun node => ⟨⟨key, [], node, .empty⟩, false⟩ else none
  let mount : Option Candidate :=
    slot.mount.bind fun node =>
      if key = ['/'] then some ⟨⟨[], path, node, .empty⟩, true⟩
      else if rest.isEmpty || rest.head? == some '/' then
        some ⟨⟨key, rest, node, .empty⟩, true⟩
      else none
  exact <|> mount

/-- The literal route that takes most of the path. -/
def literalCandidate (r : Resolver) (path : Text) : Option Candidate :=
  (r.literals.prefixes path).findSome? fun (key, rest, slot) => slotCandidate path key rest slot

/-! ## Routes with captures or groups -/

/-- The parameters of a match: the captures that took part, under their names. -/
def captured (names : List Text) (captures : List (Option Regex.Span)) : Params :=
  (names.zip captures).foldl
    (fun params (name, span) =>
      match span with
      | some span => params.add name span.text
      | none => params)
    .empty

/-- The beginning of a path and what is left of it, where a slash at the end of the beginning may
have to be given back. -/
def cut (giveBack : Bool) (whole rest : Text) : Text × Text :=
  if giveBack && whole.getLast? == some '/' then (whole.dropLast, '/' :: rest) else (whole, rest)

/-- How an expression takes the path.  What is not a leaf gives back a slash at its end. -/
def patternMatch (pattern : Pattern) (node : Nat) (path : Text) : Option Candidate :=
  match pattern.matching with
  | .literal _ => none
  | .expression regex names leaf =>
    (regex.match? path).map fun m =>
      let (taken, remainder) := cut (!leaf) (m.whole path) m.rest
      ⟨⟨taken, remainder, node, captured names m.captures⟩, pattern.isMount⟩

/-- The better of two candidates: the second only if it takes more. -/
def longer (best : Option Candidate) (next : Option Candidate) : Option Candidate :=
  match best, next with
  | some b, some n => if b.matched.taken.length < n.matched.taken.length then some n else some b
  | some b, none => some b
  | none, next => next

/-- The expression that takes most of the path. -/
def patternCandidate (r : Resolver) (path : Text) : Option Candidate :=
  r.patterns.foldl (fun best (pattern, node) => longer best (patternMatch pattern node path)) none

/-! ## The winner -/

def resolve (r : Resolver) (path : Text) : Resolution :=
  match longer (r.literalCandidate path) (r.patternCandidate path) with
  | none => .notFound
  | some ⟨m, mount⟩ =>
    if mount && m.remainder.isEmpty && !m.taken.isEmpty then .redirect m else .matched m

/-- The numbers of the routes: the literals in ascending order of their keys, exact before mount,
then the others as registered. -/
def order (r : Resolver) : List Nat :=
  r.literals.entries.flatMap (fun (_, slot) => slot.exact.toList ++ slot.mount.toList) ++
    r.patterns.map Prod.snd

end Resolver
end PathRouter
