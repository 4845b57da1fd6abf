import PathRouter.Router.Basic
import Mathlib.Data.List.Perm.Basic

/-!
# Walk — a walk over a tree of routes visits one list

The walk of a router descends into the routers that are mounted in it.  This file defines

* `Router.listing`, the routes of a tree, level by level in some order of the nodes;
* `visitEach`, the visits of a list, until one of them says to stop;

and shows `Router.walkUnder_eq`, that a walk visits the listing in the order of the resolvers, and
`Router.listing_perm`, that the order of the nodes is all that the order of a listing depends on.
-/

namespace PathRouter

theorem Router.sizeOf_lt_of_kind {r inner : Router} {node : CompiledNode} (mem : node ∈ r.nodes)
    (kind : node.kind = .router inner) : sizeOf inner < sizeOf r := by
  have below := List.sizeOf_lt_of_mem mem
  rcases r with ⟨nodes, resolver, entry, options⟩
  rcases node with ⟨pattern, handler, _⟩
  cases kind
  simp only [CompiledNode.mk.sizeOf_spec, NodeKind.router.sizeOf_spec, mk.sizeOf_spec] at below ⊢
  omega

/-- What is carried from the routers that a router holds to the router itself holds of all routers. -/
theorem Router.induct {P : Router → Prop}
    (step : ∀ r : Router, (∀ node ∈ r.nodes, ∀ inner, node.kind = .router inner → P inner) → P r)
    (r : Router) : P r :=
  step r fun node mem inner kind =>
    have := sizeOf_lt_of_kind mem kind
    induct step inner
termination_by sizeOf r

/-! ## Listings -/

mutual

/-- The routes of a router under a mount, where `pick` gives the numbers of the nodes of each level. -/
def Router.listing (pick : Router → List Nat) (mount : Text) : Router → List RouteInfo
  | ⟨nodes, resolver, entry, options⟩ =>
    (pick ⟨nodes, resolver, entry, options⟩).flatMap fun i =>
      ((listings pick mount nodes)[i]?).getD []

def listings (pick : Router → List Nat) (mount : Text) : List CompiledNode → List (List RouteInfo)
  | [] => []
  | node :: nodes => node.listing pick mount :: listings pick mount nodes

def CompiledNode.listing (pick : Router → List Nat) (mount : Text) : CompiledNode → List RouteInfo
  | ⟨pattern, _, kind⟩ => kind.listing pick (joinPattern mount pattern.canonical)

/-- A node is listed itself, unless it holds a router. -/
def NodeKind.listing (pick : Router → List Nat) (pattern : Text) : NodeKind → List RouteInfo
  | .empty => [⟨pattern, .empty⟩]
  | .handler => [⟨pattern, .handler⟩]
  | .methods allow => [⟨pattern, .methods allow⟩]
  | .router nested => nested.listing pick pattern

end

theorem listings_eq_map (pick : Router → List Nat) (mount : Text) (nodes : List CompiledNode) :
    listings pick mount nodes = nodes.map (CompiledNode.listing pick mount) := by
  induction nodes with
  | nil => simp [listings]
  | cons node nodes ih => simp [listings, ih]

theorem Router.listing_eq (pick : Router → List Nat) (mount : Text) (r : Router) :
    r.listing pick mount = (pick r).flatMap fun i =>
      (r.nodes[i]?.map (CompiledNode.listing pick mount)).getD [] := by
  rcases r with ⟨nodes, resolver, entry, options⟩
  simp only [listing, listings_eq_map, List.getElem?_map]

/-! ## Walks -/

section Visits

variable {σ : Type} {f : RouteInfo → σ → Bool × σ}

/-- Visits one after the other, until one of them says to stop; whether it did, and the last state. -/
def visitEach (f : RouteInfo → σ → Bool × σ) : List RouteInfo → σ → Bool × σ
  | [], s => (false, s)
  | info :: rest, s =>
    match f info s with
    | (true, s) => (true, s)
    | (false, s) => visitEach f rest s

theorem visitEach_append (first last : List RouteInfo) (s : σ) :
    visitEach f (first ++ last) s =
      match visitEach f first s with
      | (true, s) => (true, s)
      | (false, s) => visitEach f last s := by
  induction first generalizing s with
  | nil => rfl
  | cons info first ih =>
      simp only [List.cons_append, visitEach]
      rcases f info s with ⟨stop, s⟩
      cases stop with
      | true => rfl
      | false => exact ih s

theorem walkNodes_eq_map (f : RouteInfo → σ → Bool × σ) (mount : Text) (nodes : List CompiledNode) :
    walkNodes f mount nodes = nodes.map (CompiledNode.walkUnder f mount) := by
  induction nodes with
  | nil => simp [walkNodes]
  | cons node nodes ih => simp [walkNodes, ih]

/-- Visits by numbers visit what the numbers stand for. -/
theorem visitAll_eq {visits : List (σ → Bool × σ)} {list : Nat → List RouteInfo}
    (each : ∀ i, (visits[i]? = none ∧ list i = []) ∨
      ∃ visit, visits[i]? = some visit ∧ ∀ s, visit s = visitEach f (list i) s)
    (numbers : List Nat) (s : σ) :
    visitAll visits numbers s = visitEach f (numbers.flatMap list) s := by
  induction numbers generalizing s with
  | nil => rfl
  | cons i numbers ih =>
      rw [List.flatMap_cons, visitEach_append, visitAll]
      rcases each i with ⟨absent, empty⟩ | ⟨visit, here, same⟩
      · rw [absent, empty]
        exact ih s
      · simp only [here, ← same]
        rcases visit s with ⟨stop, s⟩
        cases stop with
        | true => rfl
        | false => exact ih s

end Visits

/-- A walk visits the listing in the order of the resolvers. -/
theorem Router.walkUnder_eq {σ : Type} (f : RouteInfo → σ → Bool × σ) (mount : Text) (r : Router)
    (s : σ) :
    r.walkUnder f mount s = visitEach f (r.listing (fun r => r.resolver.order) mount) s := by
  induction r using Router.induct generalizing mount s with
  | step r ih =>
      have alone (info : RouteInfo) (s : σ) : f info s = visitEach f [info] s := by
        rw [visitEach]
        rcases f info s with ⟨stop, s⟩
        cases stop <;> rfl
      -- a node is visited by itself, or it is a router, to which the induction applies
      have below : ∀ node ∈ r.nodes, ∀ s, node.walkUnder f mount s =
          visitEach f (node.listing (fun r => r.resolver.order) mount) s := by
        intro node mem s
        have inner := ih node mem
        rcases node with ⟨pattern, handler, kind⟩
        cases kind with
        | empty => exact alone _ s
        | handler => exact alone _ s
        | methods allow => exact alone _ s
        | router nested => exact inner nested rfl _ s
      rw [listing_eq]
      rcases r with ⟨nodes, resolver, entry, options⟩
      rw [walkUnder, walkNodes_eq_map]
      refine visitAll_eq (fun i => ?_) resolver.order s
      cases here : nodes[i]? with
      | none => exact .inl ⟨by simp [here], rfl⟩
      | some node =>
          exact .inr ⟨node.walkUnder f mount, by simp [here], below node (List.mem_of_getElem? here)⟩

/-- All that is listed, in the order of the resolvers. -/
theorem Router.routes_eq (r : Router) : r.routes = r.listing (fun r => r.resolver.order) [] := by
  -- no visit of the collector says to stop, so the list is visited to its end
  have collect (list seen : List RouteInfo) :
      visitEach (fun info seen => (false, seen ++ [info])) list seen = (false, seen ++ list) := by
    induction list generalizing seen with
    | nil => simp [visitEach]
    | cons info list ih => simp [visitEach, ih]
  rw [routes, walk, walkUnder_eq, collect, List.nil_append]

/-! ## The order of the nodes -/

/-- Routers that are found in a tree, at any depth. -/
inductive Router.Within (r : Router) : Router → Prop
  | self : Within r r
  | nested {outer inner : Router} {node : CompiledNode} : Within r outer → node ∈ outer.nodes →
      node.kind = .router inner → Within r inner

theorem Router.Within.of_node {r inner level : Router} {node : CompiledNode} (mem : node ∈ r.nodes)
    (kind : node.kind = .router inner) : inner.Within level → r.Within level := by
  intro within
  induction within with
  | self => exact .nested .self mem kind
  | nested _ mem' kind' ih => exact .nested ih mem' kind'

/-- Listings of a tree hold the same routes if the orders of all its levels hold the same nodes. -/
theorem Router.listing_perm {pick other : Router → List Nat} (r : Router)
    (same : ∀ level, r.Within level → (pick level).Perm (other level)) (mount : Text) :
    (r.listing pick mount).Perm (r.listing other mount) := by
  induction r using Router.induct generalizing mount with
  | step r ih =>
      have below : ∀ node ∈ r.nodes, (node.listing pick mount).Perm (node.listing other mount) := by
        intro node mem
        have inner (nested : Router) (kind : node.kind = .router nested) :=
          ih node mem nested kind fun level within => same level (within.of_node mem kind)
        rcases node with ⟨pattern, handler, kind⟩
        cases kind with
        | empty => exact .refl _
        | handler => exact .refl _
        | methods allow => exact .refl _
        | router nested => exact inner nested rfl _
      rw [listing_eq, listing_eq]
      refine (same r .self).flatMap fun i _ => ?_
      cases here : r.nodes[i]? with
      | none => exact .refl _
      | some node => exact below node (List.mem_of_getElem? here)

end PathRouter
