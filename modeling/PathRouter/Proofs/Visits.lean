import PathRouter.Proofs.Consistency
import PathRouter.Proofs.Tree
import PathRouter.Proofs.Walk

/-!
# Visits — what the callback of a walk is shown

A walk calls its callback with one route after the other and stops as soon as the callback says so.  This
file defines

* `noting`, a callback that also notes the routes which it is called with;
* `Visited`, which of the routes of a list are shown, and whether one of them stops the walk;
* `Router.places`, the nodes that a walk comes to, each with the nodes of the mounts around it;

and shows `Builder.walk_visits`: a walk shows the routes of the router up to the first at which the callback
stops, wherever in the tree that is, and the pattern of each route is made up of the mounts around it.
-/

namespace PathRouter

/-! ## Callbacks -/

section Callbacks

variable {σ : Type} {f : RouteInfo → σ → Bool × σ}

/-- A callback that also notes, in order, the routes which it is called with. -/
def noting (f : RouteInfo → σ → Bool × σ) (info : RouteInfo) (s : σ × List RouteInfo) :
    Bool × (σ × List RouteInfo) :=
  let (stop, next) := f info s.1
  (stop, next, s.2 ++ [info])

/-- The callback goes on at each of the routes, which takes it from one state to another. -/
def Declines (f : RouteInfo → σ → Bool × σ) : List RouteInfo → σ → σ → Prop
  | [], s, last => last = s
  | info :: rest, s, last => ∃ next, f info s = (false, next) ∧ Declines f rest next last

/-- Of a list those routes are shown, and the callback ends in a state, that go up to the first at which it
stops, or all of them if it stops at none. -/
inductive Visited (f : RouteInfo → σ → Bool × σ) (s : σ) (list : List RouteInfo) :
    Bool → σ → List RouteInfo → Prop
  | stopped {before after : List RouteInfo} {info : RouteInfo} {here last : σ} :
      list = before ++ info :: after → Declines f before s here → f info here = (true, last) →
        Visited f s list true last (before ++ [info])
  | all {last : σ} : Declines f list s last → Visited f s list false last list

/-- A callback that goes on is shown one route more. -/
theorem Visited.cons {info : RouteInfo} {list seen : List RouteInfo} {s next last : σ} {stop : Bool}
    (declined : f info s = (false, next)) :
    Visited f next list stop last seen → Visited f s (info :: list) stop last (info :: seen) := by
  intro visited
  cases visited with
  | @stopped before after stops _ _ split on here =>
      have before' : Declines f (info :: before) s _ := ⟨next, declined, on⟩
      exact .stopped (congrArg (info :: ·) split) before' here
  | all on =>
      have all : Declines f (info :: list) s last := ⟨next, declined, on⟩
      exact .all all

/-- Visits of a list show a beginning of it. -/
theorem visitEach_noting (f : RouteInfo → σ → Bool × σ) (list seen : List RouteInfo) (s : σ) :
    ∃ stop last shown, visitEach (noting f) list (s, seen) = (stop, last, seen ++ shown) ∧
      visitEach f list s = (stop, last) ∧ Visited f s list stop last shown := by
  induction list generalizing s seen with
  | nil => exact ⟨false, s, [], by simp [visitEach], rfl, .all rfl⟩
  | cons info list ih =>
      rcases answer : f info s with ⟨stop, next⟩
      cases stop with
      | true =>
          refine ⟨true, next, [info], by simp [visitEach, noting, answer], by simp [visitEach, answer], ?_⟩
          have none : Declines f [] s s := rfl
          exact .stopped rfl none answer
      | false =>
          rcases ih (seen ++ [info]) next with ⟨stop, last, shown, noted, plain, visited⟩
          refine ⟨stop, last, info :: shown, ?_, by simp [visitEach, answer, plain], visited.cons answer⟩
          simp [visitEach, noting, answer, noted]

end Callbacks

/-! ## Places -/

/-- A node that serves by itself, below the nodes of the mounts around it, outermost first. -/
structure Place where
  mounts : List CompiledNode
  node : CompiledNode
  kind : RouteKind

namespace Place

/-- A place as seen from the router that holds the mount around it. -/
def under (mount : CompiledNode) (p : Place) : Place := { p with mounts := mount :: p.mounts }

/-- The canonical form of the node, behind those of the mounts without their marks. -/
def pattern (p : Place) : Text :=
  p.mounts.flatMap (fun mount => withoutMountMark mount.pattern.canonical) ++ p.node.pattern.canonical

def info (p : Place) : RouteInfo := ⟨p.pattern, p.kind⟩

end Place

namespace Router

/-- The nodes of a tree that serve by themselves, in the order of the resolvers. -/
def places (r : Router) : List Place :=
  r.resolver.order.flatMap fun i =>
    match here : r.nodes[i]? with
    | none => []
    | some node =>
      match kind : node.kind with
      | .empty => [⟨[], node, .empty⟩]
      | .handler => [⟨[], node, .handler⟩]
      | .methods allow => [⟨[], node, .methods allow⟩]
      | .router inner =>
        have := sizeOf_lt_of_kind (List.mem_of_getElem? here) kind
        inner.places.map (Place.under node)
termination_by sizeOf r

/-- The places of a node, seen from its level. -/
def nodePlaces (node : CompiledNode) : List Place :=
  match node.kind with
  | .empty => [⟨[], node, .empty⟩]
  | .handler => [⟨[], node, .handler⟩]
  | .methods allow => [⟨[], node, .methods allow⟩]
  | .router inner => inner.places.map (Place.under node)

theorem places_eq (r : Router) :
    r.places = r.resolver.order.flatMap fun i => (r.nodes[i]?.map nodePlaces).getD [] := by
  rw [places]
  refine congrFun (congrArg List.flatMap (funext fun i => ?_)) _
  split
  next here => simp [here]
  next node here =>
    have there : (r.nodes[i]?.map nodePlaces).getD [] = nodePlaces node := by simp [here]
    rw [there]
    split
    next kind => simp [nodePlaces, kind]
    next kind => simp [nodePlaces, kind]
    next allow kind => simp [nodePlaces, kind]
    next inner kind => simp [nodePlaces, kind]

/-- A node that holds a router has the mark of a mount at the end of its canonical form. -/
theorem Built.marked {rules : Rules} {r inner : Router} {node : CompiledNode} (built : r.Built rules)
    (mem : node ∈ r.nodes) (kind : node.kind = .router inner) :
    ∃ before, node.pattern.canonical = before ++ ['/', '*'] :=
  Pattern.isMount_iff.1 ((built.made node mem).router kind).1

/-- Below a mount, a listing shows the places with the mount before them. -/
theorem Built.listing {rules : Rules} {r : Router} (built : r.Built rules) (mount : Text) :
    r.listing (fun r => r.resolver.order) mount =
      r.places.map fun p => ⟨withoutMountMark mount ++ p.pattern, p.kind⟩ := by
  induction r using Router.induct generalizing mount with
  | step r ih =>
      have below : ∀ node ∈ r.nodes, node.listing (fun r => r.resolver.order) mount =
          (nodePlaces node).map fun p => ⟨withoutMountMark mount ++ p.pattern, p.kind⟩ := by
        intro node mem
        have inner (nested : Router) (kind : node.kind = .router nested) :=
          ih node mem nested kind (built.nested mem kind)
            (joinPattern mount node.pattern.canonical)
        have marked (nested : Router) (kind : node.kind = .router nested) := built.marked mem kind
        rcases node with ⟨pattern, handler, kind⟩
        cases kind with
        | empty => rfl
        | handler => rfl
        | methods allow => rfl
        | router nested =>
            rcases marked nested rfl with ⟨before, mark⟩
            simp only at mark
            -- the router below is listed under the joined pattern, which ends in the mark
            refine (inner nested rfl).trans ?_
            simp only [nodePlaces, List.map_map]
            refine List.map_congr_left fun p _ => ?_
            simp only [Function.comp_apply, Place.under, Place.pattern, List.flatMap_cons, joinPattern,
              mark, withoutMountMark_append, ← List.append_assoc]
      rw [listing_eq, places_eq, List.map_flatMap]
      refine congrFun (congrArg List.flatMap (funext fun i => ?_)) _
      cases here : r.nodes[i]? with
      | none => rfl
      | some node => exact below node (List.mem_of_getElem? here)

/-- All that stands around a place is a mount. -/
theorem Built.marked_of_mem_places {rules : Rules} {r : Router} (built : r.Built rules) :
    ∀ p ∈ r.places, ∀ mount ∈ p.mounts, ∃ before, mount.pattern.canonical = before ++ ['/', '*'] := by
  induction r using Router.induct with
  | step r ih =>
      intro p listed mount around
      rw [places_eq] at listed
      rcases List.mem_flatMap.1 listed with ⟨i, -, found⟩
      cases here : r.nodes[i]? with
      | none => simp [here] at found
      | some node =>
          have mem := List.mem_of_getElem? here
          simp only [here, Option.map_some, Option.getD_some] at found
          cases kind : node.kind with
          | router inner =>
              simp only [nodePlaces, kind, List.mem_map] at found
              rcases found with ⟨q, below, rfl⟩
              rcases List.mem_cons.1 around with rfl | deeper
              · exact built.marked mem kind
              · exact ih node mem inner kind (built.nested mem kind) q below mount deeper
          | _ =>
              simp only [nodePlaces, kind, List.mem_singleton] at found
              simp [found] at around

end Router

/-- A walk shows the callback the routes of the router up to the first at which the callback stops, on
whatever level that is, and all of them if it stops at none.  The routes are the nodes that serve by
themselves, each with its canonical form behind those of the mounts around it. -/
theorem Builder.walk_visits {rules : Rules} {b : Builder} (registered : b.Registered rules) :
    (∀ (σ : Type) (f : RouteInfo → σ → Bool × σ) (s : σ), ∃ stop last shown,
      b.freeze.walk (noting f) (s, []) = (stop, last, shown) ∧ b.freeze.walk f s = (stop, last) ∧
        Visited f s b.freeze.routes stop last shown) ∧
    b.freeze.routes = b.freeze.places.map Place.info ∧
    ∀ p ∈ b.freeze.places, ∀ mount ∈ p.mounts,
      ∃ before, mount.pattern.canonical = before ++ ['/', '*'] := by
  refine ⟨?_, ?_, registered.built.marked_of_mem_places⟩
  · intro σ f s
    rcases visitEach_noting f b.freeze.routes [] s with ⟨stop, last, shown, noted, plain, visited⟩
    rw [Router.routes_eq] at noted plain
    refine ⟨stop, last, shown, ?_, ?_, visited⟩
    · rw [Router.walk, Router.walkUnder_eq, noted, List.nil_append]
    · rw [Router.walk, Router.walkUnder_eq, plain]
  · rw [Router.routes_eq]
    exact registered.built.listing []

/-- A callback that stops at the second route, which is found two mounts down. -/
theorem Builder.walk_visits_nested :
    let page : NodeCall := .handle (Handler.writing fun _ _ w => w) []
    let H : History :=
      [.route "/api".toList [.route "/\x7bv\x7d".toList [.call "/b".toList page, .call "/c".toList page]],
        .call "/a".toList page]
    let second (_ : RouteInfo) (n : Nat) : Bool × Nat := (n + 1 == 2, n + 1)
    ∃ b, H.run = .ok b ∧ b.Registered .any ∧
      b.freeze.routes = [⟨"/a".toList, .handler⟩, ⟨"/api/\x7bv\x7d/b".toList, .handler⟩,
        ⟨"/api/\x7bv\x7d/c".toList, .handler⟩] ∧
      b.freeze.places.map (fun p => p.mounts.map fun mount => mount.pattern.canonical) =
        [[], ["/api/*".toList, "/\x7bv\x7d/*".toList], ["/api/*".toList, "/\x7bv\x7d/*".toList]] ∧
      b.freeze.routes = b.freeze.places.map Place.info ∧
      b.freeze.walk second 0 = (true, 2) ∧
      Visited second 0 b.freeze.routes true 2
        [⟨"/a".toList, .handler⟩, ⟨"/api/\x7bv\x7d/b".toList, .handler⟩] := by
  intro page H second
  have obeys : ∀ r ∈ H, r.Obeys .any := fun r _ => r.obeys_any
  obtain ⟨b, ran, routes, mounts, walked⟩ : ∃ b, H.run = .ok b ∧
      b.freeze.routes = [⟨"/a".toList, .handler⟩, ⟨"/api/\x7bv\x7d/b".toList, .handler⟩,
        ⟨"/api/\x7bv\x7d/c".toList, .handler⟩] ∧
      b.freeze.places.map (fun p => p.mounts.map fun mount => mount.pattern.canonical) =
        [[], ["/api/*".toList, "/\x7bv\x7d/*".toList], ["/api/*".toList, "/\x7bv\x7d/*".toList]] ∧
      b.freeze.walk (noting second) (0, []) =
        (true, 2, [⟨"/a".toList, .handler⟩, ⟨"/api/\x7bv\x7d/b".toList, .handler⟩]) :=
    ⟨_, rfl, rfl, by decide +kernel, rfl⟩
  have registered := History.registered obeys ran
  rcases walk_visits registered with ⟨visits, patterns, -⟩
  rcases visits Nat second 0 with ⟨stop, last, shown, noted, plain, visited⟩
  cases walked.symm.trans noted
  exact ⟨b, ran, registered, routes, mounts, patterns, plain, visited⟩

end PathRouter
