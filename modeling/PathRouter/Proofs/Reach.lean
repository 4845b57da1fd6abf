import PathRouter.Proofs.Seam
import PathRouter.Router.Basic

/-!
# Reach — the context in which a single route calls its handler

A router with one route either fails on its own account or calls the handler of the route, once and
with one context.  This file defines

* `Context.after`, the context behind a match of a route;
* `Context.reached`, the context in which a single route of some shape calls its handler;

and shows `dispatcher_single`, that the dispatcher does so, and `Context.reached_append`, that two
steps over two shapes lead where one step over both leads.
-/

namespace PathRouter

namespace Context

variable {cx : Context} {piece rest : Text} {params : Params}

/-- The context once a piece of the path has been taken and the rest is left. -/
def beyond (cx : Context) (piece rest : Text) (params : Params) : Context :=
  if rest = [] then cx.advance cx.fullPath [] (withoutMountMark cx.pattern ++ piece) params
  else
    cx.advance (cx.accumulate piece) rest (withoutMountMark cx.pattern ++ piece ++ ['/', '*']) params

/-- The context behind a match of a route. -/
def after (cx : Context) (m : RouteMatch) : Context := cx.beyond m.taken m.remainder m.params

/-- The context in which a single route of the shape calls its handler, unless it sends the request
elsewhere or does not take the path. -/
def reached (cx : Context) (t : Template) : Option Context :=
  (t.route? 0 cx.path).bind fun m =>
    if m.redirects t.endsInSlash then none else some (cx.after m)

/-! ## Steps -/

/-- A step over a beginning of the path that ends with a segment. -/
theorem step_of_append (parts : piece ++ rest = cx.path)
    (boundary : rest = [] ∨ rest.head? = some '/') (params : Params) :
    cx.step piece params = .ok (cx.beyond piece rest params) := by
  by_cases done : rest = []
  · subst done
    rw [List.append_nil] at parts
    rw [step, if_pos parts, beyond, if_pos rfl]
  · have short : piece ≠ cx.path := by
      rw [← parts]
      exact fun eq => done (List.append_right_eq_self.1 eq.symm)
    have stops : (rest.isEmpty || rest.head? == some '/') = true := by
      simpa using boundary
    rw [step, if_neg short, ← parts, Text.breakOn_append]
    simp only [consume, stops, if_true, beyond, if_neg done, List.nil_append]

theorem path_beyond (cx : Context) (piece rest : Text) (params : Params) :
    (cx.beyond piece rest params).path = rest := by
  by_cases done : rest = [] <;> simp [beyond, advance, done]

theorem params_beyond (cx : Context) (piece rest : Text) (params : Params) :
    (cx.beyond piece rest params).params = cx.params.merge params := by
  by_cases done : rest = [] <;> simp [beyond, advance, done]

end Context

/-! ## One route -/

namespace Template

variable {t : Template} {path : Text} {node : Nat} {m : RouteMatch}

theorem node_of_route? : t.route? node path = some m → m.node = node := by
  intro routed
  rcases Option.map_eq_some_iff.1 routed with ⟨way, _, rfl⟩
  rfl

theorem canonical_of_route? : t.route? node path = some m → m.params.Canonical := by
  intro routed
  rcases Option.map_eq_some_iff.1 routed with ⟨way, _, rfl⟩
  exact Params.canonical_captured _ _

/-- What a route leaves is at the end of a segment. -/
theorem boundary_of_route? :
    t.route? node path = some m → m.remainder = [] ∨ m.remainder.head? = some '/' := by
  intro routed
  rcases Option.map_eq_some_iff.1 routed with ⟨way, found, rfl⟩
  simp only [leave]
  split
  · exact .inr rfl
  · rcases stopsAt_cases (first?_spec found).2 with done | ⟨_, s, slash⟩
    · exact .inl done
    · exact .inr (by rw [slash]; rfl)

end Template

theorem dispatcher_none (resolver : Resolver) (handlers : List Handler) (req : Request)
    (cx : Context) (w : Writer) :
    dispatcher resolver handlers none req cx w = routeToNode resolver handlers req cx w := by
  unfold dispatcher
  rcases routeToNode resolver handlers req cx w with ⟨verdict, w'⟩
  cases verdict <;> rfl

/-- The dispatcher of a single route calls the handler in the context that is reached, and fails on
its own account where none is. -/
theorem dispatcher_single {raw : Text} {p : Pattern} {t : Template}
    (compiled : Pattern.compile raw = .ok p) (described : p.Describes t)
    (form : p.canonical = Pattern.mountForm p.path) (separate : Template.Separate p.path)
    {cx : Context} (nonempty : cx.path ≠ []) (req : Request) :
    ∃ failure, ∀ handler w,
      dispatcher (Router.resolverOf [p]) [handler] none req cx w =
        (cx.reached t).elim (.failed failure, w) fun next => handler req next w := by
  have answer : (Router.resolverOf [p]).resolve cx.path =
      .ofRoute t.endsInSlash (t.route? 0 cx.path) :=
    Resolver.resolve_of_describes compiled described form separate nonempty 0
  simp only [dispatcher_none]
  rw [Context.reached]
  cases routed : t.route? 0 cx.path with
  | none =>
      rw [routed] at answer
      refine ⟨.routeMiss, fun handler w => ?_⟩
      simp only [routeToNode, answer, Resolution.ofRoute]
      rfl
  | some m =>
      rw [routed] at answer
      cases away : m.redirects t.endsInSlash with
      | true =>
          refine ⟨.redirect (.permanent (redirectLocation req cx)), fun handler w => ?_⟩
          simp only [routeToNode, answer, Resolution.ofRoute, Option.bind_some, away,
            if_true]
          rfl
      | false =>
          -- the step over what was taken is never refused
          have stepped := Context.step_of_append (Template.taken_append_remainder routed)
            (Template.boundary_of_route? routed) m.params
          have node := Template.node_of_route? routed
          refine ⟨.routeMiss, fun handler w => ?_⟩
          simp only [routeToNode, answer, Resolution.ofRoute, Option.bind_some, away,
            Bool.false_eq_true, if_false, node, stepped, List.getElem?_cons_zero]
          rfl

/-! ## Two steps -/

namespace Context

open Template

variable {a b : Template} {path : Text}

theorem path_new_ne_nil (path : Text) : (new path).path ≠ [] := by
  cases path with
  | nil => exact List.cons_ne_nil _ _
  | cons c rest => exact List.cons_ne_nil _ _

theorem fullPath_new (path : Text) : (new path).fullPath = (new path).path := by
  have root : (new path).taken = ['/'] := rfl
  rw [fullPath, if_pos root, if_neg]
  rw [List.isEmpty_iff]
  exact path_new_ne_nil path

/-- The context under a mount that has taken a beginning of the path. -/
def under (taken rest : Text) (params : Params) : Context :=
  ⟨if taken = [] then ['/'] else taken, rest, taken ++ ['/', '*'], Params.empty.merge params⟩

theorem after_new {one : RouteMatch} (more : one.remainder ≠ []) :
    (new path).after one = under one.taken one.remainder one.params := by
  have bare : withoutMountMark [] = [] := rfl
  simp [after, beyond, more, advance, accumulate, new, bare, under]

theorem accumulate_under {taken : Text} (proper : taken ≠ ['/']) (rest : Text) (params : Params)
    (piece : Text) : (under taken rest params).accumulate piece = taken ++ piece := by
  by_cases root : taken = []
  · simp [under, accumulate, root]
  · simp [under, accumulate, root, proper]

theorem fullPath_under {taken rest : Text} (proper : taken ≠ ['/']) (more : rest ≠ [])
    (params : Params) : (under taken rest params).fullPath = taken ++ rest := by
  by_cases root : taken = []
  · simp [under, fullPath, root, more]
  · simp [under, fullPath, root, proper]

/-- The context behind a mount, and then behind a route below it, is the context behind both. -/
theorem after_after {one other : RouteMatch} (unended : Pattern.endsIn '/' one.taken = false)
    (outer : one.taken ++ one.remainder = (new path).path) (more : one.remainder ≠ [])
    (first : one.params.Canonical) (second : other.params.Canonical) (node : Nat) :
    ((new path).after one).after other =
      (new path).after
        ⟨one.taken ++ other.taken, other.remainder, node, one.params.merge other.params⟩ := by
  have params : (Params.empty.merge one.params).merge other.params =
      Params.empty.merge (one.params.merge other.params) :=
    Params.merge_assoc Params.canonical_empty first second
  have proper : one.taken ≠ ['/'] := by
    intro slash
    rw [slash] at unended
    cases unended
  have bare : withoutMountMark [] = [] := rfl
  have marked : (under one.taken one.remainder one.params).pattern = one.taken ++ ['/', '*'] := rfl
  have kept : (under one.taken one.remainder one.params).params = Params.empty.merge one.params :=
    rfl
  rw [after_new more]
  by_cases done : other.remainder = []
  · -- the inner route takes all that is left, so both contexts have taken the whole path
    simp only [after, beyond, done, if_true, fullPath_under proper more, fullPath_new, advance,
      marked, kept, withoutMountMark_append, params, outer]
    simp [new, bare]
  · simp only [after, beyond, done, if_false, accumulate_under proper, advance, marked, kept,
      withoutMountMark_append, params]
    simp [new, bare, accumulate]

theorem endsInSlash_of_route?_nil {other : RouteMatch} {node : Nat}
    (boundary : b.takesBoundary = true) : b.route? node [] = some other → b.endsInSlash = true := by
  intro routed
  rcases Option.map_eq_some_iff.1 routed with ⟨m, found, -⟩
  rcases takesBoundary_dropFinalSlash boundary with bare | more
  · cases mount : b.endsInSlash with
    | true => rfl
    | false =>
        rw [dropFinalSlash_of_leaf mount] at bare
        rw [bare] at boundary
        cases boundary
  · -- otherwise a slash is taken
    rcases denotes_of_mem_ways (first?_spec found).1 with ⟨taken, eq, derived⟩
    rcases exists_cons_of_denotes more derived with ⟨u, slash⟩
    rw [slash] at eq
    cases eq

/-- Two steps over two shapes, the first of them that of a mount, lead where one step over both
shapes leads. -/
theorem reached_append (plain : a.isPlain = true) (legal : a.WellFormed)
    (ends : a.endsInSlash = false) (boundary : b.takesBoundary = true) (path : Text) :
    (new path).reached (a ++ b) =
      ((new path).reached (a ++ slash .done)).bind fun cx => cx.reached b := by
  have mount : (a ++ slash .done).endsInSlash = true := endsInSlash_append a rfl
  have kind : (a ++ b).endsInSlash = b.endsInSlash :=
    endsInSlash_append a (isDone_of_takesBoundary boundary)
  rw [reached, route?_append plain legal ends boundary 0 0 0, reached, mount, kind]
  cases routed : (a ++ slash .done).route? 0 (new path).path with
  | none => rfl
  | some one =>
      have outer := taken_append_remainder routed
      simp only [Option.bind_some]
      by_cases done : one.remainder = []
      · -- the mount sends the request away, and so does a mount of both
        have away := RouteMatch.redirects_of_done outer (path_new_ne_nil path) done
        rw [away, if_pos rfl, done]
        cases routed' : b.route? 0 [] with
        | none => rfl
        | some other =>
            have empty := taken_append_remainder routed'
            rw [List.append_eq_nil_iff] at empty
            have mounts := endsInSlash_of_route?_nil boundary routed'
            have filled := path_new_ne_nil path
            rw [← outer, done, List.append_nil] at filled
            simp [RouteMatch.redirects, mounts, empty.1, empty.2, filled]
      · have stays : one.redirects true = false := RouteMatch.redirects_of_more done true
        have left : ((new path).after one).path = one.remainder := by
          rw [after_new done]
          rfl
        rw [stays, if_neg Bool.false_ne_true, Option.bind_some, reached, left]
        cases routed' : b.route? 0 one.remainder with
        | none => rfl
        | some other =>
            have inner := taken_append_remainder routed'
            -- seen from outside, one match takes what both take
            let both : RouteMatch :=
              ⟨one.taken ++ other.taken, other.remainder, 0, one.params.merge other.params⟩
            have same : both.redirects b.endsInSlash = other.redirects b.endsInSlash := by
              by_cases finished : other.remainder = []
              · have whole : both.taken ++ both.remainder = (new path).path := by
                  rw [List.append_assoc, inner, outer]
                rw [RouteMatch.redirects_of_done inner done finished,
                  RouteMatch.redirects_of_done whole (path_new_ne_nil path) finished]
              · have more : both.remainder ≠ [] := finished
                rw [RouteMatch.redirects_of_more finished, RouteMatch.redirects_of_more more]
            have context : ((new path).after one).after other = (new path).after both :=
              after_after (endsIn_taken plain legal ends routed) outer done
                (canonical_of_route? routed) (canonical_of_route? routed') 0
            simp only [Option.map_some, Option.bind_some]
            change (if both.redirects b.endsInSlash then none else some ((new path).after both)) = _
            rw [same, context]

end Context
end PathRouter
