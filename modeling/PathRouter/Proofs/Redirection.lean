import PathRouter.Proofs.Head
import PathRouter.Proofs.Outcomes
import PathRouter.Proofs.Stepping

/-!
# Redirection — the place to which a mount sends a request

A mount that is addressed without its final slash sends the client to the same place with the slash.
The router that says so has seen the path only through the steps of the routers above it, and writes
the place down from what its context shows.  This file defines

* `Context.Follows`, a context that moves lead to from the start of a request;
* `Redirect.PointsAt`, that a redirect leads to the path of a request with a slash, but for slashes that
  are missing in front;
* `Handler.PointsBack`, that a handler redirects in this way only;

and shows `Builder.redirects_point_at_request`: on every level the missing slashes are those that steps
have dropped, and a path without two slashes in front loses none.
-/

namespace PathRouter

/-! ## Contexts -/

namespace Context

variable {cx next here other : Context} {path piece : Text} {params : Params} {moves : List Move}

/-- A context that moves lead to from the start of a request for a path, but for its pattern and its
parameters. -/
def Follows (cx : Context) (path : Text) (moves : List Move) : Prop :=
  ∃ last, (new path).run moves = .ok last ∧ cx.SamePlace last

theorem SamePlace.refl (cx : Context) : cx.SamePlace cx := ⟨rfl, rfl⟩

theorem SamePlace.trans (same : cx.SamePlace other) (again : other.SamePlace here) :
    cx.SamePlace here :=
  ⟨same.1.trans again.1, same.2.trans again.2⟩

theorem SamePlace.fullPath (same : cx.SamePlace other) : cx.fullPath = other.fullPath := by
  rw [Context.fullPath, Context.fullPath, same.1, same.2]

/-- A step does not look at the pattern or the parameters. -/
theorem SamePlace.step (same : cx.SamePlace other) (stepped : cx.step piece params = .ok next) :
    ∃ after, other.step piece params = .ok after ∧ next.SamePlace after := by
  -- the whole path is taken down when nothing is left, and it is the same for both
  have whole := same.fullPath
  rcases cx with ⟨taken, path, pattern, params'⟩
  rcases other with ⟨taken', path', pattern', params''⟩
  rcases same with ⟨rfl, rfl⟩
  simp only [Context.step, consume] at stepped ⊢
  split
  next all =>
    rw [if_pos all] at stepped
    cases stepped
    exact ⟨_, rfl, by simp [SamePlace, advance, whole]⟩
  next short =>
    rw [if_neg short] at stepped
    cases found : Text.breakOn piece path with
    | none => simp [found] at stepped
    | some cut =>
        rcases cut with ⟨before, rest⟩
        simp only [found] at stepped ⊢
        split
        next boundary =>
          rw [if_pos boundary] at stepped
          cases stepped
          exact ⟨_, rfl, by simp [SamePlace, advance, accumulate]⟩
        next inside =>
          rw [if_neg inside] at stepped
          cases stepped

theorem run_concat {last : Context} {m : Move} (ran : cx.run moves = .ok last)
    (moved : last.move m = .ok next) : cx.run (moves ++ [m]) = .ok next := by
  induction moves generalizing cx with
  | nil =>
      cases ran
      simp [run, moved]
  | cons first moves ih =>
      rcases run_cons.1 ran with ⟨after, started, rest⟩
      exact run_cons.2 ⟨after, started, ih rest⟩

theorem follows_new (path : Text) : (new path).Follows path [] := ⟨new path, rfl, .refl _⟩

theorem Follows.congr (follows : cx.Follows path moves) (same : other.SamePlace cx) :
    other.Follows path moves := by
  rcases follows with ⟨last, ran, place⟩
  exact ⟨last, ran, same.trans place⟩

theorem Follows.step (follows : cx.Follows path moves) (stepped : cx.step piece params = .ok next) :
    next.Follows path (moves ++ [.step piece params]) := by
  rcases follows with ⟨last, ran, place⟩
  rcases place.step stepped with ⟨after, again, same⟩
  exact ⟨after, run_concat ran again, same⟩

/-- What is shown of the path are all of its slashes but those that moves have dropped. -/
theorem Follows.fullPath (follows : cx.Follows path moves) :
    (new path).path = List.replicate ((new path).dropped moves) '/' ++ cx.fullPath := by
  rcases follows with ⟨last, ran, place⟩
  rw [place.fullPath, ← fullPath_moves (List.cons_ne_nil _ _) ran, fullPath_new]

/-- At the start no slash can be dropped, unless the path has two of them in front. -/
theorem intact_new (single : ¬ ['/', '/'] <+: path) : (new path).Intact := by
  intro _ slashes
  cases path with
  | nil => simp [new] at slashes
  | cons c rest => exact single slashes

theorem Follows.dropped_eq_zero (follows : cx.Follows path moves) (single : ¬ ['/', '/'] <+: path) :
    (new path).dropped moves = 0 := by
  rcases follows with ⟨last, ran, -⟩
  exact Context.dropped_eq_zero (List.cons_ne_nil _ _) (intact_new single) ran

/-- What is left is an end of what is shown. -/
theorem path_suffix_fullPath (cx : Context) : cx.path <:+ cx.fullPath := by
  rw [Context.fullPath]
  split
  · split
    next done => simp [List.isEmpty_iff.1 done]
    next => exact List.suffix_refl _
  · exact List.suffix_append _ _

/-- Below an empty path nothing is left but the slash that stands for it. -/
theorem Follows.path_ne_nil (follows : cx.Follows path moves) (filled : cx.path ≠ [])
    (proper : cx.path ≠ ['/']) : path ≠ [] := by
  rintro rfl
  have parts : ['/'] = List.replicate ((new []).dropped moves) '/' ++ cx.fullPath := follows.fullPath
  have whole : cx.path <:+ ['/'] := parts ▸ cx.path_suffix_fullPath.trans (List.suffix_append _ _)
  rcases List.suffix_cons_iff.1 whole with slash | none
  · exact proper slash
  · exact filled (List.suffix_nil.1 none)

end Context

/-! ## Redirects -/

/-- A permanent redirect to the path of a request with a slash and the query, without a number of
slashes at the beginning. -/
structure Redirect.PointsAt (r : Redirect) (req : Request) (lost : Nat) : Prop where
  status : r.status = .permanentRedirect
  location : List.replicate lost '/' ++ r.location =
    req.uri.path ++ '/' :: (req.uri.query.map ('?' :: ·)).getD []

theorem Redirect.pointsAt_of_follows {req : Request} {cx : Context} {moves : List Move}
    (follows : cx.Follows req.uri.path moves) (filled : cx.path ≠ []) (proper : cx.path ≠ ['/']) :
    (Redirect.permanent (redirectLocation req cx)).PointsAt req
      ((Context.new req.uri.path).dropped moves) := by
  have start : (Context.new req.uri.path).path = req.uri.path := by
    simp [Context.new, follows.path_ne_nil filled proper]
  refine ⟨rfl, ?_⟩
  calc
    List.replicate ((Context.new req.uri.path).dropped moves) '/' ++
        (Redirect.permanent (redirectLocation req cx)).location
      = List.replicate ((Context.new req.uri.path).dropped moves) '/' ++ cx.fullPath ++
          '/' :: (req.uri.query.map ('?' :: ·)).getD [] := (List.append_assoc _ _ _).symm
    _ = req.uri.path ++ '/' :: (req.uri.query.map ('?' :: ·)).getD [] := by
        rw [← follows.fullPath, start]

/-! ## Levels -/

/-- The context of a level follows the request through one step for each level above. -/
theorem Router.Reaches.follows {r level : Router} {path : Text} {depth : Nat} {cx : Context} :
    r.Reaches path depth level cx → ∃ moves, moves.length = depth ∧ cx.Follows path moves := by
  intro reached
  -- on the depth: each level adds the step over what its match takes
  induction reached with
  | top same => exact ⟨[], rfl, (Context.follows_new path).congr same⟩
  | nested _ _ _ _ stepped same ih =>
      rcases ih with ⟨moves, rfl, follows⟩
      exact ⟨_, List.length_append, (follows.step stepped).congr same⟩

/-! ## Handlers -/

/-- Of an outcome that is a redirect, that it points at the request. -/
def PointsBack : Assertion := fun req cx _ out =>
  ∀ moves r, cx.Follows req.uri.path moves → out.1.failure? = some (.redirect r) →
    ∃ lost, r.PointsAt req lost ∧ (¬ ['/', '/'] <+: req.uri.path → lost = 0)

theorem kept_pointsBack : PointsBack.Kept where
  bare _ _ _ := fun _ _ _ => nofun
  miss _ _ _ := fun _ _ _ => nofun
  redirect req cx w filled proper := by
    intro moves r follows redirected
    cases redirected
    exact ⟨_, Redirect.pointsAt_of_follows follows filled proper, follows.dropped_eq_zero⟩
  unregistered methods method req cx w := by
    intro moves r _ redirected
    by_cases options : method = "OPTIONS" <;>
      simp [MethodHandler.unregistered, options, Verdict.failure?] at redirected
  strip _ _ _ _ _ ensured := ensured
  below req cx w out m divides ensured := by
    intro moves r follows redirected
    exact ensured _ r (follows.step (Context.step_of_divides divides).1) redirected
  fallback _ _ _ _ _ _ _ ensured := ensured

/-! ## Answers -/

/-- A mount without its final slash is no miss, so the fallback is not asked. -/
theorem dispatcher_of_redirect {resolver : Resolver} {cx : Context} {m : RouteMatch}
    (redirected : resolver.resolve cx.path = .redirect m) (handlers : List Handler)
    (notFound : Option Handler) (req : Request) (w : Writer) :
    dispatcher resolver handlers notFound req cx w =
      (.failed (.redirect (.permanent (redirectLocation req cx))), w) := by
  have routed : routeToNode resolver handlers req cx w =
      (.failed (.redirect (.permanent (redirectLocation req cx))), w) := by
    simp only [routeToNode, redirected]
  refine dispatcher_of_not_miss routed (fun f failed => ?_) notFound
  cases failed
  rfl

/-- Wherever a level answers with the redirect of a mount, the redirect is permanent and points at the
request, without the slashes that the steps into the levels have dropped.  Where nothing but mounts
redirects, a request that is answered by a redirect is answered so. -/
theorem Builder.redirects_point_at_request (b : Builder) :
    (∀ rules, b.Registered rules → ∀ (req : Request) depth level (cx : Context) m,
      b.freeze.Reaches req.uri.path depth level cx → level.resolve cx.path = .redirect m →
        ∃ chain notFound r moves,
          level.entry = wrap chain
            (dispatcher level.resolver (level.nodes.map CompiledNode.handler) notFound) ∧
          (∀ w, dispatcher level.resolver (level.nodes.map CompiledNode.handler) notFound req cx w =
            (.failed (.redirect r), w)) ∧
          moves.length = depth ∧ cx.Follows req.uri.path moves ∧
          r.PointsAt req ((Context.new req.uri.path).dropped moves) ∧
          (¬ ['/', '/'] <+: req.uri.path → (Context.new req.uri.path).dropped moves = 0)) ∧
    (b.Registered (.keeping (Handler.Ensures PointsBack)) → ∀ req r,
      (b.freeze.dispatch req .empty).1 = .redirect r →
        ∃ lost, r.PointsAt req lost ∧ (¬ ['/', '/'] <+: req.uri.path → lost = 0)) := by
  constructor
  · intro rules registered req depth level cx m reached redirected
    have built := (registered.built.reaches reached).1
    rcases reached.follows with ⟨moves, length, follows⟩
    rcases built.path_of_redirect redirected with ⟨filled, proper⟩
    rcases (built.consistent filled).calls.1 with ⟨chain, notFound, entry⟩
    have points := Redirect.pointsAt_of_follows follows filled proper
    exact ⟨chain, notFound, _, moves, entry, dispatcher_of_redirect redirected _ notFound req, length,
      follows, points, follows.dropped_eq_zero⟩
  · intro registered req r redirected
    have ensured := registered.built.ensures kept_pointsBack req (.new req.uri.path) .empty
    refine ensured [] r (Context.follows_new _) ?_
    rw [← Verdict.failure?_outcome]
    exact congrArg Outcome.failure? redirected

/-- The mount `/x` below `/api` is addressed without its final slash, and with a query. -/
theorem Builder.redirects_point_at_request_nested :
    ∃ b inner : Builder, b.Registered (.keeping (Handler.Ensures PointsBack)) ∧
      ∃ (req : Request) (cx : Context) (m : RouteMatch), req.uri.path = "/api/x".toList ∧
        b.freeze.Reaches req.uri.path 1 inner.freeze cx ∧
        inner.freeze.resolve cx.path = .redirect m ∧
        (∃ moves, moves.length = 1 ∧ cx.Follows req.uri.path moves) ∧
        ∃ r, (b.freeze.dispatch req .empty).1 = .redirect r ∧ r.PointsAt req 0 ∧
          r.location = "/api/x/?q".toList := by
  let handler : Handler := Handler.status .notFound
  let x : Pattern := ⟨"/x/*".toList, "/x/".toList, "/x/*".toList, .literal "/x".toList⟩
  let api : Pattern := ⟨"/api/*".toList, "/api/".toList, "/api/*".toList, .literal "/api".toList⟩
  let inner : Builder := ⟨[.raw x (.handler handler []) []], [], none, .default, none⟩
  let b : Builder := ⟨[.raw api (.router inner) []], [], none, .default, none⟩
  let req : Request := ⟨"GET", ⟨"/api/x".toList, some ['q']⟩, .empty, ""⟩
  have filled : inner.Registered (.keeping (Handler.Ensures PointsBack)) := by
    have allowed : (Rules.keeping (Handler.Ensures PointsBack)).entry none ⟨handler, []⟩ :=
      fun _ _ _ _ _ _ => nofun
    have added : Builder.empty.handle "/x/*".toList [] handler = .ok inner := rfl
    exact .handle .empty allowed added
  have registered : b.Registered (.keeping (Handler.Ensures PointsBack)) := by
    have added : Builder.empty.route "/api".toList (fun _ => ((), inner)) = .ok ((), b) := rfl
    exact .route .empty filled added
  have start : b.freeze.Reaches req.uri.path 0 b.freeze (.new req.uri.path) := .top ⟨rfl, rfl⟩
  have matched : b.freeze.resolve (Context.new req.uri.path).path =
      .matched ⟨"/api".toList, "/x".toList, 0, .empty⟩ := rfl
  have node : b.freeze.nodes[0]? = some ⟨api, inner.freeze.entry, .router inner.freeze⟩ := rfl
  have reached : b.freeze.Reaches req.uri.path 1 inner.freeze
      ⟨"/api".toList, "/x".toList, "/api/*".toList, .empty⟩ :=
    .nested start matched node rfl rfl ⟨rfl, rfl⟩
  have redirected : inner.freeze.resolve "/x".toList = .redirect ⟨"/x".toList, [], 0, .empty⟩ := rfl
  have answer : (b.freeze.dispatch req .empty).1 =
      .redirect ⟨.permanentRedirect, "/api/x/?q".toList⟩ := by decide +kernel
  rcases (redirects_point_at_request b).1 _ registered req 1 _ _ _ reached redirected with
    ⟨-, -, -, moves, -, -, length, follows, -, -⟩
  rcases (redirects_point_at_request b).2 registered req _ answer with ⟨lost, points, kept⟩
  have none : lost = 0 := kept (by decide)
  exact ⟨b, inner, registered, req, _, _, rfl, reached, redirected, ⟨moves, length, follows⟩, _, answer,
    none ▸ points, rfl⟩

/-- A mount whose path may be a lone slash takes the first of two slashes, and the mount below it sends
the request for `//a` to `/a/`. -/
theorem Builder.redirect_without_slash :
    let handler : Handler := Handler.status .notFound
    let a : Pattern := ⟨"/a/*".toList, "/a/".toList, "/a/*".toList, .literal "/a".toList⟩
    let inner : Builder := ⟨[.raw a (.handler handler []) []], [], none, .default, none⟩
    let req : Request := ⟨"GET", ⟨"//a".toList, none⟩, .empty, ""⟩
    ∃ b : Builder, Builder.empty.handle "/a/*".toList [] handler = .ok inner ∧
      Builder.empty.route "/[/x]/".toList (fun _ => ((), inner)) = .ok ((), b) ∧
      (b.freeze.dispatch req .empty).1 = .redirect ⟨.permanentRedirect, "/a/".toList⟩ ∧
      "/a/".toList ≠ req.uri.path ++ ['/'] := by
  intro handler a inner req
  refine ⟨_, rfl, rfl, ?_, ?_⟩
  · decide +kernel
  · decide

end PathRouter
