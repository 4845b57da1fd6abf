import PathRouter.Proofs.Division

/-!
# Convergence — where the redirect of a mount leads

A mount that is addressed without its final slash sends the request to the same path with the slash.
Another route may win there, and that route may be a mount that sends the request on once more.  This
file defines

* `Pattern.isDoubled`, the literal mounts whose path ends in two slashes;
* `Resolver.doubledBeyond`, how many of them may still be met while slashes are put to a path;
* `Resolver.Leads`, that a number of redirects lead from a path to a match;

and shows `Resolver.redirects_converge`, that the redirects end in a match.  A path that ends in a
slash is sent on only where it is the key of a literal mount, and that mount is then doubled: an
expression gives the last slash of a path back.  So every redirect but the first uses one of them up.
-/

namespace PathRouter

/-! ## Mounts -/

namespace Pattern

variable {p : Pattern} {t : Template} {key : Text}

/-- A literal mount whose path ends in two slashes. -/
def isDoubled (p : Pattern) : Bool :=
  p.isMount && p.key?.isSome && ['/', '/'].isSuffixOf p.path

/-- The path of a literal mount is its key with a slash, but for the root. -/
theorem path_of_isMount (described : p.Describes t) (mount : p.isMount = true)
    (literal : p.key? = some key) (proper : key ≠ ['/']) : p.path = key ++ ['/'] := by
  rcases Template.parse_sound described.parsed with ⟨-, legal, spelled⟩
  have ends : endsIn '/' p.path = true := by
    rw [← spelled, Template.endsIn_toText legal, Template.endsInSlash_of_isMount described mount]
  rcases endsIn_iff.1 ends with ⟨before, path⟩
  have found := (key_spec described literal).2
  rw [path, Template.literalKey_append_slash] at found
  by_cases root : before = []
  · rw [if_pos root] at found
    exact absurd found.symm proper
  · rw [if_neg root] at found
    rw [path, found]

end Pattern

namespace Template

open Regex

variable {t : Template} {path : Text} {node : Nat} {found : RouteMatch}

/-- What a mount takes whole it also takes before a slash. -/
theorem first?_append_slash {m : Match} (mount : t.endsInSlash = true)
    (first : t.first? path = some m) (done : m.rest = []) :
    (t.first? (path ++ ['/'])).isSome = true := by
  rcases denotes_of_mem_ways (first?_spec first).1 with ⟨taken, parts, derived⟩
  -- a derivation may be followed by anything, so the same piece is one of the ways there
  rw [done, List.append_nil] at parts
  rcases mem_ways_of_denotes derived ['/'] with ⟨way, mem, rest, -⟩
  rw [← parts] at mem
  have stops : t.stopsAt way.rest = true := by simp [stopsAt, rest, mount]
  rw [first?, List.find?_isSome]
  exact ⟨way, mem, stops⟩

/-- A mount that leaves nothing takes the same path before a slash, and the path has no slash at its
end, for a mount would have left that. -/
theorem route?_append_slash (mount : t.endsInSlash = true)
    (routed : t.route? node path = some found) (done : found.remainder = []) :
    (t.route? node (path ++ ['/'])).isSome = true ∧ Pattern.endsIn '/' path = false := by
  rcases Option.map_eq_some_iff.1 routed with ⟨m, first, rfl⟩
  have parts := whole_append_of_mem_ways (first?_spec first).1
  simp only [leave] at done
  split at done
  next => cases done
  next kept =>
    have rest : m.rest = [] := done
    rw [rest, List.append_nil] at parts
    refine ⟨?_, ?_⟩
    · rw [route?, Option.isSome_map]
      exact first?_append_slash mount first rest
    · simpa [mount, rest, parts] using kept

end Template

/-! ## Offers -/

/-- The offer of a mount for a path that it takes whole, so that the request is sent elsewhere. -/
structure Bid.Away (b : Bid) (path : Text) : Prop where
  mount : b.mount = true
  whole : b.taken = path
  filled : path ≠ []

/-- The mount that a key leads away from is there under the same key for the path with a slash.  It
is not the root, which takes nothing. -/
theorem Bid.ofLiteral_append_slash {path key : Text} {mount : Bool} {node : Nat} {b : Bid}
    (offered : ofLiteral path key mount node = some b) (away : b.Away path) :
    key = path ∧ path ≠ ['/'] ∧ (ofLiteral (path ++ ['/']) key mount node).isSome = true := by
  have isMount : mount = true := by rw [← (ofLiteral_spec offered).2.2, away.mount]
  rw [isMount, ofLiteral, if_pos rfl] at offered
  split at offered
  next root =>
    split at offered
    · cases offered
      exact absurd away.whole.symm away.filled
    · cases offered
  next proper =>
    split at offered
    · cases offered
      have whole : key = path := away.whole
      rw [whole] at proper
      exact ⟨whole, proper, by simp [ofLiteral, isMount, whole, proper]⟩
    · cases offered

namespace Scan

variable {path : Text} {b : Bid} {route : Pattern × Nat} {later : List (Pattern × Nat)}

/-- A route that sends the request for a path elsewhere makes an offer for the path with a slash. -/
theorem bid_append_slash {raw : Text} (compiled : Pattern.compile raw = .ok route.1)
    (offered : bid path route later = some b) (away : b.Away path) :
    (bid (path ++ ['/']) route later).isSome = true ∧
      (Pattern.endsIn '/' path = true → route.1.isMount = true ∧ route.1.key? = some path ∧
        path ≠ ['/']) := by
  rcases Pattern.describes_of_compile compiled with ⟨t, described⟩
  have mount : route.1.isMount = true := by
    rw [← (ofRoute_of_bid compiled offered).mount, away.mount]
  rw [bid_of_describes described] at offered ⊢
  cases fixed : t.isFixed with
  | true =>
      simp only [fixed, if_true] at offered ⊢
      split at offered
      next => cases offered
      next alone =>
        rcases Bid.ofLiteral_append_slash offered away with ⟨whole, proper, more⟩
        have literal : route.1.key? = some path := by
          simp [Pattern.key?, described.matching, fixed, whole]
        rw [if_neg alone]
        exact ⟨more, fun _ => ⟨mount, literal, proper⟩⟩
  | false =>
      simp only [fixed, Bool.false_eq_true, if_false] at offered ⊢
      rcases Option.map_eq_some_iff.1 offered with ⟨m, routed, rfl⟩
      have ends := Template.endsInSlash_of_isMount described mount
      have done : m.remainder = [] := by
        have parts := Template.taken_append_remainder routed
        have whole : m.taken = path := away.whole
        rw [whole] at parts
        exact List.append_right_eq_self.1 parts
      rcases Template.route?_append_slash ends routed done with ⟨more, bare⟩
      refine ⟨by rwa [Option.isSome_map], fun slash => ?_⟩
      rw [bare] at slash
      cases slash

end Scan

/-! ## Redirects -/

theorem countP_lt_of_mem {α : Type} {p q : α → Bool} {l : List α} {a : α} (mem : a ∈ l)
    (fewer : ∀ x, p x = true → q x = true) (gone : p a = false) (counted : q a = true) :
    l.countP p < l.countP q := by
  rcases List.append_of_mem mem with ⟨before, after, rfl⟩
  have early := List.countP_mono_left (l := before) fun x _ => fewer x
  have late := List.countP_mono_left (l := after) fun x _ => fewer x
  simp only [List.countP_append, List.countP_cons, gone, counted]
  simp only [Bool.false_eq_true, if_false, if_true]
  omega

namespace Resolver

variable {routes : List (Pattern × Nat)} {path : Text}

/-- A number of redirects, each to the same path with one more slash, that end in a match. -/
inductive Leads (r : Resolver) : Text → Nat → Prop
  | found {path : Text} {m : RouteMatch} : r.resolve path = .matched m → Leads r path 0
  | on {path : Text} {m : RouteMatch} {n : Nat} :
      r.resolve path = .redirect m → Leads r (path ++ ['/']) n → Leads r path (n + 1)

/-- The doubled mounts that may still be met while slashes are put to a path. -/
def doubledBeyond (routes : List (Pattern × Nat)) (path : Text) : Nat :=
  routes.countP fun route => route.1.isDoubled && decide (path.length + 1 < route.1.path.length)

/-- Behind every redirect is the offer of a mount that takes the whole path. -/
theorem exists_away (compiled : ∀ route ∈ routes, ∃ raw, Pattern.compile raw = .ok route.1)
    {m : RouteMatch} (redirected : (ofRoutes routes).resolve path = .redirect m) :
    ∃ before route later b, routes = before ++ route :: later ∧
      (∃ raw, Pattern.compile raw = .ok route.1) ∧ Scan.bid path route later = some b ∧
        b.Away path := by
  rcases resolve_of_bid compiled path with ⟨-, miss⟩ | ⟨before, route, later, b, listed, offered,
    ofRoute, answer⟩
  · rw [miss] at redirected
    cases redirected
  · refine ⟨before, route, later, b, listed, compiled route (by simp [listed]), offered, ?_⟩
    rw [answer, Resolution.ofRoute] at redirected
    split at redirected
    next away =>
      simp only [RouteMatch.redirects, Bool.and_eq_true, List.isEmpty_iff, Bool.not_eq_true'] at away
      rcases away with ⟨⟨mount, done⟩, taken⟩
      have whole := ofRoute.divides.parts
      rw [done, List.append_nil] at whole
      have filled : b.taken ≠ [] := by simpa [Bid.asMatch] using taken
      exact ⟨ofRoute.mount.trans mount, whole, whole ▸ filled⟩
    next => cases redirected

/-- Nothing is sent elsewhere from the root. -/
theorem path_of_redirect (compiled : ∀ route ∈ routes, ∃ raw, Pattern.compile raw = .ok route.1)
    {m : RouteMatch} (redirected : (ofRoutes routes).resolve path = .redirect m) :
    path ≠ [] ∧ path ≠ ['/'] := by
  rcases exists_away compiled redirected with ⟨_, _, _, _, -, ⟨raw, made⟩, offered, away⟩
  refine ⟨away.filled, ?_⟩
  rintro rfl
  exact ((Scan.bid_append_slash made offered away).2 rfl).2.2 rfl

/-- A path for which a route makes an offer is answered. -/
theorem resolve_ne_notFound (compiled : ∀ route ∈ routes, ∃ raw, Pattern.compile raw = .ok route.1)
    {b : Bid} (offered : b ∈ Scan.bids path routes) : (ofRoutes routes).resolve path ≠ .notFound := by
  rcases resolve_of_bid compiled path with ⟨none, -⟩ | ⟨_, route, _, _, -, -, -, answer⟩
  · rw [none] at offered
    cases offered
  · rw [answer, Resolution.ofRoute]
    split
    · exact Resolution.noConfusion
    · exact Resolution.noConfusion

/-- The mount that sends a request elsewhere takes the path with a slash too. -/
theorem resolve_append_slash (compiled : ∀ route ∈ routes, ∃ raw, Pattern.compile raw = .ok route.1)
    {m : RouteMatch} (redirected : (ofRoutes routes).resolve path = .redirect m) :
    (ofRoutes routes).resolve (path ++ ['/']) ≠ .notFound := by
  rcases exists_away compiled redirected with
    ⟨before, route, later, b, listed, ⟨raw, made⟩, offered, away⟩
  rcases Option.isSome_iff_exists.1 (Scan.bid_append_slash made offered away).1 with ⟨more, again⟩
  exact resolve_ne_notFound compiled (Scan.mem_bids.2 ⟨before, route, later, listed, again⟩)

/-- A path that ends in a slash is sent on only by a literal mount whose path has one slash more. -/
theorem exists_doubled (compiled : ∀ route ∈ routes, ∃ raw, Pattern.compile raw = .ok route.1)
    {m : RouteMatch} (redirected : (ofRoutes routes).resolve path = .redirect m)
    (ends : Pattern.endsIn '/' path = true) :
    ∃ route ∈ routes, route.1.isDoubled = true ∧ route.1.path = path ++ ['/'] := by
  rcases exists_away compiled redirected with
    ⟨before, route, later, b, listed, ⟨raw, made⟩, offered, away⟩
  have mem : route ∈ routes := by simp [listed]
  rcases (Scan.bid_append_slash made offered away).2 ends with ⟨mount, literal, proper⟩
  rcases Pattern.describes_of_compile made with ⟨t, described⟩
  have spelled := Pattern.path_of_isMount described mount literal proper
  have doubled : ['/', '/'] <:+ path ++ ['/'] := by
    rcases Pattern.endsIn_iff.1 ends with ⟨stem, rfl⟩
    exact ⟨stem, by simp⟩
  refine ⟨route, mem, ?_, spelled⟩
  rw [Pattern.isDoubled, mount, literal, spelled, List.isSuffixOf_iff_suffix.2 doubled]
  rfl

/-- Every redirect but the first uses up a doubled mount. -/
theorem doubledBeyond_append_slash
    (compiled : ∀ route ∈ routes, ∃ raw, Pattern.compile raw = .ok route.1) {m : RouteMatch}
    (redirected : (ofRoutes routes).resolve (path ++ ['/']) = .redirect m) :
    doubledBeyond routes (path ++ ['/']) < doubledBeyond routes path := by
  have ends : Pattern.endsIn '/' (path ++ ['/']) = true := by simp
  rcases exists_doubled compiled redirected ends with ⟨route, mem, doubled, spelled⟩
  -- the mount that redirects is counted for the shorter path only
  refine countP_lt_of_mem mem (fun other => ?_) ?_ ?_
  · simp only [Bool.and_eq_true, decide_eq_true_eq, List.length_append, List.length_singleton]
    rintro ⟨doubled, long⟩
    exact ⟨doubled, by omega⟩
  · simp [doubled, spelled]
  · simp [doubled, spelled]

theorem leads_of_redirect (compiled : ∀ route ∈ routes, ∃ raw, Pattern.compile raw = .ok route.1)
    {m : RouteMatch} (redirected : (ofRoutes routes).resolve path = .redirect m) :
    ∃ n ≤ doubledBeyond routes path + 1, (ofRoutes routes).Leads path n := by
  -- on the doubled mounts that are left: what redirects after the first time is one of them
  induction left : doubledBeyond routes path using Nat.strong_induction_on generalizing path m with
  | _ left' ih =>
      cases next : (ofRoutes routes).resolve (path ++ ['/']) with
      | notFound => exact absurd next (resolve_append_slash compiled redirected)
      | matched found => exact ⟨1, Nat.le_add_left 1 _, .on redirected (.found next)⟩
      | redirect again =>
          have fewer := doubledBeyond_append_slash compiled next
          rcases ih _ (left ▸ fewer) next rfl with ⟨n, bound, leads⟩
          exact ⟨n + 1, by omega, .on redirected leads⟩

/-- Where the request for a path is sent elsewhere, the path with a slash is answered, and further
slashes lead to a match after at most as many more redirects as there are doubled mounts; without such
mounts the first slash does. -/
theorem redirects_converge (compiled : ∀ route ∈ routes, ∃ raw, Pattern.compile raw = .ok route.1)
    {m : RouteMatch} (redirected : (ofRoutes routes).resolve path = .redirect m) :
    (ofRoutes routes).resolve (path ++ ['/']) ≠ .notFound ∧
      (∃ n ≤ routes.countP (fun route => route.1.isDoubled) + 1, (ofRoutes routes).Leads path n) ∧
      ((∀ route ∈ routes, route.1.isDoubled = false) →
        ∃ found, (ofRoutes routes).resolve (path ++ ['/']) = .matched found) := by
  refine ⟨resolve_append_slash compiled redirected, ?_, fun single => ?_⟩
  · rcases leads_of_redirect compiled redirected with ⟨n, bound, leads⟩
    have fewer : doubledBeyond routes path ≤ routes.countP fun route => route.1.isDoubled :=
      List.countP_mono_left fun route _ both => (Bool.and_eq_true_iff.1 both).1
    exact ⟨n, by omega, leads⟩
  · cases next : (ofRoutes routes).resolve (path ++ ['/']) with
    | notFound => exact absurd next (resolve_append_slash compiled redirected)
    | matched found => exact ⟨found, rfl⟩
    | redirect again =>
        have ends : Pattern.endsIn '/' (path ++ ['/']) = true := by simp
        rcases exists_doubled compiled next ends with ⟨route, mem, doubled, -⟩
        rw [single route mem] at doubled
        cases doubled

/-- The mount of `/a` sends its requests to the doubled mount of `/a/`, which sends them on. -/
theorem redirects_converge_doubled :
    let mount (raw key : String) : Pattern :=
      ⟨raw.toList, raw.toList.dropLast, raw.toList, .literal key.toList⟩
    let routes : List (Pattern × Nat) := [(mount "/a/*" "/a", 0), (mount "/a//*" "/a/", 1)]
    (∀ route ∈ routes, ∃ raw, Pattern.compile raw = .ok route.1) ∧
      (ofRoutes routes).resolve "/a".toList = .redirect ⟨"/a".toList, [], 0, .empty⟩ ∧
      ∃ n ≤ 2, (ofRoutes routes).Leads "/a".toList n := by
  intro mount routes
  have compiled : ∀ route ∈ routes, ∃ raw, Pattern.compile raw = .ok route.1 := by
    intro route mem
    rcases List.mem_cons.1 mem with rfl | mem
    · exact ⟨"/a/*".toList, rfl⟩
    rw [List.mem_singleton.1 mem]
    exact ⟨"/a//*".toList, rfl⟩
  have redirected : (ofRoutes routes).resolve "/a".toList = .redirect ⟨"/a".toList, [], 0, .empty⟩ :=
    (resolve_of_best (best_ofRoutes compiled _)).trans rfl
  exact ⟨compiled, redirected, (redirects_converge compiled redirected).2.1⟩

end Resolver
end PathRouter
