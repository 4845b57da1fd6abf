import PathRouter.Proofs.Joining

/-!
# Agreement — literal routes by their keys and by their expressions

A literal route is found by its key, which is to save the expression that every other route needs.
The key of a mount is its path without the final slash, and the key `/` is kept for the root mount.
This file defines

* `Pattern.asExpression`, a literal route as it would be matched with an expression;
* `Pattern.KeyMisses`, the paths on which the key of a route and its expression are at odds;

and shows `Resolver.resolve_asExpression_iff`, that these are all of them.  Only routes that end in two
slashes have any: there the key `/` of the route `//` is taken for the root mount's, and the other keys
end in a slash that an expression gives back.
-/

namespace PathRouter

namespace Pattern

/-- The pattern with the expression of its shape in place of its key. -/
def asExpression (p : Pattern) (t : Template) : Pattern :=
  { p with matching := .expression t.matcher t.names (!t.endsInSlash) }

/-- Whether the key of a route path is at odds with its shape on a request path. -/
def KeyMisses (route path : Text) : Prop :=
  ['/', '/'] <:+ route ∧ if route = ['/', '/'] then path ≠ ['/'] else path = route.dropLast

instance (route path : Text) : Decidable (KeyMisses route path) :=
  inferInstanceAs (Decidable (_ ∧ ite _ _ _))

variable {stem path : Text}

theorem twoSlashes_iff : ['/', '/'] <:+ stem ++ ['/'] ↔ endsIn '/' stem = true := by
  constructor
  · rintro ⟨before, eq⟩
    have split : before ++ ['/'] ++ ['/'] = stem ++ ['/'] := by simpa using eq
    exact endsIn_iff.2 ⟨before, (List.append_cancel_right split).symm⟩
  · intro ends
    rcases endsIn_iff.1 ends with ⟨before, eq⟩
    exact ⟨before, by simp [eq]⟩

theorem keyMisses_root : KeyMisses ['/', '/'] path ↔ path ≠ ['/'] := by
  simp [KeyMisses]

theorem keyMisses_mount (ends : endsIn '/' stem = true) (proper : stem ≠ ['/']) :
    KeyMisses (stem ++ ['/']) path ↔ path = stem := by
  have other : stem ++ ['/'] ≠ ['/', '/'] := by
    intro eq
    exact proper (List.append_cancel_right (eq.trans (List.singleton_append (l := ['/'])).symm))
  simp [KeyMisses, twoSlashes_iff.2 ends, other]

theorem not_keyMisses_of_leaf {route : Text} (leaf : endsIn '/' route = false) :
    ¬ KeyMisses route path := by
  rintro ⟨⟨before, eq⟩, -⟩
  have ends : endsIn '/' route = true := endsIn_iff.2 ⟨before ++ ['/'], by simp [← eq]⟩
  simp [leaf] at ends

theorem not_keyMisses_of_single (single : endsIn '/' stem = false) :
    ¬ KeyMisses (stem ++ ['/']) path := by
  rintro ⟨twice, -⟩
  rw [twoSlashes_iff, single] at twice
  cases twice

end Pattern

namespace Template

variable {t : Template} {path rest : Text} (node : Nat)

/-- The expression of a literal shape is never too deep. -/
theorem depth_le_of_isFixed (fixed : t.isFixed = true) : t.matcher.depth ≤ Regex.nestLimit := by
  have limit : Regex.nestLimit = 250 := rfl
  have flat := itemDepth_of_isFixed (isFixed_dropFinalSlash fixed)
  rw [depth_matcher, flat]
  split <;> omega

/-! ## Mounts with a slash before the final one -/

/-- At the end of a path the expression gives the slash back. -/
theorem ofRoute_of_append (fixed : t.isFixed = true) (mount : t.endsInSlash = true)
    (ends : Pattern.endsIn '/' t.dropFinalSlash.toText = true)
    (parts : t.dropFinalSlash.toText ++ rest = path) :
    Resolution.ofRoute t.endsInSlash (t.route? node path) =
      if rest = [] then .matched ⟨t.dropFinalSlash.toText.dropLast, ['/'], node, .empty⟩
      else if rest.head? = some '/' then .matched ⟨t.dropFinalSlash.toText, rest, node, .empty⟩
      else .notFound := by
  have routed := route?_of_append fixed parts node
  cases rest with
  | nil =>
      -- with the slash given back the match leaves something, and is no redirect
      simp [routed, stopsAt, leave, mount, ends, Resolution.ofRoute, RouteMatch.redirects]
  | cons c rest =>
      by_cases slash : c = '/' <;>
        simp [routed, stopsAt, leave, mount, slash, Resolution.ofRoute, RouteMatch.redirects]

theorem ofRoute_of_not_append (fixed : t.isFixed = true)
    (apart : ∀ rest, t.dropFinalSlash.toText ++ rest ≠ path) :
    Resolution.ofRoute t.endsInSlash (t.route? node path) = .notFound := by
  simp [route?_of_not_append fixed apart, Resolution.ofRoute]

/-- The key keeps the slash, and a path that ends there is redirected. -/
theorem answer_of_append {key : Text} (proper : key ≠ ['/']) (filled : key ≠ [])
    (parts : key ++ rest = path) :
    Scan.answer path (Bid.ofLiteral path key true node) =
      if rest = [] then .redirect ⟨key, [], node, .empty⟩
      else if rest.head? = some '/' then .matched ⟨key, rest, node, .empty⟩
      else .notFound := by
  have offer := Resolver.ofLiteral_mount parts node
  have taken : Scan.answer path (some ⟨key, node, .empty, .mount, true⟩) =
      .ofRoute true (some ⟨key, rest, node, .empty⟩) :=
    Scan.answer_some (b := ⟨key, node, .empty, .mount, true⟩) parts
  by_cases done : rest = []
  · simp [offer, proper, filled, done, taken, Resolution.ofRoute, RouteMatch.redirects]
  · by_cases slash : rest.head? = some '/'
    · simp [offer, proper, done, slash, taken, Resolution.ofRoute, RouteMatch.redirects]
    · simp [offer, proper, done, slash, Scan.answer]

theorem answer_of_not_append {key : Text} (apart : ∀ rest, key ++ rest ≠ path) :
    Scan.answer path (Bid.ofLiteral path key true node) = .notFound := by
  have none : Bid.ofLiteral path key true node = none := by
    refine Option.eq_none_iff_forall_ne_some.2 fun b offered => ?_
    rcases Resolver.exists_cut_of_ofLiteral offered with ⟨rest, parts⟩
    exact apart rest parts
  simp [none, Scan.answer]

/-- The root mount's key is found in front of every path. -/
theorem answer_of_root (slash : path.head? = some '/') :
    Scan.answer path (Bid.ofLiteral path ['/'] true node) = .matched ⟨[], path, node, .empty⟩ := by
  simp [Bid.ofLiteral, slash, Scan.answer]

/-- Under the key `/` and by its expression, the mount `//` takes the path `/` alone alike. -/
theorem answer_root_iff (fixed : t.isFixed = true) (mount : t.endsInSlash = true)
    (root : t.dropFinalSlash.toText = ['/']) (slash : path.head? = some '/') :
    Scan.answer path (Bid.ofLiteral path ['/'] true node) =
        .ofRoute t.endsInSlash (t.route? node path) ↔
      path = ['/'] := by
  rcases List.head?_eq_some_iff.1 slash with ⟨rest, rfl⟩
  have ends : Pattern.endsIn '/' t.dropFinalSlash.toText = true := by
    simp [root, Pattern.endsIn]
  have parts : t.dropFinalSlash.toText ++ rest = '/' :: rest := by simp [root]
  rw [answer_of_root node slash, ofRoute_of_append node fixed mount ends parts, root]
  by_cases done : rest = []
  · simp [done]
  · by_cases further : rest.head? = some '/' <;> simp [done, further]

/-- Other mounts of this form are only at odds on their own keys. -/
theorem answer_mount_iff (path : Text) (fixed : t.isFixed = true) (mount : t.endsInSlash = true)
    (ends : Pattern.endsIn '/' t.dropFinalSlash.toText = true)
    (proper : t.dropFinalSlash.toText ≠ ['/']) :
    Scan.answer path (Bid.ofLiteral path t.dropFinalSlash.toText true node) =
        .ofRoute t.endsInSlash (t.route? node path) ↔
      path ≠ t.dropFinalSlash.toText := by
  have filled : t.dropFinalSlash.toText ≠ [] := by
    intro empty
    simp [empty, Pattern.endsIn] at ends
  by_cases before : ∃ rest, t.dropFinalSlash.toText ++ rest = path
  · rcases before with ⟨rest, parts⟩
    have whole : path = t.dropFinalSlash.toText ↔ rest = [] := by
      simp [← parts]
    rw [answer_of_append node proper filled parts, ofRoute_of_append node fixed mount ends parts,
      ne_eq, whole]
    by_cases done : rest = [] <;> simp [done]
  · have apart : ∀ rest, t.dropFinalSlash.toText ++ rest ≠ path :=
      fun rest parts => before ⟨rest, parts⟩
    have differs : path ≠ t.dropFinalSlash.toText := by
      intro eq
      exact apart [] (by simp [eq])
    simp [answer_of_not_append node apart, ofRoute_of_not_append node fixed apart, differs]

/-- A mount with a slash before its final one is at odds with its shape on the paths that its key
misses. -/
theorem answer_twoSlashes_iff (path : Text) (fixed : t.isFixed = true) (mount : t.endsInSlash = true)
    (ends : Pattern.endsIn '/' t.dropFinalSlash.toText = true) (slash : path.head? = some '/') :
    Scan.answer path (Bid.ofLiteral path (Pattern.literalKey t.toText) true node) =
        .ofRoute t.endsInSlash (t.route? node path) ↔
      ¬ Pattern.KeyMisses t.toText path := by
  have spelled := toText_of_mount mount
  have filled : t.dropFinalSlash.toText ≠ [] := by
    intro empty
    simp [empty, Pattern.endsIn] at ends
  have key : Pattern.literalKey t.toText = t.dropFinalSlash.toText := by
    simp [spelled, literalKey_append_slash, filled]
  rw [key]
  by_cases root : t.dropFinalSlash.toText = ['/']
  · -- the key of `//` is also that of the root mount
    have twice : t.toText = ['/', '/'] := by simp [spelled, root]
    rw [root, answer_root_iff node fixed mount root slash, twice, Pattern.keyMisses_root, not_not]
  · rw [answer_mount_iff node path fixed mount ends root, spelled, Pattern.keyMisses_mount ends root]

/-! ## All literal shapes -/

/-- A literal path is at odds with its shape on the paths that its key misses. -/
theorem answer_ofLiteral_iff (legal : t.WellFormed) (fixed : t.isFixed = true)
    (slash : path.head? = some '/') :
    Scan.answer path (Bid.ofLiteral path (Pattern.literalKey t.toText) t.endsInSlash node) =
        .ofRoute t.endsInSlash (t.route? node path) ↔
      ¬ Pattern.KeyMisses t.toText path := by
  have written := endsIn_toText legal
  cases mount : t.endsInSlash with
  | false =>
      have leaf : Pattern.endsIn '/' t.toText = false := by rw [written, mount]
      have same := answer_ofLiteral_leaf fixed mount node path
      rw [mount] at same
      simp [literalKey_of_leaf leaf, same, Pattern.not_keyMisses_of_leaf leaf]
  | true =>
      have body := wellFormed_dropFinalSlash legal
      have bodyEnds := endsIn_toText body
      cases bare : t.dropFinalSlash.endsInSlash with
      | false =>
          rw [bare] at bodyEnds
          have nonempty : path ≠ [] := by
            rintro rfl
            cases slash
          have agree : ¬ Pattern.KeyMisses t.toText path := by
            rw [toText_of_mount mount]
            exact Pattern.not_keyMisses_of_single bodyEnds
          have same := answer_ofLiteral_mount fixed mount body bare nonempty node
          rw [mount] at same
          simp [same, agree]
      | true =>
          rw [bare] at bodyEnds
          have atOdds := answer_twoSlashes_iff node path fixed mount bodyEnds slash
          rwa [mount] at atOdds

end Template

namespace Resolver

variable {raw path : Text} {p : Pattern} {t : Template} {node : Nat}

/-- A resolver with one route that is no literal answers with what that route offers. -/
theorem resolve_expression (varies : p.key? = none) (node : Nat) (path : Text) :
    (ofRoutes [(p, node)]).resolve path = Scan.answer path (Scan.bid path (p, node) []) := by
  have made : ofRoutes [(p, node)] = ⟨.empty, [(p, node)]⟩ := by
    simp [ofRoutes, insert, varies, empty]
  have noLiteral : (ofRoutes [(p, node)]).literalCandidate path = none := by
    simp [made, literalCandidate, Trie.prefixes_eq]
  have offer : (ofRoutes [(p, node)]).patternCandidate path =
      (Scan.bid path (p, node) []).map (Bid.candidate path) := by
    simp only [made, patternCandidate, List.foldl_cons, List.foldl_nil,
      patternMatch_eq path (p, node) varies]
    cases Scan.bid path (p, node) [] <;> rfl
  apply resolve_of_best
  simp only [noLiteral, offer, longer]

/-- Of all patterns that end in a slash only that of the path `/` is no mount. -/
theorem mountForm_of_compile (compiled : Pattern.compile raw = .ok p) (described : p.Describes t)
    (proper : raw ≠ ['/']) : p.canonical = Pattern.mountForm p.path := by
  rcases described.canonical with form | ⟨path, root⟩
  · exact form
  · rcases Pattern.raw_of_compile compiled with rfl | rfl
    · exact absurd path proper
    · exact absurd root proper

/-- A resolver with one literal route answers as it would by the expression of the route, except for
the paths that the key misses. -/
theorem resolve_asExpression_iff (compiled : Pattern.compile raw = .ok p) (proper : raw ≠ ['/'])
    (parsed : Template.parse p.path = .ok t) (literal : t.isFixed = true)
    (slash : path.head? = some '/') :
    t.matcher.depth ≤ Regex.nestLimit ∧
      ((ofRoutes [(p, node)]).resolve path = (ofRoutes [(p.asExpression t, node)]).resolve path ↔
        ¬ Pattern.KeyMisses p.path path) := by
  rcases Pattern.describes_of_compile compiled with ⟨shape, described⟩
  have same : shape = t := Except.ok.inj (described.parsed.symm.trans parsed)
  subst same
  rcases Template.parse_sound parsed with ⟨-, legal, spelled⟩
  have mount := Template.isMount_of_describes described (mountForm_of_compile compiled described proper)
  have matching : p.matching = .literal (Pattern.literalKey shape.toText) := by
    simpa [literal, spelled] using described.matching
  have byKey : (ofRoutes [(p, node)]).resolve path = Scan.answer path
      (Bid.ofLiteral path (Pattern.literalKey shape.toText) shape.endsInSlash node) := by
    simp [resolve_singleton compiled, Scan.bid, matching, mount]
  have byExpression : (ofRoutes [(p.asExpression shape, node)]).resolve path =
      .ofRoute shape.endsInSlash (shape.route? node path) := by
    have sameMount : (p.asExpression shape).isMount = shape.endsInSlash := mount
    rw [resolve_expression rfl]
    exact Template.answer_ofExpression sameMount node path
  refine ⟨Template.depth_le_of_isFixed literal, ?_⟩
  rw [byKey, byExpression, Template.answer_ofLiteral_iff node legal literal slash, spelled]

/-- Both ways of matching `/a/*` take `/a` from the path `/a/b`. -/
theorem resolve_asExpression_mount :
    let p : Pattern := ⟨"/a/*".toList, "/a/".toList, "/a/*".toList, .literal "/a".toList⟩
    let t : Template := .slash (.literal ['a'] (.slash .done))
    Pattern.compile "/a/*".toList = .ok p ∧ "/a/*".toList ≠ ['/'] ∧ Template.parse p.path = .ok t ∧
      t.isFixed = true ∧ "/a/b".toList.head? = some '/' ∧
      (ofRoutes [(p.asExpression t, 0)]).resolve "/a/b".toList =
        .matched ⟨"/a".toList, "/b".toList, 0, .empty⟩ := by
  intro p t
  have compiled : Pattern.compile "/a/*".toList = .ok p := rfl
  have agree : (ofRoutes [(p, 0)]).resolve "/a/b".toList =
      (ofRoutes [(p.asExpression t, 0)]).resolve "/a/b".toList :=
    (resolve_asExpression_iff compiled (by decide) rfl rfl rfl).2.2 (by decide)
  exact ⟨compiled, by decide, rfl, rfl, rfl, agree.symm.trans rfl⟩

/-- The route `//*` takes every path with a slash in front by its key, and by its expression only `/`
itself and those with two slashes in front. -/
theorem resolve_asExpression_two_slashes :
    let p : Pattern := ⟨"//*".toList, "//".toList, "//*".toList, .literal "/".toList⟩
    let t : Template := .slash (.slash .done)
    Pattern.compile "//*".toList = .ok p ∧ Template.parse p.path = .ok t ∧ t.isFixed = true ∧
      (ofRoutes [(p, 0)]).resolve "/abc".toList = .matched ⟨[], "/abc".toList, 0, .empty⟩ ∧
      (ofRoutes [(p.asExpression t, 0)]).resolve "/abc".toList = .notFound ∧
      (ofRoutes [(p, 0)]).resolve "/abc".toList ≠
        (ofRoutes [(p.asExpression t, 0)]).resolve "/abc".toList := by
  intro p t
  have byKey : (ofRoutes [(p, 0)]).resolve "/abc".toList =
      .matched ⟨[], "/abc".toList, 0, .empty⟩ := rfl
  have byExpression : (ofRoutes [(p.asExpression t, 0)]).resolve "/abc".toList = .notFound := rfl
  refine ⟨rfl, rfl, rfl, byKey, byExpression, ?_⟩
  rw [byKey, byExpression]
  exact Resolution.noConfusion

end Resolver
end PathRouter
