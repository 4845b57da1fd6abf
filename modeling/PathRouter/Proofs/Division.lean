import PathRouter.Proofs.Reach

/-!
# Division — how the answer of a resolver divides a path

Whatever routes compete for a path, the winner takes a beginning of it and leaves the rest, and what
is left starts where a segment ends.  This file defines

* `RouteMatch.Divides`, that a match does so;
* `Resolver.CutsAt`, the byte offsets at which a path is cut while a route is looked for;

and shows `Resolver.resolve_cases`, all that a resolver can answer, and `Resolver.isValid_of_cutsAt`,
that no cut falls inside a character.
-/

namespace PathRouter

/-- A match that takes a beginning of a path and leaves the rest, up to the end of a segment. -/
structure RouteMatch.Divides (m : RouteMatch) (path : Text) : Prop where
  parts : m.taken ++ m.remainder = path
  boundary : m.remainder = [] ∨ m.remainder.head? = some '/'

/-! ## Offers -/

namespace Bid

variable {path key : Text} {mount : Bool} {node : Nat} {b : Bid}

/-- The match of an offer, as it divides the path. -/
def asMatch (path : Text) (b : Bid) : RouteMatch :=
  ⟨b.taken, path.drop b.taken.length, b.node, b.params⟩

/-- An offer of a route that divides the path. -/
structure OfRoute (b : Bid) (path : Text) (route : Pattern × Nat) : Prop where
  divides : (b.asMatch path).Divides path
  node : b.node = route.2
  mount : b.mount = route.1.isMount

theorem divides_of_append {rest : Text} (parts : b.taken ++ rest = path)
    (boundary : rest = [] ∨ rest.head? = some '/') : (b.asMatch path).Divides path := by
  have left : path.drop b.taken.length = rest := by simp [← parts]
  exact ⟨by simpa [asMatch, left] using parts, by simpa [asMatch, left] using boundary⟩

theorem ofLiteral_spec :
    ofLiteral path key mount node = some b →
      (b.asMatch path).Divides path ∧ b.node = node ∧ b.mount = mount := by
  intro offered
  cases mount with
  | false =>
      by_cases whole : path = key
      · have made : (⟨key, node, .empty, .exact, false⟩ : Bid) = b := by
          simpa [ofLiteral, whole] using offered
        subst made
        have parts : key ++ [] = path := by simp [whole]
        exact ⟨divides_of_append parts (.inl rfl), rfl, rfl⟩
      · simp [ofLiteral, whole] at offered
  | true =>
      by_cases root : key = ['/']
      · by_cases slash : path.head? = some '/'
        · have made : (⟨[], node, .empty, .mount, true⟩ : Bid) = b := by
            simpa [ofLiteral, root, slash] using offered
          subst made
          exact ⟨divides_of_append (List.nil_append path) (.inr slash), rfl, rfl⟩
        · simp [ofLiteral, root, slash] at offered
      · by_cases reaches : path = key ∨ key ++ ['/'] <+: path
        · have made : (⟨key, node, .empty, .mount, true⟩ : Bid) = b := by
            simpa only [ofLiteral, if_true, if_neg root, if_pos reaches, Option.some.injEq] using offered
          subst made
          rcases reaches with whole | ⟨rest, below⟩
          · have parts : key ++ [] = path := by simp [whole]
            exact ⟨divides_of_append parts (.inl rfl), rfl, rfl⟩
          · have parts : key ++ '/' :: rest = path := by simpa using below
            exact ⟨divides_of_append parts (.inr rfl), rfl, rfl⟩
        · simp only [ofLiteral, if_true, if_neg root, if_neg reaches] at offered
          cases offered

end Bid

namespace Scan

variable {path : Text} {b : Bid}

/-- The offer of a route, from the shape of its path. -/
theorem bid_of_describes {route : Pattern × Nat} {later : List (Pattern × Nat)} {t : Template}
    (described : route.1.Describes t) :
    bid path route later =
      if t.isFixed then
        if later.any fun other => sameSlot route.1 other.1 then none
        else Bid.ofLiteral path (Pattern.literalKey route.1.path) route.1.isMount route.2
      else (t.route? route.2 path).map fun m =>
        ⟨m.taken, m.node, m.params, .expression, route.1.isMount⟩ := by
  rw [bid, described.matching]
  cases t.isFixed with
  | true => rfl
  | false => exact Template.ofExpression_eq t route.1 route.2 path

/-- What a route of compiled pattern offers divides the path. -/
theorem ofRoute_of_bid {route : Pattern × Nat} {later : List (Pattern × Nat)} {raw : Text}
    (compiled : Pattern.compile raw = .ok route.1) :
    bid path route later = some b → b.OfRoute path route := by
  intro offered
  rcases Pattern.describes_of_compile compiled with ⟨t, described⟩
  rw [bid_of_describes described] at offered
  -- a literal is found by its key unless a later one has taken it over, all else by its expression
  cases fixed : t.isFixed with
  | true =>
      have literal : Bid.ofLiteral path (Pattern.literalKey route.1.path) route.1.isMount route.2 =
          some b := by
        by_cases taken : later.any fun other => sameSlot route.1 other.1
        · simp [fixed, taken] at offered
        · simpa [fixed, taken] using offered
      rcases Bid.ofLiteral_spec literal with ⟨divides, node, mount⟩
      exact ⟨divides, node, mount⟩
  | false =>
      have expression : (t.route? route.2 path).map (fun m =>
          (⟨m.taken, m.node, m.params, .expression, route.1.isMount⟩ : Bid)) = some b := by
        simpa [fixed] using offered
      rcases Option.map_eq_some_iff.1 expression with ⟨m, routed, rfl⟩
      exact ⟨Bid.divides_of_append (Template.taken_append_remainder routed)
        (Template.boundary_of_route? routed), Template.node_of_route? routed, rfl⟩

theorem mem_bids {routes : List (Pattern × Nat)} :
    b ∈ bids path routes ↔
      ∃ before route later, routes = before ++ route :: later ∧ bid path route later = some b := by
  induction routes with
  | nil => simp [bids]
  | cons head tail ih =>
      rw [bids, List.mem_append, ih, Option.mem_toList]
      constructor
      · rintro (here | ⟨before, route, later, rfl, there⟩)
        · exact ⟨[], head, tail, rfl, here⟩
        · exact ⟨head :: before, route, later, rfl, there⟩
      · rintro ⟨before, route, later, eq, offered⟩
        rcases List.cons_eq_append_iff.1 eq with ⟨rfl, same⟩ | ⟨more, rfl, rfl⟩
        · cases same
          exact .inl offered
        · exact .inr ⟨more, route, later, rfl, offered⟩

end Scan

/-! ## Answers -/

namespace Resolver

variable {routes : List (Pattern × Nat)} {path : Text}

/-- A resolver finds no route, or answers with the offer of one. -/
theorem resolve_of_bid (compiled : ∀ route ∈ routes, ∃ raw, Pattern.compile raw = .ok route.1)
    (path : Text) :
    Scan.bids path routes = [] ∧ (ofRoutes routes).resolve path = .notFound ∨
      ∃ before route later b, routes = before ++ route :: later ∧
        Scan.bid path route later = some b ∧ b.OfRoute path route ∧
          (ofRoutes routes).resolve path = .ofRoute route.1.isMount (some (b.asMatch path)) := by
  have answer := resolve_of_best (best_ofRoutes compiled path)
  cases won : Scan.winner (Scan.bids path routes) with
  | none =>
      left
      rw [won] at answer
      exact ⟨Scan.winner_eq_none.1 won, answer⟩
  | some b =>
      right
      rcases Scan.mem_bids.1 (Scan.winner_best won).1 with ⟨before, route, later, listed, offered⟩
      rcases compiled route (by simp [listed]) with ⟨raw, made⟩
      have from_route := Scan.ofRoute_of_bid made offered
      refine ⟨before, route, later, b, listed, offered, from_route, ?_⟩
      calc
        (ofRoutes routes).resolve path = Scan.answer path (some b) := by rw [answer, won]
        _ = .ofRoute b.mount (some (b.asMatch path)) := Scan.answer_some from_route.divides.parts
        _ = .ofRoute route.1.isMount (some (b.asMatch path)) := by simp [from_route.mount]

/-- A resolver finds no route, or one whose match divides the path, and redirects just the matches of
mounts that leave nothing. -/
theorem resolve_cases (compiled : ∀ route ∈ routes, ∃ raw, Pattern.compile raw = .ok route.1)
    (path : Text) :
    (ofRoutes routes).resolve path = .notFound ∨
      ∃ route ∈ routes, ∃ m : RouteMatch, m.node = route.2 ∧ m.Divides path ∧
        (ofRoutes routes).resolve path = .ofRoute route.1.isMount (some m) := by
  rcases resolve_of_bid compiled path with ⟨-, miss⟩ | ⟨_, route, _, b, listed, -, ofRoute, answer⟩
  · exact .inl miss
  · exact .inr ⟨route, by simp [listed], b.asMatch path, ofRoute.node, ofRoute.divides, answer⟩

/-! ## Offsets -/

/-- A byte offset at which a path is cut while a route is looked for: behind the bytes of a key that the
path starts with, behind what an expression matches, or one byte before that, where a slash is given
back. -/
inductive CutsAt (r : Resolver) (path : Text) : Nat → Prop
  | key {key : Text} {slot : Slot} {bytes : ByteArray} :
      r.literals.get? key = some slot → key.utf8Encode ++ bytes = path.utf8Encode →
        CutsAt r path (Text.utf8Length key)
  | whole {p : Pattern} {node : Nat} {regex : Regex} {m : Regex.Match} :
      (p, node) ∈ r.patterns → p.regex? = some regex → regex.match? path = some m →
        CutsAt r path (Text.utf8Length (m.whole path))
  | givenBack {p : Pattern} {node : Nat} {regex : Regex} {m : Regex.Match} :
      (p, node) ∈ r.patterns → p.regex? = some regex → regex.match? path = some m →
        p.isLeaf = false → Pattern.endsIn '/' (m.whole path) = true →
          CutsAt r path (Text.utf8Length (m.whole path) - 1)

/-- A path is never cut inside a character. -/
theorem isValid_of_cutsAt {r : Resolver} {n : Nat} :
    r.CutsAt path n → String.Pos.Raw.IsValid (String.ofList path) ⟨n⟩ := by
  intro cuts
  cases cuts with
  | key _ bytes =>
      rcases List.isPrefix_of_utf8Encode_append_eq_utf8Encode _ bytes with ⟨after, parts⟩
      exact Text.isValid_of_append parts
  | whole _ _ found => exact Text.isValid_of_append (Regex.whole_append_rest found)
  | @givenBack _ _ _ m _ _ found _ ends =>
      rcases Pattern.endsIn_iff.1 ends with ⟨before, eq⟩
      have parts : before ++ '/' :: m.rest = path := by
        simpa [eq] using Regex.whole_append_rest found
      -- a slash is a single byte
      have offset : Text.utf8Length (m.whole path) - 1 = Text.utf8Length before := by
        have slash : Text.utf8Length ['/'] = 1 := rfl
        simp only [eq, Text.utf8Length_append, slash, Nat.add_sub_cancel]
      rw [offset]
      exact Text.isValid_of_append parts

end Resolver
end PathRouter
