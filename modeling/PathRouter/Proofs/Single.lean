import PathRouter.Proofs.Leaf
import PathRouter.Proofs.Precedence

/-!
# Single — a router with one route, read off the shape of the route

Literal routes are found by their keys and all others by expressions, yet a route that stands alone
takes a path in one way that depends on its shape only.  This file defines

* `Template.first?`, the first way in which a shape takes a beginning of a path where it may stop;
* `Template.route?`, the same as a match of a route, and `Resolution.ofRoute`;

and shows `Resolver.resolve_of_describes`, that this is the answer of a resolver with one route.
-/

namespace PathRouter

/-- Whether a mount has been addressed without its final slash. -/
def RouteMatch.redirects (m : RouteMatch) (mount : Bool) : Bool :=
  mount && m.remainder.isEmpty && !m.taken.isEmpty

namespace RouteMatch

variable {m : RouteMatch}

theorem redirects_of_more (more : m.remainder ≠ []) (mount : Bool) : m.redirects mount = false := by
  simp [redirects, more]

/-- A mount that takes a whole path is one that sends the request elsewhere. -/
theorem redirects_of_done {path : Text} (parts : m.taken ++ m.remainder = path) (filled : path ≠ [])
    (done : m.remainder = []) (mount : Bool) : m.redirects mount = mount := by
  have taken : m.taken ≠ [] := by
    intro empty
    rw [empty, done] at parts
    exact filled parts.symm
  simp [redirects, done, taken]

end RouteMatch

/-- The answer to a path for which one route is in question. -/
def Resolution.ofRoute (mount : Bool) (found : Option RouteMatch) : Resolution :=
  match found with
  | none => .notFound
  | some m => if m.redirects mount then .redirect m else .matched m

namespace Template

open Regex

variable {t : Template} {path rest : Text} {m : Match}

/-- Whether a path may be left there: at its end and, by a mount, before a slash. -/
def stopsAt (t : Template) (rest : Text) : Bool :=
  rest.isEmpty || (t.endsInSlash && rest.head? == some '/')

/-- The first way in which a shape, without its final slash, takes a beginning of a path where it may
stop. -/
def first? (t : Template) (path : Text) : Option Match :=
  (t.dropFinalSlash.expression.ways path).find? fun m => t.stopsAt m.rest

/-- The beginning of a path that a route takes, and what is left.  A mount leaves the last slash of
a path. -/
def leave (t : Template) (taken rest : Text) : Text × Text :=
  if t.endsInSlash && rest.isEmpty && Pattern.endsIn '/' taken then (taken.dropLast, ['/'])
  else (taken, rest)

/-- How a route of the shape takes a path. -/
def route? (t : Template) (node : Nat) (path : Text) : Option RouteMatch :=
  (t.first? path).map fun m =>
    let cut := t.leave (m.whole path) m.rest
    ⟨cut.1, cut.2, node, Resolver.captured t.names m.captures⟩

/-! ## The first way -/

theorem stopsAt_cases (stops : t.stopsAt rest = true) :
    rest = [] ∨ t.endsInSlash = true ∧ ∃ s, rest = '/' :: s := by
  rw [stopsAt, Bool.or_eq_true, Bool.and_eq_true, beq_iff_eq, List.isEmpty_iff,
    List.head?_eq_some_iff] at stops
  exact stops

theorem first?_spec (found : t.first? path = some m) :
    m ∈ t.dropFinalSlash.expression.ways path ∧ t.stopsAt m.rest = true := by
  have stops := List.find?_some found
  exact ⟨List.mem_of_find?_eq_some found, stops⟩

theorem leave_append (t : Template) (taken rest : Text) :
    (t.leave taken rest).1 ++ (t.leave taken rest).2 = taken ++ rest := by
  rw [leave]
  split
  next back =>
    rw [Bool.and_eq_true, Bool.and_eq_true, List.isEmpty_iff] at back
    rcases back with ⟨⟨-, rfl⟩, ends⟩
    rcases Pattern.endsIn_iff.1 ends with ⟨before, rfl⟩
    simp
  next => rfl

/-- What a route takes and what it leaves make up the path. -/
theorem taken_append_remainder {node : Nat} {found : RouteMatch} :
    t.route? node path = some found → found.taken ++ found.remainder = path := by
  intro routed
  rcases Option.map_eq_some_iff.1 routed with ⟨m, first, rfl⟩
  exact (leave_append t _ _).trans (whole_append_of_mem_ways (first?_spec first).1)

/-! ## The matcher -/

theorem flatMap_ite {α β : Type} (p : α → Bool) (g : α → β) (l : List α) :
    (l.flatMap fun a => if p a then [g a] else []) = (l.filter p).map g := by
  induction l with
  | nil => rfl
  | cons a l ih => cases holds : p a <;> simp [holds, ih]

/-- What a matcher ends with: a mount goes on behind a slash or stops, a leaf stops. -/
def closing (t : Template) : Regex :=
  if t.endsInSlash then .group (.alt (.text ['/']) .stop) else .stop

theorem matcher_eq (t : Template) : t.matcher = .seq t.dropFinalSlash.expression t.closing := by
  cases mount : t.endsInSlash with
  | true => simp [matcher, closing, mount]
  | false => simp [matcher, closing, mount, dropFinalSlash_of_leaf mount]

/-- The end of a matcher goes on from where the shape may stop, and takes the slash there. -/
theorem ways_seq_closing (t : Template) (r : Regex) (path : Text) :
    (Regex.seq r t.closing).ways path =
      ((r.ways path).filter fun m => t.stopsAt m.rest).map fun m => ⟨m.captures, m.rest.tail⟩ := by
  have close (m : Match) : (t.closing.ways m.rest).map m.andThen =
      if t.stopsAt m.rest then [⟨m.captures, m.rest.tail⟩] else [] := by
    rcases m with ⟨captures, rest⟩
    cases mount : t.endsInSlash with
    | true =>
        cases rest with
        | nil =>
            simp [closing, mount, ways, List.isPrefixOf?, stopsAt, Match.andThen, Match.passed,
              Regex.captures]
        | cons c s =>
            by_cases slash : '/' = c
            · subst slash
              simp [closing, mount, ways, List.isPrefixOf?, stopsAt, Match.andThen, Match.passed,
                Regex.captures]
            · simp [closing, mount, ways, List.isPrefixOf?, stopsAt, slash, Ne.symm slash]
    | false => cases rest <;> simp [closing, mount, ways, stopsAt, Match.andThen]
  rw [← flatMap_ite, ways]
  simp only [← close]

theorem ways_matcher (t : Template) (path : Text) :
    t.matcher.ways path =
      ((t.dropFinalSlash.expression.ways path).filter fun m => t.stopsAt m.rest).map
        fun m => ⟨m.captures, m.rest.tail⟩ := by
  rw [matcher_eq, ways_seq_closing]

theorem match?_matcher (t : Template) (path : Text) :
    t.matcher.match? path = (t.first? path).map fun m => ⟨m.captures, m.rest.tail⟩ := by
  rw [match?_eq_head?, ways_matcher, List.head?_map, first?, List.head?_filter]

/-! ## Fixed shapes -/

theorem ways_seq_text (cs : Text) (r : Regex) (s : Text) :
    (Regex.seq (.text cs) r).ways s = (cs.isPrefixOf? s).toList.flatMap r.ways := by
  have bare (rest : Text) : Match.andThen ⟨[], rest⟩ = id := funext fun m => rfl
  simp [ways, List.flatMap_map, bare]

theorem isPrefixOf?_append (cs more s : Text) :
    (cs ++ more).isPrefixOf? s = (cs.isPrefixOf? s).bind more.isPrefixOf? := by
  induction cs generalizing s with
  | nil => rfl
  | cons c cs ih =>
      cases s with
      | nil => rfl
      | cons d s =>
          by_cases same : c = d
          · simp [List.isPrefixOf?, same, ih]
          · simp [List.isPrefixOf?, same]

/-- A fixed shape is matched by its text in one way. -/
theorem ways_of_isFixed (fixed : t.isFixed = true) (s : Text) :
    t.expression.ways s = (t.toText.isPrefixOf? s).toList.map (⟨[], ·⟩) := by
  have on (cs : Text) (rest : Template) (ih : ∀ s,
      rest.expression.ways s = (rest.toText.isPrefixOf? s).toList.map (⟨[], ·⟩)) :
      ∀ s, (Regex.seq (.text cs) rest.expression).ways s =
        ((cs ++ rest.toText).isPrefixOf? s).toList.map (⟨[], ·⟩) := by
    intro s
    rw [ways_seq_text, isPrefixOf?_append]
    cases cs.isPrefixOf? s with
    | none => rfl
    | some after => simp [ih]
  induction t generalizing s with
  | done => rfl
  | slash rest ih =>
      cases rest with
      | optional inner next => cases fixed
      | _ => exact on ['/'] _ (ih fixed ·) s
  | literal text rest ih => exact on text rest (ih fixed ·) s
  | capture name options rest => cases fixed
  | optional inner rest => cases fixed

theorem first?_of_isFixed (fixed : t.dropFinalSlash.isFixed = true) (path : Text) :
    t.first? path =
      ((t.dropFinalSlash.toText.isPrefixOf? path).filter t.stopsAt).map (⟨[], ·⟩) := by
  rw [first?, ways_of_isFixed fixed]
  cases t.dropFinalSlash.toText.isPrefixOf? path with
  | none => rfl
  | some rest => cases stops : t.stopsAt rest <;> simp [stops]

theorem names_of_isFixed (fixed : t.isFixed = true) : t.names = [] := by
  induction t with
  | done => rfl
  | slash rest ih => exact ih fixed
  | literal text rest ih => exact ih fixed
  | capture name options rest => cases fixed
  | optional inner rest => cases fixed

end Template

/-! ## Offers -/

namespace Scan

theorem answer_some {path rest : Text} {b : Bid} (parts : b.taken ++ rest = path) :
    answer path (some b) = .ofRoute b.mount (some ⟨b.taken, rest, b.node, b.params⟩) := by
  have left : path.drop b.taken.length = rest := by rw [← parts, List.drop_left]
  simp [answer, Resolution.ofRoute, RouteMatch.redirects, left, and_assoc]

end Scan

namespace Template

open Regex

variable {t : Template} {path : Text} {p : Pattern}

theorem isMount_of_describes (described : p.Describes t)
    (form : p.canonical = Pattern.mountForm p.path) : p.isMount = t.endsInSlash := by
  rcases parse_sound described.parsed with ⟨-, legal, spelled⟩
  have ends : Pattern.endsIn '/' p.path = t.endsInSlash := by rw [← spelled, endsIn_toText legal]
  cases mount : t.endsInSlash with
  | true =>
      rw [mount] at ends
      rcases Pattern.endsIn_iff.1 ends with ⟨before, path⟩
      refine Pattern.isMount_iff.2 ⟨before, ?_⟩
      rw [form, Pattern.mountForm, if_pos ends, path, List.append_assoc]
      rfl
  | false =>
      rw [mount] at ends
      rw [Bool.eq_false_iff]
      intro isMount
      rcases Pattern.isMount_iff.1 isMount with ⟨before, eq⟩
      have plain : p.canonical = p.path := by simp [form, Pattern.mountForm, ends]
      apply star_not_mem_toText legal
      rw [spelled, ← plain, eq]
      simp

theorem endsInSlash_of_isMount (described : p.Describes t) (mount : p.isMount = true) :
    t.endsInSlash = true := by
  rw [← isMount_of_describes described (Pattern.form_of_isMount described mount), mount]

/-- What the matcher takes beyond the shape is what a mount gives back. -/
theorem leave_eq {m : Match} (mem : m ∈ t.dropFinalSlash.expression.ways path)
    (stops : t.stopsAt m.rest = true) :
    (if !(!t.endsInSlash) && Pattern.endsIn '/' (Match.whole ⟨m.captures, m.rest.tail⟩ path) then
      (Match.whole ⟨m.captures, m.rest.tail⟩ path).dropLast
    else Match.whole ⟨m.captures, m.rest.tail⟩ path) = (t.leave (m.whole path) m.rest).1 := by
  have parts := whole_append_of_mem_ways mem
  rcases stopsAt_cases stops with done | ⟨mount, s, slash⟩
  · have whole : Match.whole ⟨m.captures, m.rest.tail⟩ path = m.whole path := by
      rw [Match.whole, Match.whole, done]
      rfl
    rw [whole, leave, done, Bool.not_not, List.isEmpty_nil, Bool.and_true]
    split <;> rfl
  · have whole : Match.whole ⟨m.captures, m.rest.tail⟩ path = m.whole path ++ ['/'] := by
      apply Match.whole_of_append
      rw [List.append_assoc, slash, List.tail_cons, List.singleton_append, ← slash, parts]
    rw [whole, leave, slash]
    simp [mount]

/-- An expression offers what its shape takes. -/
theorem ofExpression_eq (t : Template) (p : Pattern) (node : Nat) (path : Text) :
    Bid.ofExpression path p node t.matcher t.names (!t.endsInSlash) =
      (t.route? node path).map fun m => ⟨m.taken, m.node, m.params, .expression, p.isMount⟩ := by
  cases found : t.first? path with
  | none => simp [Bid.ofExpression, match?_matcher, route?, found]
  | some m =>
      rcases first?_spec found with ⟨mem, stops⟩
      simp only [Bid.ofExpression, match?_matcher, route?, found, Option.map_some, leave_eq mem stops]

/-- The offer of an expression is the way of its shape. -/
theorem answer_ofExpression (mount : p.isMount = t.endsInSlash) (node : Nat) (path : Text) :
    Scan.answer path (Bid.ofExpression path p node t.matcher t.names (!t.endsInSlash)) =
      .ofRoute t.endsInSlash (t.route? node path) := by
  rw [ofExpression_eq, mount]
  cases routed : t.route? node path with
  | none => rfl
  | some m => exact Scan.answer_some (taken_append_remainder routed)

/-! ## Keys -/

theorem literalKey_append_slash (s : Text) :
    Pattern.literalKey (s ++ ['/']) = if s = [] then ['/'] else s := by
  rw [Pattern.literalKey, Text.isSuffixOf?_append]
  cases s <;> rfl

theorem literalKey_of_leaf {s : Text} : Pattern.endsIn '/' s = false → Pattern.literalKey s = s := by
  intro leaf
  have none : (['/'] : Text).isSuffixOf? s = none := by
    rw [Text.isSuffixOf?_eq_none]
    rintro before rfl
    rw [Pattern.endsIn_append] at leaf
    cases leaf
  rw [Pattern.literalKey, none]

/-- A fixed shape takes its own text, if the path may be left after it. -/
theorem route?_of_append {rest : Text} (fixed : t.isFixed = true)
    (parts : t.dropFinalSlash.toText ++ rest = path) (node : Nat) :
    t.route? node path =
      if t.stopsAt rest then
        some ⟨(t.leave t.dropFinalSlash.toText rest).1, (t.leave t.dropFinalSlash.toText rest).2, node,
          .empty⟩
      else none := by
  have before := Text.isPrefixOf?_eq_some.2 parts.symm
  have whole : Match.whole ⟨[], rest⟩ path = t.dropFinalSlash.toText :=
    Match.whole_of_append parts
  rw [route?, first?_of_isFixed (isFixed_dropFinalSlash fixed), before, names_of_isFixed fixed]
  cases stops : t.stopsAt rest with
  | true =>
      simp only [Option.filter_some, stops, if_true, Option.map_some, whole]
      rfl
  | false => simp [stops]

theorem route?_of_not_append (fixed : t.isFixed = true)
    (apart : ∀ rest, t.dropFinalSlash.toText ++ rest ≠ path) (node : Nat) :
    t.route? node path = none := by
  have none : t.dropFinalSlash.toText.isPrefixOf? path = none := by
    rw [Option.eq_none_iff_forall_ne_some]
    intro rest before
    exact apart rest (Text.isPrefixOf?_eq_some.1 before).symm
  rw [route?, first?_of_isFixed (isFixed_dropFinalSlash fixed), none]
  rfl

/-- The offer of a literal leaf is the way of its shape. -/
theorem answer_ofLiteral_leaf (fixed : t.isFixed = true) (leaf : t.endsInSlash = false) (node : Nat)
    (path : Text) :
    Scan.answer path (Bid.ofLiteral path t.toText false node) =
      .ofRoute t.endsInSlash (t.route? node path) := by
  have body := dropFinalSlash_of_leaf leaf
  by_cases before : ∃ rest, t.toText ++ rest = path
  · rcases before with ⟨rest, parts⟩
    rw [Resolver.ofLiteral_exact parts,
      route?_of_append fixed (by rw [body, parts]) node, body]
    cases rest with
    | nil =>
        have stops : t.stopsAt [] = true := rfl
        rw [if_pos rfl, if_pos stops, Scan.answer_some parts]
        simp [leave, leaf]
    | cons c rest => simp [stopsAt, leaf, Scan.answer, Resolution.ofRoute]
  · have none : Bid.ofLiteral path t.toText false node = none := by
      rw [Option.eq_none_iff_forall_ne_some]
      exact fun b offered => before (Resolver.exists_cut_of_ofLiteral offered)
    have apart : ∀ rest, t.dropFinalSlash.toText ++ rest ≠ path := by
      rw [body]
      exact fun rest parts => before ⟨rest, parts⟩
    rw [none, route?_of_not_append fixed apart]
    rfl

/-- The offer of a literal mount is the way of its shape. -/
theorem answer_ofLiteral_mount (fixed : t.isFixed = true) (mount : t.endsInSlash = true)
    (legal : t.dropFinalSlash.WellFormed) (bare : t.dropFinalSlash.endsInSlash = false)
    (nonempty : path ≠ []) (node : Nat) :
    Scan.answer path (Bid.ofLiteral path (Pattern.literalKey t.toText) true node) =
      .ofRoute t.endsInSlash (t.route? node path) := by
  have spelled := toText_of_mount mount
  have open' : Pattern.endsIn '/' t.dropFinalSlash.toText = false := by
    rw [endsIn_toText legal, bare]
  have kept (rest : Text) :
      t.leave t.dropFinalSlash.toText rest = (t.dropFinalSlash.toText, rest) := by
    simp [leave, open']
  rw [spelled, literalKey_append_slash]
  -- the root mount is found under the key `/`, though it takes nothing
  by_cases root : t.dropFinalSlash.toText = []
  · rw [if_pos root, route?_of_append fixed (by rw [root]; rfl) node, kept, root]
    cases path with
    | nil => exact absurd rfl nonempty
    | cons c rest =>
        by_cases slash : c = '/'
        · simp [Bid.ofLiteral, stopsAt, slash, mount, Scan.answer, Resolution.ofRoute,
            RouteMatch.redirects]
        · simp [Bid.ofLiteral, stopsAt, slash, Scan.answer, Resolution.ofRoute]
  have proper : t.dropFinalSlash.toText ≠ ['/'] := by
    intro slash
    rw [slash] at open'
    cases open'
  rw [if_neg root]
  by_cases before : ∃ rest, t.dropFinalSlash.toText ++ rest = path
  · rcases before with ⟨rest, parts⟩
    have stops : t.stopsAt rest = true ↔ rest = [] ∨ rest.head? = some '/' := by
      simp [stopsAt, mount]
    rw [Resolver.ofLiteral_mount parts, if_neg proper, route?_of_append fixed parts, kept]
    by_cases boundary : rest = [] ∨ rest.head? = some '/'
    · rw [if_pos boundary, if_pos (stops.2 boundary), Scan.answer_some parts, mount]
    · rw [if_neg boundary, if_neg (mt stops.1 boundary)]
      rfl
  · have none : Bid.ofLiteral path t.dropFinalSlash.toText true node = none := by
      rw [Option.eq_none_iff_forall_ne_some]
      exact fun b offered => before (Resolver.exists_cut_of_ofLiteral offered)
    rw [none, route?_of_not_append fixed fun rest parts => before ⟨rest, parts⟩]
    rfl

/-! ## One route -/

/-- No two slashes stand side by side in the path of a pattern. -/
def Separate (s : Text) : Prop := ¬ ['/', '/'] <:+: s

theorem endsInSlash_dropFinalSlash (mount : t.endsInSlash = true)
    (legal : t.dropFinalSlash.WellFormed) (separate : Separate t.toText) :
    t.dropFinalSlash.endsInSlash = false := by
  rw [← endsIn_toText legal, Bool.eq_false_iff]
  intro ends
  rcases Pattern.endsIn_iff.1 ends with ⟨before, eq⟩
  refine separate ⟨before, [], ?_⟩
  rw [toText_of_mount mount, eq]
  simp

theorem wellFormed_dropFinalSlash (legal : t.WellFormed) : t.dropFinalSlash.WellFormed := by
  cases mount : t.endsInSlash with
  | true =>
      rw [← dropFinalSlash_append_slash mount, wellFormed_append] at legal
      exact legal.1
  | false =>
      rw [dropFinalSlash_of_leaf mount]
      exact legal

end Template

/-- A route that stands alone takes a path as its shape does. -/
theorem Resolver.resolve_of_describes {raw : Text} {p : Pattern} {t : Template}
    (compiled : Pattern.compile raw = .ok p) (described : p.Describes t)
    (form : p.canonical = Pattern.mountForm p.path) (separate : Template.Separate p.path)
    {path : Text} (nonempty : path ≠ []) (node : Nat) :
    (ofRoutes [(p, node)]).resolve path = .ofRoute t.endsInSlash (t.route? node path) := by
  rcases Template.parse_sound described.parsed with ⟨-, legal, spelled⟩
  have mount := Template.isMount_of_describes described form
  have matching := described.matching
  rw [resolve_singleton compiled, Scan.bid]
  cases fixed : t.isFixed with
  | false =>
      rw [fixed] at matching
      simp only [matching, Bool.false_eq_true, if_false]
      exact Template.answer_ofExpression mount node path
  | true =>
      rw [fixed] at matching
      simp only [matching, if_true, List.any_nil, Bool.false_eq_true, if_false, mount, ← spelled]
      cases ends : t.endsInSlash with
      | true =>
          rw [← spelled] at separate
          have body := Template.wellFormed_dropFinalSlash legal
          have bare := Template.endsInSlash_dropFinalSlash ends body separate
          rw [Template.answer_ofLiteral_mount fixed ends body bare nonempty, ends]
      | false =>
          have leaf : Pattern.endsIn '/' t.toText = false := by
            rw [Template.endsIn_toText legal, ends]
          rw [Template.literalKey_of_leaf leaf, Template.answer_ofLiteral_leaf fixed ends, ends]

end PathRouter
