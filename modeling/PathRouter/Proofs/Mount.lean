import PathRouter.Proofs.Seam
import PathRouter.Proofs.Single

/-!
# Mount — a mount takes a beginning that its shape stands for

A mount is a route whose path ends in a slash.  Before that slash stands a shape, and the mount takes a
beginning of a path that the shape stands for, where the path ends or goes on with a slash.  This file
defines

* `Template.Begins`, that some text of a shape begins a path in this way;

and shows `Template.mount_language`, for the written form of the matcher and for the candidate that a
compiled mount makes of a path.  A text of the shape that takes the whole path and ends in a slash is
the one exception: that slash is left to what is mounted.
-/

namespace PathRouter
namespace Template

open Regex

variable {t : Template} {path rest : Text} {m : Match} {p : Pattern}

/-- Some text of the shape begins the path, which ends there or goes on with a slash. -/
def Begins (t : Template) (path : Text) : Prop :=
  ∃ values taken rest, t.Denotes values taken ∧ taken ++ rest = path ∧
    (rest = [] ∨ rest.head? = some '/')

/-! ## The first way -/

/-- The shape before the final slash has a way to stop if one of its texts begins the path. -/
theorem isSome_first?_iff : ((t ++ slash done).first? path).isSome = true ↔ t.Begins path := by
  rw [first?, dropFinalSlash_mount, List.find?_isSome]
  constructor
  · rintro ⟨m, mem, stops⟩
    rcases denotes_of_mem_ways mem with ⟨taken, parts, derived⟩
    exact ⟨m.values, taken, m.rest, derived, parts.symm, stopsAt_mount.1 stops⟩
  · rintro ⟨values, taken, rest, derived, rfl, boundary⟩
    rcases mem_ways_of_denotes derived rest with ⟨m, mem, rfl, -⟩
    exact ⟨m, mem, stopsAt_mount.2 boundary⟩

/-- The first way takes a text of the shape, with the values that it captures. -/
theorem denotes_of_first? (found : (t ++ slash done).first? path = some m) :
    t.Denotes m.values (m.whole path) ∧ m.whole path ++ m.rest = path ∧
      (m.rest = [] ∨ m.rest.head? = some '/') := by
  rcases first?_spec found with ⟨mem, stops⟩
  rw [dropFinalSlash_mount] at mem
  rcases denotes_of_mem_ways mem with ⟨taken, parts, derived⟩
  have whole : m.whole path = taken := Match.whole_of_append parts.symm
  rw [whole]
  exact ⟨derived, parts.symm, stopsAt_mount.1 stops⟩

/-- What a mount leaves is empty or starts with a slash; what it takes is what the way took, or all of
that but a slash at the end of the path. -/
theorem leave_mount (taken : Text) (boundary : rest = [] ∨ rest.head? = some '/') :
    let cut := (t ++ slash done).leave taken rest
    (cut.2 = [] ∨ cut.2.head? = some '/') ∧ (cut.1 = taken ∨ cut.2 = ['/'] ∧ rest = []) := by
  intro cut
  simp only [cut, leave]
  split
  next back =>
    rw [Bool.and_eq_true, Bool.and_eq_true, List.isEmpty_iff] at back
    exact ⟨.inr rfl, .inr ⟨rfl, back.1.2⟩⟩
  next => exact ⟨boundary, .inl rfl⟩

/-- What a mount takes of a path is a text of its shape, or all of such a text but the slash at its end,
which is then left. -/
theorem denotes_of_route? {node : Nat} {found : RouteMatch}
    (routed : (t ++ slash done).route? node path = some found) :
    (found.remainder = [] ∨ found.remainder.head? = some '/') ∧
      ∃ values, (t.Denotes values found.taken ∨
          found.remainder = ['/'] ∧ t.Denotes values path) ∧
        ∀ name, found.params.get? name =
          ParamValue.ofValues (Params.taken t.names values name) := by
  rcases Option.map_eq_some_iff.1 routed with ⟨m, first, rfl⟩
  rcases denotes_of_first? first with ⟨derived, whole, boundary⟩
  rcases leave_mount (t := t) (m.whole path) boundary with ⟨left, kept⟩
  refine ⟨left, m.values, ?_, fun name => ?_⟩
  · rcases kept with same | ⟨back, last⟩
    · have taken : t.Denotes m.values ((t ++ slash done).leave (m.whole path) m.rest).1 := by
        rw [same]
        exact derived
      exact .inl taken
    · -- the way has taken the whole path
      rw [last, List.append_nil] at whole
      rw [whole] at derived
      exact .inr ⟨back, derived⟩
  · have names : (t ++ slash done).names = t.names := by
      rw [names_append]
      exact List.append_nil _
    rw [← names]
    exact Params.get?_captured _ m.captures name

/-! ## The candidate -/

/-- The candidate that a compiled expression makes of a path is the way of its shape. -/
theorem patternMatch_eq_route? (described : p.Describes t) (varies : p.key? = none) (node : Nat)
    (path : Text) :
    Resolver.patternMatch p node path = (t.route? node path).map fun m => ⟨m, p.isMount⟩ := by
  have free : t.isFixed = false := by
    rw [Bool.eq_false_iff]
    intro fixed
    rw [Pattern.key?, described.matching, if_pos fixed] at varies
    cases varies
  have matching := described.matching
  rw [free] at matching
  rw [Resolver.patternMatch_eq path (p, node) varies, Scan.bid]
  simp only [matching, Bool.false_eq_true, if_false, ofExpression_eq]
  cases routed : t.route? node path with
  | none => rfl
  | some m =>
      -- what is left is what stands behind the text taken
      have left : path.drop m.taken.length = m.remainder := by
        rw [← taken_append_remainder routed, List.drop_left]
      simp [Bid.candidate, left]

/-- A mount whose path is not literal makes a candidate of a path exactly if a text of its shape begins
the path, and the written form of its matcher matches exactly such paths.  The candidate takes a text
of the shape and leaves nothing or something that starts with a slash; only where a text of the shape
takes the whole path, with a slash at its end, may the candidate leave that slash.  Either way its
parameters are the values of a derivation of the text, under their names and in order. -/
theorem mount_language {raw : Text} {p : Pattern} {t : Template}
    (compiled : Pattern.compile raw = .ok p) (parsed : parse p.path = .ok (t ++ slash done))
    (varies : p.key? = none) :
    (∃ r, ofSource? (t ++ slash done).matcher.source = some (r, groupNames 0 t.names.length) ∧
      ∀ path, (r.match? path).isSome = true ↔ t.Begins path) ∧
    ∀ path node,
      ((Resolver.patternMatch p node path).isSome = true ↔ t.Begins path) ∧
      ∀ c, Resolver.patternMatch p node path = some c →
        c.matched.taken ++ c.matched.remainder = path ∧
        (c.matched.remainder = [] ∨ c.matched.remainder.head? = some '/') ∧
        ∃ values,
          (t.Denotes values c.matched.taken ∨
            c.matched.remainder = ['/'] ∧ t.Denotes values path) ∧
          ∀ name, c.matched.params.get? name =
            ParamValue.ofValues (Params.taken t.names values name) := by
  -- the final slash captures nothing
  have captures : (t ++ slash done).matcher.captures = t.names.length := by
    rw [matcher, endsInSlash_append t rfl, endsInSlash, if_pos rfl, dropFinalSlash_mount,
      Regex.captures, captures_expression]
    rfl
  have described : p.Describes (t ++ slash done) := by
    rcases Pattern.describes_of_compile compiled with ⟨other, described⟩
    have same := described.parsed.symm.trans parsed
    cases same
    exact described
  refine ⟨?_, fun path node => ?_⟩
  · rcases ofSource?_source (t ++ slash done) with ⟨r, read, same⟩
    refine ⟨r, by rw [read, captures], fun path => ?_⟩
    rw [same.match?, match?_matcher, Option.isSome_map, isSome_first?_iff]
  · rw [patternMatch_eq_route? described varies, Option.isSome_map]
    refine ⟨?_, fun c made => ?_⟩
    · rw [route?, Option.isSome_map, isSome_first?_iff]
    rcases Option.map_eq_some_iff.1 made with ⟨found, routed, rfl⟩
    exact ⟨taken_append_remainder routed, denotes_of_route? routed⟩

/-- A group in front of the final slash, which it leaves alone because it brings its own. -/
theorem mount_language_group :
    let t : Template := .slash (.capture ['a'] [] (.optional (.slash (.literal ['b'] .done)) .done))
    ∃ p, Pattern.compile "/\x7ba\x7d[/b]/*".toList = .ok p ∧ parse p.path = .ok (t ++ slash done) ∧
      p.key? = none ∧
      ∃ c, Resolver.patternMatch p 0 "/v/b/c".toList = some c ∧
        c.matched.taken ++ c.matched.remainder = "/v/b/c".toList ∧
        (c.matched.remainder = [] ∨ c.matched.remainder.head? = some '/') := by
  intro t
  let p : Pattern := ⟨"/\x7ba\x7d[/b]/*".toList, "/\x7ba\x7d[/b]/".toList, "/\x7ba\x7d[/b]/*".toList,
    .expression (t ++ slash done).matcher [['a']] false⟩
  have compiled : Pattern.compile "/\x7ba\x7d[/b]/*".toList = .ok p := rfl
  have parsed : parse p.path = .ok (t ++ slash done) := rfl
  have value : Takes [] ['v'] := ⟨by decide, by decide⟩
  have inside : Denotes (.slash (.literal ['b'] .done)) [] ['/', 'b'] := .slash rfl (.literal .done)
  have derived : t.Denotes [some ['v']] "/v/b".toList :=
    .slash rfl (.capture value (.taken (u := []) inside .done))
  have begins : t.Begins "/v/b/c".toList := ⟨_, _, "/c".toList, derived, rfl, .inr rfl⟩
  rcases (mount_language compiled parsed rfl).2 "/v/b/c".toList 0 with ⟨taken, sound⟩
  rcases Option.isSome_iff_exists.1 (taken.2 begins) with ⟨c, made⟩
  rcases sound c made with ⟨parts, left, -⟩
  exact ⟨p, compiled, parsed, rfl, c, made, parts, left⟩

/-- A group that ends in a slash takes the whole path, and what is left of it after that slash has been
given back is no text of the shape. -/
theorem prefix_outside_language :
    let t : Template := .slash (.literal ['x'] (.optional (.literal ['y'] (.slash .done)) .done))
    ∃ p, Pattern.compile "/x[y/]/*".toList = .ok p ∧ parse p.path = .ok (t ++ slash done) ∧
      p.key? = none ∧
      ∃ c, Resolver.patternMatch p 0 "/xy/".toList = some c ∧ c.matched.taken = "/xy".toList ∧
        c.matched.remainder = ['/'] ∧ ∀ values, ¬ t.Denotes values c.matched.taken := by
  intro t
  let p : Pattern := ⟨"/x[y/]/*".toList, "/x[y/]/".toList, "/x[y/]/*".toList,
    .expression (t ++ slash done).matcher [] false⟩
  have made : (Resolver.patternMatch p 0 "/xy/".toList).map
      (fun c => (c.matched.taken, c.matched.remainder)) = some ("/xy".toList, ['/']) := by
    decide +kernel
  rcases Option.map_eq_some_iff.1 made with ⟨c, made, parts⟩
  rcases Prod.mk.inj parts with ⟨taken, left⟩
  refine ⟨p, rfl, rfl, rfl, c, made, taken, left, fun values derived => ?_⟩
  -- every way through the shape stops before the letter of the group
  have none : ∀ m ∈ t.expression.ways ("/xy".toList ++ []), m.rest ≠ [] := by decide
  rw [taken] at derived
  rcases mem_ways_of_denotes derived [] with ⟨m, mem, done, -⟩
  exact none m mem done

end Template
end PathRouter
