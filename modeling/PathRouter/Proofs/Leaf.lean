import PathRouter.Proofs.Compile
import PathRouter.Proofs.Params
import PathRouter.Proofs.Source

/-!
# Leaf — a leaf takes exactly the texts of its shape

A leaf is a route whose path does not end in a slash.  This file shows

* `Template.isSome_match?_iff` and `Template.denotes_of_match?`, that the matcher of a leaf takes
  the texts that its shape stands for, with the values of some derivation;
* `Template.leaf_language`, the same for the written form of the matcher and for the candidate that
  a compiled leaf makes of a path.
-/

namespace PathRouter
namespace Template

open Regex

variable {t : Template} {path : Text} {m : Match}

/-! ## The matcher of a leaf -/

theorem matcher_of_leaf (leaf : t.endsInSlash = false) : t.matcher = .seq t.expression .stop := by
  simp [matcher, leaf]

theorem captures_matcher (leaf : t.endsInSlash = false) : t.matcher.captures = t.names.length := by
  rw [matcher_of_leaf leaf, Regex.captures, captures_expression]
  rfl

/-- The ways of a leaf's matcher are those of the expression that leave nothing. -/
theorem mem_ways_matcher (leaf : t.endsInSlash = false) :
    m ∈ t.matcher.ways path ↔ m ∈ t.expression.ways path ∧ m.rest = [] := by
  have same (n : Match) (done : n.rest = []) : n.andThen ⟨[], []⟩ = n := by
    rw [← done]
    simp [Match.andThen]
  rw [matcher_of_leaf leaf, mem_ways_seq]
  constructor
  · rintro ⟨n, mem, last, stopped, rfl⟩
    rcases mem_ways_stop.1 stopped with ⟨done, rfl⟩
    rw [same n done]
    exact ⟨mem, done⟩
  · rintro ⟨mem, done⟩
    exact ⟨m, mem, ⟨[], []⟩, mem_ways_stop.2 ⟨done, rfl⟩, (same m done).symm⟩

/-- A match of a leaf takes the whole path and derives it with the values that it captures. -/
theorem denotes_of_match? (leaf : t.endsInSlash = false) (found : t.matcher.match? path = some m) :
    m.rest = [] ∧ t.Denotes m.values path := by
  rw [match?_eq_head?] at found
  rcases (mem_ways_matcher leaf).1 (List.mem_of_head? found) with ⟨mem, done⟩
  rcases denotes_of_mem_ways mem with ⟨taken, eq, derived⟩
  rw [done, List.append_nil] at eq
  rw [eq]
  exact ⟨done, derived⟩

theorem isSome_match?_iff (leaf : t.endsInSlash = false) :
    (t.matcher.match? path).isSome = true ↔ ∃ values, t.Denotes values path := by
  constructor
  · intro found
    rcases Option.isSome_iff_exists.1 found with ⟨m, found⟩
    exact ⟨m.values, (denotes_of_match? leaf found).2⟩
  · rintro ⟨values, derived⟩
    rcases mem_ways_of_denotes derived [] with ⟨m, mem, done, -⟩
    rw [List.append_nil] at mem
    have way := (mem_ways_matcher leaf).2 ⟨mem, done⟩
    rw [match?_eq_head?, List.isSome_head?]
    exact List.ne_nil_of_mem way

/-! ## The candidate of a leaf -/

/-- What a compiled leaf makes of a path is what its matcher makes of it. -/
theorem patternMatch_of_leaf {written : Text} {pattern : Pattern} (parsed : parse written = .ok t)
    (varies : t.isFixed = false) (leaf : t.endsInSlash = false)
    (compiled : Pattern.compile written = .ok pattern) (node : Nat) :
    Resolver.patternMatch pattern node path =
      (t.matcher.match? path).map fun m =>
        ⟨⟨m.whole path, m.rest, node, Resolver.captured t.names m.captures⟩, pattern.isMount⟩ := by
  rcases parse_sound parsed with ⟨-, legal, spelled⟩
  have form : Pattern.mountForm written = written := by
    rw [Pattern.mountForm, ← spelled, endsIn_toText legal, leaf]
    rfl
  have made := Pattern.compile_mountForm parsed
  rw [form, compiled, Pattern.ofTemplate, varies] at made
  simp only [Bool.false_eq_true, if_false] at made
  split at made
  · cases made
  · cases made
    simp [Resolver.patternMatch, Resolver.cut, leaf]

/-- The written form of a leaf's matcher matches exactly the texts of the leaf's shape; where it does,
it takes the whole path, the captured values are those of a derivation, and the candidate that the
compiled leaf makes stores under every name the values captured under it, in order. -/
theorem leaf_language {written path : Text} {t : Template} (parsed : parse written = .ok t)
    (varies : t.isFixed = false) (leaf : t.endsInSlash = false) :
    ∃ r, ofSource? t.matcher.source = some (r, groupNames 0 t.names.length) ∧
      ((r.match? path).isSome = true ↔ ∃ values, t.Denotes values path) ∧
      ∀ m, r.match? path = some m →
        m.whole path = path ∧ t.Denotes m.values path ∧
          ∀ pattern node, Pattern.compile written = .ok pattern →
            ∃ c, Resolver.patternMatch pattern node path = some c ∧
              c.matched.node = node ∧ c.matched.taken = path ∧ c.matched.remainder = [] ∧
              ∀ name, c.matched.params.get? name =
                ParamValue.ofValues (Params.taken t.names m.values name) := by
  rcases ofSource?_source t with ⟨r, read, same⟩
  refine ⟨r, ?_, ?_, ?_⟩
  · rw [read, captures_matcher leaf]
  · rw [same.match?]
    exact isSome_match?_iff leaf
  · intro m found
    rw [same.match?] at found
    rcases denotes_of_match? leaf found with ⟨done, derived⟩
    -- nothing is left, so the text of the match is the whole path
    have whole : m.whole path = path := by
      have cut := whole_append_rest found
      rw [done, List.append_nil] at cut
      exact cut
    refine ⟨whole, derived, ?_⟩
    intro pattern node compiled
    refine ⟨_, (patternMatch_of_leaf parsed varies leaf compiled node).trans
      (congrArg _ found), rfl, whole, done, fun name => ?_⟩
    exact Params.get?_captured t.names m.captures name

/-- A group that does not bring its own slash takes the one before it. -/
theorem leaf_language_group :
    let t : Template :=
      .slash (.capture ['a'] []
        (.slash (.optional (.literal ['x'] (.capture ['b'] [['u'], ['v']] .done)) .done)))
    parse "/\x7ba\x7d/[x\x7bb:u|v\x7d]".toList = .ok t ∧ t.isFixed = false ∧ t.endsInSlash = false ∧
      ∃ r, ofSource? "^/(?P<p0>[^/]+)(/x(?P<p1>u|v))?$".toList =
          some (r, ["p0".toList, "p1".toList]) ∧
        (r.match? "/p/xv".toList).isSome = true := by
  intro t
  have parsed : parse "/\x7ba\x7d/[x\x7bb:u|v\x7d]".toList = .ok t := rfl
  have derived : t.Denotes [some ['p'], some ['v']] "/p/xv".toList := by
    have inside : Denotes (.literal ['x'] (.capture ['b'] [['u'], ['v']] .done)) [some ['v']]
        ['x', 'v'] :=
      .literal (.option (s := []) (by decide) .done)
    have value : Takes [] ['p'] := ⟨by decide, by decide⟩
    exact .slash rfl (.capture value (.slashTaken (u := []) rfl inside .done))
  rcases @leaf_language _ "/p/xv".toList t parsed rfl rfl with ⟨r, read, taken, -⟩
  exact ⟨parsed, rfl, rfl, r, read, taken.2 ⟨_, derived⟩⟩

end Template
end PathRouter
