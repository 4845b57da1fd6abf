import PathRouter.Proofs.Mount
import Mathlib.Data.List.MinMax

/-!
# Omission — a route without its optional groups

An optional group may be left out of a path, and with it the slash before it that belongs to it.  This file
defines

* `Regex.bare`, an expression from which all optional groups are left out;
* `Template.bare`, the same for a shape, and `Template.shortest`, a shortest text of what is left;

and shows `Pattern.match_without_groups`: of a route with groups there is a path that is taken without them
exactly if what is left of its shape starts with a slash.
-/

namespace PathRouter

/-! ## Expressions -/

namespace Regex

/-- The expression from which all optional groups are left out. -/
def bare : Regex → Regex
  | .seq first second => .seq first.bare second.bare
  | .alt first second => .alt first.bare second.bare
  | .optional _ => .empty
  | .group body => .group body.bare
  | .capture body => .capture body.bare
  | r => r

/-- What is matched without the groups is matched with them. -/
theorem exists_way_of_bare {r : Regex} {s : Text} {m : Match} :
    m ∈ r.bare.ways s → ∃ n ∈ r.ways s, n.rest = m.rest := by
  intro mem
  induction r generalizing s m with
  | seq first second ih_first ih_second =>
      rcases mem_ways_seq.1 mem with ⟨m₁, mem₁, m₂, mem₂, rfl⟩
      rcases ih_first mem₁ with ⟨n₁, way₁, eq⟩
      rcases ih_second mem₂ with ⟨n₂, way₂, rest⟩
      rw [← eq] at way₂
      exact ⟨n₁.andThen n₂, mem_ways_seq.2 ⟨n₁, way₁, n₂, way₂, rfl⟩, rest⟩
  | alt first second ih_first ih_second =>
      rcases mem_ways_alt.1 mem with ⟨m, one, rfl⟩ | ⟨m, other, rfl⟩
      · rcases ih_first one with ⟨n, way, rest⟩
        exact ⟨_, mem_ways_alt.2 (.inl ⟨n, way, rfl⟩), rest⟩
      · rcases ih_second other with ⟨n, way, rest⟩
        exact ⟨_, mem_ways_alt.2 (.inr ⟨n, way, rfl⟩), rest⟩
  | optional body =>
      rw [List.mem_singleton.1 mem]
      exact ⟨_, mem_ways_optional.2 (.inr rfl), rfl⟩
  | group body ih => exact ih mem
  | capture body ih =>
      rcases mem_ways_capture.1 mem with ⟨m, inside, rfl⟩
      rcases ih inside with ⟨n, way, rest⟩
      exact ⟨_, mem_ways_capture.2 ⟨n, way, rfl⟩, rest⟩
  | _ => exact ⟨m, mem, rfl⟩

theorem isSome_match?_of_bare {r : Regex} {s : Text} (found : (r.bare.match? s).isSome = true) :
    (r.match? s).isSome = true := by
  rw [match?_eq_head?, List.isSome_head?] at found ⊢
  rcases List.exists_mem_of_ne_nil _ found with ⟨m, mem⟩
  rcases exists_way_of_bare mem with ⟨n, way, -⟩
  exact List.ne_nil_of_mem way

end Regex

/-! ## Shapes -/

namespace Template

/-- The shape from which all groups are left out, with the slashes that belong to them. -/
def bare : Template → Template
  | .done => .done
  | .slash rest => if rest.takesSlash then rest.bare else .slash rest.bare
  | .literal text rest => .literal text rest.bare
  | .capture name options rest => .capture name options rest.bare
  | .optional _ rest => rest.bare

open Regex

variable {t : Template} {values outside : List (Option Text)} {s u path : Text} {m : Match}

theorem bare_slash_of_takesSlash {rest : Template} (takes : rest.takesSlash = true) :
    (slash rest).bare = rest.bare := if_pos takes

theorem bare_slash {rest : Template} (leaves : rest.takesSlash = false) :
    (slash rest).bare = slash rest.bare := by simp [bare, leaves]

/-- A group without a slash of its own is left out with the slash before it. -/
theorem bare_slash_optional {inner rest : Template} (plain : inner.startsWithSlash = false) :
    (slash (optional inner rest)).bare = rest.bare :=
  bare_slash_of_takesSlash (by simp [takesSlash, plain])

@[simp] theorem isPlain_bare (t : Template) : t.bare.isPlain = true := by
  induction t with
  | done => rfl
  | slash rest ih =>
      cases takes : rest.takesSlash with
      | true => rwa [bare_slash_of_takesSlash takes]
      | false => rwa [bare_slash takes]
  | literal text rest ih => exact ih
  | capture name options rest ih => exact ih
  | optional inner rest _ ih => exact ih

@[simp] theorem takesSlash_bare (t : Template) : t.bare.takesSlash = false :=
  takesSlash_of_isPlain (isPlain_bare t)

@[simp] theorem bare_bare (t : Template) : t.bare.bare = t.bare := by
  induction t with
  | done => rfl
  | slash rest ih =>
      cases takes : rest.takesSlash with
      | true => rwa [bare_slash_of_takesSlash takes]
      | false => rw [bare_slash takes, bare_slash (takesSlash_bare rest), ih]
  | literal text rest ih => exact congrArg (literal text) ih
  | capture name options rest ih => exact congrArg (capture name options) ih
  | optional inner rest _ ih => exact ih

theorem isPlain_of_isFixed (fixed : t.isFixed = true) : t.isPlain = true := by
  induction t with
  | done => rfl
  | slash rest ih => exact ih fixed
  | literal text rest ih => exact ih fixed
  | capture name options rest => cases fixed
  | optional inner rest => cases fixed

/-- The slash at the end of a mount belongs to no group. -/
theorem bare_append_slash (t : Template) : (t ++ slash done).bare = t.bare ++ slash done := by
  induction t with
  | done => rfl
  | slash rest ih =>
      have same : (rest ++ slash done).takesSlash = rest.takesSlash := by cases rest <;> rfl
      cases takes : rest.takesSlash with
      | true =>
          rw [bare_slash_of_takesSlash takes, ← ih]
          exact bare_slash_of_takesSlash (same.trans takes)
      | false =>
          rw [bare_slash takes, slash_append, bare_slash (same.trans takes), ih]
          rfl
  | literal text rest ih => exact congrArg (literal text) ih
  | capture name options rest ih => exact congrArg (capture name options) ih
  | optional inner rest _ ih => exact ih

/-! ### Expressions of shapes -/

theorem bare_choice (options : List Text) : (choice options).bare = choice options := by
  induction options with
  | nil => rfl
  | cons option options ih =>
      cases options with
      | nil => rfl
      | cons next options => exact congrArg (Regex.alt (.text option)) ih

theorem bare_captured (options : List Text) : (captured options).bare = captured options := by
  cases options with
  | nil => rfl
  | cons option options => exact bare_choice _

/-- Groups are left out of an expression as they are left out of its shape. -/
theorem same_bare (t : Template) : Same t.expression.bare t.bare.expression := by
  fun_induction expression t with
  | case1 => exact .refl _
  | case2 inner rest starts ih_inner ih =>
      have leaves : (optional inner rest).takesSlash = false := by simp [takesSlash, starts]
      rw [bare_slash leaves, expression_slash (takesSlash_bare _)]
      exact .seq (.refl _) ((Same.empty_seq _).trans ih)
  | case3 inner rest starts ih_inner ih =>
      rw [bare_slash_optional (Bool.eq_false_iff.2 starts)]
      exact (Same.empty_seq _).trans ih
  | case4 rest other ih =>
      have leaves : rest.takesSlash = false := by
        cases rest with
        | optional inner rest => exact absurd rfl (other inner rest)
        | _ => rfl
      rw [bare_slash leaves, expression_slash (takesSlash_bare _)]
      exact .seq (.refl _) ih
  | case5 text rest ih => exact .seq (.refl _) ih
  | case6 name options rest ih =>
      refine .seq ?_ ih
      rw [Regex.bare, bare_captured]
      exact .refl _
  | case7 inner rest ih_inner ih => exact (Same.empty_seq _).trans ih

theorem bare_matcher (t : Template) :
    t.matcher.bare = .seq t.dropFinalSlash.expression.bare t.closing := by
  have kept : t.closing.bare = t.closing := by
    rw [closing]
    split <;> rfl
  rw [matcher_eq, Regex.bare, kept]

theorem mem_ways_matcher_bare : m ∈ t.matcher.bare.ways path ↔
    ∃ n ∈ t.dropFinalSlash.bare.expression.ways path, t.stopsAt n.rest = true ∧
      m = ⟨n.captures, n.rest.tail⟩ := by
  rw [bare_matcher, ways_seq_closing, (same_bare _).ways]
  simp only [List.mem_map, List.mem_filter, and_assoc, eq_comm]

/-- A match without the groups takes a text of the shape without them. -/
theorem denotes_of_match?_bare (found : t.matcher.bare.match? path = some m) :
    ∃ taken rest, taken ++ rest = path ∧ t.stopsAt rest = true ∧
      t.dropFinalSlash.bare.Denotes m.values taken := by
  rw [match?_eq_head?] at found
  rcases mem_ways_matcher_bare.1 (List.mem_of_head? found) with ⟨n, way, stops, rfl⟩
  rcases denotes_of_mem_ways way with ⟨taken, parts, derived⟩
  exact ⟨taken, n.rest, parts.symm, stops, derived⟩

theorem exists_match?_bare {rest : Text} (derived : t.dropFinalSlash.bare.Denotes values s)
    (stops : t.stopsAt rest = true) : ∃ m, t.matcher.bare.match? (s ++ rest) = some m := by
  rcases mem_ways_of_denotes derived rest with ⟨n, way, rfl, -⟩
  have mem := mem_ways_matcher_bare.2 ⟨n, way, stops, rfl⟩
  rw [← Option.isSome_iff_exists, match?_eq_head?, List.isSome_head?]
  exact List.ne_nil_of_mem mem

/-! ### Shortest texts -/

/-- A shortest text that a capture takes. -/
def leastValue (options : List Text) : Text := (options.argmin List.length).getD ['a']

/-- A shortest text of a shape, which leaves out all groups. -/
def shortest : Template → Text
  | .done => []
  | .slash rest => '/' :: rest.shortest
  | .literal cs rest => cs ++ rest.shortest
  | .capture _ options rest => leastValue options ++ rest.shortest
  | .optional _ rest => rest.shortest

theorem leastValue_mem_argmin {options : List Text} (filled : options ≠ []) :
    leastValue options ∈ options.argmin List.length := by
  cases least : options.argmin List.length with
  | none => exact absurd (List.argmin_eq_none.1 least) filled
  | some value =>
      rw [leastValue, least]
      rfl

theorem takes_of_mem {options : List Text} {value : Text} (listed : value ∈ options) :
    Takes options value := by
  cases options with
  | nil => cases listed
  | cons option options => exact listed

theorem takes_leastValue (options : List Text) : Takes options (leastValue options) := by
  cases options with
  | nil => exact ⟨by decide, by decide⟩
  | cons option options =>
      exact List.argmin_mem (leastValue_mem_argmin (List.cons_ne_nil option options))

theorem length_leastValue_le {options : List Text} {value : Text} (takes : Takes options value) :
    (leastValue options).length ≤ value.length := by
  cases options with
  | nil => exact List.length_pos_iff.2 takes.1
  | cons option options =>
      exact List.le_of_mem_argmin takes (leastValue_mem_argmin (List.cons_ne_nil option options))

theorem exists_denotes_shortest (plain : t.isPlain = true) :
    ∃ values, t.Denotes values t.shortest := by
  induction t with
  | done => exact ⟨[], .done⟩
  | slash rest ih =>
      rcases ih plain with ⟨values, derived⟩
      exact ⟨values, .slash (takesSlash_of_isPlain plain) derived⟩
  | literal text rest ih =>
      rcases ih plain with ⟨values, derived⟩
      exact ⟨values, .literal derived⟩
  | capture name options rest ih =>
      rcases ih plain with ⟨values, derived⟩
      exact ⟨_, .capture (takes_leastValue options) derived⟩
  | optional inner rest => cases plain

/-- No text of a shape is shorter, whatever groups it takes. -/
theorem length_shortest_le (derived : t.Denotes values s) :
    t.bare.shortest.length ≤ s.length := by
  induction derived with
  | done => exact Nat.le_refl _
  | slash leaves on ih =>
      rw [bare_slash leaves]
      exact Nat.succ_le_succ ih
  | literal on ih =>
      simp only [bare, shortest, List.length_append]
      omega
  | segment filled free on ih =>
      have takes : Takes [] _ := ⟨filled, free⟩
      have least := length_leastValue_le takes
      simp only [bare, shortest, List.length_append]
      omega
  | @option name value options rest values s listed on ih =>
      have least := length_leastValue_le (takes_of_mem listed)
      simp only [bare, shortest, List.length_append]
      omega
  | taken within on ih_inner ih =>
      simp only [bare, List.length_append]
      omega
  | skipped on ih => exact ih
  | slashTaken plain within on ih_inner ih =>
      rw [bare_slash_optional plain]
      simp only [List.length_append, List.length_cons]
      omega
  | slashSkipped plain on ih =>
      rw [bare_slash_optional plain]
      exact ih

theorem length_shortest_le_of_bare (derived : t.bare.Denotes outside s) :
    t.bare.shortest.length ≤ s.length := by
  rw [← bare_bare]
  exact length_shortest_le derived

/-! ### Values -/

theorem length_of_denotes (derived : t.Denotes values s) : t.names.length = values.length := by
  induction derived with
  | done => rfl
  | slash leaves on ih => exact ih
  | literal on ih => exact ih
  | segment filled free on ih => exact congrArg (· + 1) ih
  | option listed on ih => exact congrArg (· + 1) ih
  | taken within on ih_inner ih => simp [names, ih_inner, ih]
  | skipped on ih => simp [names, ih]
  | slashTaken plain within on ih_inner ih => simp [names, ih_inner, ih]
  | slashSkipped plain on ih => simp [names, ih]

/-- What a capture takes starts with something else than a slash. -/
theorem exists_cons_of_takes {options : List Text} {value : Text}
    (legal : ∀ option ∈ options, isOption option = true) (takes : Takes options value) :
    ∃ c more, value = c :: more ∧ c ≠ '/' := by
  have proper : value ≠ [] ∧ '/' ∉ value := by
    cases options with
    | nil => exact takes
    | cons option options =>
        rcases isOption_iff.1 (legal value takes) with ⟨filled, -, free⟩
        exact ⟨filled, fun slash => nomatch free '/' slash⟩
  rcases List.exists_cons_of_ne_nil proper.1 with ⟨c, more, rfl⟩
  exact ⟨c, more, rfl, fun slash => proper.2 (slash ▸ List.mem_cons_self)⟩

/-- A text of slashes leaves nothing to the captures. -/
theorem no_value_of_slashes (legal : t.WellFormed) (derived : t.Denotes values s)
    (slashes : ∀ c ∈ s, c = '/') : ∀ value ∈ values, value = none := by
  have first {options : List Text} {value u : Text} (slashes : ∀ c ∈ value ++ u, c = '/')
      (legal : ∀ option ∈ options, isOption option = true) : ¬ Takes options value := by
    intro takes
    rcases exists_cons_of_takes legal takes with ⟨c, more, rfl, other⟩
    exact other (slashes c List.mem_cons_self)
  have passed (count : Nat) : ∀ value ∈ List.replicate count (none : Option Text), value = none :=
    fun value => List.eq_of_mem_replicate
  induction derived with
  | done => exact fun value mem => nomatch mem
  | slash leaves on ih => exact ih legal (List.forall_mem_cons.1 slashes).2
  | literal on ih => exact ih legal.2.2.2 (List.forall_mem_append.1 slashes).2
  | segment filled free on ih => exact absurd ⟨filled, free⟩ (first slashes legal.2.1)
  | option listed on ih => exact absurd (takes_of_mem listed) (first slashes legal.2.1)
  | taken within on ih_inner ih =>
      rcases List.forall_mem_append.1 slashes with ⟨early, late⟩
      exact List.forall_mem_append.2 ⟨ih_inner legal.2.1 early, ih legal.2.2 late⟩
  | skipped on ih => exact List.forall_mem_append.2 ⟨passed _, ih legal.2.2 slashes⟩
  | slashTaken plain within on ih_inner ih =>
      rcases List.forall_mem_append.1 slashes with ⟨early, late⟩
      have inside := ih_inner legal.2.1 (List.forall_mem_cons.1 early).2
      exact List.forall_mem_append.2 ⟨inside, ih legal.2.2 late⟩
  | slashSkipped plain on ih => exact List.forall_mem_append.2 ⟨passed _, ih legal.2.2 slashes⟩

theorem taken_eq_nil (names : List Text) (silent : ∀ value ∈ values, value = none) (name : Text) :
    Params.taken names values name = [] := by
  rw [Params.taken, List.filterMap_eq_nil_iff]
  rintro ⟨key, value⟩ mem
  simp [silent value (List.of_mem_zip mem).2]

/-- Inversion where the first part is no group. -/
theorem denotes_slash (leaves : t.takesSlash = false) :
    (slash t).Denotes values s → ∃ u, s = '/' :: u ∧ t.Denotes values u := by
  intro derived
  cases derived with
  | slash _ on => exact ⟨_, rfl, on⟩
  | slashTaken plain within on => simp [takesSlash, plain] at leaves
  | slashSkipped plain on => simp [takesSlash, plain] at leaves

theorem denotes_literal {cs : Text} :
    (literal cs t).Denotes values s → ∃ u, s = cs ++ u ∧ t.Denotes values u := by
  rintro ⟨⟩
  exact ⟨_, rfl, ‹_›⟩

theorem denotes_capture {name : Text} {options : List Text} :
    (capture name options t).Denotes values s →
      ∃ value later u, values = some value :: later ∧ s = value ++ u ∧ Takes options value ∧
        t.Denotes later u := by
  intro derived
  cases derived with
  | segment filled free on => exact ⟨_, _, _, rfl, rfl, ⟨filled, free⟩, on⟩
  | option listed on => exact ⟨_, _, _, rfl, rfl, takes_of_mem listed, on⟩

/-- Of a shortest text a capture takes the same in each derivation. -/
theorem taken_bare_capture {key value name : Text} {options : List Text} (takes : Takes options value)
    (on : t.Denotes values s) (apart : (capture key options t.bare).Denotes outside (value ++ s))
    (short : (value ++ s).length ≤ (capture key options t.bare).shortest.length)
    (later : ∀ others, t.bare.Denotes others s → s.length ≤ t.bare.shortest.length →
      Params.taken t.names values name = Params.taken t.bare.names others name) :
    Params.taken (key :: t.names) (some value :: values) name =
      Params.taken (key :: t.bare.names) outside name := by
  rcases denotes_capture apart with ⟨other, others, u, rfl, parts, takes', on'⟩
  have least := length_leastValue_le takes
  have least' := length_leastValue_le takes'
  have behind := length_shortest_le on
  have behind' := length_shortest_le_of_bare on'
  have total := congrArg List.length parts
  simp only [shortest, List.length_append] at short total
  rcases List.append_inj parts (by omega) with ⟨rfl, rfl⟩
  have same := later others on' (by omega)
  have first (names : List Text) (values : List (Option Text)) :
      Params.taken (key :: names) (some value :: values) name =
        Params.taken [key] [some value] name ++ Params.taken names values name :=
    @Params.taken_append [key] names [some value] values rfl name
  rw [first t.names, first t.bare.names, same]

/-- Of a shortest text no group takes a value, and so the values are those of what stands outside. -/
theorem taken_bare (legal : t.WellFormed) (derived : t.Denotes values s)
    (apart : t.bare.Denotes outside s) (short : s.length ≤ t.bare.shortest.length) (name : Text) :
    Params.taken t.names values name = Params.taken t.bare.names outside name := by
  have passed {inner : Template} {values : List (Option Text)} {rest : Template} :
      Params.taken (inner.names ++ rest.names) (List.replicate inner.names.length none ++ values) name =
        Params.taken rest.names values name := by
    rw [Params.taken_append (by simp), taken_eq_nil _ fun value => List.eq_of_mem_replicate,
      List.nil_append]
  induction derived generalizing outside with
  | done =>
      cases apart
      rfl
  | slash leaves on ih =>
      rw [bare_slash leaves] at apart short ⊢
      rcases denotes_slash (takesSlash_bare _) apart with ⟨u, parts, on'⟩
      cases parts
      exact ih legal on' (Nat.le_of_succ_le_succ short)
  | @literal cs rest values s on ih =>
      rcases denotes_literal apart with ⟨u, parts, on'⟩
      cases List.append_cancel_left parts
      simp only [bare, shortest, List.length_append] at short
      exact ih legal.2.2.2 on' (by omega)
  | @segment key value rest values s filled free on ih =>
      have takes : Takes [] value := ⟨filled, free⟩
      exact taken_bare_capture takes on apart short fun others => ih legal.2.2
  | option listed on ih =>
      exact taken_bare_capture (takes_of_mem listed) on apart short fun others => ih legal.2.2
  | @taken inner rest inside values s u within on ih_inner ih =>
      have least := length_shortest_le on
      have bound : s.length + u.length ≤ rest.bare.shortest.length := by
        simpa only [bare, List.length_append] using short
      have empty : s = [] := List.eq_nil_of_length_eq_zero (by omega)
      subst empty
      have silent := no_value_of_slashes legal.2.1 within fun c mem => nomatch mem
      rw [names, Params.taken_append (length_of_denotes within), taken_eq_nil _ silent, List.nil_append]
      exact ih legal.2.2 apart short
  | skipped on ih =>
      rw [names, passed]
      exact ih legal.2.2 apart short
  | slashTaken plain within on ih_inner ih =>
      -- the slash alone makes it too long
      have least := length_shortest_le on
      rw [bare_slash_optional plain] at short
      simp only [List.length_append, List.length_cons] at short
      omega
  | slashSkipped plain on ih =>
      rw [bare_slash_optional plain] at apart short ⊢
      rw [names, names, passed]
      exact ih legal.2.2 apart short

/-! ### The start of what is left -/

/-- Where what is left starts with something else than a slash, so do its texts. -/
theorem away_of_denotes_bare (legal : t.WellFormed) (away : t.bare.startsWithSlash = false)
    (derived : t.bare.Denotes values s) :
    (t.bare = done ∧ s = []) ∨ ∃ c u, s = c :: u ∧ c ≠ '/' := by
  induction t with
  | done =>
      cases derived
      exact .inl ⟨rfl, rfl⟩
  | slash rest ih =>
      cases takes : rest.takesSlash with
      | true =>
          rw [bare_slash_of_takesSlash takes] at away derived ⊢
          exact ih legal away derived
      | false =>
          rw [bare_slash takes] at away
          cases away
  | literal cs rest ih =>
      rcases denotes_literal derived with ⟨u, rfl, -⟩
      rcases List.exists_cons_of_ne_nil legal.1 with ⟨c, more, rfl⟩
      refine .inr ⟨c, more ++ u, rfl, fun slash => ?_⟩
      cases slash ▸ legal.2.1 c List.mem_cons_self
  | capture name options rest ih =>
      rcases denotes_capture derived with ⟨value, later, u, -, rfl, takes, -⟩
      rcases exists_cons_of_takes legal.2.1 takes with ⟨c, more, rfl, other⟩
      exact .inr ⟨c, more ++ u, rfl, other⟩
  | optional inner rest _ ih => exact ih legal.2.2 away derived

/-- What is left of a mount starts with its final slash only if nothing else is left. -/
theorem startsWithSlash_bare (t : Template) : t.bare.startsWithSlash =
    (t.dropFinalSlash.bare.startsWithSlash ||
      (t.endsInSlash && t.dropFinalSlash.bare.isDone)) := by
  cases mount : t.endsInSlash with
  | true =>
      have whole := bare_append_slash t.dropFinalSlash
      rw [dropFinalSlash_append_slash mount] at whole
      rw [whole]
      cases t.dropFinalSlash.bare <;> rfl
  | false => simp [dropFinalSlash_of_leaf mount]

theorem names_dropFinalSlash (t : Template) :
    t.dropFinalSlash.names = t.names ∧ t.dropFinalSlash.bare.names = t.bare.names := by
  cases mount : t.endsInSlash with
  | true =>
      have whole := dropFinalSlash_append_slash mount
      constructor
      · rw [← whole, names_append, names, names, List.append_nil, whole]
      · rw [← whole, bare_append_slash, names_append, names, names, List.append_nil, whole]
  | false => exact ⟨by rw [dropFinalSlash_of_leaf mount], by rw [dropFinalSlash_of_leaf mount]⟩

/-! ### Paths -/

/-- No path is taken without the groups if what is left starts with something else than a slash. -/
theorem match?_bare_eq_none (legal : t.WellFormed) (away : t.bare.startsWithSlash = false)
    (slash : path.head? = some '/') : t.matcher.bare.match? path = none := by
  rw [startsWithSlash_bare, Bool.or_eq_false_iff] at away
  rw [Option.eq_none_iff_forall_ne_some]
  intro m found
  rcases denotes_of_match?_bare found with ⟨taken, rest, rfl, stops, derived⟩
  rcases away_of_denotes_bare (wellFormed_dropFinalSlash legal) away.1 derived with
    ⟨empty, rfl⟩ | ⟨c, u, rfl, other⟩
  · -- a leaf stops at the end only, and a mount would have started with its final slash
    rcases stopsAt_cases stops with rfl | ⟨mount, -⟩
    · cases slash
    · simp [mount, empty, isDone] at away
  · exact other (Option.some.inj slash)

/-- A path that is as short as can be is taken with the same values as without the groups. -/
theorem taken_of_short (legal : t.WellFormed) {n : Match}
    (short : path.length ≤ t.dropFinalSlash.bare.shortest.length)
    (found : t.first? path = some n) (apart : t.matcher.bare.match? path = some m) (name : Text) :
    Params.taken t.names n.values name = Params.taken t.bare.names m.values name := by
  rcases denotes_of_mem_ways (first?_spec found).1 with ⟨whole, parts, derived⟩
  rcases denotes_of_match?_bare apart with ⟨taken, rest, parts', -, outside⟩
  have least := length_shortest_le derived
  have least' := length_shortest_le_of_bare outside
  -- both take the whole path
  have all : whole = path := List.IsPrefix.eq_of_length_le ⟨n.rest, parts.symm⟩ (by omega)
  have all' : taken = path := List.IsPrefix.eq_of_length_le ⟨rest, parts'⟩ (by omega)
  rw [all] at derived
  rw [all'] at outside
  rw [← (names_dropFinalSlash t).1, ← (names_dropFinalSlash t).2]
  exact taken_bare (wellFormed_dropFinalSlash legal) derived outside short name

/-- A mount of which nothing is left takes the root without any values. -/
theorem taken_of_root (legal : t.WellFormed) {n : Match} (empty : t.dropFinalSlash.bare = done)
    (found : t.first? ['/'] = some n) (name : Text) :
    Params.taken t.names n.values name = Params.taken t.bare.names m.values name := by
  rcases denotes_of_mem_ways (first?_spec found).1 with ⟨whole, parts, derived⟩
  have slashes : ∀ c ∈ whole, c = '/' := by
    intro c mem
    have root : c ∈ ['/'] := parts ▸ List.mem_append_left _ mem
    exact List.mem_singleton.1 root
  have silent := no_value_of_slashes (wellFormed_dropFinalSlash legal) derived slashes
  rw [taken_eq_nil _ silent, ← (names_dropFinalSlash t).2, empty]
  rfl

/-- If what is left starts with a slash, some path is taken without the groups, and with the values of
the captures outside them. -/
theorem exists_match_bare (legal : t.WellFormed) (starts : t.bare.startsWithSlash = true) :
    ∃ path m n, path.head? = some '/' ∧ t.matcher.bare.match? path = some m ∧
      t.first? path = some n ∧
      ∀ name, Params.taken t.names n.values name = Params.taken t.bare.names m.values name := by
  rw [startsWithSlash_bare, Bool.or_eq_true, Bool.and_eq_true, isDone_iff] at starts
  -- what is matched without the groups is matched with them
  have matched {path : Text} {m : Match} (apart : t.matcher.bare.match? path = some m) :
      ∃ n, t.first? path = some n := by
    have found := isSome_match?_of_bare (Option.isSome_iff_exists.2 ⟨m, apart⟩)
    rw [match?_matcher, Option.isSome_map] at found
    exact Option.isSome_iff_exists.1 found
  rcases starts with starts | ⟨mount, empty⟩
  · rcases exists_denotes_shortest (isPlain_bare t.dropFinalSlash) with ⟨outside, derived⟩
    rcases exists_match?_bare derived (rfl : t.stopsAt [] = true) with ⟨m, apart⟩
    rw [List.append_nil] at apart
    rcases matched apart with ⟨n, found⟩
    refine ⟨_, m, n, ?_, apart, found, taken_of_short legal (Nat.le_refl _) found apart⟩
    cases left : t.dropFinalSlash.bare with
    | slash rest => rfl
    | _ => simp [left, startsWithSlash] at starts
  · have derived : t.dropFinalSlash.bare.Denotes [] [] := empty ▸ .done
    have stops : t.stopsAt ['/'] = true := by simp [stopsAt, mount]
    rcases exists_match?_bare derived stops with ⟨m, apart⟩
    rcases matched apart with ⟨n, found⟩
    exact ⟨_, m, n, rfl, apart, found, taken_of_root legal empty found⟩

end Template

/-! ## Patterns -/

namespace Pattern

open Template

variable {raw : Text} {p : Pattern} {t : Template}

/-- The expression of a route with groups takes some path, which starts with a slash, without any of them if
what is left of the shape starts with a slash; the values that the route has for that path are those of the
captures outside the groups.  Otherwise it takes no path without the groups. -/
theorem match_without_groups (compiled : compile raw = .ok p) (parsed : Template.parse p.path = .ok t)
    (grouped : t.isPlain = false) :
    ∃ r, p.regex? = some r ∧
      (t.bare.startsWithSlash = true →
        ∃ path m, path.head? = some '/' ∧ r.bare.match? path = some m ∧
          ∀ node, ∃ c, Resolver.patternMatch p node path = some c ∧
            ∀ name, c.matched.params.get? name =
              ParamValue.ofValues (Params.taken t.bare.names m.values name)) ∧
      (t.bare.startsWithSlash = false →
        ∀ path, path.head? = some '/' → r.bare.match? path = none) := by
  have described : p.Describes t := by
    rcases describes_of_compile compiled with ⟨other, described⟩
    cases described.parsed.symm.trans parsed
    exact described
  rcases parse_sound parsed with ⟨-, legal, -⟩
  have varies : t.isFixed = false := by
    rw [Bool.eq_false_iff]
    intro fixed
    rw [isPlain_of_isFixed fixed] at grouped
    cases grouped
  have matching := described.matching
  rw [varies] at matching
  refine ⟨t.matcher, by rw [regex?, matching]; rfl, fun starts => ?_, fun away path slash => ?_⟩
  · rcases exists_match_bare legal starts with ⟨path, m, n, slash, apart, found, same⟩
    refine ⟨path, m, slash, apart, fun node => ?_⟩
    have key : p.key? = none := by rw [key?, matching]; rfl
    have routed := patternMatch_eq_route? described key node path
    rw [route?, found] at routed
    refine ⟨_, routed, fun name => ?_⟩
    rw [← same]
    exact Params.get?_captured t.names n.captures name
  · exact match?_bare_eq_none legal away slash

/-- Groups with and without a slash of their own, and only the first capture stands outside them. -/
theorem match_without_groups_tail :
    let raw := "/\x7ba\x7d[/\x7bb\x7d]/[c]".toList
    let t : Template :=
      .slash (.capture ['a'] [] (.optional (.slash (.capture ['b'] [] .done))
        (.slash (.optional (.literal ['c'] .done) .done))))
    ∃ p, compile raw = .ok p ∧ Template.parse p.path = .ok t ∧ t.isPlain = false ∧
      t.bare = .slash (.capture ['a'] [] .done) ∧
      ∃ r path m, p.regex? = some r ∧ path.head? = some '/' ∧ r.bare.match? path = some m ∧
        ∃ c, Resolver.patternMatch p 0 path = some c ∧
          ∀ name, c.matched.params.get? name =
            ParamValue.ofValues (Params.taken [['a']] m.values name) := by
  intro raw t
  let p : Pattern := ⟨raw, raw, raw, .expression t.matcher [['a'], ['b']] true⟩
  have compiled : compile raw = .ok p := rfl
  have parsed : Template.parse p.path = .ok t := rfl
  rcases match_without_groups compiled parsed rfl with ⟨r, regex, reached, -⟩
  rcases reached rfl with ⟨path, m, slash, apart, candidate⟩
  exact ⟨p, compiled, parsed, rfl, rfl, r, path, m, regex, slash, apart, candidate 0⟩

/-- A group behind the leading slash takes that slash with it, and what is left is the empty path, which no
request has. -/
theorem no_match_without_leading_group :
    let t : Template := .slash (.optional (.literal ['a'] .done) .done)
    ∃ p r, compile "/[a]".toList = .ok p ∧ Template.parse p.path = .ok t ∧ t.isPlain = false ∧
      p.regex? = some r ∧ (∀ path, path.head? = some '/' → r.bare.match? path = none) ∧
      (r.bare.match? []).isSome = true ∧ (r.match? "/a".toList).isSome = true ∧
      (Resolver.patternMatch p 0 ['/']).isNone = true := by
  intro t
  let p : Pattern := ⟨"/[a]".toList, "/[a]".toList, "/[a]".toList, .expression t.matcher [] true⟩
  have legal : t.WellFormed := (parse_sound (rfl : Template.parse p.path = .ok t)).2.1
  refine ⟨p, t.matcher, rfl, rfl, rfl, rfl, fun path slash => ?_, rfl, rfl, rfl⟩
  exact match?_bare_eq_none legal rfl slash

end Pattern
end PathRouter
