import PathRouter.Proofs.Reach
import PathRouter.Router.Builder

/-!
# Joining — patterns below a mount

A pattern below a mount is seen from outside as one pattern.  This file defines

* `Pattern.Mounts`, a mount of a plain shape, and `Pattern.Follows`, a pattern that may stand below
  it;

and shows `Pattern.canonical_cases`, what the canonical form of a path is, `Builder.exists_mountPath`, that
a mount is registered under a path that ends in `/*`, and `Pattern.compile_join`, that the joined pattern is
compiled from the joined shapes.
-/

namespace PathRouter
namespace Template

variable {a b t : Template}

/-! ## Nesting depth -/

theorem listLevel_le (r : Regex) : r.listLevel ≤ 1 := by
  rw [Regex.listLevel]
  split <;> omega

theorem bodyLevel_le (r : Regex) : r.bodyLevel ≤ 1 := by
  cases r with
  | alt => exact Nat.le_refl 1
  | _ => exact listLevel_le _

theorem itemDepth_choice (options : List Text) : (choice options).itemDepth ≤ 1 := by
  induction options with
  | nil => exact Nat.zero_le 1
  | cons option options ih =>
      cases options with
      | nil => exact Nat.zero_le 1
      | cons next options =>
          have first := listLevel_le (.text option)
          have rest : (choice (next :: options)).itemDepth +
              (choice (next :: options)).listLevel ≤ 1 := by
            cases options with
            | nil => simpa [choice, Regex.itemDepth] using listLevel_le (.text next)
            | cons other options => simpa [choice, Regex.listLevel, Regex.items] using ih
          simp only [choice, Regex.itemDepth]
          omega

theorem itemDepth_capture (options : List Text) :
    (Regex.capture (captured options)).itemDepth ≤ 3 := by
  cases options with
  | nil => decide
  | cons option options =>
      have depth := itemDepth_choice (option :: options)
      have body := bodyLevel_le (choice (option :: options))
      simp only [Regex.itemDepth, captured]
      omega

/-- A plain shape before another adds no depth beyond that of a capture. -/
theorem itemDepth_append (plain : a.isPlain = true) (ends : a.endsInSlash = false) :
    (a ++ b).expression.itemDepth ≤ max 3 b.expression.itemDepth := by
  induction a with
  | done => exact Nat.le_max_right _ _
  | slash rest ih =>
      have more := isDone_of_slash ends
      rw [endsInSlash_slash more] at ends
      rw [slash_append, expression_slash_append (a := rest) plain more, Regex.itemDepth]
      exact Nat.max_le.2 ⟨Nat.zero_le _, ih plain ends⟩
  | literal text rest ih =>
      rw [literal_append, expression, Regex.itemDepth]
      exact Nat.max_le.2 ⟨Nat.zero_le _, ih plain ends⟩
  | capture name options rest ih =>
      rw [capture_append, expression, Regex.itemDepth]
      refine Nat.max_le.2 ⟨?_, ih plain ends⟩
      exact (itemDepth_capture options).trans (Nat.le_max_left _ _)
  | optional inner rest => cases plain

theorem itemDepth_of_isFixed (fixed : t.isFixed = true) : t.expression.itemDepth = 0 := by
  induction t with
  | done => rfl
  | slash rest ih =>
      cases rest with
      | optional inner next => cases fixed
      | _ => exact (Nat.zero_max _).trans (ih fixed)
  | literal text rest ih => exact (Nat.zero_max _).trans (ih fixed)
  | capture name options rest => cases fixed
  | optional inner rest => cases fixed

theorem depth_matcher (t : Template) :
    t.matcher.depth =
      max t.dropFinalSlash.expression.itemDepth (if t.endsInSlash then 2 else 0) + 1 := by
  have close (r last : Regex) (one : last.items = 1) :
      (Regex.seq r last).depth = max r.itemDepth last.itemDepth + 1 := by
    have items : (Regex.seq r last).items ≠ 0 := by simp [Regex.items, one]
    rw [Regex.depth, if_neg items, Regex.itemDepth]
  rw [matcher]
  cases mount : t.endsInSlash with
  | true => exact close _ _ rfl
  | false =>
      rw [dropFinalSlash_of_leaf mount]
      exact close _ _ rfl

/-- A pattern below a mount is not too deep if the pattern itself is not. -/
theorem depth_append_le (plain : a.isPlain = true) (ends : a.endsInSlash = false)
    (filled : b.isDone = false)
    (shallow : b.isFixed = false → b.matcher.depth ≤ Regex.nestLimit) :
    (a ++ b).matcher.depth ≤ Regex.nestLimit := by
  have limit : Regex.nestLimit = 250 := rfl
  have whole : (a ++ b.dropFinalSlash).expression.itemDepth ≤
      max 3 b.dropFinalSlash.expression.itemDepth := itemDepth_append plain ends
  -- a fixed shape is never checked, but it has no depth either
  have inner : b.dropFinalSlash.expression.itemDepth + 1 ≤ Regex.nestLimit := by
    cases fixed : b.isFixed with
    | false =>
        have depth := shallow fixed
        rw [depth_matcher] at depth
        omega
    | true =>
        rw [itemDepth_of_isFixed (isFixed_dropFinalSlash fixed)]
        omega
  rw [depth_matcher, dropFinalSlash_append a filled]
  split <;> omega

/-! ## Paths -/

theorem isPlain_of_not_mem (free : '[' ∉ t.toText) : t.isPlain = true := by
  induction t with
  | done => rfl
  | slash rest ih => exact ih fun mem => free (List.mem_cons_of_mem _ mem)
  | literal text rest ih => exact ih fun mem => free (List.mem_append_right _ mem)
  | capture name options rest ih =>
      apply ih
      intro mem
      apply free
      simp [toText, mem]
  | optional inner rest => exact absurd List.mem_cons_self free

theorem Separate.of_infix {s u : Text} (separate : Separate u) (part : s <:+: u) : Separate s :=
  fun doubled => separate (doubled.trans part)

/-- Two paths in a row have no slashes side by side unless one stands on either side of the seam. -/
theorem Separate.append {s u : Text} (one : Separate s) (two : Separate u)
    (ends : Pattern.endsIn '/' s = false) : Separate (s ++ u) := by
  induction s with
  | nil => exact two
  | cons c s ih =>
      intro doubled
      rw [List.cons_append, List.infix_cons_iff] at doubled
      have later : Separate s := one.of_infix (List.infix_cons (List.infix_refl s))
      cases s with
      | nil =>
          rcases doubled with first | inside
          · rw [List.nil_append, List.cons_prefix_cons] at first
            rw [← first.1] at ends
            cases ends
          · exact two inside
      | cons d s =>
          rcases doubled with first | inside
          · rw [List.cons_append, List.cons_prefix_cons, List.cons_prefix_cons] at first
            rcases first with ⟨rfl, rfl, -⟩
            exact one ⟨[], s, rfl⟩
          · refine ih later ?_ inside
            exact (Pattern.endsIn_append_of_ne_nil '/' [c] (List.cons_ne_nil d s)).symm.trans ends

end Template

/-! ## Paths of mounts -/

namespace Builder

theorem mountPath_append_mark (s : Text) : mountPath (s ++ ['/', '*']) = s ++ ['/', '*'] := by
  have marked : Pattern.mountMark.isSuffixOf (s ++ ['/', '*']) = true :=
    List.isSuffixOf_iff_suffix.2 (List.suffix_append _ _)
  rw [mountPath, if_pos marked]

theorem mountPath_of_not_star {path : Text} (bare : Pattern.endsIn '*' path = false) :
    mountPath path = if Pattern.endsIn '/' path then path ++ ['*'] else path ++ ['/', '*'] := by
  have unmarked : ¬ Pattern.mountMark.isSuffixOf path = true := by
    intro marked
    rcases List.isSuffixOf_iff_suffix.1 marked with ⟨before, rfl⟩
    rw [Pattern.mountMark, Pattern.endsIn_append_of_ne_nil _ _ (List.cons_ne_nil _ _)] at bare
    cases bare
  rw [mountPath, if_neg unmarked]

theorem mountPath_append_slash (s : Text) : mountPath (s ++ ['/']) = s ++ ['/', '*'] := by
  rw [mountPath_of_not_star (by simp)]
  simp

theorem exists_mountPath (path : Text) : ∃ before, mountPath path = before ++ ['/', '*'] := by
  rw [mountPath]
  split
  next marked =>
    rcases List.isSuffixOf_iff_suffix.1 marked with ⟨before, eq⟩
    exact ⟨before, eq.symm⟩
  next =>
    split
    next slash =>
      rcases Pattern.endsIn_iff.1 slash with ⟨before, rfl⟩
      exact ⟨before, by simp⟩
    next => exact ⟨path, rfl⟩

end Builder

namespace Pattern

variable {raw : Text} {m p : Pattern} {a b t : Template}

/-! ## Compiled patterns -/

/-- The canonical form of a path is compiled to the same pattern. -/
theorem Describes.compile_canonical (described : p.Describes t) (form : p.canonical = mountForm p.path) :
    compile p.canonical = .ok { p with raw := p.canonical } := by
  have again := compile_mountForm described.parsed
  rw [← form, ofTemplate_eq_ok.2 ⟨described.shallow, rfl⟩, ← described.matching] at again
  exact again

/-- A compiled path was given with its `*` or without it. -/
theorem raw_of_compile : compile raw = .ok p → raw = p.path ∨ raw = p.canonical := by
  intro compiled
  rcases compile_cases compiled with ⟨root, rfl⟩ | ⟨root, rfl⟩ | ⟨path, canonical, t, forms, -, made⟩
  · exact .inl root
  · exact .inr root
  · rcases ofTemplate_eq_ok.1 made with ⟨-, rfl⟩
    exact (canonicalize_eq_ok forms).2

/-- The canonical form is the path itself, or the path with a star after its last slash. -/
theorem canonical_cases (compiled : compile raw = .ok p) :
    p.canonical = raw ∨ endsIn '/' raw = true ∧ p.canonical = raw ++ ['*'] := by
  rcases raw_of_compile compiled with rfl | rfl
  · rcases describes_of_compile compiled with ⟨t, described⟩
    rcases described.canonical with form | ⟨path, root⟩
    · rw [form, mountForm]
      split
      next slash => exact .inr ⟨slash, rfl⟩
      next => exact .inl rfl
    · exact .inl (root.trans path.symm)
  · exact .inl rfl

/-- A path that ends in a star is its own canonical form. -/
theorem canonical_of_star {stem : Text} (compiled : compile (stem ++ ['/', '*']) = .ok p) :
    p.canonical = stem ++ ['/', '*'] := by
  refine (canonical_cases compiled).resolve_right fun slash => ?_
  have ends := slash.1
  rw [endsIn_append_of_ne_nil _ _ (List.cons_ne_nil _ _)] at ends
  cases ends

/-! ## Mounts of plain shapes -/

/-- A mount of a plain shape that does not itself end in a slash. -/
structure Mounts (m : Pattern) (a : Template) : Prop where
  plain : a.isPlain = true
  legal : a.WellFormed
  ends : a.endsInSlash = false
  path : m.path = a.toText ++ ['/']
  canonical : m.canonical = a.toText ++ ['/', '*']
  described : m.Describes (a ++ .slash .done)

theorem mounts_of_compile (compiled : compile raw = .ok m) (mount : m.isMount = true)
    (free : '[' ∉ m.canonical) (separate : Template.Separate m.canonical) :
    ∃ a, m.Mounts a := by
  rcases describes_of_compile compiled with ⟨t, described⟩
  rcases Template.parse_sound described.parsed with ⟨-, legal, spelled⟩
  have form := form_of_isMount described mount
  have slashed := Template.endsInSlash_of_isMount described mount
  -- what stands before the last slash is the shape looked for
  have path : m.path = t.dropFinalSlash.toText ++ ['/'] := by
    rw [← spelled, Template.toText_of_mount slashed]
  have canonical : m.canonical = t.dropFinalSlash.toText ++ ['/', '*'] := by
    rw [form, path, mountForm, endsIn_append, List.append_assoc]
    rfl
  have body := Template.wellFormed_dropFinalSlash legal
  have inside : t.toText <:+: m.canonical := by
    rw [spelled, path, canonical]
    exact ⟨[], ['*'], by simp⟩
  refine ⟨t.dropFinalSlash, ?_, body, ?_, path, canonical, ?_⟩
  · apply Template.isPlain_of_not_mem
    intro mem
    apply free
    rw [canonical]
    exact List.mem_append_left _ mem
  · exact Template.endsInSlash_dropFinalSlash slashed body (separate.of_infix inside)
  · rw [Template.dropFinalSlash_append_slash slashed]
    exact described

theorem Mounts.form (mounts : m.Mounts a) : m.canonical = mountForm m.path := by
  rw [mounts.path, mounts.canonical, mountForm, endsIn_append, List.append_assoc]
  rfl

/-- The canonical form of a mount is compiled to the same mount. -/
theorem Mounts.compile_canonical (mounts : m.Mounts a) :
    compile m.canonical = .ok { m with raw := m.canonical } :=
  mounts.described.compile_canonical mounts.form

/-- A mount is registered under its canonical form, however its path is given. -/
theorem Mounts.mountPath_eq (mounts : m.Mounts a) (compiled : compile raw = .ok m) :
    Builder.mountPath raw = m.canonical := by
  rw [mounts.canonical]
  rcases raw_of_compile compiled with given | given
  · rw [given, mounts.path, Builder.mountPath_append_slash]
  · rw [given, mounts.canonical, Builder.mountPath_append_mark]

/-! ## Patterns below a mount -/

/-- A pattern that may stand below a mount: it begins with a slash that all its paths have. -/
structure Follows (p : Pattern) (b : Template) : Prop where
  described : p.Describes b
  form : p.canonical = mountForm p.path
  boundary : b.takesBoundary = true

theorem follows_of_compile (compiled : compile raw = .ok p) (notRoot : p.canonical ≠ ['/'])
    (own : ∀ rest, p.canonical = '/' :: '[' :: rest → rest.head? = some '/') :
    ∃ b, p.Follows b := by
  rcases describes_of_compile compiled with ⟨b, described⟩
  rcases Template.parse_sound described.parsed with ⟨slash, legal, spelled⟩
  have form := form_of_describes described notRoot
  refine ⟨b, described, form, ?_⟩
  cases b with
  | slash rest =>
      cases rest with
      | optional inner next =>
          rcases legal with ⟨filled, inside, -⟩
          have begun : ∃ after, p.canonical = p.path ++ after := by
            rw [form, mountForm]
            split
            · exact ⟨['*'], rfl⟩
            · exact ⟨[], (List.append_nil _).symm⟩
          -- what the group starts with can be read off the text behind its bracket
          rcases begun with ⟨after, whole⟩
          have first := own (inner.toText ++ ']' :: next.toText ++ after) (by
            rw [whole, ← spelled]
            simp [Template.toText])
          have starts : inner.startsWithSlash = true := by
            cases text : inner.toText with
            | nil => exact absurd text (Template.toText_ne_nil inside filled)
            | cons c more =>
                rw [text, List.cons_append, List.cons_append, List.head?_cons,
                  Option.some.injEq] at first
                rw [first] at text
                exact Template.startsWithSlash_of_toText inside text
          simp [Template.takesBoundary, Template.takesSlash, starts]
      | _ => rfl
  | _ => cases slash

theorem Follows.separate (follows : p.Follows b) (separate : Template.Separate p.canonical) :
    Template.Separate p.path := by
  apply separate.of_infix
  rw [follows.form, mountForm]
  split
  · exact ⟨[], ['*'], rfl⟩
  · exact List.infix_refl _

/-- The pattern of a route below a mount, as seen from outside, is compiled from both shapes. -/
theorem compile_join (mounts : m.Mounts a) (follows : p.Follows b)
    (outer : Template.Separate m.canonical) (inner : Template.Separate p.canonical) :
    ∃ f, compile (joinPattern m.canonical p.canonical) = .ok f ∧ f.Describes (a ++ b) ∧
      f.canonical = mountForm f.path ∧ Template.Separate f.path := by
  rcases Template.parse_sound follows.described.parsed with ⟨starts, legal, spelled⟩
  have filled : b.isDone = false := Template.isDone_of_takesBoundary follows.boundary
  have joined : joinPattern m.canonical p.canonical = mountForm (a ++ b).toText := by
    have last : endsIn '/' (a.toText ++ p.path) = endsIn '/' p.path := by
      apply endsIn_append_of_ne_nil '/' a.toText
      rw [← spelled]
      exact Template.toText_ne_nil legal filled
    rw [joinPattern, mounts.canonical, withoutMountMark_append, follows.form,
      Template.toText_append, spelled, mountForm, mountForm, last]
    split
    · rw [List.append_assoc]
    · rfl
  -- no literal runs into another at the seam, because a slash stands there
  have parsed : Template.parse (a ++ b).toText = .ok (a ++ b) := by
    refine Template.parse_toText ?_ (Template.wellFormed_append.2 ⟨mounts.legal, legal, ?_⟩)
    · have begins := (Template.parse_sound mounts.described.parsed).1
      cases a with
      | done => exact starts
      | _ => exact begins
    · intro _
      cases b with
      | slash rest => rfl
      | _ => cases starts
  have shallow : (a ++ b).isFixed = false → (a ++ b).matcher.depth ≤ Regex.nestLimit := fun _ =>
    Template.depth_append_le mounts.plain mounts.ends filled follows.described.shallow
  have compiled := compile_mountForm parsed
  rw [ofTemplate_eq_ok.2 ⟨shallow, rfl⟩, ← joined] at compiled
  refine ⟨_, compiled, ⟨parsed, .inl joined, rfl, shallow⟩, joined, ?_⟩
  -- neither path has two slashes side by side, and the first does not end in one
  have before : Template.Separate a.toText := by
    apply outer.of_infix
    rw [mounts.canonical]
    exact (List.prefix_append _ _).isInfix
  have after : Template.Separate b.toText := by
    rw [spelled]
    exact follows.separate inner
  have seam : endsIn '/' a.toText = false := by
    rw [Template.endsIn_toText mounts.legal, mounts.ends]
  rw [Template.toText_append]
  exact before.append after seam

end Pattern
end PathRouter
