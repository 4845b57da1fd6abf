import PathRouter.Proofs.Reading

/-!
# Compile — what a compiled pattern is

A compiled pattern is determined by its path and the shape written there.  This file defines

* `Pattern.mountForm`, the canonical form of a path without a final `*`;
* `Pattern.Describes`, how a pattern is put together from a shape;

and shows `Pattern.compile_cases`, all the ways in which a path is accepted,
`Pattern.describes_of_compile`, that every compiled pattern is put together so, and
`Pattern.compile_mountForm`, how the canonical form of a path is compiled.
-/

namespace PathRouter

theorem Template.parse_root : Template.parse ['/'] = .ok (.slash .done) := rfl

/-- Only paths that start with a slash are read. -/
theorem Template.exists_cons_of_parse {path : Text} {t : Template} :
    Template.parse path = .ok t → ∃ rest, path = '/' :: rest := by
  intro parsed
  exact List.head?_eq_some_iff.1 (Template.parse_eq_ok.1 parsed).1

namespace Pattern

/-- The canonical form of a path without a final `*`: a final slash stands for a mount. -/
def mountForm (path : Text) : Text := if endsIn '/' path then path ++ ['*'] else path

/-- A pattern that is put together from the shape of its path.  The root alone has two canonical
forms, since `/` is a leaf. -/
structure Describes (p : Pattern) (t : Template) : Prop where
  parsed : Template.parse p.path = .ok t
  canonical : p.canonical = mountForm p.path ∨ (p.path = ['/'] ∧ p.canonical = ['/'])
  matching : p.matching =
    if t.isFixed then .literal (literalKey p.path)
    else .expression t.matcher t.names (!t.endsInSlash)
  shallow : t.isFixed = false → t.matcher.depth ≤ Regex.nestLimit

theorem canonicalize_eq_ok {raw path canonical : Text} :
    canonicalize raw = .ok (path, canonical) →
      canonical = mountForm path ∧ (raw = path ∨ raw = canonical) := by
  intro h
  simp only [canonicalize] at h
  split at h
  next star =>
    -- a star is taken off and has to leave a slash at the end
    rcases endsIn_iff.1 star with ⟨stem, rfl⟩
    split at h
    next slash =>
      rw [List.dropLast_concat] at h slash
      cases h
      exact ⟨by simp [mountForm, slash], Or.inr rfl⟩
    next => cases h
  next =>
    split at h
    next slash =>
      cases h
      exact ⟨by simp [mountForm, slash], Or.inl rfl⟩
    next noSlash =>
      cases h
      exact ⟨by simp [mountForm, noSlash], Or.inl rfl⟩

/-- A pattern is put together from a shape, unless the groups of its expression are nested too deep. -/
theorem ofTemplate_eq_ok {raw path canonical : Text} {t : Template} {p : Pattern} :
    ofTemplate raw path canonical t = .ok p ↔
      (t.isFixed = false → t.matcher.depth ≤ Regex.nestLimit) ∧
        p = ⟨raw, path, canonical,
          if t.isFixed then .literal (literalKey path)
          else .expression t.matcher t.names (!t.endsInSlash)⟩ := by
  cases fixed : t.isFixed with
  | true => simp [ofTemplate, fixed, eq_comm]
  | false =>
      by_cases deep : Regex.nestLimit < t.matcher.depth
      · simp [ofTemplate, fixed, deep, Nat.not_le.2 deep]
      · simp [ofTemplate, fixed, deep, Nat.not_lt.1 deep, eq_comm]

/-- A path is accepted as one of the two forms of the root, or for the shape that is written there. -/
theorem compile_cases {raw : Text} {p : Pattern} :
    compile raw = .ok p →
      (raw = ['/'] ∧ p = ⟨raw, ['/'], ['/'], .literal ['/']⟩) ∨
        (raw = ['/', '*'] ∧ p = ⟨raw, ['/'], ['/', '*'], .literal ['/']⟩) ∨
        ∃ path canonical t, canonicalize raw = .ok (path, canonical) ∧
          Template.parse path = .ok t ∧ ofTemplate raw path canonical t = .ok p := by
  intro compiled
  simp only [compile] at compiled
  split at compiled
  next root =>
    cases compiled
    exact .inl ⟨root, rfl⟩
  split at compiled
  next root =>
    cases compiled
    exact .inr (.inl ⟨root, rfl⟩)
  split at compiled
  next => cases compiled
  next path canonical forms =>
    split at compiled
    next => cases compiled
    next t parsed => exact .inr (.inr ⟨path, canonical, t, forms, parsed, compiled⟩)

/-- Every compiled pattern is put together from the shape of its path. -/
theorem describes_of_compile {raw : Text} {p : Pattern} :
    compile raw = .ok p → ∃ t, p.Describes t := by
  intro compiled
  rcases compile_cases compiled with ⟨-, rfl⟩ | ⟨-, rfl⟩ | ⟨path, canonical, t, forms, parsed, made⟩
  · exact ⟨.slash .done, Template.parse_root, .inr ⟨rfl, rfl⟩, rfl, fun varies => nomatch varies⟩
  · exact ⟨.slash .done, Template.parse_root, .inl rfl, rfl, fun varies => nomatch varies⟩
  · rcases ofTemplate_eq_ok.1 made with ⟨shallow, rfl⟩
    exact ⟨t, parsed, .inl (canonicalize_eq_ok forms).1, rfl, shallow⟩

/-! ## Canonical forms -/

end Pattern

namespace Template

variable {t : Template}

theorem toText_ne_nil (legal : t.WellFormed) : t.isDone = false → t.toText ≠ [] := by
  intro filled
  cases t with
  | done => cases filled
  | slash rest => exact List.cons_ne_nil _ _
  | literal text rest =>
      rcases legal with ⟨filled, -⟩
      rw [toText, ne_eq, List.append_eq_nil_iff, not_and]
      exact fun empty => absurd empty filled
  | capture name options rest => exact List.cons_ne_nil _ _
  | optional inner rest => exact List.cons_ne_nil _ _

/-- No star is written in a path. -/
theorem star_not_mem_toText (legal : t.WellFormed) : '*' ∉ t.toText := by
  induction t with
  | done => exact List.not_mem_nil
  | slash rest ih => simpa [toText] using ih legal
  | literal text rest ih =>
      have free : '*' ∉ text := by
        intro mem
        cases legal.2.1 '*' mem
      simpa [toText, free] using ih legal.2.2.2
  | capture name options rest ih =>
      have free : '*' ∉ name ++ optionsText options := by
        intro mem
        cases isReserved_of_mem_body legal.1 legal.2.1 mem
      rw [List.mem_append, not_or] at free
      simpa [toText, free.1, free.2] using ih legal.2.2
  | optional inner rest ih_inner ih =>
      simpa [toText, ih_inner legal.2.1] using ih legal.2.2

/-- A path ends in a slash where its shape does. -/
theorem endsIn_toText (legal : t.WellFormed) : Pattern.endsIn '/' t.toText = t.endsInSlash := by
  -- what follows the first part decides, unless nothing does
  have on (rest : Template) (legal : rest.WellFormed) (before : Text)
      (ih : Pattern.endsIn '/' rest.toText = rest.endsInSlash) (filled : rest.isDone = false) :
      Pattern.endsIn '/' (before ++ rest.toText) = rest.endsInSlash := by
    rw [Pattern.endsIn_append_of_ne_nil _ _ (toText_ne_nil legal filled), ih]
  -- and if nothing does, no bracket that closes a part is a slash
  have behind (rest : Template) (legal : rest.WellFormed) (before : Text) {bracket : Char}
      (closing : (bracket == '/') = false)
      (ih : Pattern.endsIn '/' rest.toText = rest.endsInSlash) :
      Pattern.endsIn '/' (before ++ [bracket] ++ rest.toText) = rest.endsInSlash := by
    cases last : rest.isDone with
    | true =>
        rw [isDone_iff.1 last, toText, List.append_nil, Pattern.endsIn_append, closing]
        rfl
    | false => exact on rest legal _ ih last
  induction t with
  | done => rfl
  | slash rest ih =>
      cases last : rest.isDone with
      | true =>
          rw [isDone_iff.1 last]
          rfl
      | false =>
          rw [endsInSlash_slash last]
          exact on rest legal ['/'] (ih legal) last
  | literal text rest ih =>
      cases last : rest.isDone with
      | true =>
          rw [isDone_iff.1 last, toText, toText, List.append_nil, endsInSlash, endsInSlash,
            Bool.eq_false_iff]
          intro ends
          rcases Pattern.endsIn_iff.1 ends with ⟨before, rfl⟩
          cases legal.2.1 '/' (List.mem_append_right _ List.mem_cons_self)
      | false => exact on rest legal.2.2.2 text (ih legal.2.2.2) last
  | capture name options rest ih =>
      have spelled : (capture name options rest).toText =
          ('{' :: name ++ optionsText options ++ ['}']) ++ rest.toText := by
        simp [toText]
      rw [spelled]
      exact behind rest legal.2.2 _ rfl (ih legal.2.2)
  | optional inner rest _ ih =>
      have spelled : (optional inner rest).toText = ('[' :: inner.toText ++ [']']) ++ rest.toText := by
        simp [toText]
      rw [spelled]
      exact behind rest legal.2.2 _ rfl (ih legal.2.2)

end Template

namespace Pattern

/-- The canonical form of a path is compiled to the pattern of its shape. -/
theorem compile_mountForm {path : Text} {t : Template} (parsed : Template.parse path = .ok t) :
    compile (mountForm path) = ofTemplate (mountForm path) path (mountForm path) t := by
  rcases Template.parse_sound parsed with ⟨slash, legal, spelled⟩
  have starless : endsIn '*' path = false := by
    rw [Bool.eq_false_iff]
    intro ends
    rcases endsIn_iff.1 ends with ⟨before, eq⟩
    apply Template.star_not_mem_toText legal
    rw [spelled, eq]
    exact List.mem_append_right _ List.mem_cons_self
  cases ends : endsIn '/' path with
  | true =>
      have form : mountForm path = path ++ ['*'] := by rw [mountForm, if_pos ends]
      rw [form]
      by_cases root : path = ['/']
      · subst root
        rw [Template.parse_root] at parsed
        cases parsed
        rfl
      · have notRoot : path ++ ['*'] ≠ ['/'] := by
          intro eq
          have last := congrArg (endsIn '*') eq
          rw [endsIn_append] at last
          cases last
        have notRootMount : path ++ ['*'] ≠ ['/', '*'] := by
          intro eq
          exact root (List.append_cancel_right (eq.trans (List.singleton_append (l := ['*'])).symm))
        have forms : canonicalize (path ++ ['*']) = .ok (path, path ++ ['*']) := by
          simp [canonicalize, ends]
        simp [compile, notRoot, notRootMount, forms, parsed]
  | false =>
      have form : mountForm path = path := by simp [mountForm, ends]
      have notRoot : path ≠ ['/'] := by
        rintro rfl
        cases ends
      have notRootMount : path ≠ ['/', '*'] := by
        rintro rfl
        cases starless
      have forms : canonicalize path = .ok (path, path) := by
        simp [canonicalize, ends, starless]
      rw [form]
      simp [compile, notRoot, notRootMount, forms, parsed]

/-! ## Canonical forms -/

theorem form_of_describes {p : Pattern} {t : Template} (described : p.Describes t)
    (notRoot : p.canonical ≠ ['/']) : p.canonical = mountForm p.path := by
  rcases described.canonical with form | ⟨-, root⟩
  · exact form
  · exact absurd root notRoot

/-- The canonical form of a mount is that of its path, since `/` is a leaf. -/
theorem form_of_isMount {p : Pattern} {t : Template} (described : p.Describes t)
    (mount : p.isMount = true) : p.canonical = mountForm p.path := by
  refine form_of_describes described fun root => ?_
  rw [isMount, root] at mount
  cases mount

/-! ## Keys -/

theorem key_spec {p : Pattern} {t : Template} {key : Text} (described : p.Describes t)
    (literal : p.key? = some key) : t.isFixed = true ∧ literalKey p.path = key := by
  have matching := described.matching
  cases fixed : t.isFixed with
  | true => simpa [key?, matching, fixed] using literal
  | false => simp [key?, matching, fixed] at literal

/-- The key of a path is the path without a final slash, or the slash alone. -/
theorem literalKey_cons (rest : Text) : ∃ tail, literalKey ('/' :: rest) = '/' :: tail := by
  simp only [literalKey]
  split
  next => exact ⟨[], rfl⟩
  next key notEmpty found =>
    have eq : '/' :: rest = key ++ ['/'] := Text.isSuffixOf?_eq_some.1 found
    cases key with
    | nil => exact absurd rfl notEmpty
    | cons c key =>
        rw [List.cons_append, List.cons.injEq] at eq
        exact ⟨key, by rw [eq.1]⟩
  next => exact ⟨rest, rfl⟩

/-- The key of a literal pattern starts with a slash. -/
theorem exists_cons_of_key {raw key : Text} {p : Pattern} (compiled : compile raw = .ok p) :
    p.key? = some key → ∃ tail, key = '/' :: tail := by
  intro found
  rcases describes_of_compile compiled with ⟨t, described⟩
  rcases Template.exists_cons_of_parse described.parsed with ⟨rest, path⟩
  rw [← (key_spec described found).2, path]
  exact literalKey_cons rest

end Pattern
end PathRouter
