import PathRouter.Proofs.Single

/-!
# Seam — one shape after another

A plain shape, one without groups, has the same number of slashes in every text it stands for.  So
there is one place at most where its part of a path can end and another shape can begin, and the
routes of two shapes can be found one after the other.  This file defines

* `Template.isPlain` and `Template.slashes`;
* `Template.takesBoundary`, the shapes that begin at the end of a segment only;

and shows `Template.first?_append` and `Template.route?_append`.
-/

namespace PathRouter

/-! ## Lists -/

/-- A search that finds something at the chosen elements only, and at all of them or none, looks at
the first of them. -/
theorem findSome?_eq_bind_find? {α β : Type} {p : α → Bool} {g : α → Option β} {l : List α}
    (only : ∀ a ∈ l, p a = false → g a = none)
    (alike : ∀ a ∈ l, ∀ b ∈ l, p a = true → p b = true → g a = none → g b = none) :
    l.findSome? g = (l.find? p).bind g := by
  induction l with
  | nil => rfl
  | cons a l ih =>
      have later := ih (fun b mem => only b (List.mem_cons_of_mem a mem)) fun b mem c mem' =>
        alike b (List.mem_cons_of_mem a mem) c (List.mem_cons_of_mem a mem')
      have here := List.mem_cons_self (a := a) (l := l)
      rw [List.findSome?_cons, List.find?_cons]
      cases chosen : p a with
      | false =>
          rw [only a here chosen]
          exact later
      | true =>
          cases found : g a with
          | some b => simp [found]
          | none =>
              -- whatever is chosen later finds nothing either
              have none : l.findSome? g = none := by
                rw [List.findSome?_eq_none_iff]
                intro b mem
                have there := List.mem_cons_of_mem a mem
                cases chosen' : p b with
                | false => exact only b there chosen'
                | true => exact alike a here b there chosen chosen' found
              simp [found, none]

/-- Two cuts of a text with equally many slashes before them, both at the end of a segment, are the
same. -/
theorem rest_eq_of_count {u v r s : Text} (same : u ++ r = v ++ s)
    (count : u.count '/' = v.count '/') (stops : r = [] ∨ r.head? = some '/')
    (stops' : s = [] ∨ s.head? = some '/') : r = s := by
  have within {u v r s : Text} (longer : v = u ++ r) (count : u.count '/' = v.count '/')
      (stops : r ++ s = [] ∨ (r ++ s).head? = some '/') : r = [] := by
    rw [longer, List.count_append] at count
    have free : r.count '/' = 0 := by omega
    rcases stops with done | slash
    · exact (List.append_eq_nil_iff.1 done).1
    · cases r with
      | nil => rfl
      | cons c r =>
          rw [List.cons_append, List.head?_cons, Option.some.injEq] at slash
          rw [slash, List.count_cons_self] at free
          cases free
  rcases List.append_eq_append_iff.1 same with ⟨x, longer, rfl⟩ | ⟨x, longer, rfl⟩
  · rw [within longer count stops, List.nil_append]
  · rw [within longer count.symm stops', List.nil_append]

namespace Template

open Regex

variable {t a b : Template} {path : Text}

/-! ## Plain shapes -/

/-- Whether the shape has no groups. -/
def isPlain : Template → Bool
  | .done => true
  | .slash rest => rest.isPlain
  | .literal _ rest => rest.isPlain
  | .capture _ _ rest => rest.isPlain
  | .optional _ _ => false

/-- The number of slashes outside groups. -/
def slashes : Template → Nat
  | .done => 0
  | .slash rest => rest.slashes + 1
  | .literal _ rest => rest.slashes
  | .capture _ _ rest => rest.slashes
  | .optional _ rest => rest.slashes

/-- Every text of a plain shape has the slashes of the shape. -/
theorem count_of_denotes {values : List (Option Text)} {s : Text} (plain : t.isPlain = true)
    (legal : t.WellFormed) : t.Denotes values s → s.count '/' = t.slashes := by
  intro derived
  induction derived with
  | done => rfl
  | slash bare on ih =>
      rw [List.count_cons_self, ih plain legal]
      rfl
  | @literal text rest values s on ih =>
      have free : '/' ∉ text := by
        intro mem
        cases legal.2.1 '/' mem
      rw [List.count_append, List.count_eq_zero_of_not_mem free, ih plain legal.2.2.2]
      exact Nat.zero_add _
  | segment filled free on ih =>
      rw [List.count_append, List.count_eq_zero_of_not_mem free, ih plain legal.2.2]
      exact Nat.zero_add _
  | option listed on ih =>
      rcases isOption_iff.1 (legal.2.1 _ listed) with ⟨-, -, free⟩
      rw [List.count_append, List.count_eq_zero_of_not_mem, ih plain legal.2.2]
      · exact Nat.zero_add _
      · intro mem
        cases free '/' mem
  | taken within on _ _ => cases plain
  | skipped on _ => cases plain
  | slashTaken bare within on _ _ => cases plain
  | slashSkipped bare on _ => cases plain

theorem ne_nil_of_denotes {values : List (Option Text)} {s : Text} (plain : t.isPlain = true)
    (legal : t.WellFormed) (filled : t.isDone = false) : t.Denotes values s → s ≠ [] := by
  intro derived empty
  cases derived with
  | done => cases filled
  | slash bare on => cases empty
  | literal on => exact legal.1 (List.append_eq_nil_iff.1 empty).1
  | segment begun free on => exact begun (List.append_eq_nil_iff.1 empty).1
  | option listed on =>
      exact (isOption_iff.1 (legal.2.1 _ listed)).1 (List.append_eq_nil_iff.1 empty).1
  | taken within on => cases plain
  | skipped on => cases plain
  | slashTaken bare within on => cases plain
  | slashSkipped bare on => cases plain

/-- No text of a plain shape ends in a slash unless the shape does. -/
theorem endsIn_of_denotes {values : List (Option Text)} {s : Text} (plain : t.isPlain = true)
    (legal : t.WellFormed) (ends : t.endsInSlash = false) :
    t.Denotes values s → Pattern.endsIn '/' s = false := by
  intro derived
  -- the last part that takes something decides
  have on (rest : Template) {values : List (Option Text)} {s : Text} (first : Text)
      (free : '/' ∉ first) (plain : rest.isPlain = true) (legal : rest.WellFormed)
      (after : rest.Denotes values s) (ih : Pattern.endsIn '/' s = false) :
      Pattern.endsIn '/' (first ++ s) = false := by
    cases last : rest.isDone with
    | true =>
        rw [isDone_iff.1 last] at after
        cases after
        rw [List.append_nil, Bool.eq_false_iff]
        intro slash
        rcases Pattern.endsIn_iff.1 slash with ⟨before, rfl⟩
        exact free (List.mem_append_right _ List.mem_cons_self)
    | false =>
        rw [Pattern.endsIn_append_of_ne_nil _ _ (ne_nil_of_denotes plain legal last after)]
        exact ih
  induction derived with
  | done => rfl
  | @slash rest values s bare after ih =>
      have more := isDone_of_slash ends
      rw [endsInSlash_slash more] at ends
      have begun : s ≠ [] := @ne_nil_of_denotes rest _ _ plain legal more after
      calc
        Pattern.endsIn '/' ('/' :: s) = Pattern.endsIn '/' s :=
          Pattern.endsIn_append_of_ne_nil '/' ['/'] begun
        _ = false := ih plain legal ends
  | @literal text rest values s after ih =>
      refine on rest text ?_ plain legal.2.2.2 after (ih plain legal.2.2.2 ?_)
      · intro mem
        cases legal.2.1 '/' mem
      · exact ends
  | @segment name value rest values s begun free after ih =>
      exact on rest value free plain legal.2.2 after (ih plain legal.2.2 ends)
  | @option name value options rest values s listed after ih =>
      refine on rest value ?_ plain legal.2.2 after (ih plain legal.2.2 ends)
      intro mem
      cases (isOption_iff.1 (legal.2.1 _ listed)).2.2 '/' mem
  | taken within after _ _ => cases plain
  | skipped after _ => cases plain
  | slashTaken bare within after _ _ => cases plain
  | slashSkipped bare after _ => cases plain

/-! ## The expression of both shapes -/

theorem takesSlash_of_isPlain (plain : t.isPlain = true) : t.takesSlash = false := by
  cases t with
  | optional inner rest => cases plain
  | _ => rfl

/-- No group follows a slash of a plain shape, unless another shape is put there. -/
theorem expression_slash_append (plain : a.isPlain = true) (filled : a.isDone = false)
    (b : Template) :
    (slash (a ++ b)).expression = .seq (.text ['/']) (a ++ b).expression := by
  apply expression_slash
  cases a with
  | done => cases filled
  | optional inner rest => cases plain
  | _ => rfl

/-- The expression of a shape after a plain one matches like the two expressions in turn. -/
theorem same_append (plain : a.isPlain = true) (ends : a.endsInSlash = false) :
    Same (a ++ b).expression (.seq a.expression b.expression) := by
  have under (first : Regex) {rest : Template}
      (same : Same (rest ++ b).expression (.seq rest.expression b.expression)) :
      Same (.seq first (rest ++ b).expression)
        (.seq (.seq first rest.expression) b.expression) :=
    calc
      Same _ (.seq first (.seq rest.expression b.expression)) := Same.seq (Same.refl first) same
      Same _ _ := (Same.seq_assoc _ _ _).symm
  induction a with
  | done => exact (Same.empty_seq _).symm
  | slash rest ih =>
      have more := isDone_of_slash ends
      rw [endsInSlash_slash more] at ends
      rw [slash_append, expression_slash_append (a := rest) plain more,
        expression_slash (takesSlash_of_isPlain (t := rest) plain)]
      exact under _ (ih plain ends)
  | literal text rest ih => exact under _ (ih plain ends)
  | capture name options rest ih => exact under _ (ih plain ends)
  | optional inner rest => cases plain

/-! ## Boundaries -/

/-- Whether the shape begins with a slash that every text of it has. -/
def takesBoundary : Template → Bool
  | .slash rest => !rest.takesSlash
  | _ => false

theorem exists_cons_of_denotes {values : List (Option Text)} {s : Text}
    (boundary : t.takesBoundary = true) : t.Denotes values s → ∃ u, s = '/' :: u := by
  intro derived
  cases derived with
  | @slash rest values s bare on => exact ⟨s, rfl⟩
  | slashTaken bare within on => simp [takesBoundary, takesSlash, bare] at boundary
  | slashSkipped bare on => simp [takesBoundary, takesSlash, bare] at boundary
  | _ => cases boundary

theorem takesBoundary_dropFinalSlash (boundary : t.takesBoundary = true) :
    t.dropFinalSlash = done ∨ t.dropFinalSlash.takesBoundary = true := by
  cases t with
  | slash rest =>
      cases rest with
      | done => exact .inl rfl
      | optional inner next => exact .inr boundary
      | slash next => cases next <;> exact .inr rfl
      | _ => exact .inr rfl
  | _ => cases boundary

/-- Such a shape takes a path only from the end of a segment on. -/
theorem boundary_of_first? {m : Match} (boundary : t.takesBoundary = true) :
    t.first? path = some m → path = [] ∨ path.head? = some '/' := by
  intro found
  rcases first?_spec found with ⟨mem, stops⟩
  rcases takesBoundary_dropFinalSlash boundary with bare | more
  · -- there is only the final slash, and the path may stop where it starts
    rw [bare] at mem
    have unmoved : m.rest = path := by rw [List.mem_singleton.1 mem]
    rw [← unmoved]
    rcases stopsAt_cases stops with done | ⟨-, s, slash⟩
    · exact .inl done
    · exact .inr (by rw [slash]; rfl)
  · rcases denotes_of_mem_ways mem with ⟨taken, eq, derived⟩
    rcases exists_cons_of_denotes more derived with ⟨u, slash⟩
    exact .inr (by rw [eq, slash]; rfl)

/-! ## One after the other -/

variable {m n : Match}

/-- All ends of segments that a plain shape reaches are one. -/
theorem rest_eq_of_mem_ways (plain : a.isPlain = true) (legal : a.WellFormed)
    (one : m ∈ a.expression.ways path) (other : n ∈ a.expression.ways path)
    (stops : m.rest = [] ∨ m.rest.head? = some '/')
    (stops' : n.rest = [] ∨ n.rest.head? = some '/') : m.rest = n.rest := by
  rcases denotes_of_mem_ways one with ⟨u, eq, derived⟩
  rcases denotes_of_mem_ways other with ⟨v, eq', derived'⟩
  refine rest_eq_of_count (eq.symm.trans eq') ?_ stops stops'
  rw [count_of_denotes plain legal derived, count_of_denotes plain legal derived']

theorem stopsAt_mount {rest : Text} :
    (a ++ slash done).stopsAt rest = true ↔ rest = [] ∨ rest.head? = some '/' := by
  have mount : (a ++ slash done).endsInSlash = true := endsInSlash_append a rfl
  simp [stopsAt, mount]

theorem dropFinalSlash_mount (a : Template) : (a ++ slash done).dropFinalSlash = a := by
  rw [dropFinalSlash_append a rfl, dropFinalSlash, append_done]

theorem isDone_of_takesBoundary (boundary : t.takesBoundary = true) : t.isDone = false := by
  cases t with
  | done => cases boundary
  | _ => rfl

/-- The first way of a shape after a plain one is the first way of the plain shape as a mount, and
then the first way of the other. -/
theorem first?_append (plain : a.isPlain = true) (legal : a.WellFormed)
    (ends : a.endsInSlash = false) (boundary : b.takesBoundary = true) (path : Text) :
    (a ++ b).first? path =
      ((a ++ slash done).first? path).bind fun m => (b.first? m.rest).map m.andThen := by
  have filled := isDone_of_takesBoundary boundary
  have stops (rest : Text) : (a ++ b).stopsAt rest = b.stopsAt rest := by
    rw [stopsAt, stopsAt, endsInSlash_append a filled]
  -- seen flat, every way of the first shape is tried until the second finds one from its end
  have flat : (a ++ b).first? path =
      (a.expression.ways path).findSome? fun m => (b.first? m.rest).map m.andThen := by
    rw [first?, dropFinalSlash_append a filled, (same_append plain ends).ways, ways,
      List.find?_flatMap]
    refine congrFun (congrArg List.findSome? (funext fun m => ?_)) _
    rw [List.find?_map, first?]
    refine congrArg _ (congrFun (congrArg List.find? (funext fun n => ?_)) _)
    exact stops n.rest
  rw [flat, first?, dropFinalSlash_mount]
  apply findSome?_eq_bind_find?
  -- where the mount does not stop, the second shape does not begin
  · intro m mem apart
    rw [Option.map_eq_none_iff, Option.eq_none_iff_forall_ne_some]
    intro n found
    have stopped := stopsAt_mount (a := a).2 (boundary_of_first? boundary found)
    rw [apart] at stopped
    cases stopped
  -- all places where the mount may stop are one
  · intro m mem n mem' stopped stopped' none
    have same := rest_eq_of_mem_ways plain legal mem mem' (stopsAt_mount.1 stopped)
      (stopsAt_mount.1 stopped')
    rw [Option.map_eq_none_iff] at none ⊢
    rw [← same, none]

theorem mem_ways_of_first? (found : (a ++ slash done).first? path = some m) :
    m ∈ a.expression.ways path := by
  have mem := (first?_spec found).1
  rw [dropFinalSlash_mount] at mem
  exact mem

theorem endsIn_whole (plain : a.isPlain = true) (legal : a.WellFormed)
    (ends : a.endsInSlash = false) (found : (a ++ slash done).first? path = some m) :
    Pattern.endsIn '/' (m.whole path) = false := by
  rcases denotes_of_mem_ways (mem_ways_of_first? found) with ⟨taken, eq, derived⟩
  rw [Match.whole_of_append eq.symm]
  exact endsIn_of_denotes plain legal ends derived

theorem whole_andThen (one : m ∈ a.expression.ways path) (other : n.whole m.rest ++ n.rest = m.rest) :
    (m.andThen n).whole path = m.whole path ++ n.whole m.rest := by
  apply Match.whole_of_append
  calc
    (m.whole path ++ n.whole m.rest) ++ n.rest = m.whole path ++ (n.whole m.rest ++ n.rest) :=
      List.append_assoc _ _ _
    _ = m.whole path ++ m.rest := by rw [other]
    _ = path := whole_append_of_mem_ways one

/-- A slash that is given back is given back by the second shape. -/
theorem leave_append_of_open {taken more rest : Text} (ends : Pattern.endsIn '/' taken = false)
    (same : a.endsInSlash = b.endsInSlash) :
    a.leave (taken ++ more) rest = (taken ++ (b.leave more rest).1, (b.leave more rest).2) := by
  have last : Pattern.endsIn '/' (taken ++ more) = Pattern.endsIn '/' more := by
    cases more with
    | nil => rw [List.append_nil, ends, Pattern.endsIn_nil]
    | cons c more => exact Pattern.endsIn_append_of_ne_nil _ _ (List.cons_ne_nil _ _)
  rw [leave, leave, last, same]
  split
  next back =>
    have begun : more ≠ [] := by
      rintro rfl
      simp at back
    rw [List.dropLast_append_of_ne_nil begun]
  next => rfl

/-- A mount of a plain shape leaves all that its shape leaves. -/
theorem route?_mount (plain : a.isPlain = true) (legal : a.WellFormed) (ends : a.endsInSlash = false)
    (node : Nat) (path : Text) :
    (a ++ slash done).route? node path =
      ((a ++ slash done).first? path).map fun m =>
        ⟨m.whole path, m.rest, node, Resolver.captured a.names m.captures⟩ := by
  have names : (a ++ slash done).names = a.names := by simp [Template.names]
  rw [route?, names]
  cases found : (a ++ slash done).first? path with
  | none => rfl
  | some m =>
      have unended := endsIn_whole plain legal ends found
      have kept : (a ++ slash done).leave (m.whole path) m.rest = (m.whole path, m.rest) := by
        simp [leave, unended]
      simp only [Option.map_some, kept]

theorem endsIn_taken {node : Nat} {one : RouteMatch} (plain : a.isPlain = true)
    (legal : a.WellFormed) (ends : a.endsInSlash = false) :
    (a ++ slash done).route? node path = some one → Pattern.endsIn '/' one.taken = false := by
  intro routed
  rw [route?_mount plain legal ends] at routed
  rcases Option.map_eq_some_iff.1 routed with ⟨m, found, rfl⟩
  exact endsIn_whole plain legal ends found

/-- A route of two shapes takes what a mount of the first takes and then, of what that leaves, what a
route of the second takes. -/
theorem route?_append (plain : a.isPlain = true) (legal : a.WellFormed)
    (ends : a.endsInSlash = false) (boundary : b.takesBoundary = true) (node first second : Nat)
    (path : Text) :
    (a ++ b).route? node path =
      ((a ++ slash done).route? first path).bind fun one =>
        (b.route? second one.remainder).map fun other =>
          ⟨one.taken ++ other.taken, other.remainder, node, one.params.merge other.params⟩ := by
  rw [route?, first?_append plain legal ends boundary, route?_mount plain legal ends]
  cases found : (a ++ slash done).first? path with
  | none => rfl
  | some m =>
      have mem := mem_ways_of_first? found
      have level : a.names.length = m.captures.length := by
        rw [length_captures_of_mem_ways mem, captures_expression]
      simp only [Option.bind_some, Option.map_some, route?]
      cases found' : b.first? m.rest with
      | none => rfl
      | some n =>
          -- the slash that a mount gives back is the last one, and that is the second shape's
          have cut : (a ++ b).leave (m.whole path ++ n.whole m.rest) n.rest =
              (m.whole path ++ (b.leave (n.whole m.rest) n.rest).1,
                (b.leave (n.whole m.rest) n.rest).2) :=
            leave_append_of_open (endsIn_whole plain legal ends found)
              (endsInSlash_append a (isDone_of_takesBoundary boundary))
          have both : (m.andThen n).whole path = m.whole path ++ n.whole m.rest :=
            whole_andThen mem (whole_append_of_mem_ways (first?_spec found').1)
          have params : Resolver.captured (a ++ b).names (m.andThen n).captures =
              (Resolver.captured a.names m.captures).merge
                (Resolver.captured b.names n.captures) := by
            rw [names_append]
            exact Params.captured_append level
          have after : (m.andThen n).rest = n.rest := rfl
          simp only [Option.map_some, both, after, cut, params]

end Template
end PathRouter
