import PathRouter.Proofs.Assoc
import PathRouter.Routing.Resolver

/-!
# Params — what is stored is the history of each name

This file defines

* `Params.Canonical`, names in order and every history stored in the one way there is for it;
* `Params.taken`, the values that the captures of a match put under a name;

and shows how `add`, `set`, `merge` and `Resolver.captured` change the histories, and
`Params.ext_of_all`, that canonical parameters with the same histories are equal.
-/

namespace PathRouter

namespace ParamValue

/-- The way in which a history is stored. -/
def ofValues : List Text → Option ParamValue
  | [] => none
  | [value] => some (.one value)
  | values => some (.many values)

theorem ofValues_concat (values : List Text) (value : Text) :
    ofValues (values ++ [value]) =
      some
        (match ofValues values with
        | none => .one value
        | some old => old.push value) := by
  cases values with
  | nil => rfl
  | cons first values =>
      cases values with
      | nil => rfl
      | cons next values => rfl

end ParamValue

namespace Params

variable {p q : Params}

/-- The names are in order, and every history is stored in the one way there is for it. -/
structure Canonical (p : Params) : Prop where
  sorted : Assoc.Sorted p.entries
  stored : ∀ name, p.get? name = ParamValue.ofValues (p.all name)

/-- Canonical parameters with the same histories are equal. -/
theorem ext_of_all (one : p.Canonical) (two : q.Canonical) :
    (∀ name, p.all name = q.all name) → p = q := by
  intro same
  have entries : p.entries = q.entries := by
    apply Assoc.ext_of_sorted one.sorted two.sorted
    intro name
    calc
      p.get? name = ParamValue.ofValues (p.all name) := one.stored name
      _ = ParamValue.ofValues (q.all name) := by rw [same]
      _ = q.get? name := (two.stored name).symm
  cases p
  cases q
  exact congrArg Params.mk entries

/-! ## One value more -/

theorem all_of_get? {name : Text} {values : List Text}
    (found : p.get? name = ParamValue.ofValues values) : p.all name = values := by
  rw [all, found]
  cases values with
  | nil => rfl
  | cons first values => cases values <;> rfl

theorem get?_add_self (legal : p.Canonical) (name value : Text) :
    (p.add name value).get? name = ParamValue.ofValues (p.all name ++ [value]) := by
  rw [get?, add, Assoc.get?_alter_self legal.sorted, ParamValue.ofValues_concat, ← legal.stored]
  rfl

theorem get?_add_of_ne {name other : Text} (value : Text) (differs : other ≠ name) :
    (p.add name value).get? other = p.get? other := by
  exact Assoc.get?_alter_of_ne differs

theorem all_add (legal : p.Canonical) (name value other : Text) :
    (p.add name value).all other = p.all other ++ if other = name then [value] else [] := by
  by_cases same : other = name
  · subst same
    rw [if_pos rfl]
    exact all_of_get? (get?_add_self legal other value)
  · rw [if_neg same, List.append_nil, all, get?_add_of_ne value same]
    rfl

theorem canonical_empty : empty.Canonical := ⟨List.Pairwise.nil, fun _ => rfl⟩

theorem canonical_add (legal : p.Canonical) (name value : Text) : (p.add name value).Canonical := by
  refine ⟨Assoc.sorted_alter legal.sorted, fun other => ?_⟩
  by_cases same : other = name
  · subst same
    have found := get?_add_self legal other value
    rw [found, all_of_get? found]
  · have kept : (p.add name value).all other = p.all other := by
      rw [all_add legal, if_neg same, List.append_nil]
    rw [get?_add_of_ne value same, kept, legal.stored]

/-! ## One value instead -/

theorem get?_set (legal : p.Canonical) (name value other : Text) :
    (p.set name value).get? other = if other = name then some (.one value) else p.get? other := by
  exact Assoc.get?_insert legal.sorted

theorem all_set (legal : p.Canonical) (name value other : Text) :
    (p.set name value).all other = if other = name then [value] else p.all other := by
  rw [all, get?_set legal]
  split <;> rfl

theorem canonical_set (legal : p.Canonical) (name value : Text) : (p.set name value).Canonical := by
  refine ⟨Assoc.sorted_alter legal.sorted, fun other => ?_⟩
  rw [get?_set legal, all_set legal]
  split
  · rfl
  · exact legal.stored other

/-! ## Many values more -/

/-- The parameters with more values, in order. -/
def addAll (p : Params) (pairs : List (Text × Text)) : Params :=
  pairs.foldl (fun p pair => p.add pair.1 pair.2) p

/-- The values that some pairs have under a name. -/
def under (name : Text) (pairs : List (Text × Text)) : List Text :=
  (pairs.filter fun pair => pair.1 = name).map Prod.snd

theorem canonical_addAll {pairs : List (Text × Text)} (legal : p.Canonical) :
    (p.addAll pairs).Canonical := by
  induction pairs generalizing p with
  | nil => exact legal
  | cons pair pairs ih => exact ih (canonical_add legal pair.1 pair.2)

theorem all_addAll (pairs : List (Text × Text)) (legal : p.Canonical) (name : Text) :
    (p.addAll pairs).all name = p.all name ++ under name pairs := by
  induction pairs generalizing p with
  | nil => exact (List.append_nil _).symm
  | cons pair pairs ih =>
      rcases pair with ⟨key, value⟩
      -- the induction is on the pairs, and what is stored when they come is general
      have step := ih (canonical_add legal key value)
      rw [all_add legal] at step
      refine step.trans ?_
      by_cases same : key = name
      · subst same
        simp [under]
      · simp [under, same, Ne.symm same]

theorem under_append (name : Text) (first second : List (Text × Text)) :
    under name (first ++ second) = under name first ++ under name second := by
  simp [under]

theorem under_map (name key : Text) (values : List Text) :
    under name (values.map (key, ·)) = if key = name then values else [] := by
  by_cases same : key = name
  · simp [under, same, List.filter_map, Function.comp_def]
  · simp [under, same, List.filter_map, Function.comp_def]

/-! ## Two parameter lists in one -/

/-- The entries as pairs of a name and a single value. -/
def pairs (p : Params) : List (Text × Text) :=
  p.entries.flatMap fun entry => entry.2.values.map (entry.1, ·)

theorem merge_eq_addAll (p q : Params) : p.merge q = p.addAll q.pairs := by
  simp [merge, addAll, pairs, List.foldl_flatMap, List.foldl_map]

theorem under_pairs (legal : p.Canonical) (name : Text) : under name p.pairs = p.all name := by
  rcases p with ⟨entries⟩
  have sorted : Assoc.Sorted entries := legal.sorted
  rw [pairs, all, get?]
  clear legal
  induction entries with
  | nil => rfl
  | cons head rest ih =>
      rcases head with ⟨key, value⟩
      rcases List.pairwise_cons.1 sorted with ⟨above, sorted⟩
      rw [List.flatMap_cons, under_append, ih sorted, under_map, Assoc.get?]
      by_cases same : name = key
      · subst same
        rw [if_pos rfl, if_pos rfl, Assoc.get?_eq_none above]
        exact List.append_nil _
      · rw [if_neg (Ne.symm same), if_neg same]
        rfl

theorem canonical_merge (legal : p.Canonical) (q : Params) : (p.merge q).Canonical := by
  rw [merge_eq_addAll]
  exact canonical_addAll legal

theorem all_merge (one : p.Canonical) (two : q.Canonical) (name : Text) :
    (p.merge q).all name = p.all name ++ q.all name := by
  rw [merge_eq_addAll, all_addAll _ one, under_pairs two]

/-! ## Captures -/

/-- The captures that took part, with their names. -/
def takenPairs (names : List Text) (values : List (Option Text)) : List (Text × Text) :=
  (names.zip values).filterMap fun pair => pair.2.map (pair.1, ·)

/-- The values of the captures with a name, in the order in which the captures open. -/
def taken (names : List Text) (values : List (Option Text)) (name : Text) : List Text :=
  (names.zip values).filterMap fun pair => if pair.1 = name then pair.2 else none

theorem under_takenPairs (names : List Text) (values : List (Option Text)) (name : Text) :
    under name (takenPairs names values) = taken names values name := by
  rw [takenPairs, taken]
  induction names.zip values with
  | nil => rfl
  | cons pair rest ih =>
      rcases pair with ⟨key, value⟩
      cases value with
      | none => simpa using ih
      | some value =>
          by_cases same : key = name
          · simpa [under, same] using ih
          · simpa [under, same] using ih

theorem captured_eq_addAll (names : List Text) (captures : List (Option Regex.Span)) :
    Resolver.captured names captures =
      empty.addAll (takenPairs names (captures.map (Option.map Regex.Span.text))) := by
  rw [takenPairs, List.zip_map_right, List.filterMap_map, Resolver.captured]
  -- the fold starts from parameters that grow, so the induction is for all of them
  generalize empty = p
  induction names.zip captures generalizing p with
  | nil => rfl
  | cons pair zipped ih =>
      rcases pair with ⟨name, span⟩
      cases span with
      | none => simpa using ih p
      | some span => simpa [addAll] using ih (p.add name span.text)

theorem canonical_captured (names : List Text) (captures : List (Option Regex.Span)) :
    (Resolver.captured names captures).Canonical := by
  rw [captured_eq_addAll]
  exact canonical_addAll canonical_empty

theorem all_captured (names : List Text) (captures : List (Option Regex.Span)) (name : Text) :
    (Resolver.captured names captures).all name =
      taken names (captures.map (Option.map Regex.Span.text)) name := by
  rw [captured_eq_addAll, all_addAll _ canonical_empty, under_takenPairs]
  rfl

/-- What is stored of the captures of a match: under each name its values, in order. -/
theorem get?_captured (names : List Text) (captures : List (Option Regex.Span)) (name : Text) :
    (Resolver.captured names captures).get? name =
      ParamValue.ofValues (taken names (captures.map (Option.map Regex.Span.text)) name) := by
  rw [(canonical_captured names captures).stored, all_captured]

theorem taken_append {names more : List Text} {values others : List (Option Text)}
    (level : names.length = values.length) (name : Text) :
    taken (names ++ more) (values ++ others) name =
      taken names values name ++ taken more others name := by
  rw [taken, taken, taken, List.zip_append level, List.filterMap_append]

/-- Captures of two shapes in one list are those of the second merged into those of the first. -/
theorem captured_append {names more : List Text} {captures others : List (Option Regex.Span)}
    (level : names.length = captures.length) :
    Resolver.captured (names ++ more) (captures ++ others) =
      (Resolver.captured names captures).merge (Resolver.captured more others) := by
  have first := canonical_captured names captures
  have second := canonical_captured more others
  apply ext_of_all (canonical_captured _ _) (canonical_merge first _)
  intro name
  have level' : names.length = (captures.map (Option.map Regex.Span.text)).length := by
    rw [List.length_map, level]
  calc
    (Resolver.captured (names ++ more) (captures ++ others)).all name
      = taken (names ++ more) ((captures ++ others).map (Option.map Regex.Span.text)) name :=
        all_captured _ _ name
    _ = taken names (captures.map (Option.map Regex.Span.text)) name ++
          taken more (others.map (Option.map Regex.Span.text)) name := by
        rw [List.map_append, taken_append level']
    _ = ((Resolver.captured names captures).merge (Resolver.captured more others)).all name := by
        rw [all_merge first second, all_captured, all_captured]

theorem merge_assoc {p q r : Params} (one : p.Canonical) (two : q.Canonical) (three : r.Canonical) :
    (p.merge q).merge r = p.merge (q.merge r) := by
  have left := canonical_merge one q
  have right := canonical_merge two r
  apply ext_of_all (canonical_merge left r) (canonical_merge one _)
  intro name
  rw [all_merge left three, all_merge one two, all_merge one right, all_merge two three,
    List.append_assoc]

theorem merge_empty (p : Params) : p.merge empty = p := rfl

theorem empty_merge (legal : p.Canonical) : empty.merge p = p := by
  apply ext_of_all (canonical_merge canonical_empty p) legal
  intro name
  rw [all_merge canonical_empty legal]
  rfl

end Params
end PathRouter
