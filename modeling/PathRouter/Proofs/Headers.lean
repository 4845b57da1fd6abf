import PathRouter.Http.Headers

/-!
# Headers — what is found under a name after a change

* `Headers.contains_append` and `Headers.contains_set`, the names that are there after a change;
* `Headers.all_set_self`, `Headers.all_append` and `Headers.all_foldl_append`, the values of a name after
  a change;
* `Headers.remove_set` and `Headers.remove_of_not_contains`, what is left once a name is removed.
-/

namespace PathRouter

/-- A list of legal values is legal. -/
theorem HeaderValue.isLegal_intercalate {values : List String}
    (legal : ∀ value ∈ values, isLegal value.toList = true) :
    isLegal (String.intercalate ", " values).toList = true := by
  induction values with
  | nil => rfl
  | cons value values ih =>
      have here := legal value List.mem_cons_self
      have rest := ih fun other mem => legal other (List.mem_cons_of_mem value mem)
      cases values with
      | nil => simpa using here
      | cons next values =>
          rw [String.intercalate_cons_cons, String.toList_append, String.toList_append]
          simp only [isLegal, List.all_append, Bool.and_eq_true] at here rest ⊢
          exact ⟨⟨here, by decide⟩, rest⟩

namespace Headers

variable {h : Headers} {name other : HeaderName} {value : String}
variable {f : List String → List String} {fields : List (HeaderName × List String)}

/-! ## Lookup -/

theorem lookup_cons (name key : HeaderName) (values : List String) :
    ((key, values) :: fields).lookup name = if key = name then some values else fields.lookup name := by
  by_cases same : key = name
  · simp [same, List.lookup_cons_self]
  · have differs : (name == key) = false := by simpa using Ne.symm same
    simp [same, List.lookup_cons, differs]

theorem lookup_alter (name other : HeaderName) :
    (alter name f fields).lookup other =
      if name = other then some (f ((fields.lookup other).getD [])) else fields.lookup other := by
  induction fields with
  | nil => by_cases same : name = other <;> simp [alter, lookup_cons, same]
  | cons field fields ih =>
      rcases field with ⟨key, values⟩
      by_cases here : key = name
      · subst here
        by_cases same : key = other <;> simp [alter, lookup_cons, same]
      · by_cases same : name = other
        · subst same
          simpa [alter, lookup_cons, here] using ih
        · have kept : alter name f ((key, values) :: fields) = (key, values) :: alter name f fields := by
            simp [alter, here]
          simp only [kept, lookup_cons, ih, if_neg same]

theorem contains_iff : h.contains name = true ↔ name ∈ h.fields.map Prod.fst := by
  simp [contains]

/-! ## Names -/

@[simp] theorem contains_empty (name : HeaderName) : empty.contains name = false := rfl

theorem contains_append :
    (h.append name value).contains other = (decide (name = other) || h.contains other) := by
  by_cases same : name = other <;> simp [append, contains, lookup_alter, same]

theorem contains_set :
    (h.set name value).contains other = (decide (name = other) || h.contains other) := by
  by_cases same : name = other <;> simp [set, contains, lookup_alter, same]

theorem contains_foldl_append (fields : List (HeaderName × String)) (h : Headers)
    (name : HeaderName) :
    (fields.foldl (fun h field => h.append field.1 field.2) h).contains name =
      (h.contains name || fields.any fun field => decide (field.1 = name)) := by
  induction fields generalizing h with
  | nil => simp
  | cons field fields ih =>
      rw [List.foldl_cons, ih, contains_append, List.any_cons]
      cases h.contains name <;> simp

theorem contains_remove_self : (h.remove name).contains name = false := by
  rw [Bool.eq_false_iff, ne_eq, contains_iff]
  simp [remove]

/-- The names of a listing are names of the fields. -/
theorem ne_of_mem_toList {field : HeaderName × String} (absent : h.contains name = false) :
    field ∈ h.toList → field.1 ≠ name := by
  intro listed same
  simp only [toList, List.mem_flatMap, List.mem_map] at listed
  rcases listed with ⟨entry, mem, value, -, made⟩
  have there : h.contains name = true := by
    rw [contains_iff]
    exact List.mem_map.2 ⟨entry, mem, by rw [← same, ← made]⟩
  simp [absent] at there

/-! ## Values -/

theorem all_set_self : (h.set name value).all name = [value] := by
  simp [set, all, lookup_alter]

theorem all_set_of_ne (differs : name ≠ other) : (h.set name value).all other = h.all other := by
  simp [set, all, lookup_alter, differs]

theorem all_append :
    (h.append name value).all other = h.all other ++ if name = other then [value] else [] := by
  by_cases same : name = other <;> simp [append, all, lookup_alter, same]

theorem all_append_self : (h.append name value).all name = h.all name ++ [value] := by
  rw [all_append, if_pos rfl]

/-- The values that fields have under a name. -/
def valuesOf (name : HeaderName) (fields : List (HeaderName × String)) : List String :=
  (fields.filter fun field => field.1 = name).map Prod.snd

theorem valuesOf_cons (name : HeaderName) (field : HeaderName × String)
    (fields : List (HeaderName × String)) :
    valuesOf name (field :: fields) =
      (if field.1 = name then [field.2] else []) ++ valuesOf name fields := by
  by_cases same : field.1 = name <;> simp [valuesOf, same]

theorem valuesOf_of_forall_ne {fields : List (HeaderName × String)}
    (others : ∀ field ∈ fields, field.1 ≠ name) : valuesOf name fields = [] := by
  simpa [valuesOf] using others

/-- Appended fields come behind the values that were there. -/
theorem all_foldl_append (fields : List (HeaderName × String)) (h : Headers) (name : HeaderName) :
    (fields.foldl (fun h field => h.append field.1 field.2) h).all name =
      h.all name ++ valuesOf name fields := by
  induction fields generalizing h with
  | nil => simp [valuesOf]
  | cons field fields ih => rw [List.foldl_cons, ih, all_append, valuesOf_cons, List.append_assoc]

theorem all_remove_of_ne (differs : name ≠ other) : (h.remove name).all other = h.all other := by
  rcases h with ⟨fields⟩
  have kept : (fields.filter fun field => field.1 ≠ name).lookup other = fields.lookup other := by
    induction fields with
    | nil => rfl
    | cons field fields ih =>
        rcases field with ⟨key, values⟩
        by_cases same : key = name
        · have apart : key ≠ other := same ▸ differs
          rw [List.filter_cons_of_neg (by simp [same]), ih, lookup_cons, if_neg apart]
        · rw [List.filter_cons_of_pos (by simp [same]), lookup_cons, lookup_cons, ih]
  simp only [remove, all, kept]

theorem all_of_not_contains (absent : h.contains name = false) : h.all name = [] := by
  simp only [contains, Option.isSome_eq_false_iff, Option.isNone_iff_eq_none] at absent
  simp [all, absent]

theorem all_remove_self : (h.remove name).all name = [] := all_of_not_contains contains_remove_self

/-! ## Removal -/

theorem remove_of_not_contains (absent : h.contains name = false) : h.remove name = h := by
  rcases h with ⟨fields⟩
  have kept : ∀ field ∈ fields, (decide (field.1 ≠ name)) = true := by
    intro field mem
    rw [decide_eq_true_iff]
    intro same
    have there : (⟨fields⟩ : Headers).contains name = true := by
      rw [contains_iff]
      exact List.mem_map.2 ⟨field, mem, same⟩
    simp [absent] at there
  simpa [remove] using kept

theorem remove_set : (h.set name value).remove name = h.remove name := by
  rcases h with ⟨fields⟩
  simp only [set, remove, mk.injEq]
  induction fields with
  | nil => simp [alter]
  | cons field fields ih =>
      by_cases same : field.1 = name
      · simp [alter, same]
      · simpa [alter, same] using ih

end Headers
end PathRouter
