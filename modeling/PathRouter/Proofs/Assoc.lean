import PathRouter.Assoc

/-!
# Assoc — lookup and order in association lists

* `Assoc.isSome_get?_iff`, the keys under which something is found;
* `Assoc.get?_alter_self` and `Assoc.get?_alter_of_ne`, what is found after a change, and
  `Assoc.get?_insert`;
* `Assoc.sorted_alter`, the order is kept;
* `Assoc.ext_of_sorted`, ordered lists in which the same is found under every key are equal.
-/

namespace PathRouter
namespace Assoc

variable {κ ν : Type} [LT κ] [DecidableLT κ] [DecidableEq κ]
variable {k key : κ} {value : ν} {rest entries : List (κ × ν)}

/-! ## Order -/

/-- A change keeps what comes before all keys before them, if it comes before the changed key. -/
theorem lt_of_mem_alter {f : Option ν → ν} {first : κ} (before : first < k)
    (above : ∀ entry ∈ entries, first < entry.1) : ∀ entry ∈ alter k f entries, first < entry.1 := by
  intro entry mem
  induction entries with
  | nil =>
      rw [alter, List.mem_singleton] at mem
      rw [mem]
      exact before
  | cons head rest ih =>
      rcases head with ⟨key, value⟩
      have here := above (key, value) List.mem_cons_self
      have later := fun entry mem => above entry (List.mem_cons_of_mem (key, value) mem)
      by_cases same : k = key
      · rw [alter, if_pos same] at mem
        rcases List.mem_cons.1 mem with rfl | mem
        · exact here
        · exact later entry mem
      by_cases less : k < key
      · rw [alter, if_neg same, if_pos less] at mem
        rcases List.mem_cons.1 mem with rfl | mem
        · exact before
        · exact above entry mem
      · rw [alter, if_neg same, if_neg less] at mem
        rcases List.mem_cons.1 mem with rfl | mem
        · exact here
        · exact ih later mem

theorem sorted_alter [Trans (fun a b : κ => a < b) (fun a b : κ => a < b) fun a b : κ => a < b]
    [Std.Trichotomous fun a b : κ => a < b] {f : Option ν → ν} (sorted : Sorted entries) :
    Sorted (alter k f entries) := by
  induction entries with
  | nil => exact List.pairwise_singleton _ _
  | cons head rest ih =>
      rcases head with ⟨key, value⟩
      rcases List.pairwise_cons.1 sorted with ⟨above, sorted⟩
      by_cases same : k = key
      · rw [alter, if_pos same]
        exact List.pairwise_cons.2 ⟨above, sorted⟩
      by_cases less : k < key
      · rw [alter, if_neg same, if_pos less]
        refine List.pairwise_cons.2 ⟨?_, List.pairwise_cons.2 ⟨above, sorted⟩⟩
        intro entry mem
        rcases List.mem_cons.1 mem with rfl | mem
        · exact less
        · exact Trans.trans less (above entry mem)
      · have greater : key < k := by
          by_cases more : key < k
          · exact more
          · exact absurd (Std.Trichotomous.trichotomous k key less more) same
        rw [alter, if_neg same, if_neg less]
        exact List.pairwise_cons.2 ⟨lt_of_mem_alter greater above, ih sorted⟩

/-! ## Lookup -/

omit [LT κ] [DecidableLT κ] in
/-- Something is found under the keys of the list. -/
theorem isSome_get?_iff : (get? k entries).isSome ↔ k ∈ entries.map Prod.fst := by
  induction entries with
  | nil => simp
  | cons head rest ih => by_cases same : k = head.1 <;> simp [get?, same, ih]

omit [DecidableLT κ] in
theorem get?_eq_none [Std.Irrefl fun a b : κ => a < b]
    (above : ∀ entry ∈ entries, k < entry.1) : get? k entries = none := by
  induction entries with
  | nil => rfl
  | cons head rest ih =>
      rcases head with ⟨key, value⟩
      have less : k < key := above (key, value) List.mem_cons_self
      have differs : k ≠ key := by
        rintro rfl
        exact Std.Irrefl.irrefl k less
      rw [get?, if_neg differs]
      exact ih fun entry mem => above entry (List.mem_cons_of_mem _ mem)

omit [DecidableLT κ] in
theorem get?_cons_eq_none [Std.Irrefl fun a b : κ => a < b]
    [Trans (fun a b : κ => a < b) (fun a b : κ => a < b) fun a b : κ => a < b]
    (sorted : Sorted ((key, value) :: rest)) (less : k < key) :
    get? k ((key, value) :: rest) = none := by
  apply get?_eq_none
  intro entry mem
  rcases List.mem_cons.1 mem with rfl | mem
  · exact less
  · exact Trans.trans less ((List.pairwise_cons.1 sorted).1 entry mem)

theorem get?_alter_of_ne {f : Option ν → ν} (differs : key ≠ k) :
    get? key (alter k f entries) = get? key entries := by
  induction entries with
  | nil => simp [alter, get?, differs]
  | cons head rest ih =>
      rcases head with ⟨other, value⟩
      by_cases same : k = other
      · subst same
        rw [alter, if_pos rfl, get?, get?, if_neg differs, if_neg differs]
      by_cases less : k < other
      · rw [alter, if_neg same, if_pos less, get?, if_neg differs]
      · rw [alter, if_neg same, if_neg less, get?, get?, ih]

theorem get?_alter_self [Std.Irrefl fun a b : κ => a < b]
    [Trans (fun a b : κ => a < b) (fun a b : κ => a < b) fun a b : κ => a < b]
    {f : Option ν → ν} (sorted : Sorted entries) :
    get? k (alter k f entries) = some (f (get? k entries)) := by
  induction entries with
  | nil => simp [alter, get?]
  | cons head rest ih =>
      rcases head with ⟨key, value⟩
      rcases List.pairwise_cons.1 sorted with ⟨above, sorted⟩
      by_cases same : k = key
      · subst same
        rw [alter, if_pos rfl, get?, if_pos rfl, get?, if_pos rfl]
      by_cases less : k < key
      · rw [alter, if_neg same, if_pos less, get?, if_pos rfl,
          get?_cons_eq_none (List.pairwise_cons.2 ⟨above, sorted⟩) less]
      · rw [alter, if_neg same, if_neg less, get?, if_neg same, ih sorted, get?, if_neg same]

/-- A value is found under the key it was put under, and under no other. -/
theorem get?_insert [Std.Irrefl fun a b : κ => a < b]
    [Trans (fun a b : κ => a < b) (fun a b : κ => a < b) fun a b : κ => a < b]
    (sorted : Sorted entries) :
    get? key (insert k value entries) = if key = k then some value else get? key entries := by
  by_cases same : key = k
  · subst same
    simpa [insert] using get?_alter_self sorted
  · simpa [insert, same] using get?_alter_of_ne same

/-- Ordered lists in which the same is found under every key are equal. -/
theorem ext_of_sorted [Std.Irrefl fun a b : κ => a < b]
    [Trans (fun a b : κ => a < b) (fun a b : κ => a < b) fun a b : κ => a < b]
    [Std.Trichotomous fun a b : κ => a < b] {others : List (κ × ν)} (one : Sorted entries)
    (two : Sorted others) : (∀ k, get? k entries = get? k others) → entries = others := by
  intro same
  induction entries generalizing others with
  | nil =>
      cases others with
      | nil => rfl
      | cons head rest =>
          have found := same head.1
          simp [get?] at found
  | cons head rest ih =>
      rcases head with ⟨key, value⟩
      cases others with
      | nil =>
          have found := same key
          simp [get?] at found
      | cons head' rest' =>
          rcases head' with ⟨key', value'⟩
          have here : get? key ((key, value) :: rest) = some value := by simp [get?]
          have there : get? key' ((key', value') :: rest') = some value' := by simp [get?]
          -- the smaller of two heads would be missing from the other list
          have level : key = key' := by
            by_cases less : key < key'
            · rw [same, get?_cons_eq_none two less] at here
              cases here
            by_cases more : key' < key
            · rw [← same, get?_cons_eq_none one more] at there
              cases there
            · exact Std.Trichotomous.trichotomous key key' less more
          subst level
          rw [← same, here] at there
          cases there
          rcases List.pairwise_cons.1 one with ⟨above, sorted⟩
          rcases List.pairwise_cons.1 two with ⟨above', sorted'⟩
          refine congrArg _ (ih sorted sorted' fun k => ?_)
          by_cases equal : k = key
          · subst equal
            rw [get?_eq_none above, get?_eq_none above']
          · simpa [get?, equal] using same k

end Assoc
end PathRouter
