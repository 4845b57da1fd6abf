import PathRouter.Proofs.Params
import Mathlib.Data.Set.Card

/-!
# ValueHistory — parameters are a map from names to histories

Parameters are made by adding values, putting a value in the place of others, and taking in parameters
that have been made likewise.  This file defines

* `Params.Making`, how parameters have been made, with `Making.params`, what has come of it;
* `Making.history`, the values of a name that this leaves, read off the operations alone;

and shows `Params.Making.histories`, that the two agree for every name, and what follows for the form in
which values are stored, for the latest of them, for the number of names and for merging.
-/

namespace PathRouter

namespace ParamValue

variable {values : List Text} {value : Text} {held : ParamValue}

theorem ofValues_eq_none_iff : ofValues values = none ↔ values = [] := by
  cases values with
  | nil => simp [ofValues]
  | cons first values => cases values <;> simp [ofValues]

theorem ofValues_eq_one_iff : ofValues values = some (.one value) ↔ values = [value] := by
  cases values with
  | nil => simp [ofValues]
  | cons first values => cases values <;> simp [ofValues]

/-- A list is stored only of two values or more. -/
theorem ofValues_eq_many_iff {more : List Text} :
    ofValues values = some (.many more) ↔ values = more ∧ 2 ≤ more.length := by
  cases values with
  | nil => cases more <;> simp [ofValues]
  | cons first values =>
      cases values with
      | nil => rcases more with _ | ⟨next, _ | ⟨later, more⟩⟩ <;> simp [ofValues]
      | cons second values =>
          simp only [ofValues, Option.some.injEq, many.injEq]
          constructor
          · rintro rfl
            exact ⟨rfl, by simp⟩
          · exact And.left

/-- The latest value of what is stored is the last of the history; there always is one. -/
theorem getLast?_of_ofValues (stored : ofValues values = some held) :
    values.getLast? = some held.last := by
  cases held with
  | one value => rw [ofValues_eq_one_iff.1 stored, last, List.getLast?_singleton]
  | many more =>
      rcases ofValues_eq_many_iff.1 stored with ⟨rfl, several⟩
      cases values with
      | nil => simp at several
      | cons first values => simp [last, List.getLast?_cons]

end ParamValue

namespace Params

variable {p : Params} {name : Text}

theorem all_eq_nil_iff (legal : p.Canonical) :
    p.all name = [] ↔ name ∉ p.entries.map Prod.fst := by
  rw [← ParamValue.ofValues_eq_none_iff, ← legal.stored, ← Assoc.isSome_get?_iff,
    Option.not_isSome_iff_eq_none]
  rfl

/-- As many names have a value as there are entries. -/
theorem encard_names (legal : p.Canonical) :
    Set.encard {name | p.all name ≠ []} = p.size := by
  have distinct : (p.entries.map Prod.fst).Nodup := by
    refine List.pairwise_map.2 (List.Pairwise.imp (fun {one other} less same => ?_) legal.sorted)
    exact List.lt_irrefl other.1 (same ▸ less)
  have names : {name | p.all name ≠ []} = ((p.entries.map Prod.fst).toFinset : Set Text) := by
    ext name
    simp only [Set.mem_ofPred_eq, ne_eq, all_eq_nil_iff legal, not_not, List.coe_toFinset]
  rw [names, Set.encard_coe_eq_coe_finsetCard, List.toFinset_card_of_nodup distinct,
    List.length_map, size]

theorem latest?_eq (legal : p.Canonical) (name : Text) : p.latest? name = (p.all name).getLast? := by
  have stored := legal.stored name
  rw [latest?, stored]
  cases form : ParamValue.ofValues (p.all name) with
  | none => rw [ParamValue.ofValues_eq_none_iff.1 form]; rfl
  | some held => exact (ParamValue.getLast?_of_ofValues form).symm

/-! ## Operations -/

/-- How parameters have been made. -/
inductive Making where
  | nothing
  | add (before : Making) (name value : Text)
  | set (before : Making) (name value : Text)
  /-- What has been made elsewhere is taken in. -/
  | merge (before other : Making)

namespace Making

/-- What has been made. -/
def params : Making → Params
  | .nothing => empty
  | .add before name value => before.params.add name value
  | .set before name value => before.params.set name value
  | .merge before other => before.params.merge other.params

/-- The values of a name: one more at the end, a single one instead, or all of the other side at the
end. -/
def history (name : Text) : Making → List Text
  | .nothing => []
  | .add before key value => before.history name ++ if name = key then [value] else []
  | .set before key value => if name = key then [value] else before.history name
  | .merge before other => before.history name ++ other.history name

theorem canonical_params (making : Making) : making.params.Canonical := by
  induction making with
  | nothing => exact canonical_empty
  | add before name value ih => exact canonical_add ih name value
  | set before name value ih => exact canonical_set ih name value
  | merge before other ih _ => exact canonical_merge ih other.params

theorem all_params (making : Making) (name : Text) :
    making.params.all name = making.history name := by
  induction making with
  | nothing => rfl
  | add before key value ih => rw [params, all_add before.canonical_params, ih, history]
  | set before key value ih => rw [params, all_set before.canonical_params, ih, history]
  | merge before other ih ihOther =>
      rw [params, all_merge before.canonical_params other.canonical_params, ih, ihOther, history]

/-- However parameters have been made, the values of a name are its history.  One value is stored by
itself, two and more as a list; the latest value is the last one, stored or asked for; the size is the
number of names that have values.  Merging is associative, and empty parameters change nothing. -/
theorem histories (making : Making) :
    (∀ name, making.params.all name = making.history name) ∧
    (∀ name, making.params.get? name = none ↔ making.history name = []) ∧
    (∀ name value, making.params.get? name = some (.one value) ↔ making.history name = [value]) ∧
    (∀ name values, making.params.get? name = some (.many values) ↔
      making.history name = values ∧ 2 ≤ values.length) ∧
    (∀ name, making.params.latest? name = (making.params.all name).getLast?) ∧
    (∀ name held, making.params.get? name = some held →
      (making.params.all name).getLast? = some held.last) ∧
    Set.encard {name | making.params.all name ≠ []} = making.params.size ∧
    (∀ second third : Making, (making.params.merge second.params).merge third.params =
      making.params.merge (second.params.merge third.params)) ∧
    empty.merge making.params = making.params ∧ making.params.merge empty = making.params := by
  have legal := making.canonical_params
  have stored (name : Text) :
      making.params.get? name = ParamValue.ofValues (making.history name) := by
    rw [legal.stored, all_params]
  refine ⟨making.all_params, fun name => ?_, fun name value => ?_, fun name values => ?_,
    latest?_eq legal, fun name held found => ?_, encard_names legal, fun second third => ?_,
    empty_merge legal, merge_empty _⟩
  · rw [stored, ParamValue.ofValues_eq_none_iff]
  · rw [stored, ParamValue.ofValues_eq_one_iff]
  · rw [stored, ParamValue.ofValues_eq_many_iff]
  · rw [legal.stored] at found
    exact ParamValue.getLast?_of_ofValues found
  · exact merge_assoc legal second.canonical_params third.canonical_params

end Making
end Params
end PathRouter
