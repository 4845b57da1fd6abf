import PathRouter.Proofs.Text
import PathRouter.Proofs.Trie
import Mathlib.Data.List.Induction
import Mathlib.Logic.Function.Basic

/-!
# PlainMap — a trie answers as a plain map does

A trie is filled by accesses: the value under a key, at first a default one, is handed out and changed in
place.  This file defines

* `Trie.Access`, one access, and `Trie.ofAccesses`, the trie after some of them;
* `Trie.mapOf`, the plain map after the same accesses;
* `Trie.lengths`, what a search finds, with the lengths in bytes, and `Trie.Represents`, that a trie
  lists, counts and finds what a plain map holds;

and shows `Trie.represents_ofAccesses`, that the two hold the same after any accesses.  Keys are
compared by their bytes throughout.
-/

namespace PathRouter
namespace Trie

variable {V : Type}

/-- The keys that a path starts with, longest first: each with its length in bytes and its value. -/
def lengths (t : Trie V) (path : Text) : List (Nat × V) :=
  (t.prefixes path).map fun found => (Text.utf8Length found.1, found.2.2)

/-- The trie lists, counts and finds what the plain map holds. -/
structure Represents (t : Trie V) (m : Text → Option V) : Prop where
  listed : ∀ key v, (key, v) ∈ t.entries ↔ m key = some v
  /-- In the order of the bytes, so no key is listed twice. -/
  ascending : t.entries.Pairwise fun one other => one.1.bytes < other.1.bytes
  counted : t.size = t.entries.length
  found : ∀ path n v, (n, v) ∈ t.lengths path ↔
    ∃ key, m key = some v ∧ key.bytes <+: path.bytes ∧ key.bytes.length = n
  longestFirst : ∀ path, (t.lengths path).Pairwise fun one other => other.1 < one.1
  onBoundary : ∀ path, ∀ found ∈ t.lengths path,
    String.Pos.Raw.IsValid (String.ofList path) ⟨found.1⟩

/-! ## One trie -/

variable {t : Trie V} {m : Text → Option V} {path : Text}

/-- A search finds the values under the beginnings of the path. -/
theorem mem_prefixes {key rest : Text} {v : V} :
    (key, rest, v) ∈ t.prefixes path ↔ key ++ rest = path ∧ t.get? key = some v := by
  rw [prefixes_eq, List.mem_filterMap]
  constructor
  · rintro ⟨⟨before, after⟩, cut, made⟩
    rcases Option.map_eq_some_iff.1 made with ⟨_, held, same⟩
    cases same
    exact ⟨Text.mem_cuts.1 cut, held⟩
  · rintro ⟨parts, held⟩
    exact ⟨(key, rest), Text.mem_cuts.2 parts, by simp [held]⟩

theorem mem_lengths {n : Nat} {v : V} :
    (n, v) ∈ t.lengths path ↔
      ∃ key rest, key ++ rest = path ∧ t.get? key = some v ∧ Text.utf8Length key = n := by
  rw [lengths, List.mem_map]
  constructor
  · rintro ⟨⟨key, rest, v⟩, found, same⟩
    cases same
    rcases mem_prefixes.1 found with ⟨parts, held⟩
    exact ⟨key, rest, parts, held, rfl⟩
  · rintro ⟨key, rest, parts, held, rfl⟩
    exact ⟨(key, rest, v), mem_prefixes.2 ⟨parts, held⟩, rfl⟩

/-- A shorter beginning of a path has fewer bytes. -/
theorem pairwise_lengths (t : Trie V) (path : Text) :
    (t.lengths path).Pairwise fun one other => other.1 < one.1 := by
  have shorter : (Text.cuts path).Pairwise fun one other =>
      Text.utf8Length other.1 < Text.utf8Length one.1 := by
    refine (Text.cuts_pairwise path).imp_of_mem fun {one other} mem mem' less => ?_
    have parts := Text.mem_cuts.1 mem
    have parts' := Text.mem_cuts.1 mem'
    -- of two beginnings of one path the shorter begins the longer, which goes on with a character
    have begins : other.1 <+: one.1 :=
      List.prefix_of_prefix_length_le ⟨other.2, parts'⟩ ⟨one.2, parts⟩ less.le
    rcases begins with ⟨more, whole⟩
    cases more with
    | nil =>
        rw [List.append_nil] at whole
        rw [whole] at less
        exact absurd less (lt_irrefl _)
    | cons c more =>
        have wide := c.utf8Size_pos
        rw [← whole, Text.utf8Length_append, Text.utf8Length_cons]
        omega
  rw [lengths, prefixes_eq, List.pairwise_map, List.pairwise_filterMap]
  refine shorter.imp fun {one other} less found held found' held' => ?_
  rcases Option.map_eq_some_iff.1 held with ⟨_, -, rfl⟩
  rcases Option.map_eq_some_iff.1 held' with ⟨_, -, rfl⟩
  exact less

/-- A trie in order is determined by what is found under each key. -/
theorem Represents.of_get? (ordered : t.Ordered) (same : ∀ key, t.get? key = m key) :
    t.Represents m where
  listed key v := by rw [mem_entries ordered, same]
  ascending := (pairwise_entries ordered).imp Text.bytes_lt_bytes
  counted := t.length_entries.symm
  found path n v := by
    rw [mem_lengths]
    constructor
    · rintro ⟨key, rest, parts, held, size⟩
      refine ⟨key, same key ▸ held, Text.bytes_prefix_bytes.2 ⟨rest, parts⟩, ?_⟩
      rw [Text.length_bytes, size]
    · rintro ⟨key, held, begins, size⟩
      rcases Text.bytes_prefix_bytes.1 begins with ⟨rest, parts⟩
      rw [Text.length_bytes] at size
      exact ⟨key, rest, parts, (same key).trans held, size⟩
  longestFirst := t.pairwise_lengths
  onBoundary path found listed := by
    rcases mem_lengths.1 listed with ⟨key, rest, parts, -, size⟩
    rw [← size]
    exact Text.isValid_of_append parts

/-! ## Accesses -/

/-- One access: the value under the key, a default one where there is none, is changed. -/
structure Access (V : Type) where
  key : Text
  change : V → V

variable [Inhabited V]

/-- What an access puts in the place of what is held. -/
def Access.put (a : Access V) (held : Option V) : V := a.change (held.getD default)

/-- The trie after one access more. -/
def access (t : Trie V) (a : Access V) : Trie V := t.update a.put a.key

/-- The trie that some accesses make of the empty one. -/
def ofAccesses (accesses : List (Access V)) : Trie V := accesses.foldl access empty

/-- The plain map that holds nothing at first and sees the same accesses. -/
def mapOf (accesses : List (Access V)) : Text → Option V :=
  accesses.foldl (fun m a => Function.update m a.key (some (a.put (m a.key)))) fun _ => none

variable {accesses : List (Access V)} {a : Access V}

theorem ofAccesses_concat : ofAccesses (accesses ++ [a]) = (ofAccesses accesses).access a := by
  rw [ofAccesses, List.foldl_append]
  rfl

theorem mapOf_concat : mapOf (accesses ++ [a]) =
    Function.update (mapOf accesses) a.key (some (a.put (mapOf accesses a.key))) := by
  rw [mapOf, List.foldl_append]
  rfl

/-- An access changes the value under its own key and under no other. -/
theorem get?_access (ordered : t.Ordered) (a : Access V) (key : Text) :
    (t.access a).get? key = Function.update t.get? a.key (some (a.put (t.get? a.key))) key := by
  rw [access, get?_update _ _ _ ordered, Function.update_apply]

theorem ordered_ofAccesses (accesses : List (Access V)) : (ofAccesses accesses).Ordered := by
  induction accesses using List.reverseRecOn with
  | nil => exact ordered_empty
  | append_singleton accesses a ih =>
      rw [ofAccesses_concat]
      exact ordered_update a.put a.key ih

/-- The same is found under each key in the trie and in the plain map. -/
theorem get?_ofAccesses (accesses : List (Access V)) : (ofAccesses accesses).get? = mapOf accesses := by
  induction accesses using List.reverseRecOn with
  | nil => exact funext get?_empty
  | append_singleton accesses a ih =>
      funext key
      rw [ofAccesses_concat, get?_access (ordered_ofAccesses accesses), mapOf_concat, ih]

/-- The plain map holds a value under the keys that have been accessed. -/
theorem isSome_mapOf {key : Text} :
    (mapOf accesses key).isSome = true ↔ key ∈ accesses.map Access.key := by
  induction accesses using List.reverseRecOn with
  | nil => simp [mapOf]
  | append_singleton accesses a ih =>
      rw [mapOf_concat, Function.update_apply, List.map_append, List.mem_append, ← ih]
      by_cases here : key = a.key <;> simp [here]

/-- After any accesses the trie lists, counts and finds what a plain map holds after the same
accesses, which has values under the accessed keys and no others.  The next access adds one to the count
if its key is new, leaves the changed value under its key, and all other values as they are. -/
theorem represents_ofAccesses (accesses : List (Access V)) :
    (ofAccesses accesses).Represents (mapOf accesses) ∧
    (∀ key, (∃ v, (key, v) ∈ (ofAccesses accesses).entries) ↔ key ∈ accesses.map Access.key) ∧
    ∀ a : Access V,
      (ofAccesses (accesses ++ [a])).size =
        (ofAccesses accesses).size + (if a.key ∈ accesses.map Access.key then 0 else 1) ∧
      (ofAccesses (accesses ++ [a])).get? a.key =
        some (a.change (((ofAccesses accesses).get? a.key).getD default)) ∧
      ∀ other, other ≠ a.key →
        (ofAccesses (accesses ++ [a])).get? other = (ofAccesses accesses).get? other := by
  have ordered := ordered_ofAccesses accesses
  have represents : (ofAccesses accesses).Represents (mapOf accesses) :=
    .of_get? ordered fun key => congrFun (get?_ofAccesses accesses) key
  refine ⟨represents, fun key => ?_, fun a => ⟨?_, ?_, fun other differs => ?_⟩⟩
  · simp only [represents.listed, ← Option.isSome_iff_exists, isSome_mapOf]
  · rw [ofAccesses_concat, access, size_update _ _ ordered, get?_ofAccesses]
    simp only [isSome_mapOf]
  · rw [ofAccesses_concat, get?_access ordered, Function.update_self]
    rfl
  · rw [ofAccesses_concat, get?_access ordered, Function.update_of_ne differs]

end Trie
end PathRouter
