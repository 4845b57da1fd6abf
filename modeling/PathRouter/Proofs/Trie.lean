import PathRouter.Routing.Trie
import Mathlib.Tactic.Basic
import Mathlib.Order.Basic
import Mathlib.Data.Char

/-!
# Trie — a trie is a finite map that can be searched by the beginnings of a path

Below a place the branches stand in strictly ascending order of their characters.  Updating keeps
that order, and in that order an update is seen under its own key and nowhere else.  This file
defines

* `Branches.Ordered` and `Trie.Ordered`, the order;
* `Text.cuts`, all cuts of a text in two;

and shows `Trie.get?_update`, what an update does to every key, and `Trie.prefixes_eq`, that the
search returns the values under all beginnings of the path, longest first.  The entries of a trie are what
is found under its keys (`Trie.mem_entries`), in ascending order (`Trie.pairwise_entries`), and its size
is their number (`Trie.length_entries`).
-/

namespace PathRouter

variable {V : Type}

namespace Branches

/-! ## Order -/

/-- All branches have characters above `c`. -/
def Above (c : Char) : Branches V → Prop
  | .nil => True
  | .cons d _ _ next => c < d ∧ next.Above c

/-- Neighbouring branches ascend strictly, at every place. -/
def Ordered : Branches V → Prop
  | .nil => True
  | .cons c _ down next => down.Ordered ∧ next.Ordered ∧ next.Above c

theorem Above.trans {c d : Char} (lt : c < d) {b : Branches V} : b.Above d → b.Above c := by
  intro above
  induction b with
  | nil => trivial
  | cons e _ _ next _ ih =>
      exact ⟨lt_trans lt above.1, ih above.2⟩

/-- A character below all branches leads nowhere. -/
theorem get?_of_above {c : Char} {key : Text} {b : Branches V} :
    b.Above c → b.get? c key = none := by
  intro above
  induction b with
  | nil => rfl
  | cons d value down next _ ih =>
      have differs : c ≠ d := ne_of_lt above.1
      simp only [get?, if_neg differs]
      exact ih above.2

theorem ordered_stem (v : V) (key : Text) : (stem v key).2.Ordered := by
  induction key with
  | nil => trivial
  | cons c key ih =>
      exact ⟨ih, trivial, trivial⟩

theorem above_update (f : Option V → V) {lower c : Char} (lt : lower < c) (key : Text)
    {b : Branches V} : b.Above lower → (b.update f c key).Above lower := by
  intro above
  induction b with
  | nil => exact ⟨lt, trivial⟩
  | cons d value down next _ ih =>
      by_cases same : c = d
      · cases key with
        | nil => simpa [update, same, Above] using above
        | cons e key => simpa [update, same, Above] using above
      · by_cases before : c < d
        · simpa [update, same, before, Above] using And.intro lt above
        · simp only [update, if_neg same, if_neg before]
          exact ⟨above.1, ih above.2⟩

theorem ordered_update (f : Option V → V) (c : Char) (key : Text) {b : Branches V} :
    b.Ordered → (b.update f c key).Ordered := by
  intro ordered
  induction b generalizing c key with
  | nil => exact ⟨ordered_stem _ key, trivial, trivial⟩
  | cons d value down next ihDown ihNext =>
      rcases ordered with ⟨hDown, hNext, above⟩
      by_cases same : c = d
      · cases key with
        | nil => simpa [update, same, Ordered] using ⟨hDown, hNext, above⟩
        | cons e key =>
            simp only [update, if_pos same]
            exact ⟨ihDown e key hDown, hNext, above⟩
      · by_cases before : c < d
        · simp only [update, if_neg same, if_pos before]
          exact ⟨ordered_stem _ key, ⟨hDown, hNext, above⟩, before, above.trans before⟩
        · have after : d < c := lt_of_le_of_ne (not_lt.mp before) (Ne.symm same)
          simp only [update, if_neg same, if_neg before]
          exact ⟨hDown, ihNext c key hNext, above_update f after key above⟩

/-! ## Reading after an update -/

/-- A single branch holds its value at its end and nothing else. -/
theorem get?_stem (v : V) (c : Char) (key : Text) (next : Branches V) (d : Char) (other : Text) :
    (cons c (stem v key).1 (stem v key).2 next).get? d other =
      if d = c then (if other = key then some v else none) else next.get? d other := by
  induction key generalizing c next d other with
  | nil =>
      by_cases same : d = c
      · cases other <;> simp [stem, get?, same]
      · simp [get?, same]
  | cons e key ih =>
      by_cases same : d = c
      · cases other with
        | nil => simp [stem, get?, same]
        | cons a other =>
            have below := ih e .nil a other
            by_cases first : a = e
            · simp [stem, get?, same, first] at below ⊢
              exact below
            · simp [stem, get?, same, first]
      · simp [get?, same]

theorem get?_update (f : Option V → V) (c : Char) (key : Text) (d : Char) (other : Text)
    {b : Branches V} (ordered : b.Ordered) :
    (b.update f c key).get? d other =
      if d = c ∧ other = key then some (f (b.get? c key)) else b.get? d other := by
  induction b generalizing c key d other with
  | nil =>
      by_cases same : d = c <;> simp [update, get?_stem, get?, same]
  | cons a value down next ihDown ihNext =>
      rcases ordered with ⟨hDown, hNext, above⟩
      by_cases same : c = a
      · subst same
        by_cases found : d = c
        · cases key with
          | nil => cases other <;> simp [update, get?, found]
          | cons e key =>
              cases other with
              | nil => simp [update, get?, found]
              | cons e' other => simp [update, get?, found, ihDown e key e' other hDown]
        · cases key <;> simp [update, get?, found]
      · by_cases before : c < a
        · -- nothing can be stored under a character that sorts before the first branch
          have absent : (cons a value down next).get? c key = none :=
            get?_of_above ⟨before, above.trans before⟩
          simp only [update, if_neg same, if_pos before, get?_stem, absent]
          by_cases found : d = c
          · subst found
            by_cases keys : other = key
            · simp [keys]
            · have absent' : (cons a value down next).get? d other = none :=
                get?_of_above ⟨before, above.trans before⟩
              simp [keys, absent']
          · simp [found]
        · simp only [update, if_neg same, if_neg before]
          by_cases found : d = a
          · subst found
            have differs : d ≠ c := fun eq => same eq.symm
            simp [get?, differs]
          · simp only [get?, if_neg found, if_neg same]
            exact ihNext c key d other hNext

end Branches

namespace Trie

/-- Neighbouring branches ascend strictly, at every place. -/
def Ordered (t : Trie V) : Prop := t.branches.Ordered

theorem ordered_empty : (empty : Trie V).Ordered := trivial

theorem ordered_update (f : Option V → V) (key : Text) {t : Trie V} :
    t.Ordered → (t.update f key).Ordered := by
  intro ordered
  cases key with
  | nil => exact ordered
  | cons c key => exact Branches.ordered_update f c key ordered

@[simp] theorem get?_empty (key : Text) : (empty : Trie V).get? key = none := by
  cases key <;> rfl

/-- An update is seen under its own key and nowhere else. -/
theorem get?_update (f : Option V → V) (key other : Text) {t : Trie V} (ordered : t.Ordered) :
    (t.update f key).get? other = if other = key then some (f (t.get? key)) else t.get? other := by
  cases key with
  | nil => cases other <;> simp [update, get?]
  | cons c key =>
      cases other with
      | nil => simp [update, get?]
      | cons d other => simp [update, get?, Branches.get?_update f c key d other ordered]

end Trie

/-! ## Searching by beginnings -/

/-- All cuts of a text in two, the longest first part first. -/
def Text.cuts : Text → List (Text × Text)
  | [] => [([], [])]
  | c :: s => (cuts s).map (fun cut => (c :: cut.1, cut.2)) ++ [([], c :: s)]

theorem Text.mem_cuts {path before after : Text} :
    (before, after) ∈ cuts path ↔ before ++ after = path := by
  induction path generalizing before with
  | nil => simp [cuts]
  | cons c s ih =>
      cases before with
      | nil => simp [cuts, eq_comm]
      | cons d before =>
          simp only [cuts, List.mem_append, List.mem_map, List.mem_singleton, Prod.mk.injEq,
            List.cons_ne_nil, false_and, or_false, Prod.exists, List.cons_append, List.cons.injEq]
          constructor
          · rintro ⟨before', after', mem, ⟨rfl, rfl⟩, rfl⟩
            exact ⟨rfl, ih.1 mem⟩
          · rintro ⟨rfl, eq⟩
            exact ⟨before, after, ih.2 eq, ⟨rfl, rfl⟩, rfl⟩

/-- The first parts get shorter from cut to cut. -/
theorem Text.cuts_pairwise (path : Text) :
    (cuts path).Pairwise fun a b => b.1.length < a.1.length := by
  induction path with
  | nil => simp [cuts]
  | cons c s ih =>
      refine List.pairwise_append.2 ⟨?_, List.pairwise_singleton _ _, ?_⟩
      · refine List.pairwise_map.2 (ih.imp ?_)
        intro a b lt
        simpa using lt
      · intro a mem b last
        rcases List.mem_map.1 mem with ⟨cut, _, rfl⟩
        rw [List.mem_singleton.1 last]
        simp

theorem Branches.prefixes_eq (key : Text) (c : Char) (rest : Text) (b : Branches V) :
    (b.prefixes key c rest).reverse =
      (Text.cuts rest).filterMap fun cut =>
        (b.get? c cut.1).map fun v => (key.reverse ++ c :: cut.1, cut.2, v) := by
  induction b generalizing key c rest with
  | nil => simp [prefixes, get?]
  | cons d value down next ihDown ihNext =>
      by_cases same : c = d
      · subst same
        cases rest with
        | nil => cases value <;> simp [prefixes, get?, Text.cuts]
        | cons e after =>
            have below := ihDown (c :: key) e after
            simp only [prefixes, if_true, List.reverse_append, below, Text.cuts,
              List.filterMap_append, List.filterMap_map, get?]
            refine congrArg₂ (· ++ ·) ?_ ?_
            · refine congrFun (congrArg List.filterMap (funext fun cut => ?_)) _
              simp
            · cases value <;> simp
      · simp only [prefixes, if_neg same, get?]
        exact ihNext key c rest

/-- The search returns the values under all beginnings of the path, longest first. -/
theorem Trie.prefixes_eq (t : Trie V) (path : Text) :
    t.prefixes path =
      (Text.cuts path).filterMap fun cut => (t.get? cut.1).map fun v => (cut.1, cut.2, v) := by
  cases path with
  | nil =>
      cases hroot : t.root <;> simp [prefixes, Text.cuts, get?, hroot]
  | cons c rest =>
      simp only [prefixes, List.reverse_append, Branches.prefixes_eq, Text.cuts,
        List.filterMap_append, List.filterMap_map]
      refine congrArg₂ (· ++ ·) ?_ ?_
      · refine congrFun (congrArg List.filterMap (funext fun cut => ?_)) _
        simp [get?]
      · cases hroot : t.root <;> simp [get?, hroot]

/-! ## Entries -/

namespace Branches

variable {c : Char} {key : Text} {v : V}

/-- Entries below a key are those below no key, with the key in front. -/
theorem entries_eq_map (key : Text) (b : Branches V) :
    b.entries key = (b.entries []).map fun entry => (key.reverse ++ entry.1, entry.2) := by
  induction b generalizing key with
  | nil => rfl
  | cons d value down next ihDown ihNext =>
      rw [entries, entries, ihDown (d :: key), ihDown [d], ihNext key, ihNext []]
      cases value <;> simp

/-- Each entry stands under one of the branches. -/
theorem mem_entries {b : Branches V} (ordered : b.Ordered) :
    (key, v) ∈ b.entries [] ↔ ∃ c rest, key = c :: rest ∧ b.get? c rest = some v := by
  induction b generalizing key with
  | nil => simp [entries, get?]
  | cons d value down next ihDown ihNext =>
      rcases ordered with ⟨hDown, hNext, above⟩
      have below : (key, v) ∈ down.entries [d] ↔
          ∃ c rest, key = d :: c :: rest ∧ down.get? c rest = some v := by
        rw [entries_eq_map]
        constructor
        · intro mem
          rcases List.mem_map.1 mem with ⟨⟨inner, _⟩, listed, made⟩
          cases made
          rcases (ihDown hDown).1 listed with ⟨c, rest, rfl, found⟩
          exact ⟨c, rest, rfl, found⟩
        · rintro ⟨c, rest, rfl, found⟩
          exact List.mem_map.2 ⟨(c :: rest, v), (ihDown hDown).2 ⟨c, rest, rfl, found⟩, rfl⟩
      have here : (key, v) ∈ value.toList.map (fun v => ([d].reverse, v)) ↔
          key = [d] ∧ value = some v := by
        cases value <;> simp [and_comm, eq_comm]
      rw [entries, List.mem_append, List.mem_append, here, below, ihNext hNext]
      constructor
      · rintro ((⟨rfl, found⟩ | ⟨c, rest, rfl, found⟩) | ⟨c, rest, rfl, found⟩)
        · exact ⟨d, [], rfl, by simp [get?, found]⟩
        · exact ⟨d, c :: rest, rfl, by simp [get?, found]⟩
        · refine ⟨c, rest, rfl, ?_⟩
          have other : c ≠ d := by
            rintro rfl
            rw [get?_of_above above] at found
            cases found
          simp only [get?, if_neg other, found]
      · rintro ⟨c, rest, rfl, found⟩
        by_cases same : c = d
        · subst same
          cases rest with
          | nil => exact .inl (.inl ⟨rfl, by simpa [get?] using found⟩)
          | cons e rest => exact .inl (.inr ⟨e, rest, rfl, by simpa [get?] using found⟩)
        · exact .inr ⟨c, rest, rfl, by simpa only [get?, if_neg same] using found⟩

/-- Entries come in strictly ascending order of their keys. -/
theorem pairwise_entries {b : Branches V} (ordered : b.Ordered) :
    (b.entries []).Pairwise fun one other => one.1 < other.1 := by
  induction b with
  | nil => exact .nil
  | cons d value down next ihDown ihNext =>
      rcases ordered with ⟨hDown, hNext, above⟩
      have later {entry : Text × V} (mem : entry ∈ next.entries []) :
          ∃ c rest, entry.1 = c :: rest ∧ d < c := by
        rcases (mem_entries hNext).1 mem with ⟨c, rest, key, found⟩
        refine ⟨c, rest, key, not_le.1 fun le => ?_⟩
        rcases lt_or_eq_of_le le with less | same
        · rw [get?_of_above (above.trans less)] at found
          cases found
        · rw [get?_of_above (same ▸ above)] at found
          cases found
      have lower {entry : Text × V} (mem : entry ∈ down.entries [d]) :
          ∃ c rest, entry.1 = d :: c :: rest := by
        rw [entries_eq_map] at mem
        rcases List.mem_map.1 mem with ⟨⟨inner, v⟩, listed, rfl⟩
        rcases (mem_entries hDown).1 listed with ⟨c, rest, rfl, -⟩
        exact ⟨c, rest, rfl⟩
      have first {entry : Text × V} (mem : entry ∈ value.toList.map fun v => ([d].reverse, v)) :
          entry.1 = [d] := by
        rcases List.mem_map.1 mem with ⟨v, -, rfl⟩
        rfl
      rw [entries]
      refine List.pairwise_append.2 ⟨List.pairwise_append.2 ⟨?_, ?_, ?_⟩, ihNext hNext, ?_⟩
      · cases value <;> simp
      · rw [entries_eq_map]
        exact List.pairwise_map.2 ((ihDown hDown).imp fun less => by simpa using less)
      · intro one head other tail
        rcases lower tail with ⟨c, rest, key⟩
        rw [first head, key]
        exact List.cons_lt_cons_iff.2 (.inr ⟨rfl, List.nil_lt_cons c rest⟩)
      · intro one head other tail
        rcases later tail with ⟨c, rest, key, less⟩
        have starts : ∃ rest, one.1 = d :: rest := by
          rcases List.mem_append.1 head with mem | mem
          · exact ⟨[], first mem⟩
          · rcases lower mem with ⟨c, rest, key⟩
            exact ⟨c :: rest, key⟩
        rcases starts with ⟨rest', key'⟩
        rw [key, key']
        exact List.cons_lt_cons_iff.2 (.inl less)

theorem length_entries (key : Text) (b : Branches V) : (b.entries key).length = b.size := by
  induction b generalizing key with
  | nil => rfl
  | cons d value down next ihDown ihNext =>
      rw [entries, List.length_append, List.length_append, ihDown, ihNext, size]
      cases value <;> rfl

theorem size_stem (v : V) (key : Text) :
    (if (stem v key).1.isSome then 1 else 0) + (stem v key).2.size = 1 := by
  induction key with
  | nil => rfl
  | cons c key ih => simpa [stem, size] using ih

/-- An update adds a key where nothing has been found under it. -/
theorem size_update (f : Option V → V) (c : Char) (key : Text) {b : Branches V} (ordered : b.Ordered) :
    (b.update f c key).size = b.size + if (b.get? c key).isSome then 0 else 1 := by
  induction b generalizing c key with
  | nil =>
      have new := size_stem (f none) key
      simpa [update, size, get?] using new
  | cons d value down next ihDown ihNext =>
      rcases ordered with ⟨hDown, hNext, above⟩
      by_cases same : c = d
      · cases key with
        | nil =>
            cases value <;>
              simp [update, size, get?, same, Nat.add_comm, Nat.add_assoc]
        | cons e key =>
            simp only [update, get?, if_pos same, size, ihDown e key hDown]
            omega
      by_cases before : c < d
      · have absent : (cons d value down next).get? c key = none :=
          get?_of_above ⟨before, above.trans before⟩
        have new := size_stem (f none) key
        simp only [update, if_neg same, if_pos before, absent, size] at new ⊢
        simp only [Option.isSome_none, Bool.false_eq_true, if_false]
        omega
      · simp only [update, get?, if_neg same, if_neg before, size, ihNext c key hNext]
        omega

end Branches

namespace Trie

variable {t : Trie V} {key : Text} {v : V}

theorem mem_entries (ordered : t.Ordered) : (key, v) ∈ t.entries ↔ t.get? key = some v := by
  have root : (key, v) ∈ t.root.toList.map (fun v => (([] : Text), v)) ↔ key = [] ∧ t.root = some v := by
    cases t.root <;> simp [and_comm, eq_comm]
  rw [entries, List.mem_append, root, Branches.mem_entries ordered]
  cases key with
  | nil => simp [get?]
  | cons c rest =>
      constructor
      · rintro (⟨empty, -⟩ | ⟨d, other, key, found⟩)
        · cases empty
        · cases key
          exact found
      · exact fun found => .inr ⟨c, rest, rfl, found⟩

theorem pairwise_entries (ordered : t.Ordered) :
    t.entries.Pairwise fun one other => one.1 < other.1 := by
  refine List.pairwise_append.2 ⟨?_, Branches.pairwise_entries ordered, fun one head other tail => ?_⟩
  · cases t.root <;> simp
  · rcases List.mem_map.1 head with ⟨v, -, rfl⟩
    rcases (Branches.mem_entries ordered).1 tail with ⟨c, rest, key, -⟩
    rw [key]
    exact List.nil_lt_cons c rest

/-- Every key is counted. -/
theorem length_entries (t : Trie V) : t.entries.length = t.size := by
  rw [entries, List.length_append, Branches.length_entries, size]
  cases t.root <;> rfl

/-- An update adds a key where nothing has been found under it. -/
theorem size_update (f : Option V → V) (key : Text) (ordered : t.Ordered) :
    (t.update f key).size = t.size + if (t.get? key).isSome then 0 else 1 := by
  cases key with
  | nil => cases root : t.root <;> simp [update, size, get?, root, Nat.add_comm]
  | cons c key =>
      have below := Branches.size_update f c key ordered
      rw [update, size, size, below, Nat.add_assoc]
      rfl

end Trie
end PathRouter
