import PathRouter.Failure.Negotiation
import PathRouter.Proofs.Text

/-!
# Preference — the earliest of the items that a client likes best

An `Accept` header is a list of items, each a media type with a quality.  This file defines

* `Offer.itemFormat?` and `Offer.itemQuality`, how an item is read, and `Offer.Counts`, that its type is
  known and its quality above zero;
* `Offer.Preferred`, the format of the earliest of the items of highest quality;
* `Offer.Blocked`, that an item whose quality is not a number comes first;

and shows `negotiate_preferred`: the format of an error body is the preferred one, unless an item without
an order comes first, which no later item can beat.
-/

namespace PathRouter

/-! ## The order of qualities -/

namespace Single

variable {a b c : Single}

@[simp] theorem nan_lt (a : Single) : nan.lt a = false := rfl

@[simp] theorem lt_nan (a : Single) : a.lt nan = false := by
  cases a <;> rfl

theorem lt_irrefl (a : Single) : a.lt a = false := by
  cases a <;> simp [lt]

theorem ne_nan_of_lt : a.lt b = true → b ≠ nan := by
  rintro less rfl
  simp at less

theorem lt_trans : a.lt b = true → b.lt c = true → a.lt c = true := by
  cases a <;> cases b <;> cases c <;> simp [lt] <;> grind

/-- Of two numbers one is less, or they are the same. -/
theorem lt_trichotomy (proper : a ≠ nan) (proper' : b ≠ nan) :
    a.lt b = true ∨ a = b ∨ b.lt a = true := by
  cases a with
  | nan => exact absurd rfl proper
  | infinite s =>
      cases b with
      | nan => exact absurd rfl proper'
      | infinite s' => cases s <;> cases s' <;> simp [lt]
      | finite n => cases s <;> simp [lt]
  | finite m =>
      cases b with
      | nan => exact absurd rfl proper'
      | infinite s' => cases s' <;> simp [lt]
      | finite n =>
          simp only [lt, decide_eq_true_eq, finite.injEq]
          omega

/-- What beats a number beats all that do not beat it. -/
theorem lt_of_not_lt (proper : b ≠ nan) (least : ¬ a.lt b = true) :
    a.lt c = true → b.lt c = true := by
  intro less
  have number : a ≠ nan := by
    rintro rfl
    simp at less
  rcases lt_trichotomy proper number with below | rfl | above
  · exact lt_trans below less
  · exact less
  · exact absurd above least

/-- A quality that is neither zero nor below is above zero, or no number. -/
theorem above_zero_iff : ¬ (a = zero ∨ a.lt zero = true) ↔ a = nan ∨ zero.lt a = true := by
  by_cases number : a = nan
  · subst number
    simp [zero]
  · have proper : zero ≠ nan := by simp [zero]
    constructor
    · intro kept
      rw [not_or] at kept
      rcases lt_trichotomy number proper with below | same | above
      · exact absurd below kept.2
      · exact absurd same kept.1
      · exact .inr above
    · rintro (same | above) (rfl | below)
      · exact number same
      · exact number same
      · simp [lt_irrefl] at above
      · have loop := lt_trans above below
        simp [lt_irrefl] at loop

end Single

namespace Offer

variable {default : BodyFormat} {items : List Text} {item : Text} {format : BodyFormat}

/-! ## Reading an item -/

/-- The format that the type of an item stands for. -/
def itemFormat? (default : BodyFormat) (item : Text) : Option BodyFormat :=
  formatOf? default (Text.trim ((Text.splitOn ';' item).headD []))

/-- The quality of an item: the first that one of its parameters gives in readable form, or one. -/
def itemQuality (item : Text) : Single :=
  ((Text.splitOn ';' item).tail.findSome? qualityOf?).getD .one

/-- Whether an item is of a known type and wanted. -/
def Counts (default : BodyFormat) (item : Text) : Prop :=
  (itemFormat? default item).isSome = true ∧ Single.zero.lt (itemQuality item) = true

/-- Whether an item is of an unknown type or refused. -/
def Ignored (default : BodyFormat) (item : Text) : Prop :=
  itemFormat? default item = none ∨ itemQuality item = .zero ∨
    (itemQuality item).lt .zero = true

theorem parse?_eq (default : BodyFormat) (item : Text) :
    parse? default item =
      if itemQuality item = .zero ∨ (itemQuality item).lt .zero = true then none
      else (itemFormat? default item).map (⟨·, itemQuality item⟩) := by
  rcases List.exists_cons_of_ne_nil (Text.splitOn_ne_nil ';' item) with ⟨media, params, split⟩
  simp [parse?, itemFormat?, itemQuality, split]

theorem parse?_eq_none : parse? default item = none ↔ Ignored default item := by
  rw [parse?_eq, Ignored]
  split
  next refused => simp [refused]
  next kept => simp [kept]

/-- What an item offers is what is read there, and its quality is above zero or no number. -/
theorem parse?_eq_some {o : Offer} :
    parse? default item = some o ↔
      itemFormat? default item = some o.format ∧ itemQuality item = o.quality ∧
        (o.quality = .nan ∨ Single.zero.lt o.quality = true) := by
  rw [← Single.above_zero_iff, parse?_eq]
  split
  next refused =>
    constructor
    · intro none
      cases none
    · rintro ⟨-, same, kept⟩
      exact absurd (same ▸ refused) kept
  next kept =>
    rw [Option.map_eq_some_iff]
    constructor
    · rintro ⟨format, known, rfl⟩
      exact ⟨known, rfl, kept⟩
    · rintro ⟨known, same, -⟩
      exact ⟨o.format, known, by rw [same]⟩

theorem parse?_of_counts (counts : Counts default item) :
    ∃ o, parse? default item = some o ∧ o.quality = itemQuality item := by
  rcases Option.isSome_iff_exists.1 counts.1 with ⟨format, known⟩
  exact ⟨⟨format, itemQuality item⟩, parse?_eq_some.2 ⟨known, rfl, .inr counts.2⟩, rfl⟩

/-! ## The best of some offers -/

/-- An offer that beats all before it, those without an order apart, and that none after it beats. -/
def Leads (offers : List Offer) (best : Offer) : Prop :=
  ∃ before after, offers = before ++ best :: after ∧ best.quality ≠ .nan ∧
    (∀ o ∈ before, o.quality ≠ .nan → o.quality.lt best.quality = true) ∧
    ∀ o ∈ after, ¬ best.quality.lt o.quality = true

/-- Nothing is better than an offer without an order. -/
theorem foldl_better_of_nan {b : Offer} (unordered : b.quality = .nan) (offers : List Offer) :
    offers.foldl better (some b) = some b := by
  induction offers with
  | nil => rfl
  | cons o offers ih =>
      have kept : better (some b) o = some b := by simp [better, unordered]
      rw [List.foldl_cons, kept, ih]

/-- One offer more: it leads if it beats the one that has led so far. -/
theorem Leads.concat {offers : List Offer} {best : Offer} (leads : Leads offers best) (o : Offer) :
    ∃ next, better (some best) o = some next ∧ Leads (offers ++ [o]) next := by
  rcases leads with ⟨before, after, rfl, proper, ahead, behind⟩
  by_cases beaten : best.quality.lt o.quality = true
  · refine ⟨o, by simp [better, beaten], before ++ best :: after, [], rfl,
      Single.ne_nan_of_lt beaten, fun x mem number => ?_, by simp⟩
    rcases List.mem_append.1 mem with early | late
    · exact Single.lt_trans (ahead x early number) beaten
    rcases List.mem_cons.1 late with rfl | late
    · exact beaten
    · exact Single.lt_of_not_lt number (behind x late) beaten
  · refine ⟨best, by simp [better, beaten], before, after ++ [o], by simp, proper, ahead, ?_⟩
    intro x mem
    rcases List.mem_append.1 mem with late | last
    · exact behind x late
    · rwa [List.mem_singleton.1 last]

/-- The best of some offers, the first of which has an order, leads them. -/
theorem exists_leads {b : Offer} (proper : b.quality ≠ .nan) (offers : List Offer) :
    ∃ best, offers.foldl better (some b) = some best ∧ Leads (b :: offers) best := by
  induction offers using List.reverseRecOn with
  | nil => exact ⟨b, rfl, [], [], rfl, proper, by simp, by simp⟩
  | append_singleton offers o ih =>
      rcases ih with ⟨best, won, leads⟩
      rcases leads.concat o with ⟨next, better, leads⟩
      exact ⟨next, by rw [List.foldl_append, won]; exact better, leads⟩

/-! ## Items -/

/-- The format that a client prefers: that of the earliest of the items of highest quality, if any item
counts. -/
inductive Preferred (default : BodyFormat) (items : List Text) : BodyFormat → Prop
  | earliest {before after : List Text} {item : Text} {format : BodyFormat} :
      items = before ++ item :: after → itemFormat? default item = some format →
        Counts default item →
        (∀ x ∈ before, Counts default x → (itemQuality x).lt (itemQuality item) = true) →
        (∀ x ∈ after, Counts default x → ¬ (itemQuality item).lt (itemQuality x) = true) →
          Preferred default items format
  | none : (∀ item ∈ items, ¬ Counts default item) → Preferred default items default

/-- The first item that is not ignored asks for the format with a quality that is no number. -/
def Blocked (default : BodyFormat) (items : List Text) (format : BodyFormat) : Prop :=
  ∃ before item after, items = before ++ item :: after ∧ (∀ x ∈ before, Ignored default x) ∧
    itemFormat? default item = some format ∧ itemQuality item = .nan

theorem blocked_iff : Blocked default items format ↔
    ∃ rest, items.filterMap (parse? default) = ⟨format, .nan⟩ :: rest := by
  constructor
  · rintro ⟨before, item, after, rfl, ignored, known, unordered⟩
    have read : parse? default item = some ⟨format, .nan⟩ :=
      parse?_eq_some.2 ⟨known, unordered, .inl rfl⟩
    refine ⟨after.filterMap (parse? default), ?_⟩
    rw [List.filterMap_append, List.filterMap_cons_some read,
      List.filterMap_eq_nil_iff.2 fun x mem => parse?_eq_none.2 (ignored x mem), List.nil_append]
  · rintro ⟨rest, first⟩
    rcases List.filterMap_eq_cons_iff.1 first with ⟨before, item, after, split, ignored, read, -⟩
    rcases parse?_eq_some.1 read with ⟨known, unordered, -⟩
    exact ⟨before, item, after, split, fun x mem => parse?_eq_none.1 (ignored x mem), known,
      unordered⟩

/-- Two members of a list are one, or one of them stands before the other. -/
theorem same_or_before {α : Type} {before after before' after' : List α} {x y : α}
    (same : before ++ x :: after = before' ++ y :: after') :
    x = y ∨ (x ∈ before' ∧ y ∈ after) ∨ (y ∈ before ∧ x ∈ after') := by
  rcases List.append_eq_append_iff.1 same with ⟨more, longer, rest⟩ | ⟨more, longer, rest⟩
  · cases more with
    | nil => exact .inl (List.cons.inj rest).1
    | cons z more =>
        rcases List.cons.inj rest with ⟨rfl, tail⟩
        exact .inr (.inl ⟨by simp [longer], by simp [tail]⟩)
  · cases more with
    | nil => exact .inl (List.cons.inj rest).1.symm
    | cons z more =>
        rcases List.cons.inj rest with ⟨rfl, tail⟩
        exact .inr (.inr ⟨by simp [longer], by simp [tail]⟩)

/-- Only one format is preferred. -/
theorem Preferred.unique {other : BodyFormat} (one : Preferred default items format)
    (two : Preferred default items other) : format = other := by
  cases one with
  | none empty =>
      cases two with
      | none _ => rfl
      | earliest split _ counts _ _ => exact absurd counts (empty _ (by simp [split]))
  | earliest split known counts ahead behind =>
      cases two with
      | none empty => exact absurd counts (empty _ (by simp [split]))
      | earliest split' known' counts' ahead' behind' =>
          -- if one stands before the other, the later one beats it and is not better
          rcases same_or_before (split.symm.trans split') with
            same | ⟨early, late⟩ | ⟨early, late⟩
          · exact Option.some.inj (known.symm.trans (same ▸ known'))
          · exact absurd (ahead' _ early counts) (behind _ late counts')
          · exact absurd (ahead _ early counts') (behind' _ late counts)

/-- What leads the offers of a list is the preferred item of the list. -/
theorem preferred_of_leads {best : Offer} :
    Leads (items.filterMap (parse? default)) best → Preferred default items best.format := by
  rintro ⟨before, after, split, proper, ahead, behind⟩
  rcases List.filterMap_eq_append_iff.1 split with ⟨first, rest, rfl, rfl, cut⟩
  rcases List.filterMap_eq_cons_iff.1 cut with ⟨ignored, item, last, rfl, unread, read, rfl⟩
  rcases parse?_eq_some.1 read with ⟨known, quality, kept⟩
  have counts : Counts default item := by
    refine ⟨by simp [known], ?_⟩
    rw [quality]
    exact kept.resolve_left proper
  have offered {x : Text} {l : List Text} (mem : x ∈ l) (counts : Counts default x) :
      ∃ o ∈ l.filterMap (parse? default), o.quality = itemQuality x := by
    rcases parse?_of_counts counts with ⟨o, read, same⟩
    exact ⟨o, List.mem_filterMap.2 ⟨x, mem, read⟩, same⟩
  have parts : first ++ (ignored ++ item :: last) = (first ++ ignored) ++ item :: last :=
    (List.append_assoc _ _ _).symm
  refine .earliest parts known counts ?_ ?_
  · intro x mem counts
    rcases List.mem_append.1 mem with mem | mem
    · rcases offered mem counts with ⟨o, mem, same⟩
      rw [← same, quality]
      exact ahead o mem (same ▸ Single.ne_nan_of_lt counts.2)
    · rcases parse?_of_counts counts with ⟨o, read, -⟩
      rw [unread x mem] at read
      cases read
  · intro x mem counts
    rcases offered mem counts with ⟨o, mem, same⟩
    rw [← same, quality]
    exact behind o mem

/-- Where the qualities of the items that count differ, the order of the items is of no account. -/
theorem Preferred.perm {others : List Text} (same : items.Perm others)
    (differ : items.Pairwise fun x y =>
      Counts default x → Counts default y → itemQuality x ≠ itemQuality y) :
    Preferred default items format → Preferred default others format := by
  intro preferred
  cases preferred with
  | none empty => exact .none fun item mem => empty item (same.mem_iff.2 mem)
  | @earliest before after item _ split known counts ahead behind =>
      subst split
      rcases List.append_of_mem (same.mem_iff.1 (by simp : item ∈ before ++ item :: after)) with
        ⟨before', after', rfl⟩
      have rest : (before ++ after).Perm (before' ++ after') :=
        (List.perm_middle.symm.trans (same.trans List.perm_middle)).cons_inv
      -- all others that count are less, wherever they stand
      have less : ∀ x ∈ before' ++ after', Counts default x →
          (itemQuality x).lt (itemQuality item) = true := by
        intro x mem wanted
        rcases List.mem_append.1 (rest.mem_iff.2 mem) with early | late
        · exact ahead x early wanted
        · have apart : itemQuality item ≠ itemQuality x :=
            List.rel_of_pairwise_cons (List.pairwise_append.1 differ).2.1 late counts wanted
          rcases Single.lt_trichotomy (Single.ne_nan_of_lt wanted.2) (Single.ne_nan_of_lt counts.2)
            with less | same | more
          · exact less
          · exact absurd same.symm apart
          · exact absurd more (behind x late wanted)
      refine .earliest rfl known counts (fun x mem => less x (List.mem_append_left _ mem)) ?_
      intro x mem wanted more
      have loop := Single.lt_trans more (less x (List.mem_append_right _ mem) wanted)
      simp [Single.lt_irrefl] at loop

end Offer

/-! ## Headers -/

open Offer

variable {default : BodyFormat} {accept : Text} {format : BodyFormat}

theorem negotiate_eq (default : BodyFormat) (accept : Text) :
    negotiate (some accept) default =
      (((offers default accept).foldl better none).map Offer.format).getD default :=
  rfl

theorem negotiate_of_blocked (blocked : Blocked default (Text.splitOn ',' accept) format) :
    negotiate (some accept) default = format := by
  rcases blocked_iff.1 blocked with ⟨rest, first⟩
  rw [negotiate_eq, offers, first, List.foldl_cons, better, foldl_better_of_nan rfl]
  rfl

theorem preferred_of_not_blocked
    (unblocked : ∀ format, ¬ Blocked default (Text.splitOn ',' accept) format) :
    Preferred default (Text.splitOn ',' accept) (negotiate (some accept) default) := by
  rw [negotiate_eq]
  cases all : offers default accept with
  | nil =>
      refine .none fun item mem counts => ?_
      rcases parse?_of_counts counts with ⟨o, read, -⟩
      rw [List.filterMap_eq_nil_iff.1 all item mem] at read
      cases read
  | cons first rest =>
      have proper : first.quality ≠ .nan := by
        intro unordered
        refine unblocked first.format (blocked_iff.2 ⟨rest, ?_⟩)
        rw [← unordered]
        exact all
      rcases exists_leads proper rest with ⟨best, won, leads⟩
      rw [List.foldl_cons, better, won]
      rw [← all] at leads
      exact preferred_of_leads leads

/-- An item that is ignored may stand anywhere in a header. -/
theorem offers_insert {before after : List Text} {added : Text}
    (split : Text.splitOn ',' accept = before ++ after) (single : ',' ∉ added)
    (ignored : Ignored default added) :
    offers default (Text.join [','] (before ++ added :: after)) = offers default accept := by
  have pieces : Text.splitOn ',' (Text.join [','] (before ++ added :: after)) =
      before ++ added :: after := by
    refine Text.splitOn_join (by simp) fun piece mem => ?_
    rcases List.mem_append.1 mem with mem | mem
    · exact Text.not_mem_of_mem_splitOn (split ▸ List.mem_append_left _ mem)
    rcases List.mem_cons.1 mem with rfl | mem
    · exact single
    · exact Text.not_mem_of_mem_splitOn (split ▸ List.mem_append_right _ mem)
  rw [offers, offers, pieces, split, List.filterMap_append, List.filterMap_append,
    List.filterMap_cons_none (parse?_eq_none.2 ignored)]

/-- Unless an item without an order comes first, the answer to a header is the format of the earliest of
the items of highest quality, and so the order of items whose qualities differ is of no account; if one
comes first, the answer is its format.  Items that are ignored change nothing. -/
theorem negotiate_preferred (default : BodyFormat) (accept : Text) :
    (∀ format, Blocked default (Text.splitOn ',' accept) format →
      negotiate (some accept) default = format) ∧
    ((∀ format, ¬ Blocked default (Text.splitOn ',' accept) format) →
      (∀ format, negotiate (some accept) default = format ↔
        Preferred default (Text.splitOn ',' accept) format) ∧
      ∀ other, (Text.splitOn ',' accept).Perm (Text.splitOn ',' other) →
        (∀ format, ¬ Blocked default (Text.splitOn ',' other) format) →
        ((Text.splitOn ',' accept).Pairwise fun x y =>
          Counts default x → Counts default y → itemQuality x ≠ itemQuality y) →
          negotiate (some other) default = negotiate (some accept) default) ∧
    ∀ before after added, Text.splitOn ',' accept = before ++ after → ',' ∉ added →
      Ignored default added →
      negotiate (some (Text.join [','] (before ++ added :: after))) default =
        negotiate (some accept) default := by
  refine ⟨fun format => negotiate_of_blocked, fun unblocked => ?_, ?_⟩
  · have preferred := preferred_of_not_blocked unblocked
    refine ⟨fun format => ⟨fun answer => answer ▸ preferred, preferred.unique⟩, ?_⟩
    intro other same unblocked' differ
    exact (preferred_of_not_blocked unblocked').unique (preferred.perm same differ)
  · intro before after added split single ignored
    rw [negotiate_eq, negotiate_eq, offers_insert split single ignored]

/-- The second of two items is wanted more. -/
theorem negotiate_preferred_later :
    let accept := "text/plain;q=0.5, application/json;q=0.9".toList
    (∀ format, ¬ Blocked .text (Text.splitOn ',' accept) format) ∧
      negotiate (some accept) .text = .json ∧
      Preferred .text (Text.splitOn ',' accept) .json := by
  intro accept
  have answer : negotiate (some accept) .text = .json := by decide +kernel
  have numbers : ∀ item ∈ Text.splitOn ',' accept, itemQuality item ≠ .nan := by decide +kernel
  have unblocked : ∀ format, ¬ Blocked .text (Text.splitOn ',' accept) format := by
    rintro format ⟨before, item, after, split, -, -, unordered⟩
    exact numbers item (by simp [split]) unordered
  exact ⟨unblocked, answer, (((negotiate_preferred .text accept).2.1 unblocked).1 .json).1 answer⟩

/-- A quality that is no number wins if it comes first, and only then; the other item is preferred. -/
theorem negotiate_not_a_number :
    let first := "application/json;q=nan, text/plain".toList
    let last := "text/plain, application/json;q=nan".toList
    negotiate (some first) .text = .json ∧ Preferred .text (Text.splitOn ',' first) .text ∧
      negotiate (some last) .text = .text := by
  intro first last
  have split : Text.splitOn ',' first =
      ["application/json;q=nan".toList] ++ " text/plain".toList :: [] := by decide +kernel
  have known : itemFormat? .text " text/plain".toList = some .text := by decide +kernel
  have wanted : Single.zero.lt (itemQuality " text/plain".toList) = true := by decide +kernel
  have unordered : itemQuality "application/json;q=nan".toList = .nan := by decide +kernel
  refine ⟨by decide +kernel, .earliest split known ⟨Option.isSome_iff_exists.2 ⟨_, known⟩, wanted⟩ ?_
    (by simp),
    by decide +kernel⟩
  intro x mem counts
  rw [List.mem_singleton.1 mem] at counts
  exact absurd unordered (Single.ne_nan_of_lt counts.2)

end PathRouter
