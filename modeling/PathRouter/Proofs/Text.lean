import PathRouter.Pattern.Basic
import PathRouter.Routing.Context
import PathRouter.Text.Blank
import Mathlib.Data.List.Basic
import Mathlib.Data.List.Infix
import Mathlib.Data.List.TakeWhile

/-!
# Text — cuts as equations between a text and its parts

* beginnings and endings that are known: `Text.isPrefixOf?_eq_some`, `Text.isSuffixOf?_eq_some`;
* the first place of a phrase: `Text.append_of_breakOn`, `Text.breakOn_append_of_not_mem`, and
  `Text.contains_iff`, that a text contains a phrase;
* the first separator: `Text.breakAt_append`, `Text.breakAt_of_not_mem`;
* all separators: `Text.join_splitOn` and `Text.splitOn_join`, which say that splitting and joining
  undo each other;
* white space: `Text.trim_append`, that trimming finds what stands between blanks;
* offsets in bytes: `Text.isValid_of_append`;
* the bytes of a text in UTF-8: `Text.bytes_lt_bytes`, that they are in the order of the characters, and
  `Text.bytes_prefix_bytes`, that they begin as the characters do.
-/

namespace PathRouter

/-- A list is cut where a property fails for the first time. -/
theorem takeWhile_dropWhile_iff {α : Type} {p : α → Bool} {l before rest : List α} :
    l.takeWhile p = before ∧ l.dropWhile p = rest ↔
      l = before ++ rest ∧ (∀ x ∈ before, p x = true) ∧ ∀ x ∈ rest.head?, p x = false := by
  constructor
  · rintro ⟨rfl, rfl⟩
    refine ⟨List.takeWhile_append_dropWhile.symm, fun x => List.mem_takeWhile_imp, fun x first => ?_⟩
    have stop := List.head?_dropWhile_not p l
    rwa [Option.mem_def.1 first] at stop
  · rintro ⟨rfl, all, stop⟩
    have none : rest.takeWhile p = [] ∧ rest.dropWhile p = rest := by
      cases rest with
      | nil => exact ⟨rfl, rfl⟩
      | cons x rest => simp [stop x rfl]
    rw [List.takeWhile_append_of_pos all, List.dropWhile_append_of_pos all, none.1, none.2,
      List.append_nil]
    exact ⟨rfl, rfl⟩

namespace Text

theorem isPrefixOf?_eq_some {start s rest : Text} :
    start.isPrefixOf? s = some rest ↔ s = start ++ rest := by
  induction start generalizing s with
  | nil => simp [List.isPrefixOf?]
  | cons c start ih =>
      cases s with
      | nil => simp [List.isPrefixOf?]
      | cons d s =>
          by_cases same : c = d
          · subst same
            simp [List.isPrefixOf?, ih]
          · simp [List.isPrefixOf?, same, Ne.symm same]

theorem isSuffixOf?_eq_some {ending s before : Text} :
    ending.isSuffixOf? s = some before ↔ s = before ++ ending := by
  rw [List.isSuffixOf?, Option.map_eq_some_iff]
  constructor
  · rintro ⟨reversed, found, rfl⟩
    have eq := congrArg List.reverse (isPrefixOf?_eq_some.1 found)
    simpa using eq
  · rintro rfl
    refine ⟨before.reverse, isPrefixOf?_eq_some.2 ?_, List.reverse_reverse before⟩
    simp

theorem isSuffixOf?_append (before ending : Text) :
    ending.isSuffixOf? (before ++ ending) = some before :=
  isSuffixOf?_eq_some.2 rfl

theorem isSuffixOf?_eq_none {ending s : Text} :
    ending.isSuffixOf? s = none ↔ ∀ before, s ≠ before ++ ending := by
  rw [Option.eq_none_iff_forall_ne_some]
  exact forall_congr' fun before => not_congr isSuffixOf?_eq_some

/-- The parts around a phrase make up the text. -/
theorem append_of_breakOn {phrase s before rest : Text} :
    breakOn phrase s = some (before, rest) → before ++ phrase ++ rest = s := by
  induction s generalizing before with
  | nil =>
      intro found
      by_cases empty : phrase = []
      · simp_all [breakOn]
      · simp [breakOn, empty] at found
  | cons c s ih =>
      intro found
      cases here : phrase.isPrefixOf? (c :: s) with
      | some after =>
          have cut : [] = before ∧ after = rest := by simpa [breakOn, here] using found
          rcases cut with ⟨rfl, rfl⟩
          simpa using (isPrefixOf?_eq_some.1 here).symm
      | none =>
          have later : ∃ tail, breakOn phrase s = some (tail, rest) ∧ c :: tail = before := by
            simpa [breakOn, here] using found
          rcases later with ⟨tail, behind, rfl⟩
          simpa using ih behind

theorem breakOn_append (phrase rest : Text) : breakOn phrase (phrase ++ rest) = some ([], rest) := by
  cases whole : phrase ++ rest with
  | nil =>
      rcases List.append_eq_nil_iff.1 whole with ⟨rfl, rfl⟩
      rfl
  | cons c s =>
      have found : phrase.isPrefixOf? (c :: s) = some rest := isPrefixOf?_eq_some.2 whole.symm
      rw [breakOn, found]

/-- A phrase is found where its first character stands for the first time. -/
theorem breakOn_append_of_not_mem {c : Char} {before : Text} (phrase rest : Text) :
    c ∉ before →
      breakOn (c :: phrase) (before ++ (c :: phrase) ++ rest) = some (before, rest) := by
  intro absent
  induction before with
  | nil => exact breakOn_append (c :: phrase) rest
  | cons d before ih =>
      rw [List.mem_cons, not_or] at absent
      have later : (c :: phrase).isPrefixOf? (d :: (before ++ (c :: phrase) ++ rest)) = none := by
        simp [List.isPrefixOf?, absent.1]
      simp only [List.cons_append] at ih later ⊢
      rw [breakOn, later]
      simp only [ih absent.2, Option.map_some]

theorem contains_iff {phrase s : Text} : contains phrase s = true ↔ phrase <:+: s := by
  rw [contains, Option.isSome_iff_exists]
  constructor
  · rintro ⟨⟨before, rest⟩, found⟩
    exact ⟨before, rest, append_of_breakOn found⟩
  · intro inside
    induction s with
    | nil =>
        rw [List.eq_nil_of_infix_nil inside]
        exact ⟨_, rfl⟩
    | cons c s ih =>
        rw [breakOn]
        cases here : phrase.isPrefixOf? (c :: s) with
        | some after => exact ⟨_, rfl⟩
        | none =>
            rcases List.infix_cons_iff.1 inside with ⟨after, parts⟩ | later
            · rw [isPrefixOf?_eq_some.2 parts.symm] at here
              cases here
            · rcases ih later with ⟨cut, found⟩
              exact ⟨_, by rw [found]; rfl⟩

/-! ## Separators -/

theorem breakAt_of_not_mem {sep : Char} {s : Text} : sep ∉ s → breakAt sep s = (s, none) := by
  intro absent
  induction s with
  | nil => rfl
  | cons c s ih =>
      rw [List.mem_cons, not_or] at absent
      simp [breakAt, Ne.symm absent.1, ih absent.2]

theorem breakAt_append {sep : Char} {before : Text} (after : Text) :
    sep ∉ before → breakAt sep (before ++ sep :: after) = (before, some after) := by
  intro absent
  induction before with
  | nil => simp [breakAt]
  | cons c before ih =>
      rw [List.mem_cons, not_or] at absent
      simp [breakAt, Ne.symm absent.1, ih absent.2]

theorem splitOn_ne_nil (sep : Char) (s : Text) : splitOn sep s ≠ [] := by
  cases s with
  | nil => simp [splitOn]
  | cons c s =>
      rw [splitOn]
      split
      · exact List.cons_ne_nil _ _
      · split <;> exact List.cons_ne_nil _ _

theorem splitOn_cons_of_ne {sep c : Char} (differs : c ≠ sep) {s piece : Text}
    {pieces : List Text} (split : splitOn sep s = piece :: pieces) :
    splitOn sep (c :: s) = (c :: piece) :: pieces := by
  rw [splitOn, if_neg differs, split]

theorem splitOn_of_not_mem {sep : Char} {s : Text} : sep ∉ s → splitOn sep s = [s] := by
  intro absent
  induction s with
  | nil => rfl
  | cons c s ih =>
      rw [List.mem_cons, not_or] at absent
      exact splitOn_cons_of_ne (Ne.symm absent.1) (ih absent.2)

theorem splitOn_append {sep : Char} {piece : Text} (s : Text) :
    sep ∉ piece → splitOn sep (piece ++ sep :: s) = piece :: splitOn sep s := by
  intro absent
  induction piece with
  | nil => simp [splitOn]
  | cons c piece ih =>
      rw [List.mem_cons, not_or] at absent
      exact splitOn_cons_of_ne (Ne.symm absent.1) (ih absent.2)

theorem join_cons_of_ne_nil (sep piece : Text) {pieces : List Text} (more : pieces ≠ []) :
    join sep (piece :: pieces) = piece ++ sep ++ join sep pieces := by
  cases pieces with
  | nil => exact absurd rfl more
  | cons => rfl

theorem mem_join {sep c : Char} {pieces : List Text} :
    c ∈ join [sep] pieces → c = sep ∨ ∃ piece ∈ pieces, c ∈ piece := by
  intro mem
  induction pieces with
  | nil => cases mem
  | cons piece pieces ih =>
      cases pieces with
      | nil => exact .inr ⟨piece, List.mem_cons_self, mem⟩
      | cons next pieces =>
          rw [join_cons_of_ne_nil _ _ (List.cons_ne_nil _ _), List.append_assoc, List.mem_append,
            List.singleton_append, List.mem_cons] at mem
          rcases mem with mem | rfl | mem
          · exact .inr ⟨piece, List.mem_cons_self, mem⟩
          · exact .inl rfl
          · rcases ih mem with same | ⟨other, listed, mem⟩
            · exact .inl same
            · exact .inr ⟨other, List.mem_cons_of_mem _ listed, mem⟩

theorem mem_join_of_mem {sep c : Char} {piece : Text} {pieces : List Text} (listed : piece ∈ pieces) :
    c ∈ piece → c ∈ join [sep] pieces := by
  intro mem
  induction pieces with
  | nil => cases listed
  | cons first pieces ih =>
      cases pieces with
      | nil =>
          rw [List.mem_singleton.1 listed] at mem
          exact mem
      | cons next pieces =>
          rw [join_cons_of_ne_nil _ _ (List.cons_ne_nil _ _), List.append_assoc, List.mem_append,
            List.mem_append]
          rcases List.mem_cons.1 listed with rfl | listed
          · exact .inl mem
          · exact .inr (.inr (ih listed))

/-- Joining undoes splitting. -/
theorem join_splitOn (sep : Char) (s : Text) : join [sep] (splitOn sep s) = s := by
  induction s with
  | nil => rfl
  | cons c s ih =>
      by_cases same : c = sep
      · rw [splitOn, if_pos same, join_cons_of_ne_nil _ _ (splitOn_ne_nil sep s), ih, same]
        rfl
      · rcases List.exists_cons_of_ne_nil (splitOn_ne_nil sep s) with ⟨piece, pieces, split⟩
        rw [splitOn_cons_of_ne same split]
        rw [split] at ih
        cases pieces with
        | nil => exact congrArg (c :: ·) ih
        | cons => exact congrArg (c :: ·) ih

theorem not_mem_of_mem_splitOn {sep : Char} {s piece : Text} :
    piece ∈ splitOn sep s → sep ∉ piece := by
  induction s generalizing piece with
  | nil =>
      intro mem
      rw [List.mem_singleton.1 mem]
      exact List.not_mem_nil
  | cons c s ih =>
      intro mem
      by_cases same : c = sep
      · rw [splitOn, if_pos same, List.mem_cons] at mem
        rcases mem with rfl | mem
        · exact List.not_mem_nil
        · exact ih mem
      · rcases List.exists_cons_of_ne_nil (splitOn_ne_nil sep s) with ⟨first, pieces, split⟩
        rw [splitOn_cons_of_ne same split, List.mem_cons] at mem
        rcases mem with rfl | mem
        · rw [List.mem_cons, not_or]
          exact ⟨Ne.symm same, ih (by rw [split]; exact List.mem_cons_self)⟩
        · exact ih (by rw [split]; exact List.mem_cons_of_mem _ mem)

/-- Splitting undoes joining, of at least one piece, where no piece has the separator in it. -/
theorem splitOn_join {sep : Char} {pieces : List Text} (filled : pieces ≠ []) :
    (∀ piece ∈ pieces, sep ∉ piece) → splitOn sep (join [sep] pieces) = pieces := by
  intro free
  induction pieces with
  | nil => exact absurd rfl filled
  | cons piece pieces ih =>
      have here := free piece List.mem_cons_self
      cases pieces with
      | nil => exact splitOn_of_not_mem here
      | cons next pieces =>
          have rest := ih (List.cons_ne_nil _ _) fun other mem => free other (List.mem_cons_of_mem _ mem)
          rw [join_cons_of_ne_nil _ _ (List.cons_ne_nil _ _), List.append_assoc, List.singleton_append,
            splitOn_append _ here, rest]

/-! ## White space -/

/-- A text that is not empty, with no white space around it. -/
structure Trimmed (s : Text) : Prop where
  filled : s ≠ []
  first : ∀ c ∈ s.head?, isBlank c = false
  last : ∀ c ∈ s.getLast?, isBlank c = false

/-- Whatever stands between two such texts. -/
theorem Trimmed.append {s t : Text} (left : Trimmed s) (between : Text) (right : Trimmed t) :
    Trimmed (s ++ between ++ t) where
  filled := by simp [left.filled]
  first c mem := by
    rw [List.append_assoc, List.head?_append_of_ne_nil _ left.filled] at mem
    exact left.first c mem
  last c mem := by
    rw [List.getLast?_append_of_ne_nil _ right.filled] at mem
    exact right.last c mem

theorem trim_append {before s after : Text} (trimmed : Trimmed s)
    (blank : ∀ c ∈ before, isBlank c = true) (blank' : ∀ c ∈ after, isBlank c = true) :
    trim (before ++ s ++ after) = s := by
  have start : trimStart (before ++ s ++ after) = s ++ after := by
    refine (takeWhile_dropWhile_iff.2 ⟨List.append_assoc _ _ _, blank, fun c first => ?_⟩).2
    rw [List.head?_append_of_ne_nil _ trimmed.filled] at first
    exact trimmed.first c first
  have ending : (s ++ after).reverse.dropWhile isBlank = s.reverse := by
    refine (takeWhile_dropWhile_iff.2 ⟨List.reverse_append, ?_, fun c first => ?_⟩).2
    · exact fun c mem => blank' c (List.mem_reverse.1 mem)
    · rw [List.head?_reverse] at first
      exact trimmed.last c first
  rw [trim, start, trimEnd, ending, List.reverse_reverse]

/-! ## Offsets -/

theorem utf8ByteSize_ofList (s : Text) : (String.ofList s).utf8ByteSize = utf8Length s := by
  induction s with
  | nil => rfl
  | cons c s ih =>
      have split : String.ofList (c :: s) = String.singleton c ++ String.ofList s := by simp
      simp [split, ih]

/-- The length of a beginning is an offset between two characters. -/
theorem isValid_of_append {before after s : Text} (parts : before ++ after = s) :
    String.Pos.Raw.IsValid (String.ofList s) ⟨utf8Length before⟩ := by
  refine String.Pos.Raw.isValid_iff_exists_append.2
    ⟨String.ofList before, String.ofList after, ?_, ?_⟩
  · simp [← parts, String.ofList_append]
  · simp [String.rawEndPos, utf8ByteSize_ofList]

/-! ## Bytes -/

/-- The bytes of the text in UTF-8. -/
def bytes (s : Text) : List UInt8 := s.flatMap String.utf8EncodeChar

theorem ofNat_cons_lt {m n : Nat} {a b : List UInt8} (hm : m < 256) (hn : n < 256) :
    UInt8.ofNat m :: a < UInt8.ofNat n :: b ↔ m < n ∨ m = n ∧ a < b := by
  rw [List.cons_lt_cons_iff, UInt8.lt_iff_toNat_lt, ← UInt8.toNat_inj, UInt8.toNat_ofNat',
    UInt8.toNat_ofNat', Nat.mod_eq_of_lt hm, Nat.mod_eq_of_lt hn]

/-- The order of code points is that of their digits to the base 64. -/
theorem digits_lt {m n : Nat} (less : m < n) :
    m / 262144 < n / 262144 ∨ m / 262144 = n / 262144 ∧
      (m / 4096 % 64 < n / 4096 % 64 ∨ m / 4096 % 64 = n / 4096 % 64 ∧
        (m / 64 % 64 < n / 64 % 64 ∨ m / 64 % 64 = n / 64 % 64 ∧ m % 64 < n % 64)) := by
  have step {m n : Nat} (less : m < n) : m / 64 < n / 64 ∨ m / 64 = n / 64 ∧ m % 64 < n % 64 := by
    omega
  have digits (n : Nat) : n / 4096 = n / 64 / 64 ∧ n / 262144 = n / 64 / 64 / 64 := by
    simp only [Nat.div_div_eq_div_mul, and_self]
  simp only [digits]
  rcases step less with less | ⟨same, last⟩
  · rcases step less with less | ⟨same, last⟩
    · rcases step less with less | ⟨same, last⟩
      · exact .inl less
      · exact .inr ⟨same, .inl last⟩
    · simp [same, last]
  · simp [same, last]

/-- Of two characters the bytes decide, whatever follows. -/
theorem utf8EncodeChar_append_lt {c d : Char} (less : c < d) (a b : List UInt8) :
    String.utf8EncodeChar c ++ a < String.utf8EncodeChar d ++ b := by
  have lt : c.val.toNat < d.val.toNat := less
  have bound : d.val.toNat < 0x110000 := by
    have valid := d.valid
    simp only [UInt32.isValidChar, Nat.isValidChar] at valid
    omega
  have high {n : Nat} (small : n < 0x110000) : n / 262144 % 8 = n / 262144 := by omega
  have digits := digits_lt lt
  simp only [String.utf8EncodeChar]
  generalize c.val.toNat = v at *
  generalize d.val.toNat = w at *
  -- a longer encoding starts with a higher byte, and equally long ones hold the digits in order
  split_ifs <;>
    simp (disch := omega) only [List.cons_append, List.nil_append, ofNat_cons_lt, high] <;> omega

theorem length_bytes (s : Text) : s.bytes.length = utf8Length s := by
  induction s with
  | nil => rfl
  | cons c s ih =>
      rw [utf8Length_cons, ← ih, bytes, List.flatMap_cons, List.length_append,
        String.length_utf8EncodeChar]
      rfl

/-- The bytes of a text begin with those of its beginnings and of no other text. -/
theorem bytes_prefix_bytes {s t : Text} : s.bytes <+: t.bytes ↔ s <+: t := by
  constructor
  · rintro ⟨rest, same⟩
    apply List.isPrefix_of_utf8Encode_append_eq_utf8Encode rest.toByteArray
    rw [List.utf8Encode, List.utf8Encode, ← List.toByteArray_append]
    exact congrArg List.toByteArray same
  · rintro ⟨rest, rfl⟩
    rw [bytes, bytes, List.flatMap_append]
    exact List.prefix_append _ _

/-- The order of texts by their characters is that of their bytes. -/
theorem bytes_lt_bytes {s t : Text} : s < t → s.bytes < t.bytes := by
  intro less
  induction s generalizing t with
  | nil =>
      cases t with
      | nil => exact absurd less (List.lt_irrefl _)
      | cons d t =>
          rcases List.exists_cons_of_ne_nil (String.utf8EncodeChar_ne_nil (c := d)) with ⟨b, more, eq⟩
          simp [bytes, eq]
  | cons c s ih =>
      cases t with
      | nil => cases less
      | cons d t =>
          rcases List.cons_lt_cons_iff.1 less with first | ⟨rfl, rest⟩
          · exact utf8EncodeChar_append_lt first _ _
          · exact List.append_left_lt (ih rest)

end Text

namespace Pattern

theorem endsIn_iff {c : Char} {s : Text} : endsIn c s = true ↔ ∃ before, s = before ++ [c] := by
  rw [endsIn, beq_iff_eq, List.getLast?_eq_some_iff]

@[simp] theorem endsIn_append (c d : Char) (s : Text) : endsIn c (s ++ [d]) = (d == c) := by
  simp [endsIn]

@[simp] theorem endsIn_nil (c : Char) : endsIn c [] = false := rfl

theorem endsIn_append_of_ne_nil (c : Char) (s : Text) {u : Text} (more : u ≠ []) :
    endsIn c (s ++ u) = endsIn c u := by
  obtain ⟨before, last, rfl⟩ := List.eq_nil_or_concat' u |>.resolve_left more
  rw [← List.append_assoc, endsIn_append, endsIn_append]

theorem isMount_iff {p : Pattern} :
    p.isMount = true ↔ ∃ before, p.canonical = before ++ ['/', '*'] := by
  rw [isMount, List.isSuffixOf_iff_suffix]
  constructor
  · rintro ⟨before, eq⟩
    exact ⟨before, eq.symm⟩
  · rintro ⟨before, eq⟩
    exact ⟨before, eq.symm⟩

end Pattern

@[simp] theorem withoutMountMark_append (s : Text) : withoutMountMark (s ++ ['/', '*']) = s := by
  rw [withoutMountMark, Text.isSuffixOf?_append, Option.getD_some]

end PathRouter
