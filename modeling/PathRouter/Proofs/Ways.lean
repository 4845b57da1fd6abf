import PathRouter.Proofs.Text
import PathRouter.Regex.Match

/-!
# Ways — the match is the first way in backtracking order

`Regex.run` fills tables from the end of an expression.  This file defines

* `Regex.ways`, all ways in which an expression matches the start of a text, in the order in which
  backtracking tries them;
* `Table.of`, the table of a function on places;

and shows `Regex.match?_eq_head?`, that the match is the first of the ways, and
`Regex.exists_of_mem_ways`, that a way takes a beginning of the text.
-/

namespace PathRouter
namespace Regex

/-! ## Ways in order -/

/-- What is left after one or more characters other than a slash, the longest run first. -/
def segmentRests : Text → List Text
  | [] => []
  | c :: s => if c = '/' then [] else segmentRests s ++ [s]

/-- A match after which another one follows. -/
def Match.andThen (m n : Match) : Match := ⟨m.captures ++ n.captures, n.rest⟩

theorem Match.andThen_comp (m n : Match) : (m.andThen n).andThen = m.andThen ∘ n.andThen := by
  funext last
  simp [andThen]

/-- Nothing matched, with so many captures passed over. -/
def Match.passed (count : Nat) (s : Text) : Match := ⟨List.replicate count none, s⟩

/-- All ways in which an expression matches the start of a text, in the order of trying. -/
def ways : Regex → Text → List Match
  | .empty, s => [⟨[], s⟩]
  | .text cs, s => (cs.isPrefixOf? s).toList.map (⟨[], ·⟩)
  | .segment, s => (segmentRests s).map (⟨[], ·⟩)
  | .seq first second, s =>
    (first.ways s).flatMap fun m => (second.ways m.rest).map m.andThen
  | .alt first second, s =>
    (first.ways s).map (fun m => m.andThen (.passed second.captures m.rest)) ++
      (second.ways s).map (Match.passed first.captures s).andThen
  | .optional body, s => body.ways s ++ [.passed body.captures s]
  | .group body, s => body.ways s
  | .capture body, s => (body.ways s).map fun m => ⟨some ⟨s, m.rest⟩ :: m.captures, m.rest⟩
  | .stop, s => if s = [] then [⟨[], []⟩] else []

theorem mem_ways_stop {s : Text} {m : Match} : m ∈ Regex.stop.ways s ↔ s = [] ∧ m = ⟨[], []⟩ := by
  by_cases done : s = []
  · simp [ways, done]
  · simp [ways, done]

/-! ## Tables of functions -/

/-- A way on from the end of a match, with the match before it. -/
def Way.after (m : Match) (w : Way) : Way := { w with captures := m.captures ++ w.captures }

namespace Table

/-- The table that holds the value of a function for every place of a text. -/
def of (s : Text) (f : Text → Option Way) : Table := (places s).map f

theorem of_congr {s : Text} {f g : Text → Option Way} (same : ∀ here, f here = g here) :
    of s f = of s g :=
  congrArg (of s) (funext same)

theorem of_nil (f : Text → Option Way) : of [] f = [f []] := rfl

theorem of_cons (c : Char) (s : Text) (f : Text → Option Way) :
    of (c :: s) f = f (c :: s) :: of s f := rfl

@[simp] theorem here_of (s : Text) (f : Text → Option Way) : (of s f).here = f s := by
  cases s <;> simp [of, places, here]

theorem final_eq_of (s : Text) : final s = of s fun rest => some ⟨⟨[], rest⟩, []⟩ := rfl

theorem orElse_of (s : Text) (f g : Text → Option Way) :
    (of s f).orElse (of s g) = of s fun here => f here <|> g here := by
  simp [orElse, of, List.zipWith_map, List.zipWith_self]

theorem passOver_of (count : Nat) (s : Text) (f : Text → Option Way) :
    (of s f).passOver count = of s fun here => (f here).map (Way.passOver count) := by
  simp [passOver, of]

theorem close_of (s : Text) (f : Text → Option Way) :
    (of s f).close s = of s fun here => (f here).map (Way.close here) := by
  simp [close, of, List.zipWith_map_right, List.zipWith_self]

theorem enter_of (s : Text) (f : Text → Option Way) :
    (of s f).enter s = of s fun here => (f here).map (Way.enter here) := by
  simp [enter, of, List.zipWith_map_right, List.zipWith_self]

theorem segment_of (s : Text) (f : Text → Option Way) :
    (of s f).segment s = of s fun here => (segmentRests here).findSome? f := by
  induction s with
  | nil => rfl
  | cons c s ih =>
      rw [of_cons, segment, List.tail_cons, ih, of_cons]
      by_cases slash : c = '/'
      · simp [segmentRests, slash]
      · simp [segmentRests, slash, Option.orElse_eq_or]

theorem stop_of (s : Text) (f : Text → Option Way) :
    (of s f).stop s = of s fun here => if here = [] then f here else none := by
  induction s with
  | nil => rfl
  | cons c s ih =>
      rw [of_cons, stop, List.tail_cons, ih, of_cons]
      simp

/-- The table ahead of a fixed text: as many places are skipped as the text is long. -/
theorem here_drop_of (cs rest : Text) (f : Text → Option Way) :
    here ((of (cs ++ rest) f).drop cs.length) = f rest := by
  induction cs with
  | nil => simp
  | cons c cs ih => simpa [of_cons] using ih

theorem text_of (cs s : Text) (f : Text → Option Way) :
    Table.text cs s ((of s f).drop cs.length) =
      of s fun here => (cs.isPrefixOf? here).bind f := by
  -- at the first place, the entry that many places ahead is the one behind the text
  have first : ∀ s : Text,
      (here ((of s f).drop cs.length)).filter (fun _ => cs.isPrefixOf s) =
        (cs.isPrefixOf? s).bind f := by
    intro s
    cases found : cs.isPrefixOf? s with
    | none =>
        have absent : cs.isPrefixOf s = false := by
          rw [Bool.eq_false_iff, ne_eq, List.isPrefixOf_iff_prefix]
          rintro ⟨rest, eq⟩
          simp [Text.isPrefixOf?_eq_some.2 eq.symm] at found
        simp [absent]
    | some rest =>
        have eq : s = cs ++ rest := Text.isPrefixOf?_eq_some.1 found
        subst eq
        have present : cs.isPrefixOf (cs ++ rest) = true :=
          List.isPrefixOf_iff_prefix.2 (List.prefix_append cs rest)
        rw [present, here_drop_of, Option.bind_some]
        cases f rest <;> rfl
  induction s with
  | nil =>
      have empty : cs.isEmpty = cs.isPrefixOf [] := by cases cs <;> rfl
      simpa [Table.text, of_nil, empty] using first []
  | cons c s ih =>
      have tail : ((of (c :: s) f).drop cs.length).tail = (of s f).drop cs.length := by
        rw [List.tail_drop, of_cons, List.drop_succ_cons]
      rw [Table.text, tail, ih, first, of_cons]

end Table

/-! ## The match is the first way -/

theorem findSome?_congr {α β : Type} {f g : α → Option β} (l : List α) (same : ∀ a, f a = g a) :
    l.findSome? f = l.findSome? g :=
  congrFun (congrArg List.findSome? (funext same)) l

/-- The first way through some matches and on from their ends. -/
def onward (next : Text → Option Way) (ms : List Match) : Option Way :=
  ms.findSome? fun m => (next m.rest).map (Way.after m)

@[simp] theorem onward_nil (next : Text → Option Way) : onward next [] = none := rfl

theorem onward_cons (next : Text → Option Way) (m : Match) (ms : List Match) :
    onward next (m :: ms) = ((next m.rest).map (Way.after m) <|> onward next ms) := by
  cases ahead : next m.rest <;> simp [onward, ahead]

theorem onward_append (next : Text → Option Way) (ms ns : List Match) :
    onward next (ms ++ ns) = (onward next ms <|> onward next ns) := by
  simp [onward, Option.orElse_eq_or]

theorem onward_singleton (next : Text → Option Way) (m : Match) :
    onward next [m] = (next m.rest).map (Way.after m) := by
  simp [onward_cons]

theorem onward_map_andThen (next : Text → Option Way) (m : Match) (ns : List Match) :
    onward next (ns.map m.andThen) = (onward next ns).map (Way.after m) := by
  induction ns with
  | nil => rfl
  | cons n ns ih =>
      rw [List.map_cons, onward_cons, onward_cons, ih]
      cases ahead : next n.rest <;> simp [Match.andThen, Way.after, ahead]

theorem onward_flatMap (next : Text → Option Way) (g : Match → List Match) (ms : List Match) :
    onward next (ms.flatMap g) = ms.findSome? fun m => onward next (g m) := by
  induction ms with
  | nil => rfl
  | cons m ms ih =>
      rw [List.flatMap_cons, onward_append, ih, List.findSome?_cons]
      cases onward next (g m) <;> rfl

/-- Running an expression finds at every place the first way through it and on from its end. -/
theorem run_of (r : Regex) (s : Text) (next : Text → Option Way) :
    r.run s (.of s next) = .of s fun here => onward next (r.ways here) := by
  -- what follows is general, since in a sequence the first part is followed by the second
  induction r generalizing next with
  | empty =>
      apply Table.of_congr
      intro here
      rw [ways, onward_singleton]
      cases next here <;> rfl
  | text cs =>
      rw [run, Table.text_of]
      apply Table.of_congr
      intro here
      cases found : cs.isPrefixOf? here with
      | none => simp [ways, found]
      | some rest => cases ahead : next rest <;> simp [ways, found, onward_cons, ahead, Way.after]
  | segment =>
      rw [run, Table.segment_of]
      apply Table.of_congr
      intro here
      rw [ways, onward, List.findSome?_map]
      apply findSome?_congr
      intro rest
      cases ahead : next rest <;> simp [ahead, Way.after]
  | seq first second ihFirst ihSecond =>
      rw [run, ihSecond, ihFirst]
      apply Table.of_congr
      intro here
      rw [ways, onward_flatMap, onward]
      simp only [onward_map_andThen]
  | alt first second ihFirst ihSecond =>
      rw [run, Table.passOver_of, ihFirst, ihSecond, Table.passOver_of, Table.orElse_of]
      apply Table.of_congr
      intro here
      rw [ways, onward_append, onward_map_andThen]
      refine congrArg₂ (· <|> ·) ?_ rfl
      rw [onward, onward, List.findSome?_map]
      apply findSome?_congr
      intro m
      cases ahead : next m.rest <;>
        simp [ahead, Match.andThen, Match.passed, Way.after, Way.passOver, List.append_assoc]
  | optional body ih =>
      rw [run, ih, Table.passOver_of, Table.orElse_of]
      apply Table.of_congr
      intro here
      rw [ways, onward_append, onward_singleton]
      rfl
  | group body ih => rw [run, ih]; rfl
  | capture body ih =>
      rw [run, Table.close_of, ih, Table.enter_of]
      apply Table.of_congr
      intro here
      rw [ways, onward, onward, List.findSome?_map, List.map_findSome?]
      apply findSome?_congr
      intro m
      cases ahead : next m.rest <;> simp [ahead, Way.close, Way.enter, Way.after]
  | stop =>
      rw [run, Table.stop_of]
      apply Table.of_congr
      intro here
      by_cases done : here = []
      · subst done
        cases ahead : next [] <;> simp [ways, onward_cons, ahead, Way.after]
      · simp [ways, done]

/-- The match is the first of all ways. -/
theorem match?_eq_head? (r : Regex) (s : Text) : r.match? s = (r.ways s).head? := by
  rw [match?, Table.final_eq_of, run_of, Table.here_of]
  cases r.ways s with
  | nil => rfl
  | cons m ms => simp [onward_cons, Way.after]

/-! ## Members -/

variable {first second body : Regex} {s : Text} {m : Match}

theorem mem_segmentRests {s rest : Text} :
    rest ∈ segmentRests s ↔ ∃ taken, taken ≠ [] ∧ '/' ∉ taken ∧ s = taken ++ rest := by
  induction s with
  | nil =>
      constructor
      · intro mem
        cases mem
      · rintro ⟨taken, notEmpty, _, eq⟩
        exact absurd (List.append_eq_nil_iff.1 eq.symm).1 notEmpty
  | cons c s ih =>
      by_cases slash : c = '/'
      · simp only [segmentRests, if_pos slash, List.not_mem_nil, false_iff]
        rintro ⟨taken, notEmpty, free, eq⟩
        rcases List.exists_cons_of_ne_nil notEmpty with ⟨d, taken, rfl⟩
        rw [List.cons_append, List.cons.injEq] at eq
        exact free (by rw [← eq.1, slash]; exact List.mem_cons_self)
      · simp only [segmentRests, if_neg slash, List.mem_append, List.mem_singleton, ih]
        constructor
        · rintro (⟨taken, _, free, rfl⟩ | rfl)
          · refine ⟨c :: taken, List.cons_ne_nil _ _, ?_, rfl⟩
            rw [List.mem_cons, not_or]
            exact ⟨Ne.symm slash, free⟩
          · exact ⟨[c], List.cons_ne_nil _ _, by simpa using Ne.symm slash, rfl⟩
        · rintro ⟨taken, notEmpty, free, eq⟩
          rcases List.exists_cons_of_ne_nil notEmpty with ⟨d, taken, rfl⟩
          rw [List.cons_append, List.cons.injEq] at eq
          rw [List.mem_cons, not_or] at free
          cases taken with
          | nil => exact Or.inr eq.2.symm
          | cons e taken => exact Or.inl ⟨e :: taken, List.cons_ne_nil _ _, free.2, eq.2⟩

theorem mem_ways_text {cs : Text} :
    m ∈ (Regex.text cs).ways s ↔ m.captures = [] ∧ s = cs ++ m.rest := by
  rw [ways, List.mem_map]
  constructor
  · rintro ⟨rest, found, rfl⟩
    exact ⟨rfl, Text.isPrefixOf?_eq_some.1 (Option.mem_toList.1 found)⟩
  · rintro ⟨empty, eq⟩
    refine ⟨m.rest, Option.mem_toList.2 (Text.isPrefixOf?_eq_some.2 eq), ?_⟩
    rw [← empty]

theorem mem_ways_segment :
    m ∈ Regex.segment.ways s ↔
      m.captures = [] ∧ ∃ taken, taken ≠ [] ∧ '/' ∉ taken ∧ s = taken ++ m.rest := by
  rw [ways, List.mem_map]
  constructor
  · rintro ⟨rest, found, rfl⟩
    exact ⟨rfl, mem_segmentRests.1 found⟩
  · rintro ⟨empty, found⟩
    refine ⟨m.rest, mem_segmentRests.2 found, ?_⟩
    rw [← empty]

theorem mem_ways_seq :
    m ∈ (Regex.seq first second).ways s ↔
      ∃ m₁ ∈ first.ways s, ∃ m₂ ∈ second.ways m₁.rest, m = m₁.andThen m₂ := by
  rw [ways, List.mem_flatMap]
  constructor
  · rintro ⟨m₁, mem₁, mapped⟩
    rcases List.mem_map.1 mapped with ⟨m₂, mem₂, rfl⟩
    exact ⟨m₁, mem₁, m₂, mem₂, rfl⟩
  · rintro ⟨m₁, mem₁, m₂, mem₂, rfl⟩
    exact ⟨m₁, mem₁, List.mem_map_of_mem mem₂⟩

theorem mem_ways_alt :
    m ∈ (Regex.alt first second).ways s ↔
      (∃ n ∈ first.ways s, m = n.andThen (.passed second.captures n.rest)) ∨
        ∃ n ∈ second.ways s, m = (Match.passed first.captures s).andThen n := by
  simp only [ways, List.mem_append, List.mem_map, eq_comm]

theorem mem_ways_optional :
    m ∈ (Regex.optional body).ways s ↔ m ∈ body.ways s ∨ m = .passed body.captures s := by
  rw [ways, List.mem_append, List.mem_singleton]

theorem mem_ways_capture :
    m ∈ (Regex.capture body).ways s ↔
      ∃ n ∈ body.ways s, m = ⟨some ⟨s, n.rest⟩ :: n.captures, n.rest⟩ := by
  rw [ways, List.mem_map]
  constructor
  · rintro ⟨n, mem, rfl⟩
    exact ⟨n, mem, rfl⟩
  · rintro ⟨n, mem, rfl⟩
    exact ⟨n, mem, rfl⟩

theorem mem_ways_seq_text {cs : Text} :
    m ∈ (Regex.seq (.text cs) second).ways s ↔ ∃ after, s = cs ++ after ∧ m ∈ second.ways after := by
  rw [mem_ways_seq]
  constructor
  · rintro ⟨⟨captures, after⟩, mem₁, m₂, mem₂, rfl⟩
    rcases mem_ways_text.1 mem₁ with ⟨rfl, eq⟩
    exact ⟨after, eq, mem₂⟩
  · rintro ⟨after, rfl, mem⟩
    exact ⟨⟨[], after⟩, mem_ways_text.2 ⟨rfl, rfl⟩, m, mem, rfl⟩

theorem mem_ways_seq_optional :
    m ∈ (Regex.seq (.optional body) second).ways s ↔
      (∃ m₁ ∈ body.ways s, ∃ m₂ ∈ second.ways m₁.rest, m = m₁.andThen m₂) ∨
        ∃ n ∈ second.ways s, m = (Match.passed body.captures s).andThen n := by
  simp only [mem_ways_seq, mem_ways_optional, or_and_right, exists_or, exists_eq_left]
  rfl

/-! ## What a way takes -/

@[simp] theorem Span.text_of_append (taken rest : Text) :
    Span.text ⟨taken ++ rest, rest⟩ = taken := by
  simp [Span.text]

theorem Match.whole_of_append {taken : Text} (parts : taken ++ m.rest = s) : m.whole s = taken := by
  rw [Match.whole, ← parts, Span.text_of_append]

/-- A way takes a beginning of the text. -/
theorem exists_of_mem_ways {r : Regex} : m ∈ r.ways s → ∃ taken, s = taken ++ m.rest := by
  intro mem
  induction r generalizing s m with
  | empty =>
      rw [List.mem_singleton.1 mem]
      exact ⟨[], rfl⟩
  | text cs => exact ⟨cs, (mem_ways_text.1 mem).2⟩
  | segment =>
      rcases mem_ways_segment.1 mem with ⟨-, taken, -, -, eq⟩
      exact ⟨taken, eq⟩
  | seq first second ihFirst ihSecond =>
      rcases mem_ways_seq.1 mem with ⟨m₁, mem₁, m₂, mem₂, rfl⟩
      rcases ihFirst mem₁ with ⟨taken₁, eq₁⟩
      rcases ihSecond mem₂ with ⟨taken₂, eq₂⟩
      refine ⟨taken₁ ++ taken₂, ?_⟩
      calc
        s = taken₁ ++ (taken₂ ++ m₂.rest) := by rw [eq₁, eq₂]
        _ = (taken₁ ++ taken₂) ++ m₂.rest := (List.append_assoc _ _ _).symm
  | alt first second ihFirst ihSecond =>
      rcases mem_ways_alt.1 mem with ⟨n, one, rfl⟩ | ⟨n, other, rfl⟩
      · rcases ihFirst one with ⟨taken, eq⟩
        exact ⟨taken, eq⟩
      · rcases ihSecond other with ⟨taken, eq⟩
        exact ⟨taken, eq⟩
  | optional body ih =>
      rcases mem_ways_optional.1 mem with mem | rfl
      · exact ih mem
      · exact ⟨[], rfl⟩
  | group body ih => exact ih mem
  | capture body ih =>
      rcases mem_ways_capture.1 mem with ⟨n, inside, rfl⟩
      rcases ih inside with ⟨taken, eq⟩
      exact ⟨taken, eq⟩
  | stop =>
      rcases mem_ways_stop.1 mem with ⟨done, rfl⟩
      exact ⟨[], done⟩

/-- A way has one entry for each capture. -/
theorem length_captures_of_mem_ways {r : Regex} :
    m ∈ r.ways s → m.captures.length = r.captures := by
  intro mem
  induction r generalizing s m with
  | empty =>
      rw [List.mem_singleton.1 mem]
      rfl
  | text cs =>
      rw [(mem_ways_text.1 mem).1]
      rfl
  | segment =>
      rw [(mem_ways_segment.1 mem).1]
      rfl
  | seq first second ihFirst ihSecond =>
      rcases mem_ways_seq.1 mem with ⟨m₁, mem₁, m₂, mem₂, rfl⟩
      rw [Match.andThen, List.length_append, ihFirst mem₁, ihSecond mem₂, captures]
  | alt first second ihFirst ihSecond =>
      -- the alternative that is not taken is passed over
      rcases mem_ways_alt.1 mem with ⟨n, one, rfl⟩ | ⟨n, other, rfl⟩
      · simp [Match.andThen, Match.passed, ihFirst one, captures]
      · simp [Match.andThen, Match.passed, ihSecond other, captures]
  | optional body ih =>
      rcases mem_ways_optional.1 mem with mem | rfl
      · exact ih mem
      · exact List.length_replicate
  | group body ih => exact ih mem
  | capture body ih =>
      rcases mem_ways_capture.1 mem with ⟨n, inside, rfl⟩
      rw [List.length_cons, ih inside, captures]
  | stop =>
      rcases mem_ways_stop.1 mem with ⟨-, rfl⟩
      rfl

theorem whole_append_of_mem_ways {r : Regex} (mem : m ∈ r.ways s) :
    m.whole s ++ m.rest = s := by
  rcases exists_of_mem_ways mem with ⟨taken, eq⟩
  rw [Match.whole_of_append eq.symm, eq]

/-- The text of a match and what is left of it. -/
theorem whole_append_rest {r : Regex} (found : r.match? s = some m) :
    m.whole s ++ m.rest = s := by
  rw [match?_eq_head?] at found
  exact whole_append_of_mem_ways (List.mem_of_head? found)

end Regex
end PathRouter
