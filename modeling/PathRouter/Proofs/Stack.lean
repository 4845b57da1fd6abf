import PathRouter.Failure.Frame
import PathRouter.Proofs.Text

/-!
# Stack — a printed stack read back, and the part of it that is kept

The stack of a panic is read from its printed form, in which other lines may stand between those of the
frames, and cut at both ends.  This file defines

* `Frame.toLines`, the lines of a frame, and `Frame.Line.Prints`, the forms in which a line is printed;
* `Frame.Interleaved`, lines in print with others between them, and `Frame.Printed`, a stack in print;
* `Frame.print`, a stack in the layout of the runtime;
* `Frame.RaisesPanic` and `Frame.CatchesPanic`, and `Frame.Excerpt`, the part of a stack between them;

and shows `Frame.parse_and_trim`: a stack is read back from any of its printed forms, and the frames that
trimming leaves are the excerpt, of which trimming leaves everything.
-/

namespace PathRouter

/-! ## Pieces of a line -/

namespace Text

/-- A text that can be told from the blanks around it and does not go beyond its line. -/
structure Tidy (s : Text) : Prop extends Trimmed s where
  unbroken : '\n' ∉ s

/-- White space on a line. -/
def IsMargin (s : Text) : Prop := ∀ c ∈ s, isBlank c = true ∧ c ≠ '\n'

/-- Digits, at least one. -/
def IsNumber (s : Text) : Prop := s ≠ [] ∧ ∀ c ∈ s, isDigit c = true

variable {s : Text}

theorem tidy_iff :
    Tidy s ↔ s ≠ [] ∧ s.head?.any isBlank = false ∧ s.getLast?.any isBlank = false ∧ '\n' ∉ s := by
  rw [Option.any_eq_false, Option.any_eq_false]
  constructor
  · intro tidy
    exact ⟨tidy.filled, tidy.first, tidy.last, tidy.unbroken⟩
  · rintro ⟨filled, first, last, unbroken⟩
    exact ⟨⟨filled, first, last⟩, unbroken⟩

instance (s : Text) : Decidable (Tidy s) := decidable_of_iff _ tidy_iff.symm

theorem IsMargin.blank (margin : IsMargin s) : ∀ c ∈ s, isBlank c = true :=
  fun c mem => (margin c mem).1

theorem IsMargin.unbroken (margin : IsMargin s) : '\n' ∉ s :=
  fun mem => (margin '\n' mem).2 rfl

theorem isMargin_replicate (n : Nat) : IsMargin (List.replicate n ' ') := by
  intro c mem
  rw [List.eq_of_mem_replicate mem]
  decide

theorem isBlank_of_isDigit {c : Char} : isDigit c = true → isBlank c = false := by
  intro digit
  have bounds : 48 ≤ c.toNat ∧ c.toNat ≤ 57 := by
    simpa [isDigit, Char.le_def, UInt32.le_iff_toNat_le] using digit
  rw [Bool.eq_false_iff]
  intro blank
  simp only [isBlank, Bool.or_eq_true, Bool.and_eq_true, decide_eq_true_eq, beq_iff_eq] at blank
  omega

theorem isNumber_iff : IsNumber s ↔ (!s.isEmpty && s.all isDigit) = true := by
  rw [Bool.and_eq_true, Bool.not_eq_true', List.isEmpty_eq_false_iff, List.all_eq_true, IsNumber]

theorem IsNumber.trimmed (number : IsNumber s) : Trimmed s where
  filled := number.1
  first c mem := isBlank_of_isDigit (number.2 c (List.mem_of_head? mem))
  last c mem := isBlank_of_isDigit (number.2 c (List.mem_of_getLast? mem))

theorem IsNumber.not_mem {c : Char} (number : IsNumber s) (other : isDigit c = false) : c ∉ s := by
  intro mem
  rw [number.2 c mem] at other
  cases other

/-- The decimal form of a number. -/
theorem isNumber_toDigits (n : Nat) : IsNumber (Nat.toDigits 10 n) := by
  refine ⟨Nat.toDigits_ne_nil, fun c mem => ?_⟩
  have digit := Nat.isDigit_of_mem_toDigits (by decide) (by decide) mem
  simpa [isDigit, Char.isDigit, Char.le_def] using digit

end Text

namespace Frame

variable {f : Frame} {frames kept : List Frame} {l : Line} {lines : List Line}
  {s place name : Text} {printed : List Text}

/-! ## Reading a line -/

theorem line_eq_location :
    line s = .location place ↔ Text.trim s = ['a', 't', ' '] ++ place := by
  rw [← Text.isPrefixOf?_eq_some, line]
  cases List.isPrefixOf? ['a', 't', ' '] (Text.trim s) with
  | some rest => simp
  | none =>
      cases Text.breakOn [':', ' '] (Text.trim s) with
      | none => simp
      | some cut =>
          by_cases digits : (!cut.1.isEmpty && cut.1.all Text.isDigit) = true <;> simp [digits]

theorem line_eq_function :
    line s = .function name ↔
      ∃ number, Text.IsNumber number ∧ Text.trim s = number ++ [':', ' '] ++ name := by
  constructor
  · intro read
    rw [line] at read
    split at read
    next => cases read
    next =>
      split at read
      next => cases read
      next number rest cut =>
        split at read
        next digits =>
          cases read
          exact ⟨number, Text.isNumber_iff.2 digits, (Text.append_of_breakOn cut).symm⟩
        next => cases read
  · rintro ⟨number, digits, parts⟩
    -- no number begins as a place does, and none has the colon in it
    have placeless : List.isPrefixOf? ['a', 't', ' '] (number ++ [':', ' '] ++ name) = none := by
      rw [Option.eq_none_iff_forall_ne_some]
      intro rest found
      rcases List.exists_cons_of_ne_nil digits.1 with ⟨c, more, rfl⟩
      have start : c = 'a' := (List.cons.inj (Text.isPrefixOf?_eq_some.1 found)).1
      exact digits.not_mem (by decide : Text.isDigit 'a' = false) (start ▸ List.mem_cons_self)
    have cut : Text.breakOn [':', ' '] (number ++ [':', ' '] ++ name) = some (number, name) :=
      Text.breakOn_append_of_not_mem [' '] name (digits.not_mem (by decide))
    simp only [line, parts, placeless, cut, Text.isNumber_iff.1 digits, if_true]

/-- A line of no frame: what stands on it begins neither with `at` nor with a number and a colon. -/
structure Idle (s : Text) : Prop where
  unbroken : '\n' ∉ s
  no_place : ∀ rest, Text.trim s ≠ ['a', 't', ' '] ++ rest
  no_number : ∀ number rest, Text.IsNumber number → Text.trim s ≠ number ++ [':', ' '] ++ rest

/-- These are the lines that nothing is read from. -/
theorem idle_iff : Idle s ↔ '\n' ∉ s ∧ line s = .other := by
  constructor
  · intro idle
    refine ⟨idle.unbroken, ?_⟩
    cases read : line s with
    | location place => exact absurd (line_eq_location.1 read) (idle.no_place place)
    | function name =>
        rcases line_eq_function.1 read with ⟨number, digits, parts⟩
        exact absurd parts (idle.no_number number name digits)
    | other => rfl
  · rintro ⟨unbroken, read⟩
    refine ⟨unbroken, fun place parts => ?_, fun number name digits parts => ?_⟩
    · rw [line_eq_location.2 parts] at read
      cases read
    · rw [line_eq_function.2 ⟨number, digits, parts⟩] at read
      cases read

instance (s : Text) : Decidable (Idle s) := decidable_of_iff _ idle_iff.symm

/-! ## Lines in print -/

/-- The lines of a frame. -/
def toLines (f : Frame) : List Line := .function f.function :: f.location.toList.map .location

namespace Line

/-- How a line may be printed, its function behind a number and its place behind `at`. -/
inductive Prints : Line → Text → Prop
  | function {indent number name trail : Text} :
      indent.IsMargin → number.IsNumber → trail.IsMargin →
        Prints (.function name) (indent ++ (number ++ [':', ' '] ++ name) ++ trail)
  | location {indent place trail : Text} :
      indent.IsMargin → trail.IsMargin →
        Prints (.location place) (indent ++ (['a', 't'] ++ [' '] ++ place) ++ trail)

/-- The text on a line. -/
def Tidy : Line → Prop
  | .function name => name.Tidy
  | .location place => place.Tidy
  | .other => True

theorem Prints.line_eq (prints : l.Prints s) : l.Tidy → line s = l := by
  intro tidy
  cases prints with
  | function indent number trail =>
      have trimmed := number.trimmed.append [':', ' '] tidy.toTrimmed
      exact line_eq_function.2 ⟨_, number, Text.trim_append trimmed indent.blank trail.blank⟩
  | location indent trail =>
      have mark : Text.Tidy ['a', 't'] := by decide
      have trimmed := mark.toTrimmed.append [' '] tidy.toTrimmed
      exact line_eq_location.2 (Text.trim_append trimmed indent.blank trail.blank)

theorem Prints.unbroken (prints : l.Prints s) : l.Tidy → '\n' ∉ s := by
  intro tidy
  cases prints with
  | function indent number trail =>
      have digits := number.not_mem (by decide : Text.isDigit '\n' = false)
      simp [indent.unbroken, digits, tidy.unbroken, trail.unbroken]
  | location indent trail => simp [indent.unbroken, tidy.unbroken, trail.unbroken]

end Line

/-- Lines in print, in their order, with lines of no frame between them. -/
inductive Interleaved : List Line → List Text → Prop
  | nil : Interleaved [] []
  | line {l : Line} {lines : List Line} {s : Text} {printed : List Text} :
      l.Prints s → Interleaved lines printed → Interleaved (l :: lines) (s :: printed)
  | between {lines : List Line} {s : Text} {printed : List Text} :
      Idle s → Interleaved lines printed → Interleaved lines (s :: printed)

/-- A stack in print: the lines of its frames, one frame after the other, among lines of no frame. -/
def Printed (frames : List Frame) (s : Text) : Prop :=
  ∃ printed, Interleaved (frames.flatMap toLines) printed ∧ s = Text.join ['\n'] printed

theorem Interleaved.unbroken (all : Interleaved lines printed) :
    (∀ l ∈ lines, l.Tidy) → ∀ s ∈ printed, '\n' ∉ s := by
  intro tidy
  induction all with
  | nil => simp
  | line prints _ ih =>
      rw [List.forall_mem_cons] at tidy ⊢
      exact ⟨prints.unbroken tidy.1, ih tidy.2⟩
  | between idle _ ih =>
      rw [List.forall_mem_cons]
      exact ⟨idle.unbroken, ih tidy⟩

/-! ## Reading a stack -/

/-- The frames after one more line. -/
def add (frames : List Frame) : Line → List Frame
  | .location place => locate place frames
  | .function name => frames ++ [⟨name, none⟩]
  | .other => frames

theorem readLine_eq (frames : List Frame) (s : Text) : readLine frames s = add frames (line s) := by
  rw [readLine]
  cases line s <;> rfl

theorem locate_cons (place : Text) (f : Frame) (more : frames ≠ []) :
    locate place (f :: frames) = f :: locate place frames := by
  cases frames with
  | nil => exact absurd rfl more
  | cons next rest => rfl

theorem locate_append (place : Text) (frames : List Frame) (f : Frame) :
    locate place (frames ++ [f]) = frames ++ [{ f with location := f.location <|> some place }] := by
  induction frames with
  | nil => rfl
  | cons first frames ih =>
      have more : frames ++ [f] ≠ [] := by simp
      rw [List.cons_append, locate_cons place first more, ih, List.cons_append]

/-- The lines of a frame add the frame. -/
theorem foldl_toLines (frames : List Frame) (f : Frame) :
    f.toLines.foldl add frames = frames ++ [f] := by
  rcases f with ⟨name, place⟩
  cases place with
  | none => rfl
  | some place => exact locate_append place frames ⟨name, none⟩

theorem foldl_flatMap_toLines (before frames : List Frame) :
    (frames.flatMap toLines).foldl add before = before ++ frames := by
  induction frames generalizing before with
  | nil => simp
  | cons f frames ih => simp [foldl_toLines, ih]

/-- The lines between those of the frames add nothing. -/
theorem Interleaved.foldl_readLine (all : Interleaved lines printed) (frames : List Frame) :
    (∀ l ∈ lines, l.Tidy) → printed.foldl readLine frames = lines.foldl add frames := by
  intro tidy
  induction all generalizing frames with
  | nil => rfl
  | line prints _ ih =>
      rw [List.forall_mem_cons] at tidy
      rw [List.foldl_cons, List.foldl_cons, readLine_eq, prints.line_eq tidy.1]
      exact ih _ tidy.2
  | between idle _ ih =>
      rw [List.foldl_cons, readLine_eq, (idle_iff.1 idle).2]
      exact ih _ tidy

theorem parse_join (unbroken : ∀ s ∈ printed, '\n' ∉ s) :
    parse (Text.join ['\n'] printed) = printed.foldl readLine [] := by
  by_cases filled : printed = []
  · -- a text without lines is one empty line, which is of no frame
    subst filled
    rfl
  · rw [parse, Text.splitOn_join filled unbroken]

/-- A frame whose texts can be read back. -/
structure Tidy (f : Frame) : Prop where
  function : f.function.Tidy
  location : ∀ place ∈ f.location, place.Tidy

instance (f : Frame) : Decidable f.Tidy :=
  decidable_of_iff (f.function.Tidy ∧ ∀ place ∈ f.location, place.Tidy)
    ⟨fun ⟨function, location⟩ => ⟨function, location⟩, fun tidy => ⟨tidy.function, tidy.location⟩⟩

theorem Tidy.toLines (tidy : f.Tidy) : ∀ l ∈ f.toLines, l.Tidy := by
  intro l mem
  rcases List.mem_cons.1 mem with rfl | mem
  · exact tidy.function
  · rcases List.mem_map.1 mem with ⟨place, located, rfl⟩
    exact tidy.location place (Option.mem_toList.1 located)

theorem parse_of_printed (tidy : ∀ f ∈ frames, f.Tidy) : Printed frames s → parse s = frames := by
  rintro ⟨printed, all, rfl⟩
  have tidy' : ∀ l ∈ frames.flatMap toLines, l.Tidy := by
    intro l mem
    rcases List.mem_flatMap.1 mem with ⟨f, listed, mem⟩
    exact (tidy f listed).toLines l mem
  calc
    parse (Text.join ['\n'] printed) = printed.foldl readLine [] := parse_join (all.unbroken tidy')
    _ = (frames.flatMap toLines).foldl add [] := all.foldl_readLine [] tidy'
    _ = frames := foldl_flatMap_toLines [] frames

/-! ## The layout of the runtime -/

/-- A function with its number to the right of four places. -/
def numberLine (n : Nat) (name : Text) : Text :=
  let digits := Nat.toDigits 10 n
  List.replicate (4 - digits.length) ' ' ++ (digits ++ [':', ' '] ++ name)

def placeLine (place : Text) : Text := List.replicate 13 ' ' ++ (['a', 't'] ++ [' '] ++ place)

/-- The lines of the frame with the number. -/
def toTexts (f : Frame) (n : Nat) : List Text :=
  numberLine n f.function :: f.location.toList.map placeLine

def print (frames : List Frame) : Text :=
  Text.join ['\n'] (frames.zipIdx.flatMap fun (f, n) => f.toTexts n)

theorem prints_numberLine (n : Nat) (name : Text) :
    (Line.function name).Prints (numberLine n name) := by
  rw [numberLine, ← List.append_nil (_ ++ _)]
  exact .function (Text.isMargin_replicate _) (Text.isNumber_toDigits n) (Text.isMargin_replicate 0)

theorem prints_placeLine (place : Text) : (Line.location place).Prints (placeLine place) := by
  rw [placeLine, ← List.append_nil (_ ++ _)]
  exact .location (Text.isMargin_replicate 13) (Text.isMargin_replicate 0)

theorem Interleaved.append {others : List Line} {printed' : List Text}
    (first : Interleaved lines printed) (second : Interleaved others printed') :
    Interleaved (lines ++ others) (printed ++ printed') := by
  induction first with
  | nil => exact second
  | line prints _ ih => exact .line prints ih
  | between idle _ ih => exact .between idle ih

theorem interleaved_toTexts (f : Frame) (n : Nat) : Interleaved f.toLines (f.toTexts n) := by
  rcases f with ⟨name, place⟩
  cases place with
  | none => exact .line (prints_numberLine n name) .nil
  | some place => exact .line (prints_numberLine n name) (.line (prints_placeLine place) .nil)

theorem printed_print (frames : List Frame) : Printed frames (print frames) := by
  have layout (first : Nat) : Interleaved (frames.flatMap toLines)
      ((frames.zipIdx first).flatMap fun (f, n) => f.toTexts n) := by
    induction frames generalizing first with
    | nil => exact .nil
    | cons f frames ih => exact (interleaved_toTexts f first).append (ih (first + 1))
  exact ⟨_, layout 0, rfl⟩

/-! ## Trimming -/

/-- Whether a frame belongs to the raising of a panic. -/
def RaisesPanic (f : Frame) : Prop :=
  (∃ start ∈ machineryStarts, start.toList <+: f.function) ∨
    "recover::install_hook".toList <:+: f.function

/-- Whether panics are caught in a frame. -/
def CatchesPanic (f : Frame) : Prop := ∃ mark ∈ boundaryMarks, mark.toList <:+: f.function

theorem isMachinery_iff : isMachinery f.function = true ↔ f.RaisesPanic := by
  simp only [isMachinery, RaisesPanic, Bool.or_eq_true, List.any_eq_true, List.isPrefixOf_iff_prefix,
    Text.contains_iff]

theorem isBoundary_iff : isBoundary f.function = true ↔ f.CatchesPanic := by
  simp only [isBoundary, CatchesPanic, List.any_eq_true, Text.contains_iff]

/-- The frames from the first that does not belong to the raising of a panic up to the first, from there
on, in which panics are caught. -/
def Excerpt (frames kept : List Frame) : Prop :=
  ∃ before after, frames = before ++ kept ++ after ∧ (∀ f ∈ before, f.RaisesPanic) ∧
    (∀ f ∈ (kept ++ after).head?, ¬ f.RaisesPanic) ∧ (∀ f ∈ kept, ¬ f.CatchesPanic) ∧
    ∀ f ∈ after.head?, f.CatchesPanic

/-- Trimming leaves the excerpt, and a stack has but one. -/
theorem trim_eq_iff : trim frames = kept ↔ Excerpt frames kept := by
  have raises (f : Frame) : isMachinery f.function = false ↔ ¬ f.RaisesPanic := by
    rw [← isMachinery_iff, Bool.not_eq_true]
  have catches (f : Frame) : (!isBoundary f.function) = true ↔ ¬ f.CatchesPanic := by
    rw [← isBoundary_iff, Bool.not_eq_true, Bool.not_eq_true']
  have catches' (f : Frame) : (!isBoundary f.function) = false ↔ f.CatchesPanic := by
    rw [← isBoundary_iff, Bool.not_eq_false']
  constructor
  · rintro rfl
    let machinery (f : Frame) : Bool := isMachinery f.function
    rcases (takeWhile_dropWhile_iff (l := frames) (p := machinery)).1 ⟨rfl, rfl⟩ with
      ⟨front, raised, start⟩
    rcases (takeWhile_dropWhile_iff (l := frames.dropWhile machinery)).1 ⟨rfl, rfl⟩ with
      ⟨back, quiet, stop⟩
    refine ⟨_, _, ?_, fun f mem => isMachinery_iff.1 (raised f mem), fun f first => ?_,
      fun f mem => (catches f).1 (quiet f mem), fun f first => (catches' f).1 (stop f first)⟩
    · rw [List.append_assoc, trim, ← back]
      exact front
    · rw [trim, ← back] at first
      exact (raises f).1 (start f first)
  · rintro ⟨before, after, rfl, raised, start, quiet, stop⟩
    have rest : (before ++ kept ++ after).dropWhile (fun f => isMachinery f.function) =
        kept ++ after := by
      refine (takeWhile_dropWhile_iff.2 ⟨List.append_assoc _ _ _, fun f mem => ?_, fun f first => ?_⟩).2
      · exact isMachinery_iff.2 (raised f mem)
      · exact (raises f).2 (start f first)
    rw [trim, rest]
    exact (takeWhile_dropWhile_iff.2 ⟨rfl, fun f mem => (catches f).2 (quiet f mem),
      fun f first => (catches' f).2 (stop f first)⟩).1

namespace Excerpt

theorem quiet : Excerpt frames kept → ∀ f ∈ kept, ¬ f.CatchesPanic := by
  rintro ⟨before, after, -, -, -, quiet, -⟩
  exact quiet

theorem start : Excerpt frames kept → ∀ f ∈ kept.head?, ¬ f.RaisesPanic := by
  rintro ⟨before, after, -, -, start, -, -⟩ f first
  exact start f (List.mem_head?_append_of_mem_head? first)

/-- Nothing is cut off an excerpt. -/
theorem self (excerpt : Excerpt frames kept) : Excerpt kept kept :=
  ⟨[], [], by simp, by simp, by simpa using excerpt.start, excerpt.quiet, by simp⟩

end Excerpt

/-! ## Both -/

/-- A stack is read back from any of its printed forms, such as the layout of the runtime.  Trimming leaves
the excerpt of a stack, in which no panic is caught, which does not begin with the raising of a panic, and
of which trimming leaves everything. -/
theorem parse_and_trim :
    (∀ frames, Printed frames (print frames) ∧
      ((∀ f ∈ frames, f.Tidy) → ∀ s, Printed frames s → parse s = frames)) ∧
    ∀ frames, (∀ kept, trim frames = kept ↔ Excerpt frames kept) ∧
      (∀ f ∈ trim frames, ¬ f.CatchesPanic) ∧ (∀ f ∈ (trim frames).head?, ¬ f.RaisesPanic) ∧
      trim (trim frames) = trim frames := by
  refine ⟨fun frames => ⟨printed_print frames, fun tidy s => parse_of_printed tidy⟩, fun frames => ?_⟩
  have excerpt : Excerpt frames (trim frames) := trim_eq_iff.1 rfl
  exact ⟨fun kept => trim_eq_iff, excerpt.quiet, excerpt.start, trim_eq_iff.2 excerpt.self⟩

/-- A function with a colon and a place that begins with `at`, printed apart. -/
theorem parse_and_trim_inner :
    let inner : Frame := ⟨"app::run: inner".toList, some "at home.rs:10:5".toList⟩
    let frames : List Frame :=
      [⟨"std::panicking::begin".toList, none⟩, inner, ⟨"std::panicking::try".toList, none⟩]
    let text := Text.join ['\n'] <|
      ["stack backtrace:", "   0: std::panicking::begin", "   1: app::run: inner",
        "      note: 3 frames left out", "             at at home.rs:10:5",
        "   2: std::panicking::try", ""].map String.toList
    (∀ f ∈ frames, f.Tidy) ∧ Printed frames text ∧ parse text = frames ∧ trim frames = [inner] ∧
      trim [inner] = [inner] := by
  intro inner frames text
  have tidy : ∀ f ∈ frames, f.Tidy := by decide +kernel
  have printed : Printed frames text :=
    ⟨_, .between (by decide +kernel : Idle "stack backtrace:".toList) <|
      .line (prints_numberLine 0 _) <| .line (prints_numberLine 1 _) <|
      .between (by decide +kernel : Idle "      note: 3 frames left out".toList) <|
      .line (prints_placeLine _) <| .line (prints_numberLine 2 _) <|
      .between (by decide +kernel : Idle []) .nil, by decide +kernel⟩
  have trimmed : trim frames = [inner] := by decide +kernel
  have again := (parse_and_trim.2 frames).2.2.2
  rw [trimmed] at again
  exact ⟨tidy, printed, (parse_and_trim.1 frames).2 tidy text printed, trimmed, again⟩

end Frame
end PathRouter
