import PathRouter.Proofs.Language

/-!
# Source — reading an expression from its written form

The engine that runs the expressions of a router is given their written form.  This file defines

* `Regex.Draft`, an expression as far as it has been read, and `Regex.ofSource?`, the reading of the
  notation that the router uses, with the names of the captures as they open;
* `Regex.Same`, which holds of two expressions that match alike;

and shows `Template.ofSource?_source`: what is read from the written form of a matcher matches like
the matcher.
-/

namespace PathRouter
namespace Regex

/-! ## Reading -/

/-- What has been read between two parentheses. -/
structure Level where
  /-- The alternatives before the last bar, last first. -/
  before : List Regex
  /-- The items after it, last first. -/
  items : List Regex

/-- What the next character belongs to. -/
inductive Mode where
  | items
  /-- A backslash came before. -/
  | escaped
  /-- A class has begun, of which so much is still to come. -/
  | segment (left : Text)
  /-- The header of a group has begun, of which so much is still to come. -/
  | header (left : Text)
  /-- The name of a group, last character first. -/
  | name (read : Text)

/-- A group that is still open: whether it captures, and what came before it. -/
structure Opened where
  captures : Bool
  level : Level

/-- An expression as far as it has been read: open groups, innermost first, the current level, and
the names of captures, last first. -/
structure Draft where
  outer : List Opened
  level : Level
  names : List Text
  mode : Mode

/-- Items one after the other, given last first. -/
def joined (items : List Regex) : Regex := items.foldl (fun rest item => .seq item rest) .empty

/-- The expression of a level. -/
def Level.close (level : Level) : Regex :=
  level.before.foldl (fun rest first => .alt first rest) (joined level.items)

namespace Draft

/-- Nothing read yet. -/
def start : Draft := ⟨[], ⟨[], []⟩, [], .items⟩

/-- One item more. -/
def add (d : Draft) (item : Regex) : Draft :=
  { d with level := { d.level with items := item :: d.level.items }, mode := .items }

/-- A closing parenthesis. -/
def close (d : Draft) : Option Draft :=
  match d.outer with
  | [] => none
  | last :: outer =>
    let body := d.level.close
    let item := if last.captures then .capture body else .group body
    some (add { d with outer := outer, level := last.level } item)

/-- A question mark, after a group or at the start of one. -/
def question (d : Draft) : Option Draft :=
  match d.level, d.outer with
  | ⟨before, .group body :: items⟩, _ => some { d with level := ⟨before, .optional body :: items⟩ }
  | ⟨[], []⟩, ⟨false, _⟩ :: _ => some { d with mode := .header ['P', '<'] }
  | _, _ => none

/-- A character between items. -/
def item (d : Draft) (c : Char) : Option Draft :=
  if c = '\\' then some { d with mode := .escaped }
  else if c = '[' then some { d with mode := .segment ['^', '/', ']', '+'] }
  else if c = '(' then some { d with outer := ⟨false, d.level⟩ :: d.outer, level := ⟨[], []⟩ }
  else if c = ')' then d.close
  else if c = '|' then some { d with level := ⟨joined d.level.items :: d.level.before, []⟩ }
  else if c = '?' then d.question
  else if c = '$' then some (d.add .stop)
  else if isSpecial c then none
  else some (d.add (.text [c]))

/-- The name of the innermost group, which captures. -/
def named (d : Draft) (name : Text) : Option Draft :=
  match d.outer with
  | [] => none
  | last :: outer =>
    some
      { d with outer := { last with captures := true } :: outer, names := name :: d.names
               mode := .items }

/-- One character more. -/
def step (d : Draft) (c : Char) : Option Draft :=
  match d.mode with
  | .items => d.item c
  | .escaped => if isSpecial c then some (d.add (.text [c])) else none
  | .segment [last] => if c = last then some (d.add .segment) else none
  | .segment (next :: left) => if c = next then some { d with mode := .segment left } else none
  | .segment [] => none
  | .header [last] => if c = last then some { d with mode := .name [] } else none
  | .header (next :: left) => if c = next then some { d with mode := .header left } else none
  | .header [] => none
  | .name read => if c = '>' then d.named read.reverse else some { d with mode := .name (c :: read) }

/-- The characters of a text. -/
def feed (d : Draft) : Text → Option Draft
  | [] => some d
  | c :: s => (d.step c).bind (feed · s)

/-- The end of the written form, at which nothing may be open. -/
def finish (d : Draft) : Option (Regex × List Text) :=
  match d.mode, d.outer with
  | .items, [] => some (d.level.close, d.names.reverse)
  | _, _ => none

end Draft

/-- The expression written in a text that is held to its start, with the names of its captures. -/
def ofSource? : Text → Option (Regex × List Text)
  | '^' :: s => (Draft.start.feed s).bind Draft.finish
  | _ => none

/-! ## Expressions that match alike -/

/-- Two expressions have as many captures and the same ways, in the same order. -/
structure Same (r t : Regex) : Prop where
  captures : r.captures = t.captures
  ways : ∀ s, r.ways s = t.ways s

namespace Same

variable {r t u first second first' second' body body' : Regex}

theorem refl (r : Regex) : Same r r := ⟨rfl, fun _ => rfl⟩

theorem symm (same : Same r t) : Same t r := ⟨same.captures.symm, fun s => (same.ways s).symm⟩

theorem trans (one : Same r t) (other : Same t u) : Same r u :=
  ⟨one.captures.trans other.captures, fun s => (one.ways s).trans (other.ways s)⟩

instance : Trans Same Same Same := ⟨trans⟩

theorem match? (same : Same r t) (s : Text) : r.match? s = t.match? s := by
  rw [match?_eq_head?, match?_eq_head?, same.ways]

theorem seq (one : Same first first') (other : Same second second') :
    Same (.seq first second) (.seq first' second') := by
  refine ⟨congrArg₂ (· + ·) one.captures other.captures, fun s => ?_⟩
  simp only [Regex.ways, one.ways, other.ways]

theorem alt (one : Same first first') (other : Same second second') :
    Same (.alt first second) (.alt first' second') := by
  refine ⟨congrArg₂ (· + ·) one.captures other.captures, fun s => ?_⟩
  simp only [Regex.ways, one.ways, other.ways, one.captures, other.captures]

theorem optional (same : Same body body') : Same (.optional body) (.optional body') := by
  refine ⟨same.captures, fun s => ?_⟩
  simp only [Regex.ways, same.ways, same.captures]

theorem capture (same : Same body body') : Same (.capture body) (.capture body') := by
  refine ⟨congrArg (· + 1) same.captures, fun s => ?_⟩
  simp only [Regex.ways, same.ways]

theorem seq_assoc (r t u : Regex) : Same (.seq (.seq r t) u) (.seq r (.seq t u)) := by
  refine ⟨Nat.add_assoc _ _ _, fun s => ?_⟩
  simp only [Regex.ways, List.flatMap_assoc, List.flatMap_map, List.map_flatMap, List.map_map,
    Match.andThen_comp]
  rfl

theorem empty_seq (r : Regex) : Same (.seq .empty r) r := by
  refine ⟨Nat.zero_add _, fun s => ?_⟩
  simp only [Regex.ways, List.flatMap_cons, List.flatMap_nil, List.append_nil]
  exact List.map_id' _

theorem seq_empty (r : Regex) : Same (.seq r .empty) r := by
  refine ⟨rfl, fun s => ?_⟩
  simp [Regex.ways, Match.andThen]

theorem text_cons (c : Char) (cs : Text) : Same (.seq (.text [c]) (.text cs)) (.text (c :: cs)) := by
  refine ⟨rfl, fun s => ?_⟩
  cases s with
  | nil => rfl
  | cons d s =>
      by_cases same : c = d
      · simp [Regex.ways, List.isPrefixOf?, same, Match.andThen, List.map_map, Function.comp_def]
      · simp [Regex.ways, List.isPrefixOf?, same]

theorem joined_append (more items : List Regex) :
    Same (joined (more ++ items)) (.seq (joined items) (joined more)) := by
  have on : ∀ (items : List Regex) (r : Regex),
      Same (items.foldl (fun rest item => .seq item rest) r) (.seq (joined items) r) := by
    intro items
    induction items with
    | nil => exact fun r => (empty_seq r).symm
    | cons item items ih =>
        intro r
        have one : Same (.seq (joined items) item) (joined (item :: items)) :=
          calc
            Same _ (.seq (joined items) (.seq item .empty)) := seq (refl _) (seq_empty item).symm
            Same _ _ := (ih _).symm
        calc
          Same _ (.seq (joined items) (.seq item r)) := ih (.seq item r)
          Same _ (.seq (.seq (joined items) item) r) := (seq_assoc _ _ _).symm
          Same _ _ := seq one (refl r)
  rw [joined, List.foldl_append]
  exact on items _

end Same

/-! ## The written forms of items -/

/-- The names of `count` captures before which `n` captures open. -/
def groupNames (n count : Nat) : List Text :=
  (List.range' n count).map fun k => 'p' :: (toString k).toList

theorem groupNames_add (n first second : Nat) :
    groupNames n (first + second) = groupNames n first ++ groupNames (n + first) second := by
  rw [groupNames, groupNames, groupNames, ← List.map_append, List.range'_append_1]

/-- Reading the text adds the items to the current level, wherever it stands between items, and
opens `count` captures, named from `n` on. -/
def Spells (n count : Nat) (written : Text) (items : List Regex) : Prop :=
  ∀ (outer : List Opened) (level : Level) (names : List Text) (s : Text),
    Draft.feed ⟨outer, level, names, .items⟩ (written ++ s) =
      Draft.feed ⟨outer, ⟨level.before, items ++ level.items⟩,
        (groupNames n count).reverse ++ names, .items⟩ s

namespace Spells

variable {n count more : Nat} {written other : Text} {items next : List Regex}

theorem nil (n : Nat) : Spells n 0 [] [] := fun _ _ _ _ => rfl

theorem append (one : Spells n count written items) (two : Spells (n + count) more other next) :
    Spells n (count + more) (written ++ other) (next ++ items) := by
  intro outer level names s
  rw [List.append_assoc, one, two, groupNames_add, List.reverse_append, List.append_assoc,
    List.append_assoc]

/-- A character that means nothing by itself is an item. -/
theorem step_of_not_special {d : Draft} {c : Char} (mode : d.mode = .items) :
    isSpecial c = false → d.step c = some (d.add (.text [c])) := by
  intro plain
  have differs : ∀ e, isSpecial e = true → c ≠ e := by
    rintro e marked rfl
    rw [plain] at marked
    cases marked
  simp [Draft.step, mode, Draft.item, plain, differs '\\' rfl, differs '[' rfl, differs '(' rfl,
    differs ')' rfl, differs '|' rfl, differs '?' rfl, differs '$' rfl]

theorem escape (n : Nat) (cs : Text) :
    Spells n 0 (Regex.escape cs) (cs.reverse.map fun c => .text [c]) := by
  induction cs with
  | nil => exact nil n
  | cons c cs ih =>
      have one : Spells n 0 (Regex.escape [c]) [.text [c]] := by
        intro outer level names s
        cases special : isSpecial c with
        | true =>
            simp [Regex.escape, special, Draft.feed, Draft.step, Draft.item, Draft.add, groupNames]
        | false =>
            simp [Regex.escape, special, Draft.feed, step_of_not_special, Draft.add, groupNames]
      have whole := one.append ih
      simpa [Regex.escape] using whole

theorem optional (body : Spells n count written items) :
    Spells n count ('(' :: written ++ [')', '?']) [.optional (joined items)] := by
  intro outer level names s
  have inside := body (⟨false, level⟩ :: outer) ⟨[], []⟩ names (')' :: '?' :: s)
  have spelled : '(' :: written ++ [')', '?'] ++ s = '(' :: (written ++ ')' :: '?' :: s) := by
    simp
  rw [spelled]
  refine inside.trans ?_
  rw [List.append_nil]
  rfl

/-- A capture of what stands between the parentheses, which may have bars in it. -/
theorem capture {body : Text} {level : Level}
    (reads : ∀ (outer : List Opened) (names : List Text) (s : Text),
      Draft.feed ⟨outer, ⟨[], []⟩, names, .items⟩ (body ++ s) =
        Draft.feed ⟨outer, level, names, .items⟩ s) :
    Spells n 1
      (['(', '?', 'P', '<', 'p'] ++ (toString n).toList ++ '>' :: body ++ [')'])
      [.capture level.close] := by
  intro outer before names s
  -- the name is read up to the bracket that closes it
  have name (digits : Text) (free : '>' ∉ digits) (read : Text) (rest : Text) :
      Draft.feed ⟨⟨false, before⟩ :: outer, ⟨[], []⟩, names, .name read⟩ (digits ++ '>' :: rest) =
        Draft.feed ⟨⟨true, before⟩ :: outer, ⟨[], []⟩, (read.reverse ++ digits) :: names, .items⟩
          rest := by
    induction digits generalizing read with
    | nil => simp [Draft.feed, Draft.step, Draft.named]
    | cons c digits ih =>
        rw [List.mem_cons, not_or] at free
        have stepped :
            Draft.step ⟨⟨false, before⟩ :: outer, ⟨[], []⟩, names, .name read⟩ c =
              some ⟨⟨false, before⟩ :: outer, ⟨[], []⟩, names, .name (c :: read)⟩ := by
          simp [Draft.step, Ne.symm free.1]
        rw [List.cons_append, Draft.feed, stepped, Option.bind_some, ih free.2]
        simp
  have bare : '>' ∉ (toString n).toList := by
    intro mem
    have digits : (toString n).toList = Nat.toDigits 10 n := String.toList_ofList
    rw [digits] at mem
    cases Nat.isDigit_of_mem_toDigits (by decide) (by decide) mem
  have spelled :
      ['(', '?', 'P', '<', 'p'] ++ (toString n).toList ++ '>' :: body ++ [')'] ++ s =
        '(' :: '?' :: 'P' :: '<' :: 'p' :: ((toString n).toList ++ '>' :: (body ++ ')' :: s)) := by
    simp
  rw [spelled]
  refine (name _ bare ['p'] _).trans ?_
  rw [reads]
  rfl

end Spells

theorem joined_chars (cs : Text) :
    Same (joined (cs.reverse.map fun c => .text [c])) (.text cs) := by
  induction cs with
  | nil =>
      refine ⟨rfl, fun s => ?_⟩
      simp [joined, ways, List.isPrefixOf?]
  | cons c cs ih =>
      rw [List.reverse_cons, List.map_append]
      calc
        Same _ (.seq (.seq (.text [c]) .empty) (joined (cs.reverse.map fun c => .text [c]))) :=
          Same.joined_append _ _
        Same _ (.seq (.text [c]) (.text cs)) := Same.seq (Same.seq_empty _) ih
        Same _ (.text (c :: cs)) := Same.text_cons c cs

end Regex

namespace Template

open Regex

/-! ## The written forms of shapes -/

theorem same_foldl_alt {r t : Regex} (before : List Regex) (same : Same r t) :
    Same (before.foldl (fun rest first => .alt first rest) r)
      (before.foldl (fun rest first => .alt first rest) t) := by
  induction before generalizing r t with
  | nil => exact same
  | cons first before ih => exact ih (Same.alt (Same.refl first) same)

/-- Options with bars between them are read as alternatives. -/
theorem feed_choice (n : Nat) {options : List Text} (filled : options ≠ []) (before : List Regex) :
    ∃ level : Level,
      Same level.close (before.foldl (fun rest first => .alt first rest) (choice options)) ∧
      ∀ (outer : List Opened) (names : List Text) (s : Text),
        Draft.feed ⟨outer, ⟨before, []⟩, names, .items⟩ ((choice options).write n ++ s) =
          Draft.feed ⟨outer, level, names, .items⟩ s := by
  induction options generalizing before with
  | nil => exact absurd rfl filled
  | cons option options ih =>
      have chars := Spells.escape n option
      cases options with
      | nil =>
          refine ⟨⟨before, option.reverse.map fun c => .text [c]⟩, ?_, fun outer names s => ?_⟩
          · exact same_foldl_alt before (joined_chars option)
          · have spelled : (choice [option]).write n = escape option := rfl
            rw [spelled, chars]
            simp [groupNames]
      | cons next options =>
          -- a bar ends an option, which waits with those before it
          obtain ⟨level, same, reads⟩ :=
            ih (List.cons_ne_nil _ _) (joined (option.reverse.map fun c => .text [c]) :: before)
          refine ⟨level, same.trans ?_, fun outer names s => ?_⟩
          · exact same_foldl_alt before (Same.alt (joined_chars option) (Same.refl _))
          · have spelled : (choice (option :: next :: options)).write n ++ s =
                escape option ++ '|' :: ((choice (next :: options)).write n ++ s) := by
              simp [choice, write, Regex.captures]
            rw [spelled, chars]
            refine Eq.trans ?_ (reads outer names s)
            simp [groupNames, Draft.feed, Draft.step, Draft.item]

end Template

namespace Regex

/-- The written form, wherever it stands, is read as items that match like the expression. -/
def Legible (r : Regex) : Prop :=
  ∀ n, ∃ items, Spells n r.captures (r.write n) items ∧ Same (joined items) r

namespace Legible

variable {first second body : Regex}

theorem empty : Legible .empty := fun n => ⟨[], Spells.nil n, Same.refl _⟩

theorem text (cs : Text) : Legible (.text cs) := fun n => ⟨_, Spells.escape n cs, joined_chars cs⟩

theorem stop : Legible .stop := fun _ => ⟨[.stop], fun _ _ _ _ => rfl, Same.seq_empty _⟩

theorem seq (one : Legible first) (two : Legible second) : Legible (.seq first second) := by
  intro n
  rcases one n with ⟨items, spells, same⟩
  rcases two (n + first.captures) with ⟨more, spells', same'⟩
  refine ⟨more ++ items, spells.append spells', ?_⟩
  calc
    Same _ (.seq (joined items) (joined more)) := Same.joined_append more items
    Same _ _ := Same.seq same same'

theorem optional (inside : Legible body) : Legible (.optional body) := by
  intro n
  rcases inside n with ⟨items, spells, same⟩
  exact ⟨_, spells.optional, (Same.seq_empty _).trans (Same.optional same)⟩

theorem capture (options : List Text) : Legible (.capture (Template.captured options)) := by
  intro n
  rw [captures, Template.captures_captured]
  cases options with
  | nil =>
      have reads (outer : List Opened) (names : List Text) (s : Text) :
          Draft.feed ⟨outer, ⟨[], []⟩, names, .items⟩ (Regex.segment.write (n + 1) ++ s) =
            Draft.feed ⟨outer, ⟨[], [.segment]⟩, names, .items⟩ s := rfl
      refine ⟨_, Spells.capture reads, ?_⟩
      refine (Same.seq_empty _).trans (Same.capture ?_)
      exact Same.seq_empty _
  | cons option options =>
      obtain ⟨level, same, reads⟩ :=
        Template.feed_choice (n + 1) (List.cons_ne_nil option options) []
      exact ⟨_, Spells.capture reads, (Same.seq_empty _).trans (Same.capture same)⟩

/-- What stands at the end of the matcher of a mount. -/
theorem slashOrStop : Legible (.group (.alt (.text ['/']) .stop)) := by
  intro n
  refine ⟨[.group (.alt (joined [.text ['/']]) (joined [.stop]))], fun _ _ _ _ => rfl, ?_⟩
  refine (Same.seq_empty _).trans ?_
  have same := Same.alt (Same.seq_empty (.text ['/'])) (Same.seq_empty .stop)
  exact ⟨same.captures, same.ways⟩

theorem expression (t : Template) : Legible t.expression := by
  fun_induction Template.expression t with
  | case1 => exact empty
  | case2 inner rest starts ih_inner ih => exact seq (text _) (seq (optional ih_inner) ih)
  | case3 inner rest starts ih_inner ih => exact seq (optional (seq (text _) ih_inner)) ih
  | case4 rest other ih => exact seq (text _) ih
  | case5 cs rest ih => exact seq (text _) ih
  | case6 name options rest ih => exact seq (capture options) ih
  | case7 inner rest ih_inner ih => exact seq (optional ih_inner) ih

theorem matcher (t : Template) : Legible t.matcher := by
  rw [Template.matcher]
  split
  · exact seq (expression _) slashOrStop
  · exact seq (expression _) stop

end Legible
end Regex

namespace Template

open Regex

/-- What is read from the written form of a matcher matches like the matcher, and its captures are
named from `p0` on. -/
theorem ofSource?_source (t : Template) :
    ∃ r, ofSource? t.matcher.source = some (r, groupNames 0 t.matcher.captures) ∧
      Same r t.matcher := by
  rcases Legible.matcher t 0 with ⟨items, spells, same⟩
  refine ⟨joined items, ?_, same⟩
  have read := spells [] ⟨[], []⟩ [] []
  rw [List.append_nil, List.append_nil, List.append_nil] at read
  have fed : Draft.start.feed (t.matcher.write 0) =
      some ⟨[], ⟨[], items⟩, (groupNames 0 t.matcher.captures).reverse, .items⟩ := read
  rw [source, ofSource?, fed, Option.bind_some, Draft.finish, List.reverse_reverse]
  rfl

end Template
end PathRouter
