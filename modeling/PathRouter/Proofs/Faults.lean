import PathRouter.Proofs.Compile

/-!
# Faults — where a refused path goes wrong

A fault of a route path names the byte at which it is and the character there.  This file defines

* `Fault.place?`, the two as the fault names them, and `Text.Stands`, that they are right;
* `Text.openBrackets`, the brackets that a text leaves open;
* `Reader.opened`, those that a reader waits for, and `Reader.Refuses`, all the ways in which it refuses
  a character;

and shows `Reader.opened_of_feed`, that the reader waits for the brackets that are open,
`Template.stands_of_parse`, that a fault is where it is said to be, `Template.parse_unexpected`, that an
unexpected character is refused whatever follows, and all this for patterns in
`Pattern.compile_points_at_fault`.
-/

namespace PathRouter

variable {s t path raw : Text} {offset : Nat} {c : Char} {place : Nat × Char} {fault : Fault}

/-! ## Places -/

/-- The offset that a fault names, with the character that it says stands there. -/
def Fault.place? : Fault → Option (Nat × Char)
  | .unexpected offset found => some (offset, found)
  | .unterminated offset opened => some (offset, opened)
  | .emptyCaptureName offset => some (offset, '{')
  | .emptyOptional offset => some (offset, '[')
  | .empty => none
  | .missingLeadingSlash => none
  | .invalidCaptureName _ => none
  | .emptyOption _ => none
  | .nestedTooDeep => none

namespace Text

/-- The character that starts at a byte of the text. -/
def Stands (s : Text) (offset : Nat) (c : Char) : Prop :=
  ∃ before after, s = before ++ c :: after ∧ utf8Length before = offset

theorem Stands.append (stands : Stands s offset c) (t : Text) : Stands (s ++ t) offset c := by
  rcases stands with ⟨before, after, rfl, size⟩
  exact ⟨before, after ++ t, by simp, size⟩

theorem Stands.cons (stands : Stands s offset c) (d : Char) :
    Stands (d :: s) (d.utf8Size + offset) c := by
  rcases stands with ⟨before, after, rfl, rfl⟩
  exact ⟨d :: before, after, rfl, rfl⟩

theorem stands_cons (c : Char) (s : Text) : Stands (c :: s) 0 c := ⟨[], s, rfl, rfl⟩

/-- A character starts between two characters, and before the end. -/
theorem Stands.isValid (stands : Stands s offset c) :
    String.Pos.Raw.IsValid (String.ofList s) ⟨offset⟩ ∧ offset < utf8Length s := by
  rcases stands with ⟨before, after, rfl, rfl⟩
  have filled : 0 < c.utf8Size := c.utf8Size_pos
  refine ⟨isValid_of_append rfl, ?_⟩
  rw [utf8Length_append, utf8Length_cons]
  omega

/-! ## Brackets -/

/-- The brackets that are open after a character more, innermost first. -/
def bracket (offset : Nat) (opened : List (Nat × Char)) (c : Char) : List (Nat × Char) :=
  if c = '{' ∨ c = '[' then (offset, c) :: opened
  else if c = '}' ∨ c = ']' then opened.tail
  else opened

/-- The brackets that are open after a text whose first character stands at `offset`. -/
def openBrackets (offset : Nat) (opened : List (Nat × Char)) : Text → List (Nat × Char)
  | [] => opened
  | c :: rest => openBrackets (offset + c.utf8Size) (bracket offset opened c) rest

theorem mem_bracket {opened : List (Nat × Char)} :
    place ∈ bracket offset opened c → place = (offset, c) ∨ place ∈ opened := by
  intro mem
  rw [bracket] at mem
  split at mem
  · exact List.mem_cons.1 mem
  split at mem
  · exact .inr (List.mem_of_mem_tail mem)
  · exact .inr mem

/-- A bracket that is open after a text was open before it, or stands in it. -/
theorem mem_openBrackets {opened : List (Nat × Char)} :
    place ∈ openBrackets offset opened s →
      place ∈ opened ∨ ∃ n, place.1 = offset + n ∧ Stands s n place.2 := by
  intro mem
  induction s generalizing offset opened with
  | nil => exact .inl mem
  | cons c s ih =>
      rcases ih mem with here | ⟨n, behind, stands⟩
      · rcases mem_bracket here with rfl | before
        · exact .inr ⟨0, rfl, stands_cons c s⟩
        · exact .inl before
      · exact .inr ⟨c.utf8Size + n, by rw [behind, Nat.add_assoc], stands.cons c⟩

end Text

/-! ## One character -/

/-- The bracket that opens a group, with its offset. -/
def OpenGroup.bracket (group : OpenGroup) : Nat × Char := (group.offset, '[')

namespace Reader

variable {r next last : Reader} {outer : List OpenGroup} {parts : List Template} {body : Text}

/-- The brackets that are still to be closed, innermost first. -/
def opened (r : Reader) : List (Nat × Char) :=
  match r.pending with
  | .literal _ => r.outer.map OpenGroup.bracket
  | .capture offset _ => (offset, '{') :: r.outer.map OpenGroup.bracket

/-- The ways in which the character at `offset` is refused. -/
inductive Refuses (r : Reader) (offset : Nat) (c : Char) : Fault → Prop where
  | unexpected : Refuses r offset c (.unexpected offset c)
  | noName {brace : Nat} : (brace, '{') ∈ r.opened → Refuses r offset c (.emptyCaptureName brace)
  | badName (name : Text) : Refuses r offset c (.invalidCaptureName name)
  | noOption (name : Text) : Refuses r offset c (.emptyOption name)
  | noPart {bracket : Nat} : (bracket, '[') ∈ r.opened → Refuses r offset c (.emptyOptional bracket)

theorem opened_of_mark :
    mark offset outer parts c = .ok next →
      next.opened = Text.bracket offset (outer.map OpenGroup.bracket) c := by
  intro read
  simp only [mark] at read
  -- a slash leaves the brackets alone, one that opens is put first, one that closes takes the first away
  split at read
  · rename_i slash
    subst slash
    cases read
    rfl
  split at read
  · rename_i brace
    subst brace
    cases read
    rfl
  split at read
  · rename_i bracket
    subst bracket
    cases read
    rfl
  split at read
  · rename_i bracket
    subst bracket
    cases outer with
    | nil => cases read
    | cons group outer =>
        cases none : parts.isEmpty with
        | true => simp [none] at read
        | false =>
            simp only [none, Bool.false_eq_true, if_false, Except.ok.injEq] at read
            subst read
            rfl
  · cases read

/-- A character more opens and closes what it opens and closes in the text. -/
theorem opened_of_step :
    r.step offset c = .ok next → next.opened = Text.bracket offset r.opened c := by
  intro read
  rcases r with ⟨outer, parts, pending⟩
  cases pending with
  | literal text =>
      cases reserved : Template.isReserved c with
      | true =>
          simp only [step, reserved, if_true] at read
          exact opened_of_mark read
      | false =>
          simp only [step, reserved, Bool.false_eq_true, if_false, Except.ok.injEq] at read
          subst read
          simp only [Template.isReserved, Bool.or_eq_false_iff, decide_eq_false_iff_not] at reserved
          simp [opened, Text.bracket, reserved]
  | capture brace body =>
      by_cases close : c = '}'
      · subst close
        cases taken : capture brace body.reverse with
        | error fault => simp [step, taken] at read
        | ok part =>
            simp only [step, taken, if_true, Except.ok.injEq] at read
            subst read
            rfl
      · cases refused : endsCapture c with
        | true => simp [step, close, refused] at read
        | false =>
            simp only [step, close, refused, Bool.false_eq_true, if_false, Except.ok.injEq] at read
            subst read
            simp only [endsCapture, Bool.or_eq_false_iff, decide_eq_false_iff_not] at refused
            simp [opened, Text.bracket, refused, close]

theorem refuses_of_mark (waits : r.opened = outer.map OpenGroup.bracket) :
    mark offset outer parts c = .error fault → r.Refuses offset c fault := by
  intro read
  simp only [mark] at read
  -- a slash and what opens a bracket are always taken
  split at read
  · cases read
  split at read
  · cases read
  split at read
  · cases read
  split at read
  · cases outer with
    | nil =>
        cases read
        exact .unexpected
    | cons group outer =>
        cases none : parts.isEmpty with
        | false => simp [none] at read
        | true =>
            simp only [none, if_true, Except.error.injEq] at read
            subst read
            exact .noPart (waits ▸ List.mem_cons_self)
  · cases read
    exact .unexpected

theorem refuses_of_capture {brace : Nat} (waits : (brace, '{') ∈ r.opened) :
    capture brace body = .error fault → r.Refuses offset c fault := by
  intro read
  simp only [capture] at read
  split at read
  · cases read
    exact .noName waits
  split at read
  · split at read
    · cases read
    · split at read
      · cases read
        exact .noOption _
      · cases read
  · cases read
    exact .badName _

theorem refuses_of_step : r.step offset c = .error fault → r.Refuses offset c fault := by
  intro read
  rcases r with ⟨outer, parts, pending⟩
  cases pending with
  | literal text =>
      cases reserved : Template.isReserved c with
      | false => simp [step, reserved] at read
      | true =>
          simp only [step, reserved, if_true] at read
          exact refuses_of_mark rfl read
  | capture brace body =>
      by_cases close : c = '}'
      · subst close
        cases taken : capture brace body.reverse with
        | ok part => simp [step, taken] at read
        | error cause =>
            simp only [step, taken, if_true, Except.error.injEq] at read
            subst read
            exact refuses_of_capture List.mem_cons_self taken
      · cases refused : endsCapture c with
        | false => simp [step, close, refused] at read
        | true =>
            simp only [step, close, refused, if_true, if_false, Except.error.injEq] at read
            subst read
            exact .unexpected

/-- A character is refused for what it is or for a bracket that is still open. -/
theorem place_of_refuses (refused : r.Refuses offset c fault) :
    fault.place? = some place → place = (offset, c) ∨ place ∈ r.opened := by
  intro named
  cases refused with
  | unexpected => exact .inl (Option.some.inj named).symm
  | noName waits =>
      cases named
      exact .inr waits
  | badName name => cases named
  | noOption name => cases named
  | noPart waits =>
      cases named
      exact .inr waits

/-! ## A text -/

/-- The reader waits for the brackets that the text leaves open. -/
theorem opened_of_feed :
    r.feed offset s = .ok last → last.opened = Text.openBrackets offset r.opened s := by
  intro read
  induction s generalizing offset r with
  | nil =>
      cases read
      rfl
  | cons c s ih =>
      rcases feed_cons_eq_ok.1 read with ⟨next, stepped, read⟩
      rw [ih read, opened_of_step stepped, Text.openBrackets]

/-- A bracket that the reader waits for stands in what has been read. -/
theorem stands_of_mem_opened (read : start.feed 0 s = .ok last) :
    place ∈ last.opened → Text.Stands s place.1 place.2 := by
  intro waits
  rw [opened_of_feed read] at waits
  rcases Text.mem_openBrackets waits with none | ⟨n, behind, stands⟩
  · cases none
  · rw [behind, Nat.zero_add]
    exact stands

/-- A text is refused at the first character that is, whatever follows it. -/
theorem feed_eq_error :
    r.feed offset s = .error fault ↔
      ∃ before c after last, s = before ++ c :: after ∧ r.feed offset before = .ok last ∧
        last.step (offset + Text.utf8Length before) c = .error fault := by
  -- the offset moves on with the reader, so both are general
  constructor
  · intro refused
    induction s generalizing offset r with
    | nil => cases refused
    | cons c s ih =>
        rw [feed] at refused
        cases stepped : r.step offset c with
        | error cause =>
            rw [stepped] at refused
            cases refused
            exact ⟨[], c, s, r, rfl, rfl, stepped⟩
        | ok next =>
            rw [stepped] at refused
            rcases ih refused with ⟨before, d, after, last, rfl, read, there⟩
            refine ⟨c :: before, d, after, last, rfl, ?_, ?_⟩
            · rw [feed_cons stepped, read]
            · rw [Text.utf8Length_cons, ← Nat.add_assoc]
              exact there
  · rintro ⟨before, c, after, last, rfl, read, there⟩
    induction before generalizing offset r with
    | nil =>
        cases read
        rw [Text.utf8Length_nil, Nat.add_zero] at there
        rw [List.nil_append, feed, there]
    | cons d before ih =>
        rcases feed_cons_eq_ok.1 read with ⟨next, stepped, read⟩
        rw [Text.utf8Length_cons, ← Nat.add_assoc] at there
        rw [List.cons_append, feed_cons stepped]
        exact ih read there

/-- At the end it is the innermost bracket that is missed. -/
theorem finish_eq_error :
    r.finish = .error fault →
      ∃ bracket, r.opened.head? = some bracket ∧ fault = .unterminated bracket.1 bracket.2 := by
  intro missed
  rcases r with ⟨outer, parts, pending⟩
  cases pending with
  | capture brace body =>
      cases missed
      exact ⟨(brace, '{'), rfl, rfl⟩
  | literal text =>
      cases outer with
      | nil => cases missed
      | cons group outer =>
          cases missed
          exact ⟨group.bracket, rfl, rfl⟩

end Reader

/-! ## Paths -/

namespace Template

variable {e : PatternError}

/-- A path is refused for its first character, on the way or at its end. -/
theorem parse_eq_error :
    parse path = .error e →
      e.path = path ∧
        (e.fault = .empty ∨ e.fault = .missingLeadingSlash ∨
          (path.head? = some '/' ∧ Reader.start.feed 0 path = .error e.fault) ∨
          ∃ last, Reader.start.feed 0 path = .ok last ∧ last.finish = .error e.fault) := by
  intro refused
  cases path with
  | nil =>
      cases refused
      exact ⟨rfl, .inl rfl⟩
  | cons c rest =>
      by_cases slash : c = '/'
      · subst slash
        simp only [parse, if_true] at refused
        cases fed : Reader.start.feed 0 ('/' :: rest) with
        | error fault =>
            rw [fed] at refused
            cases refused
            exact ⟨rfl, .inr (.inr (.inl ⟨rfl, rfl⟩))⟩
        | ok last =>
            rw [fed] at refused
            cases finished : last.finish with
            | ok shape => simp [finished, Except.mapError] at refused
            | error fault =>
                simp only [finished, Except.mapError, Except.error.injEq] at refused
                subst refused
                exact ⟨rfl, .inr (.inr (.inr ⟨last, rfl, finished⟩))⟩
      · simp only [parse, slash, if_false, Except.mapError, Except.error.injEq] at refused
        subst refused
        exact ⟨rfl, .inr (.inl rfl)⟩

theorem parse_of_feed_eq_error (slash : path.head? = some '/')
    (fed : Reader.start.feed 0 path = .error fault) : parse path = .error ⟨path, fault⟩ := by
  rcases List.head?_eq_some_iff.1 slash with ⟨rest, rfl⟩
  simp only [parse, if_true, fed]
  rfl

/-- A fault is where it is said to be. -/
theorem stands_of_parse (refused : parse path = .error e) :
    e.fault.place? = some (offset, c) → Text.Stands path offset c := by
  intro named
  rcases (parse_eq_error refused).2 with empty | noSlash | ⟨slash, fed⟩ | ⟨last, read, missed⟩
  · rw [empty] at named
    cases named
  · rw [noSlash] at named
    cases named
  · -- the character itself, or a bracket in what precedes it
    rcases Reader.feed_eq_error.1 fed with ⟨before, d, after, last, rfl, read, there⟩
    rw [Nat.zero_add] at there
    rcases Reader.place_of_refuses (Reader.refuses_of_step there) named with same | waits
    · cases same
      exact ⟨before, after, rfl, rfl⟩
    · exact (Reader.stands_of_mem_opened read waits).append _
  · rcases Reader.finish_eq_error missed with ⟨bracket, first, unterminated⟩
    rw [unterminated] at named
    cases named
    exact Reader.stands_of_mem_opened read (List.mem_of_mem_head? first)

/-- What is missed at the end is the innermost bracket that is open there. -/
theorem innermost_of_parse (refused : parse path = .error e) :
    e.fault = .unterminated offset c → (Text.openBrackets 0 [] path).head? = some (offset, c) := by
  intro unterminated
  rcases (parse_eq_error refused).2 with empty | noSlash | ⟨slash, fed⟩ | ⟨last, read, missed⟩
  · cases unterminated.symm.trans empty
  · cases unterminated.symm.trans noSlash
  · -- no character is refused for what is missing at the end
    rcases Reader.feed_eq_error.1 fed with ⟨before, d, after, last, rfl, read, there⟩
    rw [unterminated] at there
    cases Reader.refuses_of_step there
  · rcases Reader.finish_eq_error missed with ⟨bracket, first, same⟩
    cases unterminated.symm.trans same
    rw [Reader.opened_of_feed read] at first
    exact first

/-- An unexpected character is refused whatever follows it. -/
theorem parse_unexpected (refused : parse path = .error e) :
    e.fault = .unexpected offset c →
      ∃ before, before ++ [c] <+: path ∧ Text.utf8Length before = offset ∧
        ∀ other, before ++ [c] <+: other → parse other = .error ⟨other, .unexpected offset c⟩ := by
  intro unexpected
  rcases (parse_eq_error refused).2 with empty | noSlash | ⟨slash, fed⟩ | ⟨last, read, missed⟩
  · cases unexpected.symm.trans empty
  · cases unexpected.symm.trans noSlash
  · rcases Reader.feed_eq_error.1 fed with ⟨before, d, after, last, rfl, read, there⟩
    rw [unexpected] at there
    have first := there
    rw [Nat.zero_add] at first
    cases Reader.refuses_of_step first
    refine ⟨before, ⟨after, by simp⟩, rfl, ?_⟩
    rintro other ⟨more, rfl⟩
    refine parse_of_feed_eq_error ?_
      (Reader.feed_eq_error.2 ⟨before, c, more, last, by simp, read, there⟩)
    -- the two paths start with the same character
    cases before with
    | nil => exact slash
    | cons first before => exact slash
  · rcases Reader.finish_eq_error missed with ⟨bracket, first, same⟩
    cases unexpected.symm.trans same

end Template

namespace Pattern

variable {e : PatternError}

theorem canonicalize_eq_error :
    canonicalize raw = .error e →
      ∃ stem, raw = stem ++ ['*'] ∧ e = ⟨raw, .unexpected (Text.utf8Length stem) '*'⟩ := by
  intro refused
  simp only [canonicalize] at refused
  split at refused
  next star =>
    rcases endsIn_iff.1 star with ⟨stem, rfl⟩
    rw [List.dropLast_concat] at refused
    split at refused
    next => cases refused
    next =>
      cases refused
      exact ⟨stem, rfl, rfl⟩
  next =>
    split at refused
    next => cases refused
    next => cases refused

/-- What is read is the path, or the path without the star at its end. -/
theorem canonicalize_path {canonical : Text} (forms : canonicalize raw = .ok (path, canonical)) :
    path = raw ∨ path ++ ['*'] = raw := by
  rcases canonicalize_eq_ok forms with ⟨rfl, same | same⟩
  · exact .inl same.symm
  · rw [mountForm] at same
    split at same
    next => exact .inr same.symm
    next => exact .inl same.symm

/-- A path is refused for a star that follows no slash at its end, for what is written before it, or for
the depth of its groups. -/
theorem compile_eq_error :
    compile raw = .error e →
      (∃ stem, raw = stem ++ ['*'] ∧ e = ⟨raw, .unexpected (Text.utf8Length stem) '*'⟩) ∨
        (∃ path, (path = raw ∨ path ++ ['*'] = raw) ∧ Template.parse path = .error e) ∨
        e = ⟨raw, .nestedTooDeep⟩ := by
  intro refused
  simp only [compile] at refused
  split at refused
  next => cases refused
  split at refused
  next => cases refused
  split at refused
  next misplaced =>
    cases refused
    exact .inl (canonicalize_eq_error misplaced)
  next path canonical forms =>
    split at refused
    next wrong =>
      cases refused
      exact .inr (.inl ⟨path, canonicalize_path forms, wrong⟩)
    next t parsed =>
      simp only [ofTemplate] at refused
      split at refused
      next => cases refused
      split at refused
      next =>
        cases refused
        exact .inr (.inr rfl)
      next => cases refused

/-- The faults of route paths are where they are said to be.  A fault with an offset is in the path, or
in the path without the star at its end, and at the offset, which is between two characters and before
the end, stands the character that the fault names.  A bracket that is not closed is the innermost one
open at the end.  An unexpected character is refused by the reader in every text that begins with what
leads up to it. -/
theorem compile_points_at_fault :
    (∀ raw e offset c, compile raw = .error e → e.fault.place? = some (offset, c) →
      (e.path = raw ∨ e.path ++ ['*'] = raw) ∧
        (String.Pos.Raw.IsValid (String.ofList e.path) ⟨offset⟩ ∧
          offset < Text.utf8Length e.path) ∧
        Text.Stands e.path offset c) ∧
    (∀ raw e offset c, compile raw = .error e → e.fault = .unterminated offset c →
      (Text.openBrackets 0 [] e.path).head? = some (offset, c)) ∧
    ∀ path e offset c, Template.parse path = .error e → e.fault = .unexpected offset c →
      ∃ before, before ++ [c] <+: path ∧ Text.utf8Length before = offset ∧
        ∀ other, before ++ [c] <+: other →
          Template.parse other = .error ⟨other, .unexpected offset c⟩ := by
  refine ⟨fun raw e offset c refused named => ?_, fun raw e offset c refused unterminated => ?_,
    fun path e offset c => Template.parse_unexpected⟩
  · rcases compile_eq_error refused with ⟨stem, rfl, rfl⟩ | ⟨path, read, wrong⟩ | rfl
    · cases named
      have stands : Text.Stands (stem ++ ['*']) (Text.utf8Length stem) '*' := ⟨stem, [], rfl, rfl⟩
      exact ⟨.inl rfl, stands.isValid, stands⟩
    · have stands := Template.stands_of_parse wrong named
      rw [← (Template.parse_eq_error wrong).1] at read stands
      exact ⟨read, stands.isValid, stands⟩
    · cases named
  · rcases compile_eq_error refused with ⟨stem, rfl, rfl⟩ | ⟨path, read, wrong⟩ | rfl
    · cases unterminated
    · rw [(Template.parse_eq_error wrong).1]
      exact Template.innermost_of_parse wrong unterminated
    · cases unterminated

/-- The offset of a brace in a group counts the bytes before it, and no text after a bracket that closes
nothing makes up for it. -/
theorem compile_points_at_fault_nested :
    (∃ e, compile "/é[\x7ba".toList = .error e ∧ Text.Stands e.path 4 '{' ∧
      (Text.openBrackets 0 [] e.path).head? = some (4, '{')) ∧
    ∀ more, Template.parse ("/a]".toList ++ more) =
      .error ⟨"/a]".toList ++ more, .unexpected 2 ']'⟩ := by
  rcases compile_points_at_fault with ⟨stands, innermost, unexpected⟩
  have refused : compile "/é[\x7ba".toList = .error ⟨"/é[\x7ba".toList, .unterminated 4 '{'⟩ := rfl
  have closed : Template.parse "/a]".toList = .error ⟨"/a]".toList, .unexpected 2 ']'⟩ := rfl
  refine ⟨⟨_, refused, ?_, ?_⟩, fun more => ?_⟩
  · exact (stands _ _ _ _ refused rfl).2.2
  · exact innermost _ _ _ _ refused rfl
  · rcases unexpected _ _ _ _ closed rfl with ⟨before, here, -, always⟩
    exact always _ (here.trans (List.prefix_append _ _))

end Pattern
end PathRouter
