import PathRouter.Proofs.Template
import PathRouter.Proofs.Text
import PathRouter.Template.Reader
import Mathlib.Data.Set.Function

/-!
# Reading — a path and its shape determine each other

`Template.parse` accepts the written forms of the well-formed shapes and nothing else.  This file has

* `Reader.capture_sound` and `Reader.capture_complete`, what may stand between braces;
* `Reader.Sound` and `Reader.written`, kept and extended by every character, for the paths that are
  accepted;
* `Reader.push` and `Reader.feed_toText`, a whole shape read at once, for the shapes that are
  reached;
* `Template.parse_sound` and `Template.parse_toText`, and both together in `Template.parse_bijOn`.
-/

namespace PathRouter

/-! ## Characters -/

namespace Template

theorem isReserved_of_isLetter {c : Char} : Text.isLetter c = true → isReserved c = false := by
  intro letter
  rw [Bool.eq_false_iff]
  intro reserved
  simp only [isReserved, Bool.or_eq_true, decide_eq_true_eq] at reserved
  rcases reserved with ((((rfl | rfl) | rfl) | rfl) | rfl) | rfl <;> cases letter

theorem isReserved_of_isDigit {c : Char} : Text.isDigit c = true → isReserved c = false := by
  intro digit
  rw [Bool.eq_false_iff]
  intro reserved
  simp only [isReserved, Bool.or_eq_true, decide_eq_true_eq] at reserved
  rcases reserved with ((((rfl | rfl) | rfl) | rfl) | rfl) | rfl <;> cases digit

/-- The characters that make a name. -/
theorem nameChar_of_mem {name : Text} (legal : isName name = true) {c : Char} :
    c ∈ name → (Text.isLetter c || Text.isDigit c || c = '_') = true := by
  intro mem
  cases name with
  | nil => cases legal
  | cons d rest =>
      rw [isName, Bool.and_eq_true, List.all_eq_true] at legal
      rcases List.mem_cons.1 mem with rfl | mem
      · rw [legal.1]
        rfl
      · exact legal.2 c mem

theorem isReserved_of_mem_name {name : Text} (legal : isName name = true) {c : Char} :
    c ∈ name → isReserved c = false := by
  intro mem
  have made := nameChar_of_mem legal mem
  rw [Bool.or_eq_true, Bool.or_eq_true, decide_eq_true_eq] at made
  rcases made with (letter | digit) | rfl
  · exact isReserved_of_isLetter letter
  · exact isReserved_of_isDigit digit
  · rfl

theorem colon_not_mem_name {name : Text} (legal : isName name = true) : ':' ∉ name := by
  intro mem
  cases nameChar_of_mem legal mem

theorem isOption_iff {option : Text} :
    isOption option = true ↔
      option ≠ [] ∧ '|' ∉ option ∧ ∀ c ∈ option, isReserved c = false := by
  rw [isOption, Bool.and_eq_true, List.all_eq_true, Bool.not_eq_true', List.isEmpty_eq_false_iff]
  refine and_congr_right fun _ => ?_
  constructor
  · intro legal
    refine ⟨fun mem => ?_, fun c mem => ?_⟩
    · have bar := legal '|' mem
      simp at bar
    · have both := legal c mem
      rw [Bool.and_eq_true] at both
      simpa using both.1
  · rintro ⟨bar, free⟩ c mem
    have differs : c ≠ '|' := fun same => bar (same ▸ mem)
    simp [free c mem, differs]

theorem mem_optionsText {options : List Text} {option : Text} {c : Char} (listed : option ∈ options) :
    c ∈ option → c ∈ optionsText options := by
  intro mem
  cases options with
  | nil => cases listed
  | cons first options =>
      exact List.mem_cons_of_mem _ (Text.mem_join_of_mem listed mem)

/-- Nothing reserved stands between the braces of a legal capture. -/
theorem isReserved_of_mem_body {name : Text} {options : List Text} (named : isName name = true)
    (legal : ∀ option ∈ options, isOption option = true) {c : Char} :
    c ∈ name ++ optionsText options → isReserved c = false := by
  intro mem
  rcases List.mem_append.1 mem with mem | mem
  · exact isReserved_of_mem_name named mem
  · cases options with
    | nil => cases mem
    | cons option options =>
        rcases List.mem_cons.1 mem with rfl | mem
        · rfl
        · rcases Text.mem_join mem with rfl | ⟨piece, listed, mem⟩
          · rfl
          · exact (isOption_iff.1 (legal piece listed)).2.2 c mem

end Template

namespace Reader

open Template

/-- Outside a capture it is the brace that closes it, inside it the other marks, that is refused. -/
theorem isReserved_of_endsCapture {c : Char} (open' : c ≠ '}') :
    isReserved c = endsCapture c := by
  simp [isReserved, endsCapture, open']

/-! ## Captures -/

theorem optionsText_splitOn (list : Text) : optionsText (Text.splitOn '|' list) = ':' :: list := by
  rcases List.exists_cons_of_ne_nil (Text.splitOn_ne_nil '|' list) with ⟨piece, pieces, split⟩
  rw [split, optionsText, ← split, Text.join_splitOn]
  simp

/-- What is read as a capture spells its name and its options. -/
theorem capture_sound {offset : Nat} {body : Text} {part : Template} :
    capture offset body = .ok part →
      ∃ name options, part = .capture name options .done ∧ isName name = true ∧
        (∀ option ∈ options, option ≠ [] ∧ '|' ∉ option) ∧ body = name ++ optionsText options := by
  intro read
  by_cases colon : ':' ∈ body
  · -- the name ends at the first colon, and every bar after it ends an option
    rcases List.eq_append_cons_of_mem colon with ⟨name, list, rfl, first⟩
    simp only [capture, Text.breakAt_append list first] at read
    split at read
    · cases read
    split at read
    · rename_i named
      split at read
      · cases read
      · rename_i filled
        refine ⟨name, Text.splitOn '|' list, (Except.ok.inj read).symm, named, ?_, ?_⟩
        · intro option mem
          refine ⟨?_, Text.not_mem_of_mem_splitOn mem⟩
          rintro rfl
          exact filled (List.any_eq_true.2 ⟨[], mem, rfl⟩)
        · rw [optionsText_splitOn]
    · cases read
  · simp only [capture, Text.breakAt_of_not_mem colon] at read
    split at read
    · cases read
    split at read
    · rename_i named
      refine ⟨body, [], (Except.ok.inj read).symm, named, ?_, (List.append_nil body).symm⟩
      exact fun option mem => absurd mem List.not_mem_nil
    · cases read

/-- A name with options is read as the capture that it spells. -/
theorem capture_complete {offset : Nat} {name : Text} {options : List Text}
    (named : isName name = true) (legal : ∀ option ∈ options, option ≠ [] ∧ '|' ∉ option) :
    capture offset (name ++ optionsText options) = .ok (.capture name options .done) := by
  have begun : name.isEmpty = false := by
    cases name with
    | nil => cases named
    | cons => rfl
  have bare := colon_not_mem_name named
  cases options with
  | nil => simp [capture, optionsText, Text.breakAt_of_not_mem bare, begun, named]
  | cons option options =>
      have pieces : Text.splitOn '|' (Text.join ['|'] (option :: options)) = option :: options :=
        Text.splitOn_join (List.cons_ne_nil _ _) fun piece mem => (legal piece mem).2
      have filled : (option :: options).any List.isEmpty = false := by
        rw [List.any_eq_false]
        intro piece mem
        rw [List.isEmpty_iff]
        exact (legal piece mem).1
      rw [capture, optionsText, Text.breakAt_append _ bare]
      · simp only [begun, named, pieces, filled]
        rfl
      · simp

/-! ## Levels -/

@[simp] theorem join_cons (part : Template) (parts : List Template) :
    join (part :: parts) = join parts ++ part := by
  have from' : ∀ (ps : List Template) (t : Template),
      ps.foldl (fun rest part => part ++ rest) t = join ps ++ t := by
    intro ps
    induction ps with
    | nil => exact fun t => rfl
    | cons p ps ih =>
        intro t
        rw [join, List.foldl_cons, List.foldl_cons, ih, ih, append_done, Template.append_assoc]
  rw [join, List.foldl_cons, from', append_done]

/-- The parts of a level, none of them empty, make a shape that has a written form. -/
structure Sound (parts : List Template) : Prop where
  wellFormed : (join parts).WellFormed
  filled : ∀ part ∈ parts, part.isDone = false

theorem sound_nil : Sound [] := ⟨trivial, fun _ mem => absurd mem List.not_mem_nil⟩

theorem Sound.isDone_join {parts : List Template} (sound : Sound parts) :
    (join parts).isDone = parts.isEmpty := by
  cases parts with
  | nil => rfl
  | cons part parts =>
      simp [sound.filled part List.mem_cons_self]

theorem Sound.cons {part : Template} {parts : List Template} (sound : Sound parts)
    (legal : part.WellFormed) (filled : part.isDone = false)
    (seam : (join parts).endsInLiteral = true → part.startsWithLiteral = false) :
    Sound (part :: parts) := by
  refine ⟨?_, ?_⟩
  · rw [join_cons, wellFormed_append]
    exact ⟨sound.wellFormed, legal, seam⟩
  · rintro other mem
    rcases List.mem_cons.1 mem with rfl | mem
    · exact filled
    · exact sound.filled other mem

theorem toText_join_flush (parts : List Template) (text : Text) :
    (join (flush parts text)).toText = (join parts).toText ++ text.reverse := by
  cases text with
  | nil => simp [flush]
  | cons c text => simp [flush, toText]

theorem Sound.flush {parts : List Template} {text : Text} (sound : Sound parts)
    (free : ∀ c ∈ text, isReserved c = false) (bare : (join parts).endsInLiteral = false) :
    Sound (flush parts text) := by
  cases text with
  | nil => exact sound
  | cons c text =>
      refine sound.cons ⟨?_, ?_, rfl, trivial⟩ rfl ?_
      · simp
      · intro d mem
        exact free d (List.mem_reverse.1 mem)
      · intro ends
        rw [bare] at ends
        cases ends

/-! ## What has been read is kept -/

/-- What has been read of the groups that are still open. -/
def outerText : List OpenGroup → Text
  | [] => []
  | group :: outer => outerText outer ++ (join group.before).toText ++ ['[']

/-- What has been read of the part that is not finished. -/
def pendingText : Pending → Text
  | .literal text => text.reverse
  | .capture _ body => '{' :: body.reverse

/-- The text that brought the reader into its state. -/
def written (r : Reader) : Text :=
  outerText r.outer ++ (join r.parts).toText ++ pendingText r.pending

/-- What may be pending after the parts of a level. -/
def Follows (parts : List Template) : Pending → Prop
  | .literal text => (∀ c ∈ text, isReserved c = false) ∧ (join parts).endsInLiteral = false
  | .capture _ body => ∀ c ∈ body, isReserved c = false

/-- Every level is sound, and the last one can take what is pending. -/
structure Valid (r : Reader) : Prop where
  outer : ∀ group ∈ r.outer, Sound group.before
  parts : Sound r.parts
  pending : Follows r.parts r.pending

theorem valid_start : Valid start :=
  ⟨fun _ mem => absurd mem List.not_mem_nil, sound_nil, fun _ mem => absurd mem List.not_mem_nil, rfl⟩

/-- A part that is no literal may follow anything, and a literal may follow it. -/
theorem Valid.push {outer : List OpenGroup} {parts : List Template} {part : Template}
    (outer_sound : ∀ group ∈ outer, Sound group.before) (sound : Sound parts)
    (legal : part.WellFormed) (filled : part.isDone = false) (bare : part.startsWithLiteral = false)
    (ends : part.endsInLiteral = false) : Valid ⟨outer, part :: parts, .literal []⟩ := by
  refine ⟨outer_sound, sound.cons legal filled fun _ => bare, ?_, ?_⟩
  · exact fun _ mem => absurd mem List.not_mem_nil
  · rw [join_cons, endsInLiteral_append_of_not_isDone _ filled]
    exact ends

theorem mark_written {offset : Nat} {outer : List OpenGroup} {parts : List Template} {c : Char}
    {next : Reader} (outer_sound : ∀ group ∈ outer, Sound group.before) (sound : Sound parts) :
    mark offset outer parts c = .ok next →
      next.Valid ∧ next.written = outerText outer ++ (join parts).toText ++ [c] := by
  intro read
  simp only [mark] at read
  -- a slash is a part, a brace or bracket that opens leaves the level, and one that closes comes back
  split at read
  · rename_i slash
    subst slash
    cases read
    exact ⟨Valid.push outer_sound sound trivial rfl rfl rfl, by simp [written, pendingText, toText]⟩
  split at read
  · rename_i brace
    subst brace
    cases read
    exact ⟨⟨outer_sound, sound, fun _ mem => absurd mem List.not_mem_nil⟩, rfl⟩
  split at read
  · rename_i bracket
    subst bracket
    cases read
    refine ⟨⟨?_, sound_nil, fun _ mem => absurd mem List.not_mem_nil, rfl⟩, ?_⟩
    · intro group mem
      rcases List.mem_cons.1 mem with rfl | mem
      · exact sound
      · exact outer_sound group mem
    · simp [written, outerText, pendingText, join, toText]
  split at read
  · rename_i bracket
    subst bracket
    cases outer with
    | nil => cases read
    | cons group outer =>
        cases none : parts.isEmpty with
        | true => simp [none] at read
        | false =>
            simp only [none, Bool.false_eq_true, if_false, Except.ok.injEq] at read
            subst read
            -- the level that is closed becomes one part of the level around it
            have before := outer_sound group List.mem_cons_self
            have inner : (join parts).isDone = false := by rw [sound.isDone_join, none]
            refine ⟨Valid.push ?_ before ⟨inner, sound.wellFormed, trivial⟩ rfl rfl rfl, ?_⟩
            · exact fun other mem => outer_sound other (List.mem_cons_of_mem _ mem)
            · simp [written, outerText, pendingText, toText]
  · cases read

/-- One character more keeps the state valid and is added to what has been read. -/
theorem step_written {offset : Nat} {r next : Reader} {c : Char} (valid : r.Valid) :
    r.step offset c = .ok next → next.Valid ∧ next.written = r.written ++ [c] := by
  intro read
  rcases r with ⟨outer, parts, pending⟩
  rcases valid with ⟨outer_sound, sound, follows⟩
  cases pending with
  | literal text =>
      rcases follows with ⟨free, bare⟩
      cases reserved : isReserved c with
      | true =>
          simp only [step, reserved, if_true] at read
          have kept := mark_written outer_sound (sound.flush free bare) read
          refine ⟨kept.1, kept.2.trans ?_⟩
          simp [written, toText_join_flush, pendingText]
      | false =>
          simp only [step, reserved, Bool.false_eq_true, if_false, Except.ok.injEq] at read
          subst read
          refine ⟨⟨outer_sound, sound, ?_, bare⟩, by simp [written, pendingText]⟩
          intro d mem
          rcases List.mem_cons.1 mem with rfl | mem
          · exact reserved
          · exact free d mem
  | capture opened body =>
      by_cases close : c = '}'
      · subst close
        simp only [step, if_true] at read
        cases taken : capture opened body.reverse with
        | error fault => simp [taken] at read
        | ok part =>
            simp only [taken, Except.ok.injEq] at read
            subst read
            rcases capture_sound taken with ⟨name, options, rfl, named, legal, spelled⟩
            -- the reader has refused the other marks on the way, so the options are free of them
            have within : ∀ d ∈ name ++ optionsText options, isReserved d = false := by
              intro d mem
              rw [← spelled, List.mem_reverse] at mem
              exact follows d mem
            have wellFormed : (Template.capture name options .done).WellFormed := by
              refine ⟨named, ?_, trivial⟩
              intro option mem
              refine isOption_iff.2 ⟨(legal option mem).1, (legal option mem).2, ?_⟩
              exact fun d found => within d (List.mem_append_right _ (mem_optionsText mem found))
            refine ⟨Valid.push outer_sound sound wellFormed rfl rfl rfl, ?_⟩
            simp [written, pendingText, toText, spelled]
      · cases refused : endsCapture c with
        | true => simp [step, close, refused] at read
        | false =>
            simp only [step, close, refused, Bool.false_eq_true, if_false, Except.ok.injEq] at read
            subst read
            refine ⟨⟨outer_sound, sound, ?_⟩, by simp [written, pendingText]⟩
            intro d mem
            rcases List.mem_cons.1 mem with rfl | mem
            · rw [isReserved_of_endsCapture close, refused]
            · exact follows d mem

theorem feed_cons_eq_ok {offset : Nat} {r last : Reader} {c : Char} {s : Text} :
    r.feed offset (c :: s) = .ok last ↔
      ∃ next, r.step offset c = .ok next ∧ next.feed (offset + c.utf8Size) s = .ok last := by
  rw [feed]
  cases r.step offset c <;> simp

theorem feed_written {offset : Nat} {r last : Reader} {s : Text} (valid : r.Valid) :
    r.feed offset s = .ok last → last.Valid ∧ last.written = r.written ++ s := by
  intro read
  induction s generalizing offset r with
  | nil =>
      cases read
      exact ⟨valid, (List.append_nil _).symm⟩
  | cons c s ih =>
      rcases feed_cons_eq_ok.1 read with ⟨next, stepped, read⟩
      have one := step_written valid stepped
      have rest := ih one.1 read
      refine ⟨rest.1, ?_⟩
      rw [rest.2, one.2, List.append_assoc, List.singleton_append]

theorem finish_written {r : Reader} {t : Template} (valid : r.Valid) :
    r.finish = .ok t → t.WellFormed ∧ t.toText = r.written := by
  intro read
  rcases r with ⟨outer, parts, pending⟩
  cases pending with
  | capture opened body => cases read
  | literal text =>
      cases outer with
      | cons group outer => cases read
      | nil =>
          cases read
          refine ⟨(valid.parts.flush valid.pending.1 valid.pending.2).wellFormed, ?_⟩
          rw [toText_join_flush]
          rfl

/-! ## A shape read at once -/

/-- The parts of a level and the literal after them, once a shape more has been read. -/
def push (parts : List Template) (text : Text) : Template → List Template × Text
  | .done => (parts, text)
  | .slash rest => push (.slash .done :: flush parts text) [] rest
  | .literal more rest => push parts (more.reverse ++ text) rest
  | .capture name options rest => push (.capture name options .done :: flush parts text) [] rest
  | .optional inner rest => push (.optional inner .done :: flush parts text) [] rest

/-- The shape read ends up behind what was there, where the two can be told apart. -/
theorem join_push {parts : List Template} {text : Text} {t : Template} (legal : t.WellFormed) :
    (t.startsWithLiteral = true → text = []) →
      join (flush (push parts text t).1 (push parts text t).2) = join (flush parts text) ++ t := by
  intro seam
  -- what is read by then is general; only a literal can run on from it
  induction t generalizing parts text with
  | done => exact (append_done _).symm
  | slash rest ih =>
      rw [push, ih legal fun _ => rfl, flush, join_cons, Template.append_assoc]
      rfl
  | literal more rest ih =>
      rcases legal with ⟨filled, -, next, legal⟩
      rw [seam rfl, push, List.append_nil, ih legal]
      · cases reversed : more.reverse with
        | nil => exact absurd (List.reverse_eq_nil_iff.1 reversed) filled
        | cons c text =>
            have flushed : flush parts (c :: text) = .literal more .done :: parts := by
              rw [← List.reverse_reverse more, reversed]
              rfl
            rw [flushed, join_cons, Template.append_assoc]
            rfl
      · intro starts
        rw [next] at starts
        cases starts
  | capture name options rest ih =>
      rw [push, ih legal.2.2 fun _ => rfl, flush, join_cons, Template.append_assoc]
      rfl
  | optional inner rest _ ih =>
      rw [push, ih legal.2.2 fun _ => rfl, flush, join_cons, Template.append_assoc]
      rfl

theorem feed_cons {offset : Nat} {r next : Reader} {c : Char} (read : r.step offset c = .ok next)
    (rest : Text) : r.feed offset (c :: rest) = next.feed (offset + c.utf8Size) rest := by
  rw [feed, read]

theorem step_mark {offset : Nat} {outer : List OpenGroup} {parts : List Template} {text : Text}
    {c : Char} (reserved : isReserved c = true) :
    step offset ⟨outer, parts, .literal text⟩ c = mark offset outer (flush parts text) c := by
  exact if_pos reserved

theorem feed_literal {offset : Nat} {outer : List OpenGroup} {parts : List Template}
    {text more : Text} (rest : Text) (free : ∀ c ∈ more, isReserved c = false) :
    feed offset ⟨outer, parts, .literal text⟩ (more ++ rest) =
      feed (offset + Text.utf8Length more) ⟨outer, parts, .literal (more.reverse ++ text)⟩ rest := by
  induction more generalizing offset text with
  | nil => rfl
  | cons c more ih =>
      have here := free c List.mem_cons_self
      have stepped : step offset ⟨outer, parts, .literal text⟩ c =
          .ok ⟨outer, parts, .literal (c :: text)⟩ := by
        simp [step, here]
      rw [List.cons_append, feed_cons stepped, ih fun d mem => free d (List.mem_cons_of_mem _ mem)]
      simp [Nat.add_assoc]

theorem feed_body {offset opened : Nat} {outer : List OpenGroup} {parts : List Template}
    {text body : Text} (rest : Text) (free : ∀ c ∈ body, isReserved c = false) :
    feed offset ⟨outer, parts, .capture opened text⟩ (body ++ rest) =
      feed (offset + Text.utf8Length body)
        ⟨outer, parts, .capture opened (body.reverse ++ text)⟩ rest := by
  induction body generalizing offset text with
  | nil => rfl
  | cons c body ih =>
      have here := free c List.mem_cons_self
      have open' : c ≠ '}' := by
        rintro rfl
        cases here
      have stepped : step offset ⟨outer, parts, .capture opened text⟩ c =
          .ok ⟨outer, parts, .capture opened (c :: text)⟩ := by
        simp [step, open', ← isReserved_of_endsCapture open', here]
      rw [List.cons_append, feed_cons stepped, ih fun d mem => free d (List.mem_cons_of_mem _ mem)]
      simp [Nat.add_assoc]

/-- Reading the written form of a shape reads the shape, whatever stands around it. -/
theorem feed_toText {offset : Nat} {outer : List OpenGroup} {parts : List Template} {text : Text}
    {t : Template} (rest : Text) (legal : t.WellFormed) :
    feed offset ⟨outer, parts, .literal text⟩ (t.toText ++ rest) =
      feed (offset + Text.utf8Length t.toText)
        ⟨outer, (push parts text t).1, .literal (push parts text t).2⟩ rest := by
  -- the text inside a group is followed by its bracket, so what follows is general
  induction t generalizing offset outer parts text rest with
  | done => rfl
  | slash next ih =>
      have stepped : step offset ⟨outer, parts, .literal text⟩ '/' =
          .ok ⟨outer, .slash .done :: flush parts text, .literal []⟩ := step_mark rfl
      rw [toText, List.cons_append, feed_cons stepped, ih _ legal, push, Text.utf8Length_cons,
        Nat.add_assoc]
  | literal more next ih =>
      rw [toText, List.append_assoc, feed_literal _ legal.2.1, ih _ legal.2.2.2, push,
        Text.utf8Length_append, Nat.add_assoc]
  | capture name options next ih =>
      rcases legal with ⟨named, listed, legal⟩
      have opened : step offset ⟨outer, parts, .literal text⟩ '{' =
          .ok ⟨outer, flush parts text, .capture offset []⟩ := step_mark rfl
      -- nothing between the braces ends the capture early, so it is read as a whole
      have taken : capture offset (name ++ optionsText options) =
          .ok (.capture name options .done) := by
        apply capture_complete named
        intro option mem
        have one := isOption_iff.1 (listed option mem)
        exact ⟨one.1, one.2.1⟩
      have closed (at' : Nat) :
          step at' ⟨outer, flush parts text,
              .capture offset ((name ++ optionsText options).reverse ++ [])⟩ '}' =
            .ok ⟨outer, .capture name options .done :: flush parts text, .literal []⟩ := by
        simp only [step, List.append_nil, List.reverse_reverse, taken, if_true]
      have spelled : (Template.capture name options next).toText ++ rest =
          '{' :: ((name ++ optionsText options) ++ '}' :: (next.toText ++ rest)) := by
        simp [toText]
      rw [spelled, feed_cons opened, feed_body _ fun c => isReserved_of_mem_body named listed,
        feed_cons (closed _), ih _ legal, push]
      simp [toText, Text.utf8Length_append, Nat.add_assoc]
  | optional inner next ih_inner ih =>
      rcases legal with ⟨filled, inside, legal⟩
      have opened : step offset ⟨outer, parts, .literal text⟩ '[' =
          .ok ⟨⟨offset, flush parts text⟩ :: outer, [], .literal []⟩ := step_mark rfl
      -- the level inside the brackets starts empty, and is not empty when it is closed
      have whole : join (flush (push [] [] inner).1 (push [] [] inner).2) = inner :=
        join_push inside fun _ => rfl
      have filled : (flush (push [] [] inner).1 (push [] [] inner).2).isEmpty = false := by
        rw [List.isEmpty_eq_false_iff]
        intro none
        rw [none] at whole
        rw [← whole] at filled
        cases filled
      have closed (at' : Nat) :
          step at' ⟨⟨offset, flush parts text⟩ :: outer, (push [] [] inner).1,
              .literal (push [] [] inner).2⟩ ']' =
            .ok ⟨outer, .optional inner .done :: flush parts text, .literal []⟩ := by
        rw [step_mark rfl]
        simp [mark, filled, whole]
      have spelled : (Template.optional inner next).toText ++ rest =
          '[' :: (inner.toText ++ ']' :: (next.toText ++ rest)) := by
        simp [toText]
      rw [spelled, feed_cons opened, ih_inner _ inside, feed_cons (closed _), ih _ legal, push]
      simp [toText, Text.utf8Length_append, Nat.add_assoc]

end Reader

/-! ## Paths and shapes -/

namespace Template

variable {t : Template} {path : Text}

theorem startsWithSlash_of_toText {rest : Text} (legal : t.WellFormed) :
    t.toText = '/' :: rest → t.startsWithSlash = true := by
  intro spelled
  cases t with
  | done => cases spelled
  | slash next => rfl
  | literal text next =>
      rcases legal with ⟨filled, free, -⟩
      cases text with
      | nil => exact absurd rfl filled
      | cons c text =>
          have first : c = '/' := (List.cons.inj spelled).1
          have slash := free c List.mem_cons_self
          rw [first] at slash
          cases slash
  | capture name options next => cases spelled
  | optional inner next => cases spelled

/-- A path is accepted if it starts with a slash and is read to its end. -/
theorem parse_eq_ok :
    parse path = .ok t ↔
      path.head? = some '/' ∧
        ∃ last, Reader.start.feed 0 path = .ok last ∧ last.finish = .ok t := by
  cases path with
  | nil => simp [parse, Except.mapError]
  | cons c rest =>
      by_cases slash : c = '/'
      · subst slash
        cases fed : Reader.start.feed 0 ('/' :: rest) with
        | error fault => simp [parse, fed, Except.mapError]
        | ok last => cases finished : last.finish <;> simp [parse, fed, finished, Except.mapError]
      · simp [parse, slash, Except.mapError]

/-- What is accepted is well formed and is the written form of what is read. -/
theorem parse_sound :
    parse path = .ok t → t.startsWithSlash = true ∧ t.WellFormed ∧ t.toText = path := by
  intro parsed
  rcases parse_eq_ok.1 parsed with ⟨slash, last, fed, finished⟩
  have kept := Reader.feed_written Reader.valid_start fed
  have whole := Reader.finish_written kept.1 finished
  have spelled : t.toText = path := whole.2.trans kept.2
  rcases List.head?_eq_some_iff.1 slash with ⟨rest, rfl⟩
  exact ⟨startsWithSlash_of_toText whole.1 spelled, whole.1, spelled⟩

/-- The written form of a well-formed shape is accepted, and read as that shape. -/
theorem parse_toText (slash : t.startsWithSlash = true) (legal : t.WellFormed) :
    parse t.toText = .ok t := by
  have fed : Reader.feed 0 Reader.start (t.toText ++ []) =
      .ok ⟨[], (Reader.push [] [] t).1, .literal (Reader.push [] [] t).2⟩ :=
    Reader.feed_toText [] legal
  rw [List.append_nil] at fed
  have finished :
      Reader.finish ⟨[], (Reader.push [] [] t).1, .literal (Reader.push [] [] t).2⟩ = .ok t :=
    congrArg Except.ok (Reader.join_push legal fun _ => rfl)
  have starts : t.toText.head? = some '/' := by
    cases t with
    | slash next => rfl
    | _ => cases slash
  exact parse_eq_ok.2 ⟨starts, _, fed, finished⟩

/-- Accepted paths and well-formed shapes determine each other: each path is the written form of the
shape read from it, and each shape is read from its written form. -/
theorem parse_bijOn :
    (∀ path t, parse path = .ok t →
        (t.startsWithSlash = true ∧ t.WellFormed) ∧ t.toText = path) ∧
      (∀ t : Template, t.startsWithSlash = true → t.WellFormed → parse t.toText = .ok t) ∧
      Set.BijOn toText {t | t.startsWithSlash = true ∧ t.WellFormed}
        {path | ∃ t, parse path = .ok t} := by
  refine ⟨fun path t parsed => ?_, fun t => parse_toText, ?_, ?_, ?_⟩
  · have whole := parse_sound parsed
    exact ⟨⟨whole.1, whole.2.1⟩, whole.2.2⟩
  · exact fun t legal => ⟨t, parse_toText legal.1 legal.2⟩
  · intro a left b right same
    have one := parse_toText left.1 left.2
    have other := parse_toText right.1 right.2
    rw [same, other] at one
    exact (Except.ok.inj one).symm
  · rintro path ⟨t, parsed⟩
    have whole := parse_sound parsed
    exact ⟨t, ⟨whole.1, whole.2.1⟩, whole.2.2⟩

end Template
end PathRouter
