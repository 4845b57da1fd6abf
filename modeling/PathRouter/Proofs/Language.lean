import PathRouter.Proofs.Ways
import PathRouter.Pattern.Basic

/-!
# Language — the texts that a shape stands for

A shape stands for a set of texts whatever expression it is turned into.  This file defines

* `Template.Denotes`, the texts of a shape with the values of its captures;
* `Regex.Match.values`, the values that a match has for its captures;

and shows that the ways of `Template.expression` are the derivations of `Template.Denotes`:
`Template.denotes_of_mem_ways` and `Template.mem_ways_of_denotes`.
-/

namespace PathRouter
namespace Template

/-- Whether the first part is a group that takes the slash before it, because it does not bring one
of its own. -/
def takesSlash : Template → Bool
  | .optional inner _ => !inner.startsWithSlash
  | _ => false

/-- The text is one of those that a shape stands for, with one entry for each capture, empty for
those of the groups that are left out. -/
inductive Denotes : Template → List (Option Text) → Text → Prop where
  | done : Denotes .done [] []
  | slash {rest : Template} {values : List (Option Text)} {s : Text} :
      rest.takesSlash = false → Denotes rest values s → Denotes (.slash rest) values ('/' :: s)
  | literal {text : Text} {rest : Template} {values : List (Option Text)} {s : Text} :
      Denotes rest values s → Denotes (.literal text rest) values (text ++ s)
  | segment {name value : Text} {rest : Template} {values : List (Option Text)} {s : Text} :
      value ≠ [] → '/' ∉ value → Denotes rest values s →
        Denotes (.capture name [] rest) (some value :: values) (value ++ s)
  | option {name value : Text} {options : List Text} {rest : Template}
      {values : List (Option Text)} {s : Text} :
      value ∈ options → Denotes rest values s →
        Denotes (.capture name options rest) (some value :: values) (value ++ s)
  | taken {inner rest : Template} {inside values : List (Option Text)} {s u : Text} :
      Denotes inner inside s → Denotes rest values u →
        Denotes (.optional inner rest) (inside ++ values) (s ++ u)
  | skipped {inner rest : Template} {values : List (Option Text)} {s : Text} :
      Denotes rest values s →
        Denotes (.optional inner rest) (List.replicate inner.names.length none ++ values) s
  | slashTaken {inner rest : Template} {inside values : List (Option Text)} {s u : Text} :
      inner.startsWithSlash = false → Denotes inner inside s → Denotes rest values u →
        Denotes (.slash (.optional inner rest)) (inside ++ values) ('/' :: s ++ u)
  | slashSkipped {inner rest : Template} {values : List (Option Text)} {s : Text} :
      inner.startsWithSlash = false → Denotes rest values s →
        Denotes (.slash (.optional inner rest))
          (List.replicate inner.names.length none ++ values) s

end Template

namespace Regex

/-! ## Values -/

/-- The values of the captures of a match. -/
def Match.values (m : Match) : List (Option Text) := m.captures.map (Option.map Span.text)

@[simp] theorem Match.values_andThen (m n : Match) :
    (m.andThen n).values = m.values ++ n.values := by
  simp [values, andThen]

@[simp] theorem Match.values_passed (count : Nat) (s : Text) :
    (Match.passed count s).values = List.replicate count none := by
  simp [values, passed]

end Regex

namespace Template

open Regex

/-! ## Captures -/

@[simp] theorem captures_choice (options : List Text) : (choice options).captures = 0 := by
  induction options with
  | nil => rfl
  | cons option options ih =>
      cases options with
      | nil => rfl
      | cons next options => simpa [choice, captures] using ih

@[simp] theorem captures_captured (options : List Text) : (captured options).captures = 0 := by
  cases options with
  | nil => rfl
  | cons option options => exact captures_choice _

theorem mem_ways_choice {options : List Text} {s : Text} {m : Match} (filled : options ≠ []) :
    m ∈ (choice options).ways s ↔ m.captures = [] ∧ ∃ option ∈ options, s = option ++ m.rest := by
  induction options generalizing m with
  | nil => exact absurd rfl filled
  | cons option options ih =>
      cases options with
      | nil => simp [choice, mem_ways_text]
      | cons next options =>
          have more := fun {m : Match} => ih (m := m) (List.cons_ne_nil _ _)
          have left (n : Match) : n.andThen (.passed 0 n.rest) = n := by
            simp [Match.andThen, Match.passed]
          have right (n : Match) : (Match.passed 0 s).andThen n = n := by
            simp [Match.andThen, Match.passed]
          have none : (Regex.text option).captures = 0 := rfl
          rw [choice, ways, captures_choice, none, List.mem_append, List.mem_map, List.mem_map]
          · simp only [left, right, exists_eq_right, mem_ways_text, more, List.mem_cons]
            constructor
            · rintro (⟨empty, eq⟩ | ⟨empty, other, listed, eq⟩)
              · exact ⟨empty, option, .inl rfl, eq⟩
              · exact ⟨empty, other, .inr listed, eq⟩
            · rintro ⟨empty, other, rfl | listed, eq⟩
              · exact .inl ⟨empty, eq⟩
              · exact .inr ⟨empty, other, listed, eq⟩
          · simp

/-- What a capture takes: a segment, or one of its options. -/
def Takes (options : List Text) (value : Text) : Prop :=
  match options with
  | [] => value ≠ [] ∧ '/' ∉ value
  | options => value ∈ options

theorem mem_ways_captured {options : List Text} {s : Text} {m : Match} :
    m ∈ (captured options).ways s ↔
      m.captures = [] ∧ ∃ value, Takes options value ∧ s = value ++ m.rest := by
  cases options with
  | nil => simp [captured, mem_ways_segment, Takes, and_assoc]
  | cons option options =>
      rw [captured, mem_ways_choice (List.cons_ne_nil _ _)]
      · rfl
      · simp

/-- The expression of a shape has the captures of the shape, in the same order. -/
@[simp] theorem captures_expression (t : Template) : t.expression.captures = t.names.length := by
  fun_induction expression t with
  | case1 => rfl
  | case2 inner rest starts ih_inner ih =>
      simp [Regex.captures, names, ih_inner, ih]
  | case3 inner rest starts ih_inner ih =>
      simp [Regex.captures, names, ih_inner, ih]
  | case4 rest other ih => simp [Regex.captures, names, ih]
  | case5 text rest ih => simp [Regex.captures, names, ih]
  | case6 name options rest ih => simp [Regex.captures, names, ih, Nat.add_comm]
  | case7 inner rest ih_inner ih => simp [Regex.captures, names, ih_inner, ih]

/-! ## Ways and derivations -/

theorem Denotes.capture {name value : Text} {options : List Text} {rest : Template}
    {values : List (Option Text)} {s : Text} (takes : Takes options value)
    (on : Denotes rest values s) :
    Denotes (.capture name options rest) (some value :: values) (value ++ s) := by
  cases options with
  | nil => exact .segment takes.1 takes.2 on
  | cons option options => exact .option takes on

/-- Every way derives the text that it takes, with the values that it captures. -/
theorem denotes_of_mem_ways {t : Template} {s : Text} {m : Match} :
    m ∈ t.expression.ways s → ∃ taken, s = taken ++ m.rest ∧ t.Denotes m.values taken := by
  intro mem
  fun_induction expression t generalizing s m with
  | case1 =>
      rw [ways, List.mem_singleton] at mem
      subst mem
      exact ⟨[], rfl, .done⟩
  | case2 inner rest starts ih_inner ih =>
      -- a group that brings its own slash: the one before it always stands
      rcases mem_ways_seq_text.1 mem with ⟨after, rfl, behind⟩
      have bare : (Template.optional inner rest).takesSlash = false := by simp [takesSlash, starts]
      rcases mem_ways_seq_optional.1 behind with ⟨m₁, mem₁, m₂, mem₂, rfl⟩ | ⟨n, passed, rfl⟩
      · rcases ih_inner mem₁ with ⟨v, rfl, within⟩
        rcases ih mem₂ with ⟨u, eq, on⟩
        refine ⟨'/' :: (v ++ u), by simp [eq, Match.andThen], ?_⟩
        rw [Match.values_andThen]
        exact .slash bare (.taken within on)
      · rcases ih passed with ⟨u, eq, on⟩
        refine ⟨'/' :: u, congrArg ('/' :: ·) eq, ?_⟩
        rw [Match.values_andThen, Match.values_passed, captures_expression]
        exact .slash bare (.skipped on)
  | case3 inner rest starts ih_inner ih =>
      -- a group that takes the slash before it
      rw [Bool.not_eq_true] at starts
      rcases mem_ways_seq_optional.1 mem with ⟨m₁, mem₁, m₂, mem₂, rfl⟩ | ⟨n, passed, rfl⟩
      · rcases mem_ways_seq_text.1 mem₁ with ⟨after, rfl, behind⟩
        rcases ih_inner behind with ⟨v, rfl, within⟩
        rcases ih mem₂ with ⟨u, eq, on⟩
        refine ⟨'/' :: v ++ u, by simp [eq, Match.andThen], ?_⟩
        rw [Match.values_andThen]
        exact .slashTaken starts within on
      · rcases ih passed with ⟨u, eq, on⟩
        refine ⟨u, eq, ?_⟩
        have count : (Regex.seq (.text ['/']) inner.expression).captures = inner.names.length := by
          simp [Regex.captures]
        rw [Match.values_andThen, Match.values_passed, count]
        exact .slashSkipped starts on
  | case4 rest other ih =>
      rcases mem_ways_seq_text.1 mem with ⟨after, rfl, behind⟩
      rcases ih behind with ⟨u, rfl, on⟩
      have bare : rest.takesSlash = false := by
        cases rest with
        | optional inner rest => exact absurd rfl (other inner rest)
        | _ => rfl
      exact ⟨'/' :: u, rfl, .slash bare on⟩
  | case5 text rest ih =>
      rcases mem_ways_seq_text.1 mem with ⟨after, rfl, behind⟩
      rcases ih behind with ⟨u, rfl, on⟩
      exact ⟨text ++ u, (List.append_assoc _ _ _).symm, .literal on⟩
  | case6 name options rest ih =>
      rcases mem_ways_seq.1 mem with ⟨m₁, mem₁, m₂, mem₂, rfl⟩
      rcases mem_ways_capture.1 mem₁ with ⟨n, inside, rfl⟩
      rcases mem_ways_captured.1 inside with ⟨empty, value, takes, rfl⟩
      rcases ih mem₂ with ⟨u, eq, on⟩
      have first : Match.values ⟨some ⟨value ++ n.rest, n.rest⟩ :: n.captures, n.rest⟩ =
          [some value] := by
        simp [Match.values, empty]
      refine ⟨value ++ u, ?_, ?_⟩
      · rw [List.append_assoc]
        exact congrArg (value ++ ·) eq
      · rw [Match.values_andThen, first]
        exact .capture takes on
  | case7 inner rest ih_inner ih =>
      rcases mem_ways_seq_optional.1 mem with ⟨m₁, mem₁, m₂, mem₂, rfl⟩ | ⟨n, passed, rfl⟩
      · rcases ih_inner mem₁ with ⟨v, rfl, within⟩
        rcases ih mem₂ with ⟨u, eq, on⟩
        refine ⟨v ++ u, by simp [eq, Match.andThen], ?_⟩
        rw [Match.values_andThen]
        exact .taken within on
      · rcases ih passed with ⟨u, eq, on⟩
        refine ⟨u, eq, ?_⟩
        rw [Match.values_andThen, Match.values_passed, captures_expression]
        exact .skipped on

theorem exists_way_capture {name value : Text} {options : List Text} {rest : Template} {s : Text}
    {m : Match} (takes : Takes options value) (mem : m ∈ rest.expression.ways (s ++ m.rest)) :
    ∃ n ∈ (Template.capture name options rest).expression.ways (value ++ s ++ m.rest),
      n.rest = m.rest ∧ n.values = some value :: m.values := by
  have inside : (⟨[], s ++ m.rest⟩ : Match) ∈ (captured options).ways (value ++ (s ++ m.rest)) :=
    mem_ways_captured.2 ⟨rfl, value, takes, rfl⟩
  have here : (⟨[some ⟨value ++ (s ++ m.rest), s ++ m.rest⟩], s ++ m.rest⟩ : Match) ∈
      (Regex.capture (captured options)).ways (value ++ (s ++ m.rest)) :=
    mem_ways_capture.2 ⟨_, inside, rfl⟩
  rw [List.append_assoc]
  refine ⟨_, mem_ways_seq.2 ⟨_, here, m, mem, rfl⟩, rfl, ?_⟩
  rw [Match.values_andThen]
  simp [Match.values]

theorem expression_slash {t : Template} (bare : t.takesSlash = false) :
    (slash t).expression = .seq (.text ['/']) t.expression := by
  cases t with
  | optional inner next =>
      have starts : inner.startsWithSlash = true := by simpa [takesSlash] using bare
      rw [expression, if_pos starts]
      rfl
  | _ => rfl

/-- Every derivation is some way, wherever its text stands. -/
theorem mem_ways_of_denotes {t : Template} {values : List (Option Text)} {taken : Text}
    (derived : t.Denotes values taken) (after : Text) :
    ∃ m ∈ t.expression.ways (taken ++ after), m.rest = after ∧ m.values = values := by
  -- the text of a group is followed by more of the path, so what follows is general
  induction derived generalizing after with
  | done => exact ⟨⟨[], after⟩, List.mem_singleton.2 rfl, rfl, rfl⟩
  | @slash rest values s bare on ih =>
      rcases ih after with ⟨m, mem, rest, same⟩
      refine ⟨m, ?_, rest, same⟩
      rw [expression_slash bare]
      exact mem_ways_seq_text.2 ⟨s ++ after, rfl, mem⟩
  | @literal text rest values s on ih =>
      rcases ih after with ⟨m, mem, rest, same⟩
      refine ⟨m, ?_, rest, same⟩
      exact mem_ways_seq_text.2 ⟨s ++ after, List.append_assoc _ _ _, mem⟩
  | @segment name value rest values s filled free on ih =>
      rcases ih after with ⟨m, mem, rfl, rfl⟩
      exact exists_way_capture ⟨filled, free⟩ mem
  | @option name value options rest values s listed on ih =>
      rcases ih after with ⟨m, mem, rfl, rfl⟩
      cases options with
      | nil => cases listed
      | cons option options => exact exists_way_capture listed mem
  | @taken inner rest inside values s u within on ih_inner ih =>
      rcases ih after with ⟨m₂, mem₂, rfl, rfl⟩
      rcases ih_inner (u ++ m₂.rest) with ⟨m₁, mem₁, eq₁, rfl⟩
      refine ⟨m₁.andThen m₂, ?_, rfl, Match.values_andThen _ _⟩
      rw [List.append_assoc]
      rw [← eq₁] at mem₂
      exact mem_ways_seq_optional.2 (.inl ⟨m₁, mem₁, m₂, mem₂, rfl⟩)
  | @skipped inner rest values s on ih =>
      rcases ih after with ⟨m, mem, rfl, rfl⟩
      refine ⟨Match.andThen (.passed inner.names.length (s ++ m.rest)) m, ?_, rfl, by simp⟩
      rw [← captures_expression]
      exact mem_ways_seq_optional.2 (.inr ⟨m, mem, rfl⟩)
  | @slashTaken inner rest inside values s u bare within on ih_inner ih =>
      rcases ih after with ⟨m₂, mem₂, rfl, rfl⟩
      rcases ih_inner (u ++ m₂.rest) with ⟨m₁, mem₁, eq₁, rfl⟩
      refine ⟨m₁.andThen m₂, ?_, rfl, Match.values_andThen _ _⟩
      rw [List.append_assoc, expression, if_neg (by simp [bare])]
      rw [← eq₁] at mem₂
      have inside : m₁ ∈ (Regex.seq (.text ['/']) inner.expression).ways
          ('/' :: s ++ (u ++ m₂.rest)) :=
        mem_ways_seq_text.2 ⟨s ++ (u ++ m₂.rest), rfl, mem₁⟩
      exact mem_ways_seq_optional.2 (.inl ⟨m₁, inside, m₂, mem₂, rfl⟩)
  | @slashSkipped inner rest values s bare on ih =>
      rcases ih after with ⟨m, mem, rfl, rfl⟩
      refine ⟨Match.andThen (.passed inner.names.length (s ++ m.rest)) m, ?_, rfl, by simp⟩
      have count : (Regex.seq (.text ['/']) inner.expression).captures = inner.names.length := by
        simp [Regex.captures]
      rw [expression, if_neg (by simp [bare]), ← count]
      exact mem_ways_seq_optional.2 (.inr ⟨m, mem, rfl⟩)

end Template
end PathRouter
