import PathRouter.Proofs.Params
import PathRouter.Proofs.Reach

/-!
# Segments — passing a path segment by segment

A handler may pass what is left of the path one segment after the other.  This file defines

* `Context.traverse`, the segments that are passed until none is left, each with the context behind it;
* `Text.spelled`, segments with a slash before each;

and shows `Context.next_spec`, all that passing one segment does, and `Context.traverse_complete`: no
segment is left out or passed twice, and nothing but a slash at the end may be left.
-/

namespace PathRouter

namespace Text

/-- Segments with a slash before each. -/
def spelled (segments : List Text) : Text := segments.flatMap ('/' :: ·)

theorem spelled_cons (segment : Text) (segments : List Text) :
    spelled (segment :: segments) = '/' :: segment ++ spelled segments :=
  rfl

/-- The text before the first separator, and what follows it. -/
theorem breakAt_cases (sep : Char) (s : Text) :
    ∃ rest, s = (breakAt sep s).1 ++ rest ∧ sep ∉ (breakAt sep s).1 ∧
      (rest = [] ∨ rest.head? = some sep) := by
  by_cases mem : sep ∈ s
  · rcases List.eq_append_cons_of_mem mem with ⟨before, after, rfl, free⟩
    rw [breakAt_append after free]
    exact ⟨sep :: after, rfl, free, .inr rfl⟩
  · rw [breakAt_of_not_mem mem]
    exact ⟨[], (List.append_nil s).symm, mem, .inl rfl⟩

end Text

namespace Context

variable {cx next : Context} {segment : Text} {result : Except StepFault (Context × Text)}

/-! ## One segment -/

/-- Where a segment is passed, it is the first one, the step over it does not fail, and what follows it
is left. -/
theorem next_spec : cx.next = some result →
    ∃ segment rest, cx.path = '/' :: segment ++ rest ∧ '/' ∉ segment ∧
      (rest = [] ∨ rest.head? = some '/') ∧
      result = .ok (cx.beyond ('/' :: segment) rest .empty, segment) := by
  intro passed
  unfold Context.next at passed
  split at passed
  next tail path =>
    split at passed
    next => cases passed
    next =>
      rcases Text.breakAt_cases '/' tail with ⟨rest, parts, free, boundary⟩
      rcases cut : Text.breakAt '/' tail with ⟨segment, after⟩
      rw [cut] at passed parts free
      have whole : '/' :: segment ++ rest = cx.path := by rw [path, List.cons_append, ← parts]
      simp only [step_of_append whole boundary] at passed
      exact ⟨segment, rest, whole.symm, free, boundary, (Option.some.inj passed).symm⟩
  next => cases passed

/-- No segment is left of a path which is empty or a slash. -/
theorem next_eq_none (start : cx.path = [] ∨ cx.path.head? = some '/') :
    cx.next = none → cx.path = [] ∨ cx.path = ['/'] := by
  intro stopped
  rcases start with done | slash
  · exact .inl done
  · rcases List.head?_eq_some_iff.1 slash with ⟨rest, path⟩
    cases rest with
    | nil => exact .inr path
    | cons c rest => simp [Context.next, path] at stopped

/-- What is left of a path gets shorter. -/
theorem length_path_of_next (passed : cx.next = some (.ok (next, segment))) :
    next.path.length < cx.path.length := by
  rcases next_spec passed with ⟨segment, rest, path, -, -, made⟩
  have same : next = cx.beyond ('/' :: segment) rest .empty :=
    congrArg Prod.fst (Except.ok.inj made)
  rw [same, path_beyond, path, List.length_append, List.length_cons]
  omega

/-! ## All segments -/

/-- The segments that are passed until none is left, each with the context behind it. -/
def traverse (cx : Context) : Except StepFault (List (Text × Context)) :=
  match passed : cx.next with
  | none => .ok []
  | some (.error fault) => .error fault
  | some (.ok (next, segment)) =>
    have := length_path_of_next passed
    (traverse next).map ((segment, next) :: ·)
termination_by cx.path.length

/-- The segments of a path are passed one by one: none of them holds a slash, the path is made up of them
and of a last slash that may be left, and behind each of them stands what follows it.  The parameters
stay as they are. -/
theorem traverse_complete (cx : Context) (start : cx.path = [] ∨ cx.path.head? = some '/') :
    ∃ passed last, cx.traverse = .ok passed ∧ (last = [] ∨ last = ['/']) ∧
      (∀ segment ∈ passed.map Prod.fst, '/' ∉ segment) ∧
      cx.path = Text.spelled (passed.map Prod.fst) ++ last ∧
      ∀ before segment here after, passed = before ++ (segment, here) :: after →
        here.path = Text.spelled (after.map Prod.fst) ++ last ∧ here.params = cx.params := by
  fun_induction traverse cx with
  | case1 cx stopped =>
      exact ⟨[], cx.path, rfl, next_eq_none start stopped, by simp, rfl, by simp⟩
  | case2 cx fault failed =>
      rcases next_spec failed with ⟨_, _, _, _, _, made⟩
      cases made
  | case3 cx next segment passed shorter ih =>
      rcases next_spec passed with ⟨piece, rest, path, free, boundary, made⟩
      obtain ⟨rfl, rfl⟩ := Prod.mk.inj (Except.ok.inj made)
      have left := path_beyond cx ('/' :: segment) rest .empty
      have params := (params_beyond cx ('/' :: segment) rest .empty).trans (Params.merge_empty _)
      have start : (cx.beyond ('/' :: segment) rest .empty).path = [] ∨
          (cx.beyond ('/' :: segment) rest .empty).path.head? = some '/' := by rwa [left]
      rcases ih start with ⟨later, last, traversed, ending, single, parts, behind⟩
      refine ⟨(segment, _) :: later, last, congrArg (Except.map _) traversed, ending, ?_, ?_, ?_⟩
      · simpa [free] using single
      · rw [path, List.map_cons, Text.spelled_cons, List.append_assoc, ← parts, left]
      · intro before other here after split
        rcases List.cons_eq_append_iff.1 split with ⟨rfl, first⟩ | ⟨more, rfl, rest⟩
        · cases first
          exact ⟨parts, params⟩
        · rcases behind more other here after rest with ⟨left, kept⟩
          exact ⟨left, kept.trans params⟩

/-- An empty segment and a slash at the end. -/
theorem traverse_complete_doubled :
    let cx := new "/a//b/".toList
    (cx.path = [] ∨ cx.path.head? = some '/') ∧
      ∃ passed last, cx.traverse = .ok passed ∧
        passed.map Prod.fst = ["a".toList, [], "b".toList] ∧ last = ['/'] ∧
        cx.path = Text.spelled (passed.map Prod.fst) ++ last := by
  intro cx
  have start : cx.path = [] ∨ cx.path.head? = some '/' := .inr rfl
  rcases traverse_complete cx start with ⟨passed, last, traversed, -, -, parts, -⟩
  have segments : cx.traverse.toOption.map (List.map Prod.fst) = some ["a".toList, [], "b".toList] := by
    decide +kernel
  rw [traversed] at segments
  have names := Option.some.inj segments
  rw [names] at parts
  have rest : "/a//b".toList ++ last = "/a//b".toList ++ ['/'] := parts.symm
  have ending := List.append_cancel_left rest
  exact ⟨start, passed, last, traversed, names, ending, by rw [names, ending]; rfl⟩

end Context
end PathRouter
