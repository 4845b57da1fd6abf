import PathRouter.Proofs.Text

/-!
# Stepping — what a sequence of steps keeps of the path

A context holds what has been taken and what is left, and the two are meant to make up the path that
the context was made from.  They do not after a step that takes a single slash before anything else
has been taken: a lone slash is also how a context says that nothing has been taken.  This file
defines

* `Context.run`, a sequence of moves, each a step over a piece or over a segment;
* `Context.dropped`, how many slashes a sequence of moves loses in that way;

and shows `Context.step_cases`, all that a step does to the path, and `Context.fullPath_run`, that the
path is kept but for the slashes that are dropped, which only paths with two slashes in front lose.
-/

namespace PathRouter

/-- A way to go on from a context: over a piece of the path, or over its first segment. -/
inductive Move where
  | step (piece : Text) (params : Params)
  | next

namespace Context

variable {cx next last : Context} {piece path : Text} {params : Params} {moves : List Move}

/-- The context after a move.  Where no segment is left, the context stays as it is. -/
def move (cx : Context) : Move → Except StepFault Context
  | .step piece params => cx.step piece params
  | .next =>
    match cx.next with
    | none => .ok cx
    | some result => result.map Prod.fst

/-- The context after moves that are made one after the other. -/
def run (cx : Context) : List Move → Except StepFault Context
  | [] => .ok cx
  | m :: moves =>
    match cx.move m with
    | .error fault => .error fault
    | .ok next => next.run moves

/-- Whether a move has taken a single slash, as the first thing and not as the last. -/
def DropsSlash (cx next : Context) : Prop :=
  cx.taken = ['/'] ∧ cx.path = '/' :: next.path ∧ next.path ≠ []

instance (cx next : Context) : Decidable (cx.DropsSlash next) :=
  inferInstanceAs (Decidable (_ ∧ _ ∧ _))

/-- How many moves of a sequence have taken a single slash in that way. -/
def dropped (cx : Context) : List Move → Nat
  | [] => 0
  | m :: moves =>
    match cx.move m with
    | .error _ => 0
    | .ok next => (if cx.DropsSlash next then 1 else 0) + next.dropped moves

/-! ## One step -/

/-- What a step does to the path: it takes all that is left, or a beginning of it that ends with a
segment. -/
theorem step_cases :
    cx.step piece params = .ok next →
      next = cx.advance cx.fullPath [] (withoutMountMark cx.pattern ++ piece) params ∨
        ∃ consumed rest, consumed ++ rest = cx.path ∧ (rest = [] ∨ rest.head? = some '/') ∧
          next = cx.advance (cx.accumulate consumed) rest
            (withoutMountMark cx.pattern ++ consumed ++ ['/', '*']) params := by
  intro stepped
  by_cases whole : piece = cx.path
  · have made : cx.advance cx.fullPath [] (withoutMountMark cx.pattern ++ piece) params = next := by
      simpa [step, whole] using stepped
    exact .inl made.symm
  · cases found : Text.breakOn piece cx.path with
    | none => simp [step, whole, found] at stepped
    | some cut =>
        rcases cut with ⟨before, rest⟩
        have parts := Text.append_of_breakOn found
        by_cases boundary : rest.isEmpty || rest.head? == some '/'
        · have made : cx.advance (cx.accumulate (before ++ piece)) rest
              (withoutMountMark cx.pattern ++ (before ++ piece) ++ ['/', '*']) params = next := by
            simpa only [step, whole, found, consume, boundary, if_true, if_false, Except.ok.injEq]
              using stepped
          exact .inr ⟨before ++ piece, rest, parts, by simpa using boundary, made.symm⟩
        · simp [step, whole, found, consume, boundary] at stepped

/-- Something is always put down as taken. -/
theorem taken_advance_ne_nil (cx : Context) (taken rest pattern : Text) (params : Params) :
    (cx.advance taken rest pattern params).taken ≠ [] := by
  cases taken <;> simp [advance]

theorem fullPath_ne_nil (filled : cx.taken ≠ []) : cx.fullPath ≠ [] := by
  by_cases root : cx.taken = ['/']
  · by_cases done : cx.path = [] <;> simp [fullPath, root, done]
  · simp [fullPath, root, filled]

/-- A context with nothing left shows what has been taken. -/
theorem fullPath_advance_nil {whole : Text} (filled : whole ≠ []) (pattern : Text)
    (params : Params) : (cx.advance whole [] pattern params).fullPath = whole := by
  by_cases slash : whole = ['/']
  · simp [fullPath, advance, slash]
  · simp [fullPath, advance, filled, slash]

theorem append_ne_slash (filled : cx.taken ≠ []) (proper : cx.taken ≠ ['/']) (consumed : Text) :
    cx.taken ++ consumed ≠ ['/'] := by
  intro eq
  rcases List.append_eq_singleton_iff.1 eq with ⟨empty, -⟩ | ⟨slash, -⟩
  · exact filled empty
  · exact proper slash

/-- A step over a beginning of what is left keeps the path, unless it takes a slash on its own before
anything else. -/
theorem fullPath_advance {consumed rest : Text} (filled : cx.taken ≠ [])
    (parts : consumed ++ rest = cx.path) (pattern : Text) (params : Params) :
    cx.fullPath =
      List.replicate
          (if cx.DropsSlash (cx.advance (cx.accumulate consumed) rest pattern params) then 1 else 0)
          '/' ++
        (cx.advance (cx.accumulate consumed) rest pattern params).fullPath := by
  by_cases root : cx.taken = ['/']
  · -- nothing has been taken, so what is consumed now is all there is
    cases consumed with
    | nil =>
        have same : rest = cx.path := by simpa using parts
        simp [DropsSlash, fullPath, advance, accumulate, root, same]
    | cons c tail =>
        have left : cx.path ≠ [] := by simp [← parts]
        by_cases lone : c :: tail = ['/']
        · have path : cx.path = '/' :: rest := by simp [← parts, lone]
          by_cases done : rest = [] <;>
            simp [DropsSlash, fullPath, advance, accumulate, root, lone, path, done]
        · have kept : cx.path ≠ '/' :: rest := by
            intro path
            have eq : (c :: tail) ++ rest = ['/'] ++ rest := by simpa [path] using parts
            exact lone (List.append_cancel_right eq)
          have undropped : ¬ cx.DropsSlash
              (cx.advance (cx.accumulate (c :: tail)) rest pattern params) :=
            fun drops => kept drops.2.1
          have before : cx.fullPath = c :: tail ++ rest := by simp [fullPath, root, left, parts]
          have after : (cx.advance (cx.accumulate (c :: tail)) rest pattern params).fullPath =
              c :: tail ++ rest := by
            simp only [fullPath, advance, accumulate, root, if_true]
            simp [lone]
          simp [before, after, undropped]
  · -- what has been taken already is more than a slash, and stays so
    have more := append_ne_slash filled root consumed
    simp [DropsSlash, fullPath, advance, accumulate, root, filled, more, ← parts]

theorem not_dropsSlash_self (cx : Context) : ¬ cx.DropsSlash cx := by
  rintro ⟨-, path, -⟩
  exact List.cons_ne_self '/' cx.path path.symm

/-- What a step keeps of the path. -/
theorem fullPath_step (filled : cx.taken ≠ []) (stepped : cx.step piece params = .ok next) :
    next.taken ≠ [] ∧
      cx.fullPath =
        List.replicate (if cx.DropsSlash next then 1 else 0) '/' ++ next.fullPath := by
  rcases step_cases stepped with rfl | ⟨consumed, rest, parts, -, rfl⟩
  · refine ⟨taken_advance_ne_nil _ _ _ _ _, ?_⟩
    -- nothing is left after the step, so no slash is dropped
    have kept : ¬ cx.DropsSlash
        (cx.advance cx.fullPath [] (withoutMountMark cx.pattern ++ piece) params) := by
      rintro ⟨-, -, more⟩
      exact more rfl
    simp [kept, fullPath_advance_nil (fullPath_ne_nil filled)]
  · exact ⟨taken_advance_ne_nil _ _ _ _ _, fullPath_advance filled parts _ _⟩

/-! ## Sequences of moves -/

/-- Passing a segment is a step over a slash and the segment. -/
theorem next_cases {result : Except StepFault (Context × Text)} :
    cx.next = some result →
      ∃ segment, result = (cx.step ('/' :: segment) .empty).map (·, segment) := by
  intro passed
  rcases cx with ⟨taken, path, pattern, params⟩
  cases path with
  | nil => cases passed
  | cons c rest =>
      by_cases slash : c = '/'
      · subst slash
        by_cases done : rest = []
        · subst done
          cases passed
        · simp only [Context.next, List.isEmpty_iff, if_neg done, Option.some.injEq] at passed
          exact ⟨_, passed.symm⟩
      · simp [Context.next, slash] at passed

/-- A move is a step, or no move at all. -/
theorem move_cases {m : Move} :
    cx.move m = .ok next → next = cx ∨ ∃ piece params, cx.step piece params = .ok next := by
  intro moved
  cases m with
  | step piece params => exact .inr ⟨piece, params, moved⟩
  | next =>
      cases passed : cx.next with
      | none =>
          simp only [move, passed, Except.ok.injEq] at moved
          exact .inl moved.symm
      | some result =>
          rcases next_cases passed with ⟨segment, rfl⟩
          refine .inr ⟨'/' :: segment, .empty, ?_⟩
          cases stepped : cx.step ('/' :: segment) .empty with
          | error fault => simp [move, passed, stepped, Except.map] at moved
          | ok after => simpa [move, passed, stepped, Except.map] using moved

theorem fullPath_move {m : Move} (filled : cx.taken ≠ []) (moved : cx.move m = .ok next) :
    next.taken ≠ [] ∧
      cx.fullPath =
        List.replicate (if cx.DropsSlash next then 1 else 0) '/' ++ next.fullPath := by
  rcases move_cases moved with rfl | ⟨piece, params, stepped⟩
  · exact ⟨filled, by simp [not_dropsSlash_self]⟩
  · exact fullPath_step filled stepped

theorem run_cons {m : Move} :
    cx.run (m :: moves) = .ok last ↔ ∃ next, cx.move m = .ok next ∧ next.run moves = .ok last := by
  rw [run]
  cases cx.move m <;> simp

/-- What a sequence of moves keeps of the path. -/
theorem fullPath_moves (filled : cx.taken ≠ []) (ran : cx.run moves = .ok last) :
    cx.fullPath = List.replicate (cx.dropped moves) '/' ++ last.fullPath := by
  induction moves generalizing cx with
  | nil =>
      cases ran
      rfl
  | cons m moves ih =>
      rcases run_cons.1 ran with ⟨next, moved, rest⟩
      rcases fullPath_move filled moved with ⟨still, here⟩
      calc
        cx.fullPath
            = List.replicate (if cx.DropsSlash next then 1 else 0) '/' ++ next.fullPath := here
        _ = List.replicate (if cx.DropsSlash next then 1 else 0) '/' ++
              (List.replicate (next.dropped moves) '/' ++ last.fullPath) := by
                rw [← ih still rest]
        _ = List.replicate (cx.dropped (m :: moves)) '/' ++ last.fullPath := by
                simp only [dropped, moved, List.replicate_add, List.append_assoc]

/-! ## Paths that lose nothing -/

/-- No single slash can be taken as the first thing with more left behind it. -/
def Intact (cx : Context) : Prop := cx.taken = ['/'] → ¬ ['/', '/'] <+: cx.path

/-- What is dropped stood before another slash. -/
theorem not_dropsSlash (intact : cx.Intact) (stepped : cx.step piece params = .ok next) :
    ¬ cx.DropsSlash next := by
  rintro ⟨root, path, more⟩
  rcases step_cases stepped with rfl | ⟨consumed, rest, -, boundary, rfl⟩
  · exact more rfl
  · have slash : rest.head? = some '/' := boundary.resolve_left more
    rcases List.head?_eq_some_iff.1 slash with ⟨tail, rfl⟩
    refine intact root ⟨tail, ?_⟩
    exact path.symm

theorem intact_step (filled : cx.taken ≠ []) (intact : cx.Intact)
    (stepped : cx.step piece params = .ok next) : next.Intact := by
  rcases step_cases stepped with rfl | ⟨consumed, rest, parts, boundary, rfl⟩
  · intro _ slashes
    exact absurd (List.prefix_nil.1 slashes) (List.cons_ne_nil _ _)
  · intro lone slashes
    by_cases root : cx.taken = ['/']
    · -- the slashes stood in the path before the step, or right behind what it took
      have shape : consumed = [] ∨ consumed = ['/'] := by
        by_cases empty : consumed = []
        · exact .inl empty
        · exact .inr (by simpa [advance, accumulate, root, empty] using lone)
      rcases shape with rfl | rfl
      · have same : rest = cx.path := by simpa using parts
        exact intact root (same ▸ slashes)
      · rcases slashes with ⟨tail, eq⟩
        have path : cx.path = '/' :: '/' :: '/' :: tail := by
          have behind : rest = '/' :: '/' :: tail := eq.symm
          simp [← parts, behind]
        exact intact root ⟨'/' :: tail, by simp [path]⟩
    · have all : cx.taken ++ consumed = ['/'] := by
        simpa [advance, accumulate, root, filled] using lone
      exact append_ne_slash filled root consumed all

/-- An intact context stays so, and nothing is dropped on the way. -/
theorem dropped_eq_zero (filled : cx.taken ≠ []) (intact : cx.Intact)
    (ran : cx.run moves = .ok last) : cx.dropped moves = 0 := by
  induction moves generalizing cx with
  | nil => rfl
  | cons m moves ih =>
      rcases run_cons.1 ran with ⟨next, moved, rest⟩
      have still : next.taken ≠ [] := (fullPath_move filled moved).1
      rcases move_cases moved with rfl | ⟨piece, params, stepped⟩
      · simp [dropped, moved, not_dropsSlash_self, ih filled intact rest]
      · have here : ¬ cx.DropsSlash next := not_dropsSlash intact stepped
        simp [dropped, moved, here, ih still (intact_step filled intact stepped) rest]

/-- The moves of a request lead to contexts that show its path, without the slashes that were dropped.
Some moves drop one just if the path starts with two of them. -/
theorem fullPath_run (path : Text) :
    (∀ moves last, (new path).run moves = .ok last →
      (new path).path = List.replicate ((new path).dropped moves) '/' ++ last.fullPath) ∧
    ((∀ moves last, (new path).run moves = .ok last → last.fullPath = (new path).path) ↔
      ¬ ['/', '/'] <+: path) := by
  have filled : (new path).taken ≠ [] := List.cons_ne_nil _ _
  have start : (new path).fullPath = (new path).path := by cases path <;> simp [fullPath, new]
  have kept : ∀ moves last, (new path).run moves = .ok last →
      (new path).path = List.replicate ((new path).dropped moves) '/' ++ last.fullPath := by
    intro moves last ran
    exact start.symm.trans (fullPath_moves filled ran)
  refine ⟨kept, ?_, ?_⟩
  · -- one move over the first segment, which is empty, takes the first of two slashes alone
    rintro whole ⟨rest, rfl⟩
    have shown := whole [.next] ⟨['/'], '/' :: rest, ['/', '/', '*'], .empty⟩ rfl
    simp [fullPath, new] at shown
  · intro single moves last ran
    have intact : (new path).Intact := by
      intro _ slashes
      cases path with
      | nil => simp [new] at slashes
      | cons c rest => exact single slashes
    simpa [dropped_eq_zero filled intact ran] using (kept moves last ran).symm

/-- The path `//a` is shown as `/a` once its empty first segment has been passed. -/
theorem fullPath_next_of_two_slashes :
    ((new "//a".toList).run [.next]).map fullPath = .ok "/a".toList ∧
      (new "//a".toList).path = "//a".toList ∧ "/a".toList ≠ "//a".toList := by
  exact ⟨rfl, rfl, by decide⟩

end Context
end PathRouter
