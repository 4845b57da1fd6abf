import PathRouter.Routing.Params

/-!
# Context — how far a request has been routed

A request passes through nested routers, each of which takes a beginning of what is left of the
path.  This file defines

* `Context`, what has been taken, what is left, the pattern so far and the parameters;
* `Context.step`, the context of the next level, and `StepFault`, why there may be none;
* `Context.next`, a step over one segment.
-/

namespace PathRouter

structure Context where
  /-- The part of the path that has been taken, or `/` if none has. -/
  taken : Text
  path : Text
  /-- The pattern so far; it ends in `/*` while something is left. -/
  pattern : Text
  params : Params
  deriving DecidableEq

inductive StepFault where
  | absent (piece path : Text)
  | splitsSegment (piece path : Text)
  deriving DecidableEq, Repr

def StepFault.message : StepFault → String
  | .absent piece path =>
    s!"routing context: prefix {quoted piece} does not occur in remaining path {quoted path}"
  | .splitsSegment piece path =>
    s!"routing context: prefix {quoted piece} splits {quoted path} inside a segment"

/-- A text without the `/*` at its end. -/
def withoutMountMark (pattern : Text) : Text :=
  ((['/', '*'] : Text).isSuffixOf? pattern).getD pattern

/-- The pattern of a route as seen from outside the mount it lives under. -/
def joinPattern (mount pattern : Text) : Text := withoutMountMark mount ++ pattern

namespace Context

/-- The context of a request that has not been routed. -/
def new (path : Text) : Context :=
  ⟨['/'], if path.isEmpty then ['/'] else path, [], .empty⟩

def param? (cx : Context) (name : Text) : Option Text := cx.params.latest? name

/-- The whole path, as the context was made from it. -/
def fullPath (cx : Context) : Text :=
  if cx.taken = ['/'] then
    if cx.path.isEmpty then ['/'] else cx.path
  else cx.taken ++ cx.path

/-- What has been taken once `piece` is taken too. -/
def accumulate (cx : Context) (piece : Text) : Text :=
  if cx.taken = ['/'] then piece else cx.taken ++ piece

def advance (cx : Context) (taken path pattern : Text) (params : Params) : Context :=
  ⟨if taken.isEmpty then ['/'] else taken, path, pattern, cx.params.merge params⟩

/-- The context once `piece` has been taken, with `rest` left. -/
def consume (cx : Context) (asked piece rest : Text) (params : Params) :
    Except StepFault Context :=
  if rest.isEmpty || rest.head? == some '/' then
    .ok (cx.advance (cx.accumulate piece) rest
      (withoutMountMark cx.pattern ++ piece ++ ['/', '*']) params)
  else .error (.splitsSegment asked cx.path)

/-- The context of the next level, where `piece` of the path has been matched: all of it, its
beginning, or else everything up to the end of the first place where the piece occurs. -/
def step (cx : Context) (piece : Text) (params : Params) : Except StepFault Context :=
  if piece = cx.path then
    .ok (cx.advance cx.fullPath [] (withoutMountMark cx.pattern ++ piece) params)
  else
    match Text.breakOn piece cx.path with
    | none => .error (.absent piece cx.path)
    | some (before, rest) => cx.consume piece (before ++ piece) rest params

/-- The context after the first segment of what is left, and the segment; none if nothing is left
but a slash. -/
def next (cx : Context) : Option (Except StepFault (Context × Text)) :=
  match cx.path with
  | '/' :: rest =>
    if rest.isEmpty then none
    else
      let (segment, _) := Text.breakAt '/' rest
      some ((cx.step ('/' :: segment) .empty).map (·, segment))
  | _ => none

end Context
end PathRouter
