import PathRouter.Template.Basic
import PathRouter.Template.Fault

/-!
# Reader — from the written form of a route path to its shape

The path is read one character at a time, with a stack of the groups that are still open.  This
file defines

* `Reader`, what has been read so far, and `Reader.step`, one character more, with `Reader.mark` for
  those that have a meaning of their own;
* `Reader.feed`, a run over a text, and `Reader.finish`, the end of the path;
* `Template.parse`, the whole.

Offsets count bytes from the start of the path.  A character is judged by what precedes it alone,
so a fault found on the way depends on nothing that follows it.
-/

namespace PathRouter

/-- A group that is still open, and what preceded it at its own level. -/
structure OpenGroup where
  offset : Nat
  before : List Template

/-- What the next character belongs to, with what has been read of it, last character first. -/
inductive Pending where
  | literal (text : Text)
  | capture (offset : Nat) (body : Text)

/-- The state of reading: open groups, innermost first, the finished parts of the current level,
last part first, and the part being read. -/
structure Reader where
  outer : List OpenGroup
  parts : List Template
  pending : Pending

namespace Reader

def start : Reader := ⟨[], [], .literal []⟩

/-- The shape of the parts of a level. -/
def join (parts : List Template) : Template := parts.foldl (fun rest part => part ++ rest) .done

/-- The parts of a level with a literal, unless it is empty, put after them. -/
def flush (parts : List Template) : Text → List Template
  | [] => parts
  | text => .literal text.reverse .done :: parts

/-- The characters that may not stand inside a capture. -/
def endsCapture (c : Char) : Bool :=
  c = '/' || c = '{' || c = '[' || c = ']' || c = '*'

/-- The capture written between two braces, the first of them at `offset`. -/
def capture (offset : Nat) (body : Text) : Except Fault Template :=
  let (name, options) := Text.breakAt ':' body
  if name.isEmpty then .error (.emptyCaptureName offset)
  else if Template.isName name then
    match options with
    | none => .ok (.capture name [] .done)
    | some list =>
      let options := Text.splitOn '|' list
      if options.any List.isEmpty then .error (.emptyOption name)
      else .ok (.capture name options .done)
  else .error (.invalidCaptureName name)

/-- A reserved character at `offset`, outside captures, after the parts of a level. -/
def mark (offset : Nat) (outer : List OpenGroup) (parts : List Template) (c : Char) :
    Except Fault Reader :=
  if c = '/' then .ok ⟨outer, .slash .done :: parts, .literal []⟩
  else if c = '{' then .ok ⟨outer, parts, .capture offset []⟩
  else if c = '[' then .ok ⟨⟨offset, parts⟩ :: outer, [], .literal []⟩
  else if c = ']' then
    match outer with
    | [] => .error (.unexpected offset c)
    | group :: outer =>
      if parts.isEmpty then .error (.emptyOptional group.offset)
      else .ok ⟨outer, .optional (join parts) .done :: group.before, .literal []⟩
  else .error (.unexpected offset c)

/-- The character at `offset`. -/
def step (offset : Nat) (r : Reader) (c : Char) : Except Fault Reader :=
  match r.pending with
  | .capture opened body =>
    if c = '}' then
      match capture opened body.reverse with
      | .error fault => .error fault
      | .ok part => .ok ⟨r.outer, part :: r.parts, .literal []⟩
    else if endsCapture c then .error (.unexpected offset c)
    else .ok ⟨r.outer, r.parts, .capture opened (c :: body)⟩
  | .literal text =>
    if Template.isReserved c then mark offset r.outer (flush r.parts text) c
    else .ok ⟨r.outer, r.parts, .literal (c :: text)⟩

/-- The characters of a text whose first one stands at `offset`. -/
def feed (offset : Nat) (r : Reader) : Text → Except Fault Reader
  | [] => .ok r
  | c :: rest =>
    match r.step offset c with
    | .error fault => .error fault
    | .ok next => feed (offset + c.utf8Size) next rest

/-- The end of the path, at which nothing may be open. -/
def finish (r : Reader) : Except Fault Template :=
  match r.pending, r.outer with
  | .capture opened _, _ => .error (.unterminated opened '{')
  | .literal _, group :: _ => .error (.unterminated group.offset '[')
  | .literal text, [] => .ok (join (flush r.parts text))

end Reader

def Template.parse (path : Text) : Except PatternError Template :=
  let read : Except Fault Template :=
    match path with
    | [] => .error .empty
    | c :: _ =>
      if c = '/' then
        match Reader.start.feed 0 path with
        | .error fault => .error fault
        | .ok r => r.finish
      else .error .missingLeadingSlash
  read.mapError (⟨path, ·⟩)

end PathRouter
