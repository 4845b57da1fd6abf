import PathRouter.Regex.Match
import PathRouter.Template.Reader

/-!
# Pattern — a route path made ready for matching

This file defines

* `Template.expression`, the regular expression of a shape, in which a slash before an optional
  group belongs to the group unless the group brings its own;
* `Pattern`, a compiled path: a key for paths without captures and groups, an expression otherwise;
* `Pattern.compile`, which also brings `/api/` and `/api/*` to one canonical form.
-/

namespace PathRouter

/-! ## Expressions -/

namespace Template

def choice : List Text → Regex
  | [] => .empty
  | [option] => .text option
  | option :: options => .alt (.text option) (choice options)

def captured : List Text → Regex
  | [] => .segment
  | options => choice options

/-- The regular expression of a shape. -/
def expression : Template → Regex
  | .done => .empty
  | .slash (.optional inner rest) =>
    if inner.startsWithSlash then
      .seq (.text ['/']) (.seq (.optional inner.expression) rest.expression)
    else .seq (.optional (.seq (.text ['/']) inner.expression)) rest.expression
  | .slash rest => .seq (.text ['/']) rest.expression
  | .literal text rest => .seq (.text text) rest.expression
  | .capture _ options rest => .seq (.capture (captured options)) rest.expression
  | .optional inner rest => .seq (.optional inner.expression) rest.expression

/-- The expression that a whole path has to match.  After a final slash more may follow, and the
slash itself may be missing at the end of the path. -/
def matcher (t : Template) : Regex :=
  if t.endsInSlash then
    .seq t.dropFinalSlash.expression (.group (.alt (.text ['/']) .stop))
  else .seq t.expression .stop

end Template

/-! ## Patterns -/

inductive Matching where
  /-- By comparison with a key. -/
  | literal (key : Text)
  /-- By an expression, whose captures have the given names.  A leaf takes whole paths only. -/
  | expression (regex : Regex) (names : List Text) (leaf : Bool)

/-- A compiled route path. -/
structure Pattern where
  /-- The path as registered. -/
  raw : Text
  /-- The path without a final `*`. -/
  path : Text
  /-- The form shared by all paths that mean the same route; mounts end in `/*`. -/
  canonical : Text
  matching : Matching

namespace Pattern

/-- The key of a literal pattern. -/
def key? (p : Pattern) : Option Text :=
  match p.matching with
  | .literal key => some key
  | .expression _ _ _ => none

/-- The expression of a pattern that is not literal. -/
def regex? (p : Pattern) : Option Regex :=
  match p.matching with
  | .literal _ => none
  | .expression regex _ _ => some regex

def names (p : Pattern) : List Text :=
  match p.matching with
  | .literal _ => []
  | .expression _ names _ => names

/-- The end of the canonical form of a mount. -/
def mountMark : Text := ['/', '*']

/-- Whether the route takes all paths below a place. -/
def isMount (p : Pattern) : Bool := mountMark.isSuffixOf p.canonical

/-- Whether the route takes whole paths only. -/
def isLeaf (p : Pattern) : Bool :=
  match p.matching with
  | .literal _ => !p.isMount
  | .expression _ _ leaf => leaf

/-- Whether the text ends in a character. -/
def endsIn (c : Char) (s : Text) : Bool := s.getLast? == some c

/-- The path without its `*`, and the canonical form. -/
def canonicalize (raw : Text) : Except PatternError (Text × Text) :=
  if endsIn '*' raw then
    let stem := raw.dropLast
    if endsIn '/' stem then .ok (stem, raw)
    else .error ⟨raw, .unexpected (Text.utf8Length stem) '*'⟩
  else if endsIn '/' raw then .ok (raw, raw ++ ['*'])
  else .ok (raw, raw)

/-- The key of a literal path: the path without a final slash. -/
def literalKey (path : Text) : Text :=
  match (['/'] : Text).isSuffixOf? path with
  | some [] => ['/']
  | some key => key
  | none => path

/-- The pattern of a shape. -/
def ofTemplate (raw path canonical : Text) (t : Template) : Except PatternError Pattern :=
  if t.isFixed then .ok ⟨raw, path, canonical, .literal (literalKey path)⟩
  else if Regex.nestLimit < t.matcher.depth then .error ⟨raw, .nestedTooDeep⟩
  else .ok ⟨raw, path, canonical, .expression t.matcher t.names (!t.endsInSlash)⟩

/-- The pattern of a route path. -/
def compile (raw : Text) : Except PatternError Pattern :=
  if raw = ['/'] then .ok ⟨raw, ['/'], ['/'], .literal ['/']⟩
  else if raw = ['/', '*'] then .ok ⟨raw, ['/'], ['/', '*'], .literal ['/']⟩
  else
    match canonicalize raw with
    | .error e => .error e
    | .ok (path, canonical) =>
      match Template.parse path with
      | .error e => .error e
      | .ok t => ofTemplate raw path canonical t

end Pattern
end PathRouter
