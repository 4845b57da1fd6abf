import PathRouter.Text.Basic

/-!
# Template — the shape of a route path

A route is registered under a path such as `/users/{id}` or `/docs[/{lang:en|pt}]`.  This file
defines

* `Template`, what such a path consists of, read from left to right;
* `Template.toText`, its written form;
* `Template.isFixed`, `Template.endsInSlash`, `Template.names` and `Template.WellFormed`.
-/

namespace PathRouter

/-- The shape of a route path.  A capture without options takes any text of one segment. -/
inductive Template where
  | done
  | slash (rest : Template)
  | literal (text : Text) (rest : Template)
  | capture (name : Text) (options : List Text) (rest : Template)
  | optional (inner rest : Template)
  deriving DecidableEq, Repr

namespace Template

def append : Template → Template → Template
  | .done, t => t
  | .slash rest, t => .slash (rest.append t)
  | .literal text rest, t => .literal text (rest.append t)
  | .capture name options rest, t => .capture name options (rest.append t)
  | .optional inner rest, t => .optional inner (rest.append t)

instance : Append Template := ⟨append⟩

/-! ## Written form -/

/-- The options of a capture with the colon before them. -/
def optionsText : List Text → Text
  | [] => []
  | options => ':' :: Text.join ['|'] options

def toText : Template → Text
  | .done => []
  | .slash rest => '/' :: rest.toText
  | .literal text rest => text ++ rest.toText
  | .capture name options rest => '{' :: name ++ optionsText options ++ '}' :: rest.toText
  | .optional inner rest => '[' :: inner.toText ++ ']' :: rest.toText

/-! ## Views -/

/-- Whether the shape stands for one text only. -/
def isFixed : Template → Bool
  | .done => true
  | .slash rest => rest.isFixed
  | .literal _ rest => rest.isFixed
  | .capture _ _ _ => false
  | .optional _ _ => false

def isDone : Template → Bool
  | .done => true
  | _ => false

def startsWithSlash : Template → Bool
  | .slash _ => true
  | _ => false

def endsInSlash : Template → Bool
  | .done => false
  | .slash .done => true
  | .slash rest => rest.endsInSlash
  | .literal _ rest => rest.endsInSlash
  | .capture _ _ rest => rest.endsInSlash
  | .optional _ rest => rest.endsInSlash

/-- The shape without a slash in last place. -/
def dropFinalSlash : Template → Template
  | .done => .done
  | .slash .done => .done
  | .slash rest => .slash rest.dropFinalSlash
  | .literal text rest => .literal text rest.dropFinalSlash
  | .capture name options rest => .capture name options rest.dropFinalSlash
  | .optional inner rest => .optional inner rest.dropFinalSlash

/-- Capture names in the order in which the captures open. -/
def names : Template → List Text
  | .done => []
  | .slash rest => rest.names
  | .literal _ rest => rest.names
  | .capture name _ rest => name :: rest.names
  | .optional inner rest => inner.names ++ rest.names

/-! ## Well-formedness -/

/-- The characters with a meaning of their own outside captures. -/
def isReserved (c : Char) : Bool :=
  c = '/' || c = '{' || c = '}' || c = '[' || c = ']' || c = '*'

/-- A letter followed by letters, digits and underscores. -/
def isName : Text → Bool
  | [] => false
  | c :: rest => Text.isLetter c && rest.all fun d => Text.isLetter d || Text.isDigit d || d = '_'

/-- A text that may stand between the bars of a capture. -/
def isOption (option : Text) : Bool :=
  !option.isEmpty && option.all fun c => !isReserved c && c ≠ '|'

def startsWithLiteral : Template → Bool
  | .literal _ _ => true
  | _ => false

/-- The shapes that have a written form of their own: literals are non-empty, unreserved and never
adjacent, names and options are legal, and no group is empty. -/
def WellFormed : Template → Prop
  | .done => True
  | .slash rest => rest.WellFormed
  | .literal text rest =>
    text ≠ [] ∧ (∀ c ∈ text, isReserved c = false) ∧ rest.startsWithLiteral = false ∧
      rest.WellFormed
  | .capture name options rest =>
    isName name = true ∧ (∀ option ∈ options, isOption option = true) ∧ rest.WellFormed
  | .optional inner rest => inner.isDone = false ∧ inner.WellFormed ∧ rest.WellFormed

end Template
end PathRouter
