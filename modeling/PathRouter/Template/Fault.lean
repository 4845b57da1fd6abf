import PathRouter.Text.Quoted

/-!
# Fault — why a route path is refused

This file defines

* `Fault`, the causes, with byte offsets into the path they are about;
* `PatternError`, a cause with its path, and `PatternError.message`, its wording.
-/

namespace PathRouter

inductive Fault where
  | empty
  | missingLeadingSlash
  | unexpected (offset : Nat) (found : Char)
  | unterminated (offset : Nat) (opened : Char)
  | emptyCaptureName (offset : Nat)
  | invalidCaptureName (name : Text)
  | emptyOption (name : Text)
  | emptyOptional (offset : Nat)
  | nestedTooDeep
  deriving DecidableEq, Repr

structure PatternError where
  path : Text
  fault : Fault
  deriving DecidableEq, Repr

def PatternError.message (e : PatternError) : String :=
  let path := quoted e.path
  match e.fault with
  | .empty => "empty route path"
  | .missingLeadingSlash => s!"route path {path} must start with '/'"
  | .unexpected offset found => s!"unexpected '{found}' at offset {offset} in {path}"
  | .unterminated offset opened =>
    s!"unterminated '{opened}' opened at offset {offset} in {path}"
  | .emptyCaptureName offset => s!"empty capture name at offset {offset} in {path}"
  | .invalidCaptureName name => s!"invalid capture name {quoted name} in {path}"
  | .emptyOption name => s!"empty option in capture {quoted name} of {path}"
  | .emptyOptional offset => s!"empty optional group at offset {offset} in {path}"
  | .nestedTooDeep => s!"failed to compile {path}: nested too deep"

end PathRouter
