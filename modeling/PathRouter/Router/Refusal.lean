import PathRouter.Template.Fault

/-!
# Refusal — why a registration is turned down

This file defines

* `RouteError`, what is wrong with a registration, and `RouteError.message`;
* `Refusal`, such an error, or the use of a router that is finished already.
-/

namespace PathRouter

/-- What a node may hold or be asked to hold. -/
inductive Content where
  | nothing
  | handler
  | methodHandler
  | methodTable
  | subRouter
  deriving DecidableEq, Repr

def Content.name : Content → String
  | .nothing => "nothing"
  | .handler => "handler"
  | .methodHandler => "method handler"
  | .methodTable => "method table"
  | .subRouter => "sub-router"

inductive RouteError where
  | pattern (e : PatternError)
  | conflict (path : Text) (existing requested : Content)
  | notMount (path : Text)
  deriving DecidableEq, Repr

def RouteError.message : RouteError → String
  | .pattern e => e.message
  | .conflict path existing requested =>
    s!"route {quoted path} already holds a {existing.name}, can't register a {requested.name}"
  | .notMount path =>
    s!"route {quoted path} is not a mount point (expected a trailing \"/*\")"

inductive Refusal where
  | rejected (e : RouteError)
  | finishedRouter (operation : String)
  | finishedRoute (operation : String) (pattern : Text)
  deriving DecidableEq, Repr

def Refusal.message : Refusal → String
  | .rejected e => e.message
  | .finishedRouter operation => s!"can't call {operation}() on a compiled router"
  | .finishedRoute operation pattern =>
    s!"can't call {operation}() on compiled route " ++ String.ofList pattern

end PathRouter
