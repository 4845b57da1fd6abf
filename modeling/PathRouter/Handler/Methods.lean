import PathRouter.Assoc
import PathRouter.Handler.Basic

/-!
# Methods — the handlers of one route, by request method

Methods are compared in upper case.  A route that serves `GET` also serves `HEAD`, without the
body, and a request for `OPTIONS` is answered with the list of methods.  This file defines

* `MethodTable`, what has been registered, and `MethodTable.compile`;
* `MethodHandler`, which answers requests, and its `allow` list.
-/

namespace PathRouter

/-- A handler with the middleware registered along with it. -/
structure MethodEntry where
  handler : Handler
  chain : List Middleware

def MethodEntry.compile (e : MethodEntry) : Handler := wrap e.chain e.handler

structure MethodTable where
  /-- Entries by upper-case method, in ascending order. -/
  entries : List (String × MethodEntry)
  /-- The entry for all other methods. -/
  any : Option MethodEntry

structure MethodHandler where
  handlers : List (String × Handler)
  any : Option Handler
  /-- The value of an `Allow` header. -/
  allow : String

/-- The form in which methods are compared. -/
def canonicalMethod (method : String) : String := method.map Char.toUpper

namespace MethodTable

def empty : MethodTable := ⟨[], none⟩

/-- The table with an entry for a method. -/
def insert (t : MethodTable) (method : String) (handler : Handler) (chain : List Middleware) :
    MethodTable :=
  { t with entries := Assoc.insert (canonicalMethod method) ⟨handler, chain⟩ t.entries }

/-- The table with an entry for all methods that have none of their own. -/
def setAny (t : MethodTable) (handler : Handler) (chain : List Middleware) : MethodTable :=
  { t with any := some ⟨handler, chain⟩ }

/-- The methods that an entry for all methods is said to serve. -/
def catchAllMethods : List String := ["GET", "HEAD", "PUT", "DELETE"]

/-- An ascending list with one name more, unless it is there. -/
def insertName (name : String) : List String → List String
  | [] => [name]
  | other :: rest =>
    if name = other then other :: rest
    else if name < other then name :: other :: rest
    else other :: insertName name rest

/-- The methods that are served, in ascending order; `OPTIONS` comes last if nobody registered
it. -/
def allowed (registered : List String) (catchAll : Bool) : List String :=
  let methods := if catchAll then catchAllMethods.foldr insertName registered else registered
  if methods.contains "OPTIONS" then methods else methods ++ ["OPTIONS"]

/-- The handler of `GET` as it answers `HEAD`. -/
def headOfGet (get : Handler) : Handler := fun req cx w =>
  match get req cx w with
  | (.panicked p, w) => (.panicked p, w)
  | (verdict, w) => (verdict, w.stripBody)

/-- The handlers with one for `HEAD`, if `GET` has one and `HEAD` has none. -/
def withHead (handlers : List (String × Handler)) : List (String × Handler) :=
  match Assoc.get? "HEAD" handlers, Assoc.get? "GET" handlers with
  | none, some get => Assoc.insert "HEAD" (headOfGet get) handlers
  | _, _ => handlers

def compile (t : MethodTable) : MethodHandler :=
  let handlers := withHead (t.entries.map fun (method, entry) => (method, entry.compile))
  { handlers := handlers
    any := t.any.map MethodEntry.compile
    allow := String.intercalate ", " (allowed (handlers.map Prod.fst) t.any.isSome) }

end MethodTable

namespace MethodHandler

/-- The answer to a method that nothing was registered for. -/
def unregistered (h : MethodHandler) (method : String) (w : Writer) : Verdict × Writer :=
  if method = "OPTIONS" then
    let w :=
      if HeaderValue.isLegal h.allow.toList then w.setHeader HeaderName.allow h.allow else w
    (.served, w.setStatus .noContent)
  else (.failed (.methodNotAllowed ⟨method, h.allow⟩), w)

/-- The handler that picks the one for the request's method. -/
def toHandler (h : MethodHandler) : Handler := fun req cx w =>
  let method := canonicalMethod req.method
  match Assoc.get? method h.handlers with
  | some handler => handler req cx w
  | none =>
    match h.any with
    | some handler => handler req cx w
    | none => h.unregistered method w

end MethodHandler
end PathRouter
