import PathRouter.Http.Headers

/-!
# Request — what a client asks for

This file defines

* `Uri`, the path and the query of a request target, and `Uri.parse`;
* `Request`, a request whose body has been read.
-/

namespace PathRouter

/-- The parts of a request target that matter to routing. -/
structure Uri where
  path : Text
  query : Option Text
  deriving DecidableEq, Repr

namespace Uri

/-- Path and query of a target without scheme and authority; a fragment is dropped. -/
def ofPathAndQuery (s : Text) : Uri :=
  let (target, _) := Text.breakAt '#' s
  let (path, query) := Text.breakAt '?' target
  ⟨path, query⟩

/-- A target in one of four forms: an asterisk, a path, a URL, whose path is `/` if it has none, or
an authority alone, which has an empty path. -/
def parse (s : Text) : Uri :=
  if s = ['*'] || s.head? == some '/' then ofPathAndQuery s
  else
    match Text.breakOn [':', '/', '/'] s with
    | none => ⟨[], none⟩
    | some (_, rest) =>
      let uri := ofPathAndQuery (rest.dropWhile fun c => c ≠ '/' && c ≠ '?' && c ≠ '#')
      if uri.path.isEmpty then { uri with path := ['/'] } else uri

end Uri

/-- A request with its body. -/
structure Request where
  method : String
  uri : Uri
  headers : Headers
  body : String
  deriving DecidableEq, Repr

namespace Request

/-- The first value of a header, if it is readable as text. -/
def header? (req : Request) (name : HeaderName) : Option String :=
  (req.headers.get? name).filter fun value => HeaderValue.isVisible value.toList

/-- The identifier that the client or the server gave the request. -/
def id? (req : Request) : Option String := req.header? HeaderName.requestId

end Request
end PathRouter
