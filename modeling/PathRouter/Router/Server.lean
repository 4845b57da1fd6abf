import PathRouter.Router.Basic

/-!
# Server — what happens to a request around its router

This file defines

* `Server`, a router with a limit on the bodies of requests;
* `Server.respond`, the response to a request, which carries the identifier of the request.
-/

namespace PathRouter

/-- A router with a limit on the bodies of requests. -/
structure Server where
  maxBodyBytes : Nat
  router : Router

namespace Server

/-- A request with an identifier: its own, if it has one. -/
def identify (fresh : String) (req : Request) : Request :=
  if req.headers.contains HeaderName.requestId then req
  else { req with headers := req.headers.set HeaderName.requestId fresh }

/-- The response to a request whose body is too long. -/
def tooLarge : Response :=
  ⟨.payloadTooLarge, Headers.empty.set HeaderName.contentType "text/plain; charset=utf-8",
    "Request body too large"⟩

/-- A response with the identifier of the request, unless it has one of its own. -/
def propagate (req : Request) (res : Response) : Response :=
  if res.headers.contains HeaderName.requestId then res
  else
    match req.headers.get? HeaderName.requestId with
    | none => res
    | some id => { res with headers := res.headers.set HeaderName.requestId id }

/-- Whether a response goes without a body: an answer to `HEAD`, or a tunnel that was opened. -/
def isBodiless (req : Request) (res : Response) : Bool :=
  req.method = "HEAD" ||
    (req.method = "CONNECT" && 200 ≤ res.status.code && res.status.code ≤ 299)

/-- The response to a request; `fresh` identifies it if nothing else does. -/
def respond (s : Server) (fresh : String) (req : Request) : Response :=
  let req := identify fresh req
  let res := if s.maxBodyBytes < req.body.utf8ByteSize then tooLarge else s.router.serve req
  propagate req (if isBodiless req res then { res with body := "" } else res)

end Server
end PathRouter
