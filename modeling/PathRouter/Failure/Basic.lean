import PathRouter.Failure.Frame
import PathRouter.Http.Headers
import PathRouter.Http.Status

/-!
# Failure — the ways in which a handler fails

This file defines

* `HttpFailure`, `Redirect`, `MethodNotAllowed` and `PanicFailure`, and `Failure`, any of these;
* `Failure.status`, `Failure.message`, `Failure.responseHeaders` and `Failure.causes`, what a
  response is made from;
* `Payload`, the value a panic carries, and `Panic`, which has the stack besides, with `Panic.recover`,
  the failure it turns into;
* `Outcome`, how the handling of a request ended.
-/

namespace PathRouter

/-- An underlying error, with the errors it was caused by, outermost first. -/
structure Cause where
  message : String
  sources : List String
  deriving DecidableEq, Repr

/-- All messages, outermost first. -/
def Cause.chain (c : Cause) : List String := c.message :: c.sources

/-! ## Kinds of failures -/

/-- A failure with a status of the handler's choice. -/
structure HttpFailure where
  status : Status
  headers : Headers
  details : List String
  source : Option Cause
  /-- Whether no route matched, as opposed to a handler that answers 404. -/
  routeMiss : Bool
  deriving DecidableEq, Repr

namespace HttpFailure

def new (status : Status) : HttpFailure := ⟨status, .empty, [], none, false⟩

def notFound : HttpFailure := new .notFound

def withHeader (e : HttpFailure) (name : HeaderName) (value : String) : HttpFailure :=
  { e with headers := e.headers.append name value }

def withDetail (e : HttpFailure) (detail : String) : HttpFailure :=
  { e with details := e.details ++ [detail] }

def withSource (e : HttpFailure) (source : Cause) : HttpFailure :=
  { e with source := some source }

def badRequest (detail : String) : HttpFailure := (new .badRequest).withDetail detail

def internal (source : Cause) : HttpFailure := (new .internalServerError).withSource source

def describe (e : HttpFailure) : String :=
  let details := String.intercalate ", " (e.details.map (quoted ·.toList))
  let source :=
    match e.source with
    | none => "None"
    | some c => "Some(" ++ quoted c.message.toList ++ ")"
  "HttpError \x7b status: " ++ toString e.status.code ++ ", headers: " ++ e.headers.describe ++
    ", details: [" ++ details ++ "], source: " ++ source ++ " \x7d"

end HttpFailure

structure Redirect where
  status : Status
  location : Text
  deriving DecidableEq, Repr

namespace Redirect

/-- A redirect with a status, or with 307 if the status does not send the client elsewhere. -/
def new (status : Status) (location : Text) : Redirect :=
  if status.isRedirection && status ≠ .notModified then ⟨status, location⟩
  else ⟨.temporaryRedirect, location⟩

def permanent (location : Text) : Redirect := new .permanentRedirect location

def message (r : Redirect) : String := s!"{r.status.line} to {quoted r.location}"

end Redirect

structure MethodNotAllowed where
  method : String
  allow : String
  deriving DecidableEq, Repr

def MethodNotAllowed.message (e : MethodNotAllowed) : String :=
  s!"Method Not Allowed (Error 405): {e.method}"

/-- A panic that carried no failure of its own. -/
structure PanicFailure where
  text : String
  cause : Option Cause
  stack : List Frame
  deriving DecidableEq, Repr

namespace PanicFailure

def message (p : PanicFailure) : String := s!"panic: {p.text}"

/-- Whether the value of the panic is still at hand; a cause takes its place. -/
def keepsValue (p : PanicFailure) : Bool := p.cause.isNone

def describe (p : PanicFailure) : String :=
  "PanicError \x7b message: " ++ quoted p.text.toList ++ ", frames: " ++
    toString p.stack.length ++ " \x7d"

end PanicFailure

inductive Failure where
  | http (e : HttpFailure)
  | redirect (r : Redirect)
  | methodNotAllowed (e : MethodNotAllowed)
  | panic (p : PanicFailure)
  deriving DecidableEq, Repr

namespace Failure

def status : Failure → Status
  | .http e => e.status
  | .redirect r => r.status
  | .methodNotAllowed _ => .methodNotAllowed
  | .panic _ => .internalServerError

def message : Failure → String
  | .http e => e.status.title
  | .redirect r => r.message
  | .methodNotAllowed e => e.message
  | .panic p => p.message

/-- The failure of a router without a route for the path. -/
def routeMiss : Failure := .http { HttpFailure.notFound with routeMiss := true }

def isRouteMiss : Failure → Bool
  | .http e => e.routeMiss
  | _ => false

/-- A single header, unless its value cannot be sent. -/
def headerOf (name : HeaderName) (value : Text) : Headers :=
  if HeaderValue.isLegal value then Headers.empty.set name (String.ofList value) else .empty

/-- The headers that the response carries on account of the failure. -/
def responseHeaders : Failure → Headers
  | .http e => e.headers
  | .redirect r => headerOf HeaderName.location r.location
  | .methodNotAllowed e => headerOf HeaderName.allow e.allow.toList
  | .panic _ => .empty

/-- The underlying errors, outermost first. -/
def causes : Failure → List String
  | .http e => (e.source.map Cause.chain).getD []
  | .panic p => (p.cause.map Cause.chain).getD []
  | _ => []

end Failure

/-! ## Panics -/

inductive Payload where
  | text (message : String)
  | boxed (cause : Cause)
  | failure (f : Failure)
  | methodNotAllowed (e : MethodNotAllowed)
  /-- Anything else. -/
  | value
  deriving DecidableEq, Repr

namespace Payload

/-- The panic of a payload, in words if the payload is a text or an underlying error. -/
def panic (p : Payload) (stack : List Frame) : PanicFailure :=
  match p with
  | .text message => ⟨message, none, stack⟩
  | .boxed cause => ⟨cause.message, some cause, stack⟩
  | _ => ⟨"Box<dyn Any>", none, stack⟩

/-- The failure that a caught panic turns into: its own, if it carries one. -/
def recover (p : Payload) (stack : List Frame) : Failure :=
  match p with
  | .failure f => f
  | .methodNotAllowed e => .methodNotAllowed e
  | _ => .panic (p.panic stack)

end Payload

/-- A panic: its value, and the stack that was captured when it was raised. -/
structure Panic where
  payload : Payload
  stack : List Frame
  deriving DecidableEq, Repr

namespace Panic

/-- A value that is thrown on as it is has no stack: one is only captured where a panic is raised. -/
instance : Coe Payload Panic := ⟨fun payload => ⟨payload, []⟩⟩

instance : Coe Panic Payload := ⟨Panic.payload⟩

/-- The failure that the panic turns into where it is caught. -/
def recover (p : Panic) : Failure := Payload.recover p p.stack

end Panic

/-! ## Outcomes -/

inductive Outcome where
  | served
  | failed (f : Failure)
  | redirect (r : Redirect)
  | panicked (p : PanicFailure)
  deriving DecidableEq, Repr

namespace Outcome

def ofFailure : Failure → Outcome
  | .redirect r => .redirect r
  | .panic p => .panicked p
  | f => .failed f

def label : Outcome → String
  | .served => "served"
  | .failed _ => "failed"
  | .redirect _ => "redirect"
  | .panicked _ => "panicked"

def failure? : Outcome → Option Failure
  | .served => none
  | .failed f => some f
  | .redirect r => some (.redirect r)
  | .panicked p => some (.panic p)

end Outcome
end PathRouter
