import PathRouter.Failure.Basic
import PathRouter.Http.Request
import PathRouter.Http.Writer
import PathRouter.Routing.Context

/-!
# Handler — what answers a routed request

This file defines

* `Verdict`, how a handler ends, and `Handler`, which writes to a response and gives a verdict;
* `Middleware`, from handler to handler, and `wrap`, a chain of it around a handler;
* `recoverer`, the middleware that turns panics into failures.

What was written before a failure or a panic stays written; it is for others to discard it.
-/

namespace PathRouter

inductive Verdict where
  | served
  | failed (f : Failure)
  | panicked (p : Panic)
  deriving DecidableEq, Repr

/-- What answers a request that has been routed to it. -/
abbrev Handler := Request → Context → Writer → Verdict × Writer

/-- What stands between a request and a handler. -/
abbrev Middleware := Handler → Handler

/-- A chain around a handler, the first of it outermost. -/
def wrap (chain : List Middleware) (handler : Handler) : Handler :=
  chain.foldr (fun middleware next => middleware next) handler

@[simp] theorem wrap_nil (handler : Handler) : wrap [] handler = handler := rfl

@[simp] theorem wrap_cons (middleware : Middleware) (chain : List Middleware) (handler : Handler) :
    wrap (middleware :: chain) handler = middleware (wrap chain handler) := rfl

namespace Handler

def writing (f : Request → Context → Writer → Writer) : Handler :=
  fun req cx w => (.served, f req cx w)

def status (s : Status) : Handler := fun _ _ w => (.failed (.http (.new s)), w)

end Handler

namespace Verdict

/-- The verdict of what catches panics. -/
def recover : Verdict → Verdict
  | .panicked p => .failed p.recover
  | v => v

def outcome : Verdict → Outcome
  | .served => .served
  | .failed f => .ofFailure f
  | .panicked p => .ofFailure p.recover

end Verdict

/-- Turns panics below it into failures. -/
def recoverer : Middleware := fun next req cx w =>
  let (verdict, w) := next req cx w
  (verdict.recover, w)

end PathRouter
