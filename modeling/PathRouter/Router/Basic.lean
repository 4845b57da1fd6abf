import PathRouter.Failure.Description
import PathRouter.Handler.Basic
import PathRouter.Routing.Resolver

/-!
# Router — a finished tree of routes

This file defines

* `Router`, the nodes of one level with their resolver, some of which hold routers themselves;
* `dispatcher`, the handler that resolves, steps and calls a node, and `Router.ofNodes`;
* `Router.dispatch` and `Router.serve`, the way of a request from the top;
* `Router.walk` and `Router.routes`, the routes of all levels.
-/

namespace PathRouter

mutual

inductive NodeKind where
  | empty
  | handler
  | methods (allow : String)
  | router (nested : Router)

structure CompiledNode where
  pattern : Pattern
  handler : Handler
  kind : NodeKind

/-- A finished tree of routes. -/
structure Router where
  nodes : List CompiledNode
  resolver : Resolver
  /-- The middleware of the router around its dispatcher. -/
  entry : Handler
  options : RenderOptions

end

/-! ## Dispatch -/

/-- The place to which a request for a mount without its final slash is sent. -/
def redirectLocation (req : Request) (cx : Context) : Text :=
  let query := (req.uri.query.map ('?' :: ·)).getD []
  cx.fullPath ++ '/' :: query

/-- The handler that calls the node on which a request falls. -/
def routeToNode (resolver : Resolver) (handlers : List Handler) : Handler := fun req cx w =>
  match resolver.resolve cx.path with
  | .notFound => (.failed .routeMiss, w)
  | .redirect _ => (.failed (.redirect (.permanent (redirectLocation req cx))), w)
  | .matched m =>
    match handlers[m.node]?, cx.step m.taken m.params with
    | none, _ => (.failed .routeMiss, w)
    -- no request gets here from a router whose patterns have been compiled, so no stack is lost
    | some _, .error fault => (.panicked (Payload.text fault.message), w)
    | some handler, .ok next => handler req next w

/-- The same, with a handler for requests that no route takes, at this level or below. -/
def dispatcher (resolver : Resolver) (handlers : List Handler) (notFound : Option Handler) :
    Handler := fun req cx w =>
  match routeToNode resolver handlers req cx w, notFound with
  | (.failed f, w), some fallback =>
    if f.isRouteMiss then fallback req cx w.reset else (.failed f, w)
  | result, _ => result

namespace Router

/-- The resolver of a list of patterns, each numbered by its place. -/
def resolverOf (patterns : List Pattern) : Resolver :=
  patterns.zipIdx.foldl (fun r (pattern, index) => r.insert pattern index) .empty

def ofNodes (nodes : List CompiledNode) (chain : List Middleware) (notFound : Option Handler)
    (options : RenderOptions) : Router :=
  let resolver := resolverOf (nodes.map CompiledNode.pattern)
  { nodes := nodes
    resolver := resolver
    entry := wrap chain (dispatcher resolver (nodes.map CompiledNode.handler) notFound)
    options := options }

def size (r : Router) : Nat := r.nodes.length

def isEmpty (r : Router) : Bool := r.nodes.isEmpty

def resolve (r : Router) (path : Text) : Resolution := r.resolver.resolve path

def describe (r : Router) : String := "CompiledRouter \x7b routes: " ++ toString r.size ++ " \x7d"

/-- The handling of a request from the top, with panics caught. -/
def dispatch (r : Router) (req : Request) (w : Writer) : Outcome × Writer :=
  let (verdict, w) := r.entry req (.new req.uri.path) w
  (verdict.outcome, w)

/-- The response to a request; a failure to answer `HEAD` is rendered without a body. -/
def serve (r : Router) (req : Request) : Response :=
  let (outcome, w) := r.dispatch req .empty
  match outcome.failure? with
  | none => w.toResponse
  | some f =>
    let w := render f req w r.options
    (if req.method = "HEAD" then w.stripBody else w).toResponse

end Router

/-! ## Walks -/

inductive RouteKind where
  | empty
  | handler
  | methods (allow : String)
  deriving DecidableEq, Repr

structure RouteInfo where
  /-- The pattern, with those of the mounts above it. -/
  pattern : Text
  kind : RouteKind
  deriving DecidableEq, Repr

/-- A word filled up to the width of a column. -/
def column (word : String) : String := word ++ String.ofList (List.replicate (8 - word.length) ' ')

/-- A route as a table lists it. -/
def RouteInfo.line (info : RouteInfo) : String :=
  let pattern := String.ofList info.pattern
  match info.kind with
  | .empty => column "-" ++ " " ++ pattern
  | .handler => column "*" ++ " " ++ pattern
  | .methods allow => column "METHODS" ++ " " ++ pattern ++ " [" ++ allow ++ "]"

/-- Visits in the order of their numbers, until one of them says to stop. -/
def visitAll {σ : Type} (visits : List (σ → Bool × σ)) : List Nat → σ → Bool × σ
  | [], s => (false, s)
  | index :: rest, s =>
    match visits[index]? with
    | none => visitAll visits rest s
    | some visit =>
      match visit s with
      | (true, s) => (true, s)
      | (false, s) => visitAll visits rest s

mutual

/-- A walk over the routes of a router that is mounted under a pattern. -/
def Router.walkUnder {σ : Type} (f : RouteInfo → σ → Bool × σ) (mount : Text) :
    Router → σ → Bool × σ
  | ⟨nodes, resolver, _, _⟩ => visitAll (walkNodes f mount nodes) resolver.order

def walkNodes {σ : Type} (f : RouteInfo → σ → Bool × σ) (mount : Text) :
    List CompiledNode → List (σ → Bool × σ)
  | [] => []
  | node :: nodes => node.walkUnder f mount :: walkNodes f mount nodes

def CompiledNode.walkUnder {σ : Type} (f : RouteInfo → σ → Bool × σ) (mount : Text) :
    CompiledNode → σ → Bool × σ
  | ⟨pattern, _, kind⟩ => kind.walk f (joinPattern mount pattern.canonical)

/-- A walk over what a node with the given pattern serves. -/
def NodeKind.walk {σ : Type} (f : RouteInfo → σ → Bool × σ) (pattern : Text) :
    NodeKind → σ → Bool × σ
  | .empty => f ⟨pattern, .empty⟩
  | .handler => f ⟨pattern, .handler⟩
  | .methods allow => f ⟨pattern, .methods allow⟩
  | .router nested => nested.walkUnder f pattern

end

namespace Router

/-- A walk over all routes, until `f` says to stop; whether it did, and the last state. -/
def walk {σ : Type} (r : Router) (f : RouteInfo → σ → Bool × σ) (s : σ) : Bool × σ :=
  r.walkUnder f [] s

/-- All routes, in the order of a walk. -/
def routes (r : Router) : List RouteInfo := (r.walk (fun info seen => (false, seen ++ [info])) []).2

end Router
end PathRouter
