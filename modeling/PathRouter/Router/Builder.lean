import PathRouter.Handler.Methods
import PathRouter.Router.Basic
import PathRouter.Router.Refusal

/-!
# Builder — a tree of routes under construction

This file defines

* `Node`, a route that is being put together, and `Builder`, the nodes of one level, with the
  registrations on both;
* `Node.compile` and `Builder.compile`, which finish them: later registrations are refused.

A registration that is refused leaves things as they were.
-/

namespace PathRouter

mutual

/-- What a route is to serve. -/
inductive Target where
  | empty
  | handler (handler : Handler) (chain : List Middleware)
  | methods (table : MethodTable)
  | router (nested : Builder)
  | mounted (router : Router)

/-- A route that is being put together, or is finished. -/
inductive Node where
  | raw (pattern : Pattern) (target : Target) (chain : List Middleware)
  | compiled (node : CompiledNode)

/-- The routes of one level. -/
structure Builder where
  nodes : List Node
  chain : List Middleware
  notFound : Option Handler
  options : RenderOptions
  compiled : Option Router

end

/-! ## Finishing -/

mutual

def Builder.freeze : Builder → Router
  | ⟨_, _, _, _, some router⟩ => router
  | ⟨nodes, chain, notFound, options, none⟩ =>
    .ofNodes (freezeNodes nodes) chain notFound options

def freezeNodes : List Node → List CompiledNode
  | [] => []
  | node :: nodes => node.freeze :: freezeNodes nodes

/-- A node, finished: its middleware is around whatever it serves. -/
def Node.freeze : Node → CompiledNode
  | .compiled node => node
  | .raw pattern target chain =>
    let (handler, kind) := target.freeze
    ⟨pattern, wrap chain handler, kind⟩

/-- The handler of a target.  Where there is none, the answer is 404. -/
def Target.freeze : Target → Handler × NodeKind
  | .empty => (Handler.status .notFound, .empty)
  | .handler handler chain => (wrap chain handler, .handler)
  | .methods table =>
    let methods := table.compile
    (methods.toHandler, .methods methods.allow)
  | .router nested =>
    let router := nested.freeze
    (router.entry, .router router)
  | .mounted router => (router.entry, .router router)

end

/-! ## Builders -/

namespace Builder

def empty : Builder := ⟨[], [], none, .default, none⟩

instance : Inhabited Builder := ⟨empty⟩

def size (b : Builder) : Nat := b.nodes.length

def isEmpty (b : Builder) : Bool := b.nodes.isEmpty

def describe (b : Builder) : String :=
  "RouteBuilder \x7b routes: " ++ toString b.size ++ ", middleware: " ++
    toString b.chain.length ++ ", compiled: " ++ toString b.compiled.isSome ++ " \x7d"

/-- The finished router, and the builder that has turned into it. -/
def compile (b : Builder) : Router × Builder :=
  let router := b.freeze
  (router, { b with compiled := some router })

end Builder

/-! ## Nodes -/

namespace Target

def content : Target → Content
  | .empty => .nothing
  | .handler _ _ => .handler
  | .methods _ => .methodTable
  | .router _ => .subRouter
  | .mounted _ => .subRouter

end Target

namespace Node

/-- A route that serves nothing yet. -/
def new (pattern : Pattern) : Node := .raw pattern .empty []

def pattern : Node → Pattern
  | .raw pattern _ _ => pattern
  | .compiled node => node.pattern

def isCompiled : Node → Bool
  | .raw _ _ _ => false
  | .compiled _ => true

/-- The finished node, and the node that has turned into it. -/
def compile (n : Node) : CompiledNode × Node := (n.freeze, .compiled n.freeze)

/-- The refusal of a node that holds something else. -/
def conflict (pattern : Pattern) (target : Target) (requested : Content) : Refusal :=
  .rejected (.conflict pattern.raw target.content requested)

/-- Serves all methods with a handler, or, beside a method table, all others. -/
def handle (n : Node) (handler : Handler) (chain : List Middleware) : Except Refusal Node :=
  match n with
  | .compiled node => .error (.finishedRoute "handle" node.pattern.canonical)
  | .raw pattern target outer =>
    match target with
    | .methods table => .ok (.raw pattern (.methods (table.setAny handler chain)) outer)
    | .router _ => .error (conflict pattern target .handler)
    | .mounted _ => .error (conflict pattern target .handler)
    | .empty => .ok (.raw pattern (.handler handler chain) outer)
    | .handler _ _ => .ok (.raw pattern (.handler handler chain) outer)

/-- Serves a method with a handler; one that serves all methods is kept for the others. -/
def method (n : Node) (method : String) (handler : Handler) (chain : List Middleware) :
    Except Refusal Node :=
  match n with
  | .compiled node => .error (.finishedRoute "method" node.pattern.canonical)
  | .raw pattern target outer =>
    let insert (table : MethodTable) : Except Refusal Node :=
      .ok (.raw pattern (.methods (table.insert method handler chain)) outer)
    match target with
    | .empty => insert .empty
    | .handler any anyChain => insert (MethodTable.empty.setAny any anyChain)
    | .methods table => insert table
    | .router _ => .error (conflict pattern target .methodHandler)
    | .mounted _ => .error (conflict pattern target .methodHandler)

/-- Puts middleware around whatever the node serves, inside of what is there. -/
def wrapWith (n : Node) (middleware : Middleware) : Except Refusal Node :=
  match n with
  | .compiled node => .error (.finishedRoute "with" node.pattern.canonical)
  | .raw pattern target chain => .ok (.raw pattern target (chain ++ [middleware]))

def route {α : Type} (n : Node) (f : Builder → α × Builder) : Except Refusal (α × Node) :=
  if n.pattern.isMount then
    match n with
    | .compiled node => .error (.finishedRoute "route" node.pattern.canonical)
    | .raw pattern target chain =>
      let work (nested : Builder) : Except Refusal (α × Node) :=
        let (a, nested) := f nested
        .ok (a, .raw pattern (.router nested) chain)
      match target with
      | .empty => work .empty
      | .router nested => work nested
      | _ => .error (conflict pattern target .subRouter)
  else .error (.rejected (.notMount n.pattern.raw))

/-- Hands all requests below a mount to a finished router. -/
def mount (n : Node) (router : Router) : Except Refusal Node :=
  if n.pattern.isMount then
    match n with
    | .compiled node => .error (.finishedRoute "mount" node.pattern.canonical)
    | .raw pattern target chain =>
      match target with
      | .empty => .ok (.raw pattern (.mounted router) chain)
      | _ => .error (conflict pattern target .subRouter)
  else .error (.rejected (.notMount n.pattern.raw))

end Node

/-! ## Registrations -/

namespace Builder

/-- Refuses an operation on a finished router. -/
def requireOpen (b : Builder) (operation : String) : Except Refusal Unit :=
  if b.compiled.isSome then .error (.finishedRouter operation) else .ok ()

/-- The nodes after work on the one with a pattern, which is new if there is none; of equal
patterns the first one registered stands for all. -/
def editNodes {α : Type} (pattern : Pattern) (f : Node → Except Refusal (α × Node)) :
    List Node → Except Refusal (α × List Node)
  | [] => (f (.new pattern)).map fun (a, node) => (a, [node])
  | node :: nodes =>
    if node.pattern.canonical = pattern.canonical then
      (f node).map fun (a, node) => (a, node :: nodes)
    else (editNodes pattern f nodes).map fun (a, nodes) => (a, node :: nodes)

def edit {α : Type} (b : Builder) (path : Text) (operation : String)
    (f : Node → Except Refusal (α × Node)) : Except Refusal (α × Builder) :=
  match b.requireOpen operation with
  | .error refusal => .error refusal
  | .ok _ =>
    match Pattern.compile path with
    | .error e => .error (.rejected (.pattern e))
    | .ok pattern =>
      (editNodes pattern f b.nodes).map fun (a, nodes) => (a, { b with nodes := nodes })

/-- Work on the node of a path that has no result of its own. -/
def change (b : Builder) (path : Text) (operation : String) (f : Node → Except Refusal Node) :
    Except Refusal Builder :=
  (b.edit path operation fun node => (f node).map ((), ·)).map Prod.snd

/-- Serves all methods at a path with a handler, wrapped in a chain. -/
def handle (b : Builder) (path : Text) (chain : List Middleware) (handler : Handler) :
    Except Refusal Builder :=
  b.change path "handle" fun node => node.handle handler chain

def method (b : Builder) (name : String) (path : Text) (chain : List Middleware)
    (handler : Handler) : Except Refusal Builder :=
  b.change path "method" fun node => node.method name handler chain

/-- Puts middleware around all requests that the router handles, inside of what is there. -/
def useMiddleware (b : Builder) (middleware : Middleware) : Except Refusal Builder :=
  (b.requireOpen "use_middleware").map fun _ => { b with chain := b.chain ++ [middleware] }

def wrapPath (b : Builder) (path : Text) (middleware : Middleware) : Except Refusal Builder :=
  b.change path "wrap" fun node => node.wrapWith middleware

/-- The form of a path under which routers are mounted: `/api/*` for `/api` and `/api/`. -/
def mountPath (path : Text) : Text :=
  if Pattern.mountMark.isSuffixOf path then path
  else if Pattern.endsIn '/' path then path ++ ['*']
  else path ++ ['/', '*']

def route {α : Type} (b : Builder) (path : Text) (f : Builder → α × Builder) :
    Except Refusal (α × Builder) :=
  b.edit (mountPath path) "route" fun node => node.route f

def nest (b : Builder) (path : Text) (f : Builder → Except Refusal Builder) :
    Except Refusal Builder :=
  let work (nested : Builder) : Except Refusal Unit × Builder :=
    match f nested with
    | .ok nested => (.ok (), nested)
    | .error refusal => (.error refusal, nested)
  match b.route path work with
  | .error refusal => .error refusal
  | .ok (.error refusal, _) => .error refusal
  | .ok (.ok _, b) => .ok b

/-- Hands all requests below a path to a finished router. -/
def mount (b : Builder) (path : Text) (router : Router) : Except Refusal Builder :=
  b.change (mountPath path) "mount" fun node => node.mount router

/-- Gives requests that no route takes to a handler. -/
def setNotFound (b : Builder) (handler : Handler) : Except Refusal Builder :=
  (b.requireOpen "not_found").map fun _ => { b with notFound := some handler }

/-- Says what responses may reveal about failures. -/
def setOptions (b : Builder) (options : RenderOptions) : Except Refusal Builder :=
  (b.requireOpen "render_options").map fun _ => { b with options := options }

end Builder
end PathRouter
