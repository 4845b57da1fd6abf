import PathRouter.Proofs.Joining
import PathRouter.Proofs.Tree

/-!
# InPlace — registrations as changes to one builder

A registration gives a new builder or a refusal.  A builder that is changed in place goes through states
in between: the node of a path is there before it is known whether it can hold what is asked of it, and
its target is taken out while a method table is put together.  This file defines

* `InPlace`, work on a state, which keeps what has been done to it when the work is refused;
* `Builder.Call`, the calls that go by the node of a path, alone or through a chain of middleware, and
  `Builder.Call.perform`, how they change a builder in place;
* `Builder.Call.clash?`, what a call asks of a target that cannot give it;

and shows `Builder.Call.outcome_perform`, that in place nothing is left of a call that is refused, and
`Builder.Call.refused`, which calls are refused and why.
-/

namespace PathRouter

/-- Work that changes a state and may be refused; what has been done to the state by then stays. -/
abbrev InPlace (σ α : Type) := ExceptT Refusal (StateM σ) α

namespace InPlace

variable {σ α : Type}

/-- How work ends, and the state it leaves. -/
def outcome (work : InPlace σ α) (s : σ) : Except Refusal α × σ := (ExceptT.run work).run s

/-- The outcome of work that leaves the state alone when it is refused. -/
def settle (s : σ) : Except Refusal (α × σ) → Except Refusal α × σ
  | .error refusal => (.error refusal, s)
  | .ok (a, after) => (.ok a, after)

variable {β : Type} {s : σ}

@[simp] theorem outcome_pure (a : α) : (pure a : InPlace σ α).outcome s = (.ok a, s) := rfl

@[simp] theorem outcome_throw (refusal : Refusal) :
    (throw refusal : InPlace σ α).outcome s = (.error refusal, s) := rfl

@[simp] theorem outcome_get : (get : InPlace σ σ).outcome s = (.ok s, s) := rfl

@[simp] theorem outcome_set (after : σ) :
    (set after : InPlace σ PUnit).outcome s = (.ok ⟨⟩, after) := rfl

@[simp] theorem outcome_modify (f : σ → σ) :
    (modify f : InPlace σ PUnit).outcome s = (.ok ⟨⟩, f s) := rfl

/-- Work goes on from the state that is left, unless it has been refused. -/
@[simp] theorem outcome_bind (work : InPlace σ α) (next : α → InPlace σ β) :
    (work >>= next).outcome s =
      match work.outcome s with
      | (.error refusal, after) => (.error refusal, after)
      | (.ok a, after) => (next a).outcome after := by
  have step : (work >>= next).outcome s =
      StateT.run (ExceptT.bindCont next (work.outcome s).1) (work.outcome s).2 := rfl
  rw [step]
  rcases work.outcome s with ⟨_ | a, after⟩ <;> rfl

@[simp] theorem outcome_map (f : α → β) (work : InPlace σ α) :
    (f <$> work).outcome s = ((work.outcome s).1.map f, (work.outcome s).2) := by
  rw [map_eq_pure_bind, outcome_bind]
  rcases work.outcome s with ⟨_ | a, after⟩ <;> rfl

end InPlace

/-! ## Nodes -/

namespace Node

/-- The parts of a node under construction; work on a finished one is refused. -/
def parts (operation : String) : InPlace Node (Pattern × Target × List Middleware) := do
  match ← get with
  | .compiled node => throw (.finishedRoute operation node.pattern.canonical)
  | .raw pattern target chain => return (pattern, target, chain)

def handleInPlace (handler : Handler) (chain : List Middleware) : InPlace Node Unit := do
  let (pattern, target, outer) ← parts "handle"
  match target with
  | .methods table => set (raw pattern (.methods (table.setAny handler chain)) outer)
  | .router nested => throw (conflict pattern (.router nested) .handler)
  | .mounted router => throw (conflict pattern (.mounted router) .handler)
  | _ => set (raw pattern (.handler handler chain) outer)

/-- The target is out of the node until there is a table to put in; what holds no table goes back. -/
def methodInPlace (name : String) (handler : Handler) (chain : List Middleware) :
    InPlace Node Unit := do
  let (pattern, target, outer) ← parts "method"
  set (raw pattern .empty outer)
  let refuse (target : Target) : InPlace Node MethodTable := do
    set (raw pattern target outer)
    throw (conflict pattern target .methodHandler)
  let table ←
    match target with
    | .empty => pure .empty
    | .handler any anyChain => pure (MethodTable.empty.setAny any anyChain)
    | .methods table => pure table
    | .router nested => refuse (.router nested)
    | .mounted router => refuse (.mounted router)
  set (raw pattern (.methods (table.insert name handler chain)) outer)

def wrapInPlace (middleware : Middleware) : InPlace Node Unit := do
  let (pattern, target, chain) ← parts "with"
  set (raw pattern target (chain ++ [middleware]))

/-- The nested router of a mount, which is put there on first use. -/
def nestedInPlace : InPlace Node Builder := do
  if !(← get).pattern.isMount then
    throw (.rejected (.notMount (← get).pattern.raw))
  let (pattern, target, chain) ← parts "route"
  match target with
  | .empty =>
    set (raw pattern (.router .empty) chain)
    return .empty
  | .router nested => return nested
  | other => throw (conflict pattern other .subRouter)

def routeInPlace {α : Type} (f : Builder → α × Builder) : InPlace Node α := do
  let nested ← nestedInPlace
  let (a, grown) := f nested
  let (pattern, _, chain) ← parts "route"
  set (raw pattern (.router grown) chain)
  return a

def mountInPlace (router : Router) : InPlace Node Unit := do
  if !(← get).pattern.isMount then
    throw (.rejected (.notMount (← get).pattern.raw))
  let (pattern, target, chain) ← parts "mount"
  match target with
  | .empty => set (raw pattern (.mounted router) chain)
  | other => throw (conflict pattern other .subRouter)

/-! A node is left as it was by work that is refused: what has been taken out is put back. -/

variable {n : Node}

theorem outcome_handleInPlace (handler : Handler) (chain : List Middleware) :
    (handleInPlace handler chain).outcome n =
      InPlace.settle n ((n.handle handler chain).map ((), ·)) := by
  cases n with
  | compiled node => rfl
  | raw pattern target outer => cases target <;> rfl

theorem outcome_methodInPlace (name : String) (handler : Handler) (chain : List Middleware) :
    (methodInPlace name handler chain).outcome n =
      InPlace.settle n ((n.method name handler chain).map ((), ·)) := by
  cases n with
  | compiled node => rfl
  | raw pattern target outer => cases target <;> rfl

theorem outcome_wrapInPlace (middleware : Middleware) :
    (wrapInPlace middleware).outcome n = InPlace.settle n ((n.wrapWith middleware).map ((), ·)) := by
  cases n <;> rfl

theorem outcome_routeInPlace {α : Type} (f : Builder → α × Builder) :
    (routeInPlace f).outcome n = InPlace.settle n (n.route f) := by
  cases mount : n.pattern.isMount with
  | false => simp [routeInPlace, nestedInPlace, route, mount, InPlace.settle]
  | true =>
      cases n with
      | compiled node => simp [routeInPlace, nestedInPlace, route, mount, parts, InPlace.settle]
      | raw pattern target outer =>
          cases target <;>
            simp [routeInPlace, nestedInPlace, route, mount, parts, InPlace.settle, Except.map]

theorem outcome_mountInPlace (router : Router) :
    (mountInPlace router).outcome n = InPlace.settle n ((n.mount router).map ((), ·)) := by
  cases mount : n.pattern.isMount with
  | false => simp [mountInPlace, Node.mount, mount, InPlace.settle, Except.map]
  | true =>
      cases n with
      | compiled node => simp [mountInPlace, Node.mount, mount, parts, InPlace.settle, Except.map]
      | raw pattern target outer =>
          cases target <;> simp [mountInPlace, Node.mount, mount, parts, InPlace.settle, Except.map]

end Node

/-! ## Builders -/

namespace Builder

/-- Whether a node stands for the paths of a pattern. -/
def standsFor (p : Pattern) (node : Node) : Bool := node.pattern.canonical = p.canonical

/-- The node that is addressed by a pattern. -/
def find? (b : Builder) (p : Pattern) : Option Node := b.nodes.find? (standsFor p)

def openInPlace (operation : String) : InPlace Builder Unit := do
  if (← get).compiled.isSome then
    throw (.finishedRouter operation)

/-- The node of a path with its place, behind all others if it is new. -/
def nodeInPlace (path : Text) (operation : String) : InPlace Builder (Nat × Node) := do
  openInPlace operation
  match Pattern.compile path with
  | .error e => throw (.rejected (.pattern e))
  | .ok pattern =>
    let b ← get
    match b.nodes.findFinIdx? (standsFor pattern) with
    | some place => return (place, b.nodes[place])
    | none =>
      set { b with nodes := b.nodes ++ [Node.new pattern] }
      return (b.nodes.length, Node.new pattern)

/-- Work on the node of a path, which keeps what the work has done to it. -/
def editInPlace {α : Type} (path : Text) (operation : String) (work : InPlace Node α) :
    InPlace Builder α := do
  let (place, node) ← nodeInPlace path operation
  let (result, node) := work.outcome node
  modify fun b => { b with nodes := b.nodes.set place node }
  match result with
  | .error refusal => throw refusal
  | .ok a => return a

/-- A call that goes by the node of a path.  One that registers a handler may be made through a chain
of middleware. -/
inductive Call (α : Type) where
  | handle (path : Text) (chain : List Middleware) (handler : Handler)
  | method (name : String) (path : Text) (chain : List Middleware) (handler : Handler)
  | wrapPath (path : Text) (middleware : Middleware)
  /-- The closure is called on the nested router, and comes to a result of its own. -/
  | route (path : Text) (f : Builder → α × Builder)
  | mount (path : Text) (router : Router)

namespace Call

variable {α : Type}

def path : Call α → Text
  | .handle path _ _ => path
  | .method _ path _ _ => path
  | .wrapPath path _ => path
  | .route path _ => mountPath path
  | .mount path _ => mountPath path

def operation : Call α → String
  | .handle _ _ _ => "handle"
  | .method _ _ _ _ => "method"
  | .wrapPath _ _ => "wrap"
  | .route _ _ => "route"
  | .mount _ _ => "mount"

/-- The middleware that the call is made through. -/
def chain : Call α → List Middleware
  | .handle _ chain _ => chain
  | .method _ _ chain _ => chain
  | _ => []

/-- Whether the call attaches a router. -/
def attaches : Call α → Bool
  | .route _ _ => true
  | .mount _ _ => true
  | _ => false

/-- What the call does to the node of its path. -/
def work : Call α → Node → Except Refusal (Option α × Node)
  | .handle _ chain handler, n => (n.handle handler chain).map (none, ·)
  | .method name _ chain handler, n => (n.method name handler chain).map (none, ·)
  | .wrapPath _ middleware, n => (n.wrapWith middleware).map (none, ·)
  | .route _ f, n => (n.route f).map fun (a, n) => (some a, n)
  | .mount _ router, n => (n.mount router).map (none, ·)

/-- What the call does to the node of its path in place. -/
def workInPlace : Call α → InPlace Node (Option α)
  | .handle _ chain handler => do Node.handleInPlace handler chain; return none
  | .method name _ chain handler => do Node.methodInPlace name handler chain; return none
  | .wrapPath _ middleware => do Node.wrapInPlace middleware; return none
  | .route _ f => return some (← Node.routeInPlace f)
  | .mount _ router => do Node.mountInPlace router; return none

/-- The builder after the registration, with the result of a closure. -/
def register (b : Builder) : Call α → Except Refusal (Option α × Builder)
  | .handle path chain handler => (b.handle path chain handler).map (none, ·)
  | .method name path chain handler => (b.method name path chain handler).map (none, ·)
  | .wrapPath path middleware => (b.wrapPath path middleware).map (none, ·)
  | .route path f => (b.route path f).map fun (a, b) => (some a, b)
  | .mount path router => (b.mount path router).map (none, ·)

/-- The builder after the call.  A chain of middleware is asked for first. -/
def run (b : Builder) (call : Call α) : Except Refusal (Option α × Builder) :=
  match if call.chain.isEmpty then .ok () else b.requireOpen "with" with
  | .error refusal => .error refusal
  | .ok _ => call.register b

/-- The call on a builder that is changed in place. -/
def perform (call : Call α) : InPlace Builder (Option α) := do
  if !call.chain.isEmpty then
    openInPlace "with"
  editInPlace call.path call.operation call.workInPlace

/-! ## In place as otherwise -/

theorem outcome_workInPlace (call : Call α) (n : Node) :
    call.workInPlace.outcome n = InPlace.settle n (call.work n) := by
  cases call with
  | handle path chain handler =>
      simp only [workInPlace, work, InPlace.outcome_bind, Node.outcome_handleInPlace]
      cases n.handle handler chain <;> rfl
  | method name path chain handler =>
      simp only [workInPlace, work, InPlace.outcome_bind, Node.outcome_methodInPlace]
      cases n.method name handler chain <;> rfl
  | wrapPath path middleware =>
      simp only [workInPlace, work, InPlace.outcome_bind, Node.outcome_wrapInPlace]
      cases n.wrapWith middleware <;> rfl
  | route path f =>
      simp only [workInPlace, work, InPlace.outcome_bind, Node.outcome_routeInPlace]
      cases n.route f <;> rfl
  | mount path router =>
      simp only [workInPlace, work, InPlace.outcome_bind, Node.outcome_mountInPlace]
      cases n.mount router <;> rfl

end Call

variable {α β : Type} {b : Builder} {path : Text} {operation : String}

theorem editNodes_map {p : Pattern} {f : Node → Except Refusal (α × Node)} (g : α → β)
    (nodes : List Node) :
    editNodes p (fun n => (f n).map fun done => (g done.1, done.2)) nodes =
      (editNodes p f nodes).map fun done => (g done.1, done.2) := by
  induction nodes with
  | nil =>
      simp only [editNodes]
      cases f (.new p) <;> rfl
  | cons node nodes ih =>
      simp only [editNodes]
      split
      · cases f node <;> rfl
      · rw [ih]
        cases editNodes p f nodes <;> rfl

/-- The result of an edit may be taken from the work as well. -/
theorem edit_map {f : Node → Except Refusal (α × Node)} (g : α → β) :
    b.edit path operation (fun n => (f n).map fun done => (g done.1, done.2)) =
      (b.edit path operation f).map fun done => (g done.1, done.2) := by
  simp only [edit]
  cases b.requireOpen operation with
  | error refusal => rfl
  | ok _ =>
      cases Pattern.compile path with
      | error e => rfl
      | ok p =>
          simp only [editNodes_map]
          cases editNodes p f b.nodes <;> rfl

theorem change_map {f : Node → Except Refusal Node} (a : α) :
    (b.change path operation f).map (a, ·) = b.edit path operation fun n => (f n).map (a, ·) := by
  have same (n : Node) : (f n).map (a, ·) =
      ((f n).map ((), ·)).map fun done => (a, done.2) := by cases f n <;> rfl
  simp only [same]
  rw [edit_map (fun _ => a), change]
  cases b.edit path operation fun n => (f n).map ((), ·) <;> rfl

theorem Call.register_eq (call : Call α) :
    call.register b = b.edit call.path call.operation call.work := by
  cases call with
  | handle path chain handler => exact change_map none
  | method name path chain handler => exact change_map none
  | wrapPath path middleware => exact change_map none
  | route path f => exact (edit_map some).symm
  | mount path router => exact change_map none

/-- An edit works on the node that stands for the path, in its place, or on a new one at the end. -/
theorem editNodes_eq {p : Pattern} {f : Node → Except Refusal (α × Node)} (nodes : List Node) :
    editNodes p f nodes =
      match nodes.findFinIdx? (standsFor p) with
      | some place => (f nodes[place]).map fun done => (done.1, nodes.set place done.2)
      | none => (f (.new p)).map fun done => (done.1, nodes ++ [done.2]) := by
  induction nodes with
  | nil => rfl
  | cons node nodes ih =>
      rw [List.findFinIdx?_cons]
      by_cases here : node.pattern.canonical = p.canonical
      · simp [editNodes, standsFor, here]
      · have other : standsFor p node = false := decide_eq_false here
        simp only [editNodes, here, if_false, ih, other, Bool.false_eq_true]
        cases nodes.findFinIdx? (standsFor p) with
        | none => cases f (.new p) <;> simp [Except.map]
        | some place => cases worked : f nodes[place] <;> simp_all [Except.map]

/-- In place, an edit leaves nothing behind that has been refused if the work on a node does not, and a
new node never refuses it. -/
theorem outcome_editInPlace {work : InPlace Node α} {f : Node → Except Refusal (α × Node)}
    (same : ∀ n, work.outcome n = InPlace.settle n (f n))
    (fresh : ∀ p, Pattern.compile path = .ok p → ∃ done, f (.new p) = .ok done) :
    (editInPlace path operation work).outcome b = InPlace.settle b (b.edit path operation f) := by
  cases compiled : b.compiled with
  | some router =>
      simp [editInPlace, nodeInPlace, openInPlace, edit, requireOpen, compiled, InPlace.settle]
  | none =>
      cases parsed : Pattern.compile path with
      | error e =>
          simp [editInPlace, nodeInPlace, openInPlace, edit, requireOpen, compiled, parsed,
            InPlace.settle]
      | ok p =>
          have edited := editNodes_eq (p := p) (f := f) b.nodes
          cases found : b.nodes.findFinIdx? (standsFor p) with
          | none =>
              -- the new node is at the end before the work starts, and stays there
              rcases fresh p parsed with ⟨⟨a, node⟩, made⟩
              simp [editInPlace, nodeInPlace, openInPlace, edit, requireOpen, compiled, parsed,
                found, edited, same, made, InPlace.settle, Except.map]
          | some place =>
              cases worked : f b.nodes[place.val] with
              | error refusal =>
                  -- the node goes back to its place unchanged
                  have kept : { b with compiled := none } = b := by
                    cases b
                    cases compiled
                    rfl
                  simp [editInPlace, nodeInPlace, openInPlace, edit, requireOpen, compiled, parsed,
                    found, edited, same, worked, InPlace.settle, Except.map, kept]
              | ok done =>
                  simp [editInPlace, nodeInPlace, openInPlace, edit, requireOpen, compiled, parsed,
                    found, edited, same, worked, InPlace.settle, Except.map]

/-! ## New nodes -/

/-- A path in the form for mounts is compiled to a mount. -/
theorem isMount_of_mountPath {p : Pattern} (compiled : Pattern.compile (mountPath path) = .ok p) :
    p.isMount = true := by
  rcases exists_mountPath path with ⟨before, marked⟩
  rw [marked] at compiled
  exact Pattern.isMount_iff.2 ⟨before, Pattern.canonical_of_star compiled⟩

theorem Call.isMount_of_attaches {call : Call α} {p : Pattern}
    (compiled : Pattern.compile call.path = .ok p) (attaches : call.attaches = true) :
    p.isMount = true := by
  cases call with
  | route path f => exact isMount_of_mountPath compiled
  | mount path router => exact isMount_of_mountPath compiled
  | _ => cases attaches

/-! ## Refusals -/

namespace Call

/-- What a call asks for in vain of a node with a target. -/
def clash? : Call α → Target → Option Content
  | .handle _ _ _, .router _ => some .handler
  | .handle _ _ _, .mounted _ => some .handler
  | .method _ _ _ _, .router _ => some .methodHandler
  | .method _ _ _ _, .mounted _ => some .methodHandler
  | .route _ _, .handler _ _ => some .subRouter
  | .route _ _, .methods _ => some .subRouter
  | .route _ _, .mounted _ => some .subRouter
  | .mount _ _, .handler _ _ => some .subRouter
  | .mount _ _, .methods _ => some .subRouter
  | .mount _ _, .router _ => some .subRouter
  | .mount _ _, .mounted _ => some .subRouter
  | _, _ => none

/-- A node under construction refuses a call exactly if its target clashes with it. -/
theorem work_eq_error_iff {call : Call α} {p : Pattern} {target : Target} {outer : List Middleware}
    {refusal : Refusal} (mount : call.attaches = true → p.isMount = true) :
    call.work (.raw p target outer) = .error refusal ↔
      ∃ requested, call.clash? target = some requested ∧
        refusal = Node.conflict p target requested := by
  cases call with
  | handle path chain handler =>
      cases target <;> simp [work, Node.handle, clash?, Except.map, eq_comm]
  | method name path chain handler =>
      cases target <;> simp [work, Node.method, clash?, Except.map, eq_comm]
  | wrapPath path middleware => simp [work, Node.wrapWith, clash?, Except.map]
  | route path f =>
      cases target <;>
        simp [work, Node.route, Node.pattern, mount rfl, clash?, Except.map, eq_comm]
  | mount path router =>
      cases target <;>
        simp [work, Node.mount, Node.pattern, mount rfl, clash?, Except.map, eq_comm]

/-- A new node never refuses the call that it is there for. -/
theorem exists_work_new {call : Call α} {p : Pattern}
    (compiled : Pattern.compile call.path = .ok p) : ∃ done, call.work (.new p) = .ok done := by
  cases worked : call.work (.new p) with
  | ok done => exact ⟨done, rfl⟩
  | error refusal =>
      rcases (work_eq_error_iff (isMount_of_attaches compiled)).1 worked with ⟨requested, clash, -⟩
      cases call <;> cases clash

/-- A call that is refused leaves nothing behind in place; otherwise it does what it does to a builder
that is replaced. -/
theorem outcome_perform (call : Call α) : call.perform.outcome b = InPlace.settle b (call.run b) := by
  have edited : (editInPlace call.path call.operation call.workInPlace).outcome b =
      InPlace.settle b (b.edit call.path call.operation call.work) :=
    outcome_editInPlace (outcome_workInPlace call) fun p compiled => exists_work_new compiled
  rw [← call.register_eq] at edited
  cases direct : call.chain.isEmpty with
  | true => simp [perform, run, direct, edited]
  | false =>
      cases compiled : b.compiled with
      | none => simp [perform, run, direct, edited, openInPlace, requireOpen, compiled]
      | some router =>
          simp [perform, run, direct, openInPlace, requireOpen, compiled, InPlace.settle]

/-- An edit is refused if the addressed node, or a new one if there is none, refuses the work. -/
theorem editNodes_eq_error_iff {p : Pattern} {f : Node → Except Refusal (α × Node)}
    {refusal : Refusal} (nodes : List Node) : editNodes p f nodes = .error refusal ↔
      f ((nodes.find? (standsFor p)).getD (.new p)) = .error refusal := by
  induction nodes with
  | nil => cases worked : f (.new p) <;> simp [editNodes, worked, Except.map]
  | cons node nodes ih =>
      by_cases here : node.pattern.canonical = p.canonical
      · cases worked : f node <;> simp [editNodes, standsFor, here, worked, Except.map]
      · have other : standsFor p node = false := decide_eq_false here
        rw [List.find?_cons, other, ← ih, editNodes, if_neg here]
        cases editNodes p f nodes <;> simp [Except.map]

variable {call : Call α} {refusal : Refusal} {p : Pattern}

theorem run_of_isOpen (isOpen : b.compiled = none) :
    call.run b = b.edit call.path call.operation call.work := by
  rw [run, call.register_eq]
  cases call.chain.isEmpty <;> simp [requireOpen, isOpen]

/-- A finished builder refuses every call. -/
theorem run_of_finished (call : Call α) (finished : b.compiled.isSome = true) :
    ∃ operation, call.run b = .error (.finishedRouter operation) := by
  rw [run, call.register_eq]
  cases call.chain.isEmpty with
  | true => exact ⟨call.operation, by simp [edit, requireOpen, finished]⟩
  | false => exact ⟨"with", by simp [requireOpen, finished]⟩

/-- On an open builder, a call with an accepted path is refused exactly if the node that stands for the
path clashes with it. -/
theorem run_eq_error_iff (registered : b.Registered .any) (isOpen : b.compiled = none)
    (accepted : Pattern.compile call.path = .ok p) :
    call.run b = .error refusal ↔
      ∃ q target outer requested, b.find? p = some (.raw q target outer) ∧
        call.clash? target = some requested ∧ refusal = Node.conflict q target requested := by
  have edited : call.run b = .error refusal ↔
      call.work ((b.find? p).getD (.new p)) = .error refusal := by
    rw [run_of_isOpen isOpen, Builder.find?, ← editNodes_eq_error_iff]
    simp only [edit, requireOpen, isOpen, Option.isSome_none, Bool.false_eq_true, if_false, accepted]
    cases editNodes p call.work b.nodes <;> simp [Except.map]
  rw [edited]
  cases found : b.find? p with
  | none =>
      rcases exists_work_new accepted with ⟨done, made⟩
      simp [made]
  | some node =>
      have stands : standsFor p node = true := List.find?_some found
      have same : node.pattern.canonical = p.canonical := of_decide_eq_true stands
      rcases registered.ready.nodes node (List.mem_of_find?_eq_some found) with
        @⟨q, target, outer, -, -, -⟩
      -- the node has the pattern of an earlier call, but its canonical form tells a mount as well
      have mount : call.attaches = true → q.isMount = true := by
        intro attaches
        have marked := isMount_of_attaches accepted attaches
        rw [Pattern.isMount, ← same] at marked
        exact marked
      rw [Option.getD_some, work_eq_error_iff mount]
      simp

/-- Why a call is refused: the builder is finished, the path is not accepted, or its node clashes. -/
theorem refusal_cases (registered : b.Registered .any) (refused : call.run b = .error refusal) :
    (∃ operation, refusal = .finishedRouter operation) ∨
      (∃ e, Pattern.compile call.path = .error e ∧ refusal = .rejected (.pattern e)) ∨
      ∃ q target requested, refusal = Node.conflict q target requested := by
  cases finished : b.compiled.isSome with
  | true =>
      rcases call.run_of_finished finished with ⟨operation, eq⟩
      rw [eq] at refused
      cases refused
      exact .inl ⟨operation, rfl⟩
  | false =>
      have isOpen : b.compiled = none := by simpa using finished
      cases accepted : Pattern.compile call.path with
      | error e =>
          simp only [run_of_isOpen isOpen, edit, requireOpen, isOpen, Option.isSome_none,
            Bool.false_eq_true, if_false, accepted] at refused
          cases refused
          exact .inr (.inl ⟨e, rfl, rfl⟩)
      | ok p =>
          rcases (run_eq_error_iff registered isOpen accepted).1 refused with
            ⟨q, target, _, requested, -, -, rfl⟩
          exact .inr (.inr ⟨q, target, requested, rfl⟩)

/-- A call on a builder that is changed in place, directly or through a chain of middleware.  If it is
refused, before the closure of a nested router is run, the builder is the one it was, and once it is
finished it answers every request as it would have; no call is refused for not being about a mount.  A
finished builder refuses every call.  On an open one, a call with an accepted path is refused exactly
if the node that stands for the path is there and clashes with it, and the conflict names both. -/
theorem refused {α : Type} (call : Call α) {b : Builder} (registered : b.Registered .any) :
    (∀ refusal after, call.perform.outcome b = (.error refusal, after) →
      after = b ∧ (∀ req, after.freeze.serve req = b.freeze.serve req) ∧
        ∀ path, refusal ≠ .rejected (.notMount path)) ∧
    (b.compiled.isSome = true →
      ∃ operation, call.perform.outcome b = (.error (.finishedRouter operation), b)) ∧
    (b.compiled = none → ∀ p, Pattern.compile call.path = .ok p →
      ∀ refusal, (call.perform.outcome b).1 = .error refusal ↔
        ∃ q target outer requested, b.find? p = some (.raw q target outer) ∧
          call.clash? target = some requested ∧
            refusal = .rejected (.conflict q.raw target.content requested)) := by
  rw [outcome_perform]
  have result (refusal : Refusal) :
      (InPlace.settle b (call.run b)).1 = .error refusal ↔ call.run b = .error refusal := by
    cases call.run b <;> simp [InPlace.settle]
  refine ⟨fun refusal after ended => ?_, fun finished => ?_, fun isOpen p accepted refusal => ?_⟩
  · have refused := (result refusal).1 (congrArg Prod.fst ended)
    rw [refused, InPlace.settle] at ended
    cases ended
    refine ⟨rfl, fun req => rfl, fun path same => ?_⟩
    rcases refusal_cases registered refused with ⟨_, rfl⟩ | ⟨_, -, rfl⟩ | ⟨_, _, _, rfl⟩ <;> cases same
  · rcases call.run_of_finished finished with ⟨operation, eq⟩
    exact ⟨operation, by rw [eq, InPlace.settle]⟩
  · rw [result]
    exact run_eq_error_iff registered isOpen accepted

/-- A router cannot be mounted where a handler has been registered. -/
theorem refused_mount :
    let call : Call Unit := .mount "/a".toList Builder.empty.freeze
    ∃ b : Builder, b.Registered .any ∧ b.size = 1 ∧
      call.perform.outcome b =
        (.error (.rejected (.conflict "/a/".toList .handler .subRouter)), b) := by
  intro call
  let page : Handler := Handler.writing fun _ _ w => w.write "page"
  let p : Pattern := ⟨"/a/".toList, "/a/".toList, "/a/*".toList, .literal "/a".toList⟩
  let q : Pattern := { p with raw := "/a/*".toList }
  let b : Builder := ⟨[.raw p (.handler page []) []], [], none, .default, none⟩
  have made : Builder.empty.handle "/a/".toList [] page = .ok b := rfl
  have registered : b.Registered .any := .handle .empty trivial made
  have accepted : Pattern.compile call.path = .ok q := rfl
  rcases refused call registered with ⟨kept, -, clashes⟩
  have conflict := (clashes rfl q accepted _).2 ⟨p, _, _, _, rfl, rfl, rfl⟩
  have ended : call.perform.outcome b = (_, (call.perform.outcome b).2) := Prod.ext conflict rfl
  refine ⟨b, registered, rfl, ended.trans ?_⟩
  rw [(kept _ _ ended).1]
  rfl

end Call
end Builder
end PathRouter
