import PathRouter.Proofs.Registration

/-!
# Consistency — routing never trips over its own steps

A dispatcher steps over what its resolver says has been taken, and it would panic if that were no
piece of the path or ended inside a segment.  This file defines

* `Router.Reaches`, the levels of a tree that a request path can lead to, with their contexts;
* `Router.Consistent`, that the resolver of a level and the step behind it agree;
* `Handler.Faultless`, that a handler does not end in the panic of a step;

and shows `Builder.routing_consistent`: every level is consistent, and a tree whose parts are faultless
is so as a whole.
-/

namespace PathRouter

variable {rules : Rules}

/-! ## One dispatcher -/

namespace Context

variable {cx : Context} {m : RouteMatch}

/-- A match that divides the path is stepped over, and its remainder is left. -/
theorem step_of_divides (divides : m.Divides cx.path) :
    cx.step m.taken m.params = .ok (cx.after m) ∧ (cx.after m).path = m.remainder :=
  ⟨step_of_append divides.parts divides.boundary m.params, path_beyond _ _ _ _⟩

/-- Two contexts at the same place of the path.  Their patterns and parameters may differ. -/
def SamePlace (a b : Context) : Prop := a.taken = b.taken ∧ a.path = b.path

end Context

/-- All that the dispatcher of finished nodes does: it reports that there is no route, sends the
request to where the mount begins, or calls a node behind a match that divides the path. -/
theorem routeToNode_cases {nodes : List CompiledNode} (made : ∀ node ∈ nodes, node.Made rules)
    (cx : Context) :
    let resolver := Router.resolverOf (nodes.map CompiledNode.pattern)
    let route := routeToNode resolver (nodes.map CompiledNode.handler)
    (resolver.resolve cx.path = .notFound ∧ ∀ req w, route req cx w = (.failed .routeMiss, w)) ∨
    (∃ m, resolver.resolve cx.path = .redirect m ∧ m.Divides cx.path ∧ ∀ req w,
      route req cx w = (.failed (.redirect (.permanent (redirectLocation req cx))), w)) ∨
    ∃ m node, resolver.resolve cx.path = .matched m ∧ m.Divides cx.path ∧
      m.redirects node.pattern.isMount = false ∧ nodes[m.node]? = some node ∧
        ∀ req w, route req cx w = node.handler req (cx.after m) w := by
  intro resolver route
  rcases Router.resolve_cases made cx.path with miss | ⟨m, node, here, divides, found⟩
  · exact .inl ⟨miss, fun req w => by simp only [route, routeToNode, resolver, miss]⟩
  · cases away : m.redirects node.pattern.isMount with
    | true =>
        have redirect : resolver.resolve cx.path = .redirect m := by
          simp [resolver, found, Resolution.ofRoute, away]
        exact .inr (.inl ⟨m, redirect, divides, fun req w => by
          simp only [route, routeToNode, redirect]⟩)
    | false =>
        have matched : resolver.resolve cx.path = .matched m := by
          simp [resolver, found, Resolution.ofRoute, away]
        refine .inr (.inr ⟨m, node, matched, divides, away, here, fun req w => ?_⟩)
        have stepped := (Context.step_of_divides divides).1
        have called : (nodes.map CompiledNode.handler)[m.node]? = some node.handler := by
          simp [here]
        simp only [route, routeToNode, matched, called, stepped]

/-- Behind a match the dispatcher of finished nodes calls the node of the match. -/
theorem routeToNode_of_matched {nodes : List CompiledNode} (made : ∀ node ∈ nodes, node.Made rules)
    {cx : Context} {m : RouteMatch}
    (matched : (Router.resolverOf (nodes.map CompiledNode.pattern)).resolve cx.path = .matched m) :
    ∃ node, nodes[m.node]? = some node ∧ m.redirects node.pattern.isMount = false ∧ ∀ req w,
      routeToNode (Router.resolverOf (nodes.map CompiledNode.pattern))
        (nodes.map CompiledNode.handler) req cx w = node.handler req (cx.after m) w := by
  rcases routeToNode_cases made cx with ⟨miss, -⟩ | ⟨_, redirect, -⟩ |
    ⟨other, node, found, -, stays, here, runs⟩
  · simp [matched] at miss
  · simp [matched] at redirect
  · have same : m = other := by simpa [matched] using found
    subst same
    exact ⟨node, here, stays, runs⟩

/-- A node that holds a router is a mount, with middleware around the router. -/
theorem CompiledNode.Made.router {node : CompiledNode} {inner : Router} (made : node.Made rules)
    (kind : node.kind = .router inner) :
    node.pattern.isMount = true ∧ ∃ wraps, node.handler = wrap wraps inner.entry := by
  rcases made.served with ⟨wraps, served, -, serves, handler⟩
  rw [kind] at serves
  cases serves with
  | router mount => exact ⟨mount, wraps, handler⟩

/-! ## Levels -/

namespace Router

/-- The levels that a path leads to, by their depth, each with a context in which it is entered.  On the
way middleware may change the pattern and the parameters. -/
inductive Reaches (r : Router) (path : Text) : Nat → Router → Context → Prop
  | top {cx : Context} : cx.SamePlace (.new path) → Reaches r path 0 r cx
  | nested {depth : Nat} {outer inner : Router} {cx next here : Context} {m : RouteMatch}
      {node : CompiledNode} :
      Reaches r path depth outer cx → outer.resolve cx.path = .matched m →
        outer.nodes[m.node]? = some node → node.kind = .router inner →
          cx.step m.taken m.params = .ok next → here.SamePlace next →
            Reaches r path (depth + 1) inner here

/-- The resolver of a level and the step behind it agree on the path of a context. -/
structure Consistent (r : Router) (cx : Context) : Prop where
  filled : cx.path ≠ []
  divides : ∀ m, r.resolve cx.path = .matched m ∨ r.resolve cx.path = .redirect m →
    m.Divides cx.path
  /-- The path is cut between characters only. -/
  cuts : ∀ n, r.resolver.CutsAt cx.path n →
    String.Pos.Raw.IsValid (String.ofList cx.path) ⟨n⟩
  /-- No step fails, and it leaves the remainder. -/
  steps : ∀ m, r.resolve cx.path = .matched m ∨ r.resolve cx.path = .redirect m →
    ∃ next, cx.step m.taken m.params = .ok next ∧ next.path = m.remainder
  /-- The dispatcher of the level calls the node of a match behind the step. -/
  calls : (∃ chain notFound, r.entry =
      wrap chain (dispatcher r.resolver (r.nodes.map CompiledNode.handler) notFound)) ∧
    ∀ m, r.resolve cx.path = .matched m →
      ∃ node next, r.nodes[m.node]? = some node ∧ cx.step m.taken m.params = .ok next ∧
        ∀ req w, routeToNode r.resolver (r.nodes.map CompiledNode.handler) req cx w =
          node.handler req next w
  /-- A nested router is entered with a slash in front of what is left. -/
  enters : ∀ m node inner, r.resolve cx.path = .matched m → r.nodes[m.node]? = some node →
    node.kind = .router inner →
      (∃ wraps, node.handler = wrap wraps inner.entry) ∧ m.remainder.head? = some '/'

variable {r inner : Router} {cx : Context} {path : Text}

/-- A match of a mount that is no redirect leaves something of a path, from a slash on. -/
theorem head?_remainder {m : RouteMatch} (divides : m.Divides path) (filled : path ≠ []) :
    m.redirects true = false → m.remainder.head? = some '/' := by
  intro stays
  refine divides.boundary.resolve_left fun done => ?_
  rw [RouteMatch.redirects_of_done divides.parts filled done] at stays
  cases stays

/-- What a resolver of finished nodes finds divides the path. -/
theorem divides_of_resolve {nodes : List CompiledNode} (made : ∀ node ∈ nodes, node.Made rules)
    {m : RouteMatch} :
    (resolverOf (nodes.map CompiledNode.pattern)).resolve path = .matched m ∨
        (resolverOf (nodes.map CompiledNode.pattern)).resolve path = .redirect m →
      m.Divides path := by
  intro found
  rcases resolve_cases made path with miss | ⟨other, node, -, divides, answer⟩
  · simp [miss] at found
  · have same : other = m := by
      cases away : other.redirects node.pattern.isMount <;>
        simpa [answer, Resolution.ofRoute, away] using found
    exact same ▸ divides

theorem Built.consistent (built : r.Built rules) (filled : cx.path ≠ []) : r.Consistent cx := by
  rcases built with @⟨nodes, chain, notFound, options, made, -, -, -⟩
  have divides : ∀ m, (Router.ofNodes nodes chain notFound options).resolve cx.path = .matched m ∨
      (Router.ofNodes nodes chain notFound options).resolve cx.path = .redirect m →
        m.Divides cx.path := fun m found => divides_of_resolve made found
  refine ⟨filled, divides, fun n => Resolver.isValid_of_cutsAt, ?_, ⟨⟨chain, notFound, rfl⟩, ?_⟩, ?_⟩
  · exact fun m found => ⟨cx.after m, Context.step_of_divides (divides m found)⟩
  · intro m matched
    rcases routeToNode_of_matched made matched with ⟨node, here, -, runs⟩
    exact ⟨node, cx.after m, here, (Context.step_of_divides (divides m (.inl matched))).1, runs⟩
  · intro m node inner matched here kind
    rcases routeToNode_of_matched made matched with ⟨other, there, stays, -⟩
    have same : other = node := Option.some.inj (there.symm.trans here)
    subst same
    rcases (made other (List.mem_of_getElem? here)).router kind with ⟨mount, handler⟩
    rw [mount] at stays
    exact ⟨handler, head?_remainder (divides m (.inl matched)) filled stays⟩

theorem Built.nested (built : r.Built rules) {node : CompiledNode} (mem : node ∈ r.nodes)
    (kind : node.kind = .router inner) : inner.Built rules := by
  cases built with
  | ofNodes _ nested _ _ => exact nested node mem inner kind

/-- Each level that is reached is built like the whole, and what is left of the path for it starts with
a slash, unless it is the level at the top. -/
theorem Built.reaches (built : r.Built rules) {depth : Nat} :
    r.Reaches path depth inner cx →
      inner.Built rules ∧ cx.path ≠ [] ∧ (0 < depth → cx.path.head? = some '/') := by
  intro reached
  -- on the depth: the step into a level leaves the remainder of a mount's match
  induction reached with
  | top same =>
      refine ⟨built, ?_, fun deep => absurd deep (Nat.lt_irrefl 0)⟩
      rw [same.2]
      exact Context.path_new_ne_nil path
  | nested _ matched here kind stepped same ih =>
      rcases ih with ⟨outer, filled, -⟩
      have level := outer.consistent filled
      rcases level.steps _ (.inl matched) with ⟨next, done, left⟩
      have slash := (level.enters _ _ _ matched here kind).2
      have eq := Except.ok.inj (stepped.symm.trans done)
      rw [same.2, eq, left]
      refine ⟨outer.nested (List.mem_of_getElem? here) kind, fun empty => ?_, fun _ => slash⟩
      simp [empty] at slash

end Router

/-! ## Runs -/

/-- A handler that does not end in the panic of a step. -/
def Handler.Faultless (h : Handler) : Prop :=
  ∀ req cx w (fault : StepFault) stack, (h req cx w).1 ≠ .panicked ⟨.text fault.message, stack⟩

section Dispatcher

variable {resolver : Resolver} {handlers : List Handler} {req : Request} {cx : Context}
  {w after : Writer}

/-- A miss is handed to the fallback, with the response reset. -/
theorem dispatcher_of_miss {f : Failure} (routed : routeToNode resolver handlers req cx w =
    (.failed f, after)) (miss : f.isRouteMiss = true) (fallback : Handler) :
    dispatcher resolver handlers (some fallback) req cx w = fallback req cx after.reset := by
  simp [dispatcher, routed, miss]

/-- All else is returned as it comes. -/
theorem dispatcher_of_not_miss {verdict : Verdict}
    (routed : routeToNode resolver handlers req cx w = (verdict, after))
    (notMiss : ∀ f, verdict = .failed f → f.isRouteMiss = false) (notFound : Option Handler) :
    dispatcher resolver handlers notFound req cx w = (verdict, after) := by
  cases notFound with
  | none => rw [dispatcher_none, routed]
  | some fallback =>
      cases verdict with
      | served => simp [dispatcher, routed]
      | panicked p => simp [dispatcher, routed]
      | failed f => simp [dispatcher, routed, notMiss f rfl]

end Dispatcher

/-- A dispatcher returns what comes of the routing, or hands a miss to its fallback. -/
theorem dispatcher_cases (resolver : Resolver) (handlers : List Handler) (notFound : Option Handler)
    (req : Request) (cx : Context) (w : Writer) :
    dispatcher resolver handlers notFound req cx w = routeToNode resolver handlers req cx w ∨
      ∃ fallback after, notFound = some fallback ∧
        dispatcher resolver handlers notFound req cx w = fallback req cx (Writer.reset after) := by
  rcases routed : routeToNode resolver handlers req cx w with ⟨verdict, after⟩
  by_cases miss : ∃ f, verdict = .failed f ∧ f.isRouteMiss = true
  · rcases miss with ⟨f, rfl, miss⟩
    cases notFound with
    | none => exact .inl (by rw [dispatcher_none, routed])
    | some fallback => exact .inr ⟨fallback, after, rfl, dispatcher_of_miss routed miss fallback⟩
  · refine .inl (dispatcher_of_not_miss routed (fun f failed => ?_) notFound)
    exact Bool.eq_false_iff.2 fun isMiss => miss ⟨f, failed, isMiss⟩

/-- A property of outcomes holds of all that the dispatcher of finished nodes returns, if it holds of
misses and redirects, of what comes of the nodes and of what comes of the fallback. -/
theorem dispatcher_of_made {P : Verdict × Writer → Prop} {nodes : List CompiledNode}
    {notFound : Option Handler} (made : ∀ node ∈ nodes, node.Made rules) (req : Request)
    (cx : Context) (w : Writer) (miss : P (.failed .routeMiss, w))
    (redirect : ∀ location, P (.failed (.redirect (.permanent location)), w))
    (below : ∀ node ∈ nodes, ∀ next, P (node.handler req next w))
    (fallback : ∀ h ∈ notFound, ∀ after : Writer, P (h req cx after.reset)) :
    P (dispatcher (Router.resolverOf (nodes.map CompiledNode.pattern))
      (nodes.map CompiledNode.handler) notFound req cx w) := by
  rcases dispatcher_cases (Router.resolverOf (nodes.map CompiledNode.pattern))
    (nodes.map CompiledNode.handler) notFound req cx w with same | ⟨h, after, given, handed⟩
  · rw [same]
    rcases routeToNode_cases made cx with ⟨-, missed⟩ | ⟨_, -, -, redirected⟩ |
      ⟨m, node, -, -, -, here, called⟩
    · rw [missed]
      exact miss
    · rw [redirected]
      exact redirect _
    · rw [called]
      exact below node (List.mem_of_getElem? here) (cx.after m)
  · rw [handed]
    exact fallback h given after

namespace Handler

variable {h : Handler}

theorem faultless_headOfGet (faultless : h.Faultless) : (MethodTable.headOfGet h).Faultless := by
  intro req cx w fault stack
  have below := faultless req cx w fault stack
  rcases ran : h req cx w with ⟨verdict, after⟩
  rw [ran] at below
  cases verdict with
  | served => simp [MethodTable.headOfGet, ran]
  | failed f => simp [MethodTable.headOfGet, ran]
  | panicked p => simpa [MethodTable.headOfGet, ran] using below

theorem faultless_toHandler {t : MethodTable} (follows : t.Follows (.keeping Faultless)) :
    t.compile.toHandler.Faultless := by
  intro req cx w fault stack
  rw [MethodTable.toHandler_compile follows.sorted]
  cases picked : t.pick (canonicalMethod req.method) with
  | none =>
      by_cases options : canonicalMethod req.method = "OPTIONS" <;>
        simp [MethodHandler.unregistered, options]
  | some handler =>
      have faultless : handler.Faultless := by
        rcases follows.pick_cases picked with ⟨e, holds, rfl⟩ | ⟨-, e, holds, rfl⟩ | ⟨e, holds, rfl⟩
        · exact holds
        · exact faultless_headOfGet holds
        · exact holds
      exact faultless req cx w fault stack

/-- The dispatcher of finished nodes is faultless if all of them are. -/
theorem faultless_dispatcher {nodes : List CompiledNode} {notFound : Option Handler}
    (made : ∀ node ∈ nodes, node.Made rules) (below : ∀ node ∈ nodes, node.handler.Faultless)
    (fallback : ∀ h ∈ notFound, h.Faultless) :
    (dispatcher (Router.resolverOf (nodes.map CompiledNode.pattern))
      (nodes.map CompiledNode.handler) notFound).Faultless := by
  intro req cx w fault stack
  apply dispatcher_of_made made (P := fun out => out.1 ≠ .panicked ⟨.text fault.message, stack⟩)
  · exact Verdict.noConfusion
  · exact fun _ => Verdict.noConfusion
  · exact fun node listed next => below node listed req next w fault stack
  · exact fun h given after => fallback h given req cx after.reset fault stack

end Handler

/-- Routing is consistent on every level that a request path leads to, and if no handler panics like a
step, no request ends in such a panic. -/
theorem Builder.routing_consistent (b : Builder) :
    (∀ rules, b.Registered rules → ∀ path depth r cx, b.freeze.Reaches path depth r cx →
      r.Consistent cx ∧ (0 < depth → cx.path.head? = some '/')) ∧
      (b.Registered (.keeping Handler.Faultless) → b.freeze.entry.Faultless) := by
  constructor
  · intro rules registered path depth r cx reached
    rcases registered.built.reaches reached with ⟨built, filled, slash⟩
    exact ⟨built.consistent filled, slash⟩
  · intro registered
    refine registered.built.entry (fun _ handler keeps => keeps handler) ?_ (fun _ holds => holds)
      (fun t follows => Handler.faultless_toHandler follows) ?_
    · intro req cx w fault stack
      simp [Handler.status]
    · intro nodes notFound made below fallback
      exact Handler.faultless_dispatcher made below fallback

/-- A request for `/api/x` enters the router under `/api` with `/x` left. -/
theorem Builder.routing_consistent_nested :
    ∃ b inner : Builder, b.Registered (.keeping Handler.Faultless) ∧
      ∃ cx : Context, b.freeze.Reaches "/api/x".toList 1 inner.freeze cx ∧ cx.path = "/x".toList ∧
        inner.freeze.Consistent cx ∧ cx.path.head? = some '/' ∧ b.freeze.entry.Faultless := by
  let handler : Handler := Handler.status .notFound
  have faultless : handler.Faultless := by
    intro req cx w fault stack
    simp [handler, Handler.status]
  let x : Pattern := ⟨"/x".toList, "/x".toList, "/x".toList, .literal "/x".toList⟩
  let api : Pattern := ⟨"/api/*".toList, "/api/".toList, "/api/*".toList, .literal "/api".toList⟩
  let inner : Builder := ⟨[.raw x (.handler handler []) []], [], none, .default, none⟩
  let b : Builder := ⟨[.raw api (.router inner) []], [], none, .default, none⟩
  have filled : inner.Registered (.keeping Handler.Faultless) := by
    have allowed : (Rules.keeping Handler.Faultless).entry none ⟨handler, []⟩ := faultless
    have added : Builder.empty.handle "/x".toList [] handler = .ok inner := rfl
    exact .handle .empty allowed added
  have registered : b.Registered (.keeping Handler.Faultless) := by
    have added : Builder.empty.route "/api".toList (fun _ => ((), inner)) = .ok ((), b) := rfl
    exact .route .empty filled added
  have start : b.freeze.Reaches "/api/x".toList 0 b.freeze (.new "/api/x".toList) := .top ⟨rfl, rfl⟩
  have matched : b.freeze.resolve (Context.new "/api/x".toList).path =
      .matched ⟨"/api".toList, "/x".toList, 0, .empty⟩ := rfl
  have reached : b.freeze.Reaches "/api/x".toList 1 inner.freeze
      ⟨"/api".toList, "/x".toList, "/api/*".toList, .empty⟩ := by
    have node : b.freeze.nodes[0]? = some ⟨api, inner.freeze.entry, .router inner.freeze⟩ := rfl
    exact .nested start matched node rfl rfl ⟨rfl, rfl⟩
  rcases (routing_consistent b).1 _ registered _ _ _ _ reached with ⟨consistent, slash⟩
  exact ⟨b, inner, registered, _, reached, rfl, consistent, slash Nat.one_pos,
    (routing_consistent b).2 registered⟩

end PathRouter
