import PathRouter.Proofs.Consistency
import PathRouter.Proofs.Tree
import PathRouter.Proofs.Walk

/-!
# Passage — the way of a request through a tree of routers

Middleware that calls what is behind it once hands the request on, changed or not, and later gets back
what came of it.  Where the request goes is then settled on the way in.  This file defines

* `Arrival`, a request where it arrives, and `handOn`, where it arrives behind a chain;
* `History.Passes`, the routers that a request passes, with what it meets there, and how its way ends;

and shows `wrap_on`, what comes back through a chain, and `History.entry_on`, what comes back from a tree.
What is said of a way is proved a stop at a time, by `History.Passes.stop_induction`.
-/

namespace PathRouter

/-- A request that arrives at a handler. -/
structure Arrival where
  request : Request
  context : Context
  writer : Writer

/-- What comes of a handler. -/
def Handler.on (h : Handler) (a : Arrival) : Verdict × Writer := h a.request a.context a.writer

/-! ## Chains -/

/-- Middleware that calls what is behind it exactly once, with `before` of what arrives, and then makes
`after` of what comes back. -/
def Middleware.CallsOnce (m : Middleware) (before : Arrival → Arrival)
    (after : Arrival → Verdict × Writer → Verdict × Writer) : Prop :=
  ∀ (next : Handler) (a : Arrival), (m next).on a = after a (next.on (before a))

/-- What middleware hands on that changes nothing but the response: what it leaves to a panic. -/
def Middleware.inward (m : Middleware) (a : Arrival) : Arrival :=
  { a with writer := (Handler.on (m fun _ _ w => (.panicked Payload.value, w)) a).2 }

/-- What middleware makes of what comes back. -/
def Middleware.outward (m : Middleware) (a : Arrival) (result : Verdict × Writer) : Verdict × Writer :=
  Handler.on (m fun _ _ _ => result) a

section Chains

variable (before : Middleware → Arrival → Arrival)
  (after : Middleware → Arrival → Verdict × Writer → Verdict × Writer)

/-- Where a request arrives behind a chain. -/
def handOn : List Middleware → Arrival → Arrival
  | [], a => a
  | m :: chain, a => handOn chain (before m a)

/-- What comes back through a chain, the last of it first. -/
def handBack : List Middleware → Arrival → Verdict × Writer → Verdict × Writer
  | [], _, result => result
  | m :: chain, a, result => after m a (handBack chain (before m a) result)

variable {before after}

theorem wrap_on {chain : List Middleware} (once : ∀ m ∈ chain, m.CallsOnce (before m) (after m))
    (core : Handler) (a : Arrival) :
    Handler.on (wrap chain core) a =
      handBack before after chain a (core.on (handOn before chain a)) := by
  induction chain generalizing a with
  | nil => rfl
  | cons m chain ih =>
      have inner := ih (fun other mem => once other (List.mem_cons_of_mem m mem)) (before m a)
      rw [wrap_cons, once m List.mem_cons_self, inner, handBack, handOn]

end Chains

/-! ## Ways -/

/-- What a request meets in a router that it passes. -/
structure Stop where
  uses : List Middleware
  fallback : Option Handler
  wraps : List Middleware
  /-- The request at the router. -/
  entry : Arrival
  /-- The request behind the middleware of the router, where its path is resolved. -/
  arrival : Arrival
  /-- The request at the node that takes it, or where it was if there is none. -/
  next : Arrival

/-- The end of the way. -/
inductive Ending where
  /-- No route takes the path. -/
  | missed (a : Arrival)
  /-- A mount was addressed without its final slash. -/
  | redirected (a : Arrival)
  /-- A node that serves requests itself, after the calls on it. -/
  | reached (calls : List NodeCall) (a : Arrival)

/-- Whether the verdict is the failure of a router without a route. -/
def Verdict.isMiss : Verdict → Bool
  | .failed f => f.isRouteMiss
  | _ => false

/-- What comes back from the end of the way. -/
def Ending.result : Ending → Verdict × Writer
  | .missed a => (.failed .routeMiss, a.writer)
  | .redirected a =>
    (.failed (.redirect (.permanent (redirectLocation a.request a.context))), a.writer)
  | .reached calls a => Handler.on (NodeCall.target calls).freeze.1 a

/-- What a router makes of what comes of its routes: a miss is handed to its fallback, with the request as
it arrived and the response reset. -/
def settle (fallback : Option Handler) (a : Arrival) (routed : Verdict × Writer) : Verdict × Writer :=
  match routed.1.isMiss, fallback with
  | true, some h => h.on { a with writer := routed.2.reset }
  | _, _ => routed

section Settle

variable {a : Arrival} {routed : Verdict × Writer}

@[simp] theorem settle_none : settle none a routed = routed := by
  cases miss : routed.1.isMiss <;> simp [settle]

theorem settle_of_hit (hit : routed.1.isMiss = false) (fallback : Option Handler) :
    settle fallback a routed = routed := by
  simp [settle, hit]

theorem settle_of_miss (miss : routed.1.isMiss = true) (h : Handler) :
    settle (some h) a routed = h.on { a with writer := routed.2.reset } := by
  simp [settle, miss]

end Settle

section Ways

variable (before : Middleware → Arrival → Arrival)
  (after : Middleware → Arrival → Verdict × Writer → Verdict × Writer)

/-- The way of a request that arrives at the router of a history: through the middleware of the router to
its routes, and from there through the middleware of a node to what the node serves, which may be a
router again. -/
inductive History.Passes : History → Arrival → List Stop → Ending → Prop
  | missed {H : History} {b : Builder} {a v : Arrival} : H.run = .ok b →
      v = handOn before H.uses a → b.freeze.resolve v.context.path = .notFound →
        Passes H a [⟨H.uses, H.fallback, [], a, v, v⟩] (.missed v)
  | redirected {H : History} {b : Builder} {a v : Arrival} {m : RouteMatch} : H.run = .ok b →
      v = handOn before H.uses a → b.freeze.resolve v.context.path = .redirect m →
        Passes H a [⟨H.uses, H.fallback, [], a, v, v⟩] (.redirected v)
  | reached {H L : History} {b : Builder} {a v : Arrival} {m : RouteMatch} {node : CompiledNode}
      {next : Context} : H.run = .ok b →
      v = handOn before H.uses a → b.freeze.resolve v.context.path = .matched m →
      b.freeze.nodes[m.node]? = some node → v.context.step m.taken m.params = .ok next →
      L = H.about node.pattern.canonical → L.inners = [] →
        Passes H a [⟨H.uses, H.fallback, NodeCall.wraps L.calls, a, v, { v with context := next }⟩]
          (.reached L.calls (handOn before (NodeCall.wraps L.calls) { v with context := next }))
  | nested {H L : History} {b : Builder} {a v : Arrival} {m : RouteMatch} {node : CompiledNode}
      {next : Context} {stops : List Stop} {ending : Ending} : H.run = .ok b →
      v = handOn before H.uses a → b.freeze.resolve v.context.path = .matched m →
      b.freeze.nodes[m.node]? = some node → v.context.step m.taken m.params = .ok next →
      L = H.about node.pattern.canonical → L.inners ≠ [] →
      Passes L.inner (handOn before (NodeCall.wraps L.calls) { v with context := next }) stops ending →
        Passes H a (⟨H.uses, H.fallback, NodeCall.wraps L.calls, a, v, { v with context := next }⟩ ::
          stops) ending

/-- What comes back from a router, given what comes back from what its node serves. -/
def Stop.back (stop : Stop) (result : Verdict × Writer) : Verdict × Writer :=
  handBack before after stop.uses stop.entry
    (settle stop.fallback stop.arrival (handBack before after stop.wraps stop.next result))

/-- What comes back from a way. -/
def comeBack (stops : List Stop) (ending : Ending) : Verdict × Writer :=
  stops.foldr (Stop.back before after) ending.result

/-- A stop at the router of a history. -/
structure Stop.At (H : History) (stop : Stop) : Prop where
  uses : stop.uses = H.uses
  fallback : stop.fallback = H.fallback
  arrival : stop.arrival = handOn before stop.uses stop.entry
  wraps : stop.wraps = [] ∨ ∃ place, stop.wraps = NodeCall.wraps (H.about place).calls
  /-- The routing changes nothing but the context. -/
  next : stop.next = { stop.arrival with context := stop.next.context }

variable {before}

namespace Stop.At

variable {H : History} {stop : Stop} {rules : Rules}

theorem around_of_mem_uses (here : stop.At before H) (obeys : ∀ r ∈ H, r.Obeys rules) :
    ∀ m ∈ stop.uses, rules.around m :=
  here.uses ▸ History.around_of_mem_uses obeys

theorem around_of_mem_wraps (here : stop.At before H) (obeys : ∀ r ∈ H, r.Obeys rules) :
    ∀ m ∈ stop.wraps, rules.around m := by
  rcases here.wraps with none | ⟨place, wraps⟩
  · rw [none]
    nofun
  · rw [wraps]
    exact NodeCall.around_of_mem_wraps (History.obeys_calls_about obeys place)

theorem fallback_of_mem (here : stop.At before H) (obeys : ∀ r ∈ H, r.Obeys rules) :
    ∀ h ∈ stop.fallback, rules.fallback h :=
  here.fallback ▸ History.fallback_of_mem obeys

end Stop.At

/-- What holds at the end of a way, and of a way that is longer by a stop, holds of a way.  What is known of
the first history has to be known of those below. -/
@[elab_as_elim] theorem History.Passes.stop_induction (known : History → Prop)
    {motive : Arrival → List Stop → Ending → Prop}
    (below : ∀ {H : History} place, known H → known (H.about place).inner)
    (missed : ∀ v, motive v [] (.missed v)) (redirected : ∀ v, motive v [] (.redirected v))
    (reached : ∀ {H : History} place v, known H → motive v [] (.reached (H.about place).calls v))
    (stop : ∀ {H stop stops ending}, known H → Stop.At before H stop →
      motive (handOn before stop.wraps stop.next) stops ending → motive stop.entry (stop :: stops) ending)
    {H : History} {a : Arrival} {stops : List Stop} {ending : Ending}
    (passes : H.Passes before a stops ending) : known H → motive a stops ending := by
  intro first
  induction passes with
  | @missed H b a v _ arrival _ =>
      have here : Stop.At before H ⟨H.uses, H.fallback, [], a, v, v⟩ :=
        ⟨rfl, rfl, arrival, .inl rfl, rfl⟩
      exact stop first here (missed v)
  | @redirected H b a v m _ arrival _ =>
      have here : Stop.At before H ⟨H.uses, H.fallback, [], a, v, v⟩ :=
        ⟨rfl, rfl, arrival, .inl rfl, rfl⟩
      exact stop first here (redirected v)
  | @reached H L b a v m node next _ arrival _ _ _ place _ =>
      have here : Stop.At before H
          ⟨H.uses, H.fallback, NodeCall.wraps L.calls, a, v, { v with context := next }⟩ :=
        ⟨rfl, rfl, arrival, .inr ⟨node.pattern.canonical, by rw [place]⟩, rfl⟩
      refine stop first here ?_
      rw [place]
      exact reached _ _ first
  | @nested H L b a v m node next stops ending _ arrival _ _ _ place _ _ ih =>
      have here : Stop.At before H
          ⟨H.uses, H.fallback, NodeCall.wraps L.calls, a, v, { v with context := next }⟩ :=
        ⟨rfl, rfl, arrival, .inr ⟨node.pattern.canonical, by rw [place]⟩, rfl⟩
      refine stop first here (ih ?_)
      rw [place]
      exact below _ first

/-- A stop that keeps to rules. -/
structure Stop.Keeps (rules : Rules) (stop : Stop) : Prop where
  uses : ∀ m ∈ stop.uses, rules.around m
  wraps : ∀ m ∈ stop.wraps, rules.around m
  fallback : ∀ h ∈ stop.fallback, rules.fallback h

/-- An end of a way that keeps to rules. -/
def Ending.Keeps (rules : Rules) : Ending → Prop
  | .reached calls _ => ∀ c ∈ calls, c.Obeys rules
  | _ => True

/-- What is met on a way keeps to the rules of a history. -/
theorem History.Passes.keeps {rules : Rules} {H : History} {a : Arrival} {stops : List Stop}
    {ending : Ending} (passes : H.Passes before a stops ending) (obeys : ∀ r ∈ H, r.Obeys rules) :
    (∀ stop ∈ stops, stop.Keeps rules) ∧ ending.Keeps rules := by
  refine passes.stop_induction (fun H => ∀ r ∈ H, r.Obeys rules) (fun place known => ?_) (fun v => ?_)
    (fun v => ?_) (fun place v known => ?_) (fun known here inner => ?_) obeys
  · exact obeys_inner_about known place
  · exact ⟨by simp, trivial⟩
  · exact ⟨by simp, trivial⟩
  · exact ⟨by simp, obeys_calls_about known place⟩
  · refine ⟨List.forall_mem_cons.2 ⟨?_, inner.1⟩, inner.2⟩
    exact ⟨here.around_of_mem_uses known, here.around_of_mem_wraps known, here.fallback_of_mem known⟩

end Ways

/-! ## One level -/

/-- The routing of a level: what its dispatcher does before it looks for a fallback. -/
def Router.route (r : Router) : Handler :=
  routeToNode r.resolver (r.nodes.map CompiledNode.handler)

/-- A dispatcher returns what comes of the routing, but hands a miss to its fallback. -/
theorem dispatcher_on (resolver : Resolver) (handlers : List Handler) (fallback : Option Handler)
    (a : Arrival) :
    (dispatcher resolver handlers fallback).on a =
      settle fallback a ((routeToNode resolver handlers).on a) := by
  rcases route : (routeToNode resolver handlers).on a with ⟨verdict, w⟩
  cases miss : verdict.isMiss with
  | false =>
      rw [settle_of_hit miss]
      refine dispatcher_of_not_miss route (fun f failed => ?_) fallback
      rw [failed] at miss
      exact miss
  | true =>
      cases verdict with
      | failed f =>
          cases fallback with
          | some h =>
              rw [settle_of_miss miss]
              exact dispatcher_of_miss route miss h
          | none =>
              rw [settle_none]
              exact (dispatcher_none _ _ _ _ _).trans route
      | served => cases miss
      | panicked p => cases miss

namespace History

variable {H : History} {b : Builder}

/-- The router of a history is its dispatcher in the middleware of the history. -/
theorem entry_eq (done : H.run = .ok b) :
    b.freeze.entry = wrap H.uses (dispatcher b.freeze.resolver
      (b.freeze.nodes.map CompiledNode.handler) H.fallback) := by
  rcases (freeze done).whole with ⟨options, whole⟩
  have entry := congrArg Router.entry whole
  have resolver := congrArg Router.resolver whole
  rw [entry, resolver]
  rfl

/-- What the routing of a level comes to: a miss, a redirect, or a call of a node that is what has been
registered at its place. -/
theorem route_cases (done : H.run = .ok b) (a : Arrival) :
    (b.freeze.resolve a.context.path = .notFound ∧
      b.freeze.route.on a = (Ending.missed a).result) ∨
    (∃ m, b.freeze.resolve a.context.path = .redirect m ∧
      b.freeze.route.on a = (Ending.redirected a).result) ∨
    ∃ m node next, b.freeze.resolve a.context.path = .matched m ∧
      b.freeze.nodes[m.node]? = some node ∧ a.context.step m.taken m.params = .ok next ∧
        node.Reflects (H.about node.pattern.canonical) ∧
          b.freeze.route.on a = node.handler.on { a with context := next } := by
  have reflects := freeze done
  rcases reflects.whole with ⟨options, whole⟩
  have resolver : b.freeze.resolver = Router.resolverOf (b.freeze.nodes.map CompiledNode.pattern) :=
    congrArg Router.resolver whole
  have ways := routeToNode_cases reflects.built.made a.context
  rw [← resolver] at ways
  rcases ways with ⟨miss, missed⟩ | ⟨m, redirect, -, redirected⟩ |
    ⟨m, node, matched, divides, -, here, called⟩
  · exact .inl ⟨miss, missed a.request a.writer⟩
  · exact .inr (.inl ⟨m, redirect, redirected a.request a.writer⟩)
  · refine .inr (.inr ⟨m, node, a.context.after m, matched, here,
      (Context.step_of_divides divides).1, ?_, called a.request a.writer⟩)
    exact reflects.nodes node (List.mem_of_getElem? here)

end History

/-! ## All levels -/

section Levels

variable (before : Middleware → Arrival → Arrival)
  (after : Middleware → Arrival → Verdict × Writer → Verdict × Writer)

/-- The rules under which all middleware calls what is behind it once. -/
def Rules.callingOnce : Rules where
  entry _ e := ∀ m ∈ e.chain, m.CallsOnce (before m) (after m)
  around m := m.CallsOnce (before m) (after m)
  fallback _ := True

variable {before after}

/-- What comes back from a level is what comes of its routing, or what its fallback makes of that. -/
theorem History.level_on {H : History} {b : Builder} (done : H.run = .ok b)
    (obeys : ∀ r ∈ H, r.Obeys (.callingOnce before after)) (a : Arrival) :
    b.freeze.entry.on a = handBack before after H.uses a
      (settle H.fallback (handOn before H.uses a) (b.freeze.route.on (handOn before H.uses a))) := by
  rw [entry_eq done, wrap_on (around_of_mem_uses obeys), dispatcher_on]
  rfl

/-- Every request has a way, and what comes of it comes back on that way. -/
theorem History.entry_on {H : History} {b : Builder} (done : H.run = .ok b)
    (obeys : ∀ r ∈ H, r.Obeys (.callingOnce before after)) (a : Arrival) :
    ∃ stops ending, H.Passes before a stops ending ∧
      b.freeze.entry.on a = comeBack before after stops ending := by
  generalize frozen : b.freeze = r
  -- by induction on the routers below, for any request that gets there
  induction r using Router.induct generalizing H b a with
  | step r ih =>
      subst frozen
      have level := level_on done obeys a
      rcases route_cases done (handOn before H.uses a) with ⟨miss, routed⟩ | ⟨m, redirect, routed⟩ |
        ⟨m, node, next, matched, here, stepped, reflects, routed⟩
      · refine ⟨_, _, .missed done rfl miss, ?_⟩
        rw [level, routed]
        rfl
      · refine ⟨_, _, .redirected done rfl redirect, ?_⟩
        rw [level, routed]
        rfl
      · -- the node is what its place says: it serves by itself, or it leads on to a router
        have wraps := NodeCall.around_of_mem_wraps (obeys_calls_about obeys node.pattern.canonical)
        cases reflects with
        | serving bare handler _ =>
            refine ⟨_, _, .reached done rfl matched here stepped rfl bare, ?_⟩
            rw [level, routed, handler, wrap_on wraps]
            rfl
        | @holding inner more ran handler kind =>
            have inside := obeys_inner_about obeys node.pattern.canonical
            rcases ih node (List.mem_of_getElem? here) _ kind ran inside _ rfl with
              ⟨stops, ending, passes, back⟩
            refine ⟨_, _, .nested done rfl matched here stepped rfl more passes, ?_⟩
            rw [level, routed, handler, wrap_on wraps, back]
            rfl

end Levels

/-- An entry that answers has been registered. -/
theorem NodeCall.entry_of_answer {rules : Rules} {calls : List NodeCall} {method : String}
    {e : MethodEntry} (obeys : ∀ c ∈ calls, c.Obeys rules) :
    answer calls method = .entry e ∨ answer calls method = .stripped e →
      ∃ name?, rules.entry name? e := by
  intro who
  cases mine : own method calls with
  | some e' =>
      have same : e' = e := by simpa [answer, mine] using who
      exact ⟨_, entry_of_own obeys (same ▸ mine)⟩
  | none =>
      cases get : (if method = "HEAD" then own "GET" calls else none) with
      | some e' =>
          have same : e' = e := by simpa [answer, mine, get] using who
          have given : own "GET" calls = some e' := (Option.ite_none_right_eq_some.1 get).2
          exact ⟨_, entry_of_own obeys (same ▸ given)⟩
      | none =>
          cases any : all calls with
          | some e' =>
              have same : e' = e := by simpa [answer, mine, get, any] using who
              exact ⟨_, entry_of_all obeys (same ▸ any)⟩
          | none =>
              simp only [answer, mine, get, any] at who
              split at who
              · simp at who
              · split at who <;> simp at who

end PathRouter
