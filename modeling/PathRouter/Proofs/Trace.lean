import PathRouter.Demo
import PathRouter.Proofs.Headers
import PathRouter.Proofs.Passage

/-!
# Trace — which middleware runs, and in which order

A call of a router goes through layers: the middleware on the way of the request, with the routing of each
router in between.  This file defines

* `Layer`, and `callThrough`, a call through layers with a record of the middleware that is entered and
  left;
* `layers` and `entered`, the layers and the middleware on a way;
* `Journal`, a record in the response, which the router itself leaves alone, and `Traced`, that it has
  been kept by some middleware and by nothing else;

and shows `History.trace`: a router is a call through the layers on the way of the request, which enters
the middleware there in its order and leaves it in the reverse order.
-/

namespace PathRouter

/-- A mark in a record of middleware. -/
inductive Mark where
  | enter (m : Middleware)
  | leave (m : Middleware)

/-! ## Calls through layers -/

/-- What stands between a call and the handler that answers it. -/
inductive Layer where
  | middleware (m : Middleware)
  /-- The routing of a router, to a node with the given context. -/
  | level (fallback : Option Handler) (next : Context)
  /-- The handler of `GET` is to answer `HEAD`. -/
  | headOfGet

namespace Layer

def middleware? : Layer → Option Middleware
  | .middleware m => some m
  | _ => none

section Effect

variable (before : Middleware → Arrival → Arrival)
  (after : Middleware → Arrival → Verdict × Writer → Verdict × Writer)

/-- What a layer hands on. -/
def inward : Layer → Arrival → Arrival
  | .middleware m, a => before m a
  | .level _ next, a => { a with context := next }
  | .headOfGet, a => a

/-- What a layer makes of what comes back. -/
def outward : Layer → Arrival → Verdict × Writer → Verdict × Writer
  | .middleware m, a, result => after m a result
  | .level fallback _, a, result => settle fallback a result
  | .headOfGet, a, result => Handler.on (MethodTable.headOfGet fun _ _ _ => result) a

end Effect

/-- The record of a layer around that of what is behind it. -/
def around : Layer → List Mark → List Mark
  | .middleware m, marks => .enter m :: (marks ++ [.leave m])
  | _, marks => marks

/-- Whether a layer keeps to rules. -/
def Obeys (rules : Rules) : Layer → Prop
  | .middleware m => rules.around m
  | .level fallback _ => ∀ h ∈ fallback, rules.fallback h
  | .headOfGet => True

end Layer

section Calls

variable (before : Middleware → Arrival → Arrival)
  (after : Middleware → Arrival → Verdict × Writer → Verdict × Writer) (core : Handler)

/-- A call of a handler through layers, the first of them outermost: what comes of it, and the record. -/
def callThrough : List Layer → Arrival → (Verdict × Writer) × List Mark
  | [], a => (core.on a, [])
  | layer :: layers, a =>
    let (result, marks) := callThrough layers (layer.inward before a)
    (layer.outward after a result, layer.around marks)

/-- The record of middleware that is entered and left again. -/
def inAndOut (chain : List Middleware) : List Mark := chain.map .enter ++ chain.reverse.map .leave

theorem inAndOut_append (chain inner : List Middleware) :
    inAndOut (chain ++ inner) = chain.map .enter ++ inAndOut inner ++ chain.reverse.map .leave := by
  simp [inAndOut]

variable {before after core}

/-- A chain passes a call on as its middleware does. -/
theorem callThrough_chain (chain : List Middleware) (layers : List Layer) (a : Arrival) :
    callThrough before after core (chain.map .middleware ++ layers) a =
      (handBack before after chain a
          (callThrough before after core layers (handOn before chain a)).1,
        chain.map .enter ++ (callThrough before after core layers (handOn before chain a)).2 ++
          chain.reverse.map .leave) := by
  induction chain generalizing a with
  | nil => simp [handBack, handOn]
  | cons m chain ih =>
      simp [callThrough, ih, Layer.inward, Layer.outward, Layer.around, handBack, handOn]

end Calls

/-! ## Layers of a way -/

/-- The middleware that was registered along with what answers. -/
def Answer.chain : Answer → List Middleware
  | .entry e => e.chain
  | .stripped get => get.chain
  | _ => []

namespace Ending

/-- The middleware around what the request reaches. -/
def chain : Ending → List Middleware
  | .reached calls a => (NodeCall.answer calls (canonicalMethod a.request.method)).chain
  | _ => []

/-- The layers around what the request reaches. -/
def layers : Ending → List Layer
  | .reached calls a =>
    match NodeCall.answer calls (canonicalMethod a.request.method) with
    | .entry e => e.chain.map .middleware
    | .stripped get => .headOfGet :: get.chain.map .middleware
    | _ => []
  | _ => []

/-- The handler that answers in the end, which is the router's own where nobody's has been registered. -/
def core : Ending → Handler
  | .missed _ => fun _ _ w => (.failed .routeMiss, w)
  | .redirected _ => fun req cx w => (.failed (.redirect (.permanent (redirectLocation req cx))), w)
  | .reached calls a =>
    match NodeCall.answer calls (canonicalMethod a.request.method) with
    | .entry e => e.handler
    | .stripped get => get.handler
    | .missing => .status .notFound
    | _ => fun req _ w =>
      (NodeCall.table calls).compile.unregistered (canonicalMethod req.method) w

end Ending

def Stop.layers (stop : Stop) : List Layer :=
  stop.uses.map .middleware ++ .level stop.fallback stop.next.context :: stop.wraps.map .middleware

/-- The layers on the way of a request. -/
def layers (stops : List Stop) (ending : Ending) : List Layer :=
  stops.flatMap Stop.layers ++ ending.layers

/-- The middleware on the way of a request: that of each router, and that of the node it goes on to. -/
def entered (stops : List Stop) (ending : Ending) : List Middleware :=
  stops.flatMap (fun stop => stop.uses ++ stop.wraps) ++ ending.chain

theorem layers_cons (stop : Stop) (stops : List Stop) (ending : Ending) :
    layers (stop :: stops) ending = stop.uses.map .middleware ++
      .level stop.fallback stop.next.context :: (stop.wraps.map .middleware ++ layers stops ending) := by
  simp [layers, Stop.layers]

theorem entered_cons (stop : Stop) (stops : List Stop) (ending : Ending) :
    entered (stop :: stops) ending = stop.uses ++ (stop.wraps ++ entered stops ending) := by
  simp [entered]

/-- The middleware among the layers of a way. -/
theorem middleware_layers (stops : List Stop) (ending : Ending) :
    (layers stops ending).filterMap Layer.middleware? = entered stops ending := by
  have chains (chain : List Middleware) :
      (chain.map Layer.middleware).filterMap Layer.middleware? = chain := by
    simp [List.filterMap_map, Function.comp_def, Layer.middleware?]
  induction stops with
  | nil =>
      cases ending with
      | missed a => rfl
      | redirected a => rfl
      | reached calls a =>
          simp only [layers, entered, Ending.layers, Ending.chain, List.flatMap_nil, List.nil_append]
          cases NodeCall.answer calls (canonicalMethod a.request.method) with
          | entry e => exact chains e.chain
          | stripped get => exact chains get.chain
          | _ => rfl
  | cons stop stops ih =>
      rw [layers_cons, entered_cons, List.filterMap_append, chains, List.filterMap_cons_none rfl,
        List.filterMap_append, chains, ih]

section Ways

variable {before : Middleware → Arrival → Arrival}
  {after : Middleware → Arrival → Verdict × Writer → Verdict × Writer}

/-- A call through the layers at the end of a way. -/
theorem callThrough_ending {calls : List NodeCall}
    (obeys : ∀ c ∈ calls, c.Obeys (.callingOnce before after)) (v : Arrival) :
    callThrough before after (Ending.core (.reached calls v)) (Ending.layers (.reached calls v)) v =
      (Ending.result (.reached calls v), inAndOut (Ending.chain (.reached calls v))) := by
  -- an entry is called in its chain
  have entry {e : MethodEntry} (once : ∀ m ∈ e.chain, m.CallsOnce (before m) (after m)) :
      callThrough before after e.handler (e.chain.map .middleware) v =
        (e.compile.on v, inAndOut e.chain) := by
    have called : callThrough before after e.handler (e.chain.map .middleware ++ []) v = _ :=
      callThrough_chain e.chain [] v
    rw [List.append_nil] at called
    rw [called, MethodEntry.compile, wrap_on once]
    simp [callThrough, inAndOut]
  simp only [Ending.core, Ending.layers, Ending.result, Ending.chain, Handler.on, NodeCall.freeze_target]
  cases who : NodeCall.answer calls (canonicalMethod v.request.method) with
  | entry e =>
      rcases NodeCall.entry_of_answer obeys (.inl who) with ⟨_, once⟩
      exact entry once
  | stripped get =>
      rcases NodeCall.entry_of_answer obeys (.inr who) with ⟨_, once⟩
      simp only [callThrough, Layer.inward, Layer.around, entry once]
      rfl
  | _ => rfl

/-- A call through the layers on a way comes back on it. -/
theorem History.Passes.callThrough_layers {H : History} {a : Arrival} {stops : List Stop}
    {ending : Ending} (passes : H.Passes before a stops ending)
    (obeys : ∀ r ∈ H, r.Obeys (.callingOnce before after)) :
    callThrough before after ending.core (layers stops ending) a =
      (comeBack before after stops ending, inAndOut (entered stops ending)) := by
  refine passes.stop_induction (fun H => ∀ r ∈ H, r.Obeys (.callingOnce before after))
    (fun place known => obeys_inner_about known place) (fun v => rfl) (fun v => rfl)
    (fun place v known => callThrough_ending (obeys_calls_about known place) v)
    (fun {H stop stops ending} known here inner => ?_) obeys
  -- a stop puts its two chains around what is behind, with the routing of its router in between
  rw [layers_cons, callThrough_chain, entered_cons, inAndOut_append, inAndOut_append]
  simp only [callThrough, Layer.inward, Layer.outward, Layer.around, ← here.arrival, ← here.next,
    callThrough_chain, inner]
  rfl

end Ways

section Rules

variable {rules : Rules} {before : Middleware → Arrival → Arrival}

/-- The layers of a chain keep to rules if its middleware does. -/
theorem Layer.obeys_of_mem_chain {chain : List Middleware} (around : ∀ m ∈ chain, rules.around m) :
    ∀ layer ∈ chain.map Layer.middleware, layer.Obeys rules := by
  intro layer mem
  rcases List.mem_map.1 mem with ⟨m, listed, rfl⟩
  exact around m listed

theorem Ending.Keeps.layers {ending : Ending} (keeps : ending.Keeps rules)
    (chains : ∀ name? e, rules.entry name? e → ∀ m ∈ e.chain, rules.around m) :
    ∀ layer ∈ ending.layers, layer.Obeys rules := by
  have chained {e : MethodEntry} (entry : ∃ name?, rules.entry name? e) :
      ∀ layer ∈ e.chain.map Layer.middleware, layer.Obeys rules := by
    rcases entry with ⟨name?, allowed⟩
    exact Layer.obeys_of_mem_chain (chains name? e allowed)
  cases ending with
  | missed v => nofun
  | redirected v => nofun
  | reached calls v =>
      rw [Ending.layers]
      cases who : NodeCall.answer calls (canonicalMethod v.request.method) with
      | entry e => exact chained (NodeCall.entry_of_answer keeps (.inl who))
      | stripped get =>
          refine List.forall_mem_cons.2 ⟨trivial, ?_⟩
          exact chained (NodeCall.entry_of_answer keeps (.inr who))
      | _ => nofun

theorem Stop.Keeps.layers {stop : Stop} (keeps : stop.Keeps rules) :
    ∀ layer ∈ stop.layers, layer.Obeys rules := by
  intro layer mem
  rw [Stop.layers, List.mem_append, List.mem_cons] at mem
  rcases mem with used | rfl | wrapped
  · exact Layer.obeys_of_mem_chain keeps.uses layer used
  · exact keeps.fallback
  · exact Layer.obeys_of_mem_chain keeps.wraps layer wrapped

/-- The layers on a way keep to the rules of a history. -/
theorem History.Passes.obeys_layers {H : History} {a : Arrival} {stops : List Stop} {ending : Ending}
    (passes : H.Passes before a stops ending) (obeys : ∀ r ∈ H, r.Obeys rules)
    (chains : ∀ name? e, rules.entry name? e → ∀ m ∈ e.chain, rules.around m) :
    ∀ layer ∈ layers stops ending, layer.Obeys rules := by
  intro layer mem
  rcases passes.keeps obeys with ⟨keeps, last⟩
  rw [layers, List.mem_append, List.mem_flatMap] at mem
  rcases mem with ⟨stop, passed, mem⟩ | mem
  · exact (keeps stop passed).layers layer mem
  · exact last.layers chains layer mem

/-- A handler with which a router answers by itself. -/
inductive Handler.Own : Handler → Prop
  | missed : Own fun _ _ w => (.failed .routeMiss, w)
  | redirected : Own fun req cx w => (.failed (.redirect (.permanent (redirectLocation req cx))), w)
  | bare : Own (.status .notFound)
  | unregistered (methods : MethodHandler) :
      Own fun req _ w => methods.unregistered (canonicalMethod req.method) w

/-- What answers in the end is the router's own or has been registered. -/
theorem Ending.Keeps.core_cases {ending : Ending} (keeps : ending.Keeps rules) :
    ending.core.Own ∨ ∃ name? e, rules.entry name? e ∧ ending.core = e.handler := by
  cases ending with
  | missed v => exact .inl .missed
  | redirected v => exact .inl .redirected
  | reached calls v =>
      rw [Ending.core]
      cases who : NodeCall.answer calls (canonicalMethod v.request.method) with
      | entry e =>
          rcases NodeCall.entry_of_answer keeps (.inl who) with ⟨name?, allowed⟩
          exact .inr ⟨name?, e, allowed, rfl⟩
      | stripped get =>
          rcases NodeCall.entry_of_answer keeps (.inr who) with ⟨name?, allowed⟩
          exact .inr ⟨name?, get, allowed, rfl⟩
      | missing => exact .inl .bare
      | _ => exact .inl (.unregistered _)

end Rules

/-! ## Journals -/

/-- A record that is kept in the response, and that the router leaves alone where it writes to it. -/
structure Journal (μ : Type) where
  read : Writer → List μ
  reset : ∀ w, read w.reset = read w
  stripBody : ∀ w, read w.stripBody = read w
  setStatus : ∀ w s, read (w.setStatus s) = read w
  setAllow : ∀ w value, read (w.setHeader HeaderName.allow value) = read w

/-- The values of a header that the router does not write make a journal. -/
def Journal.ofHeader {μ : Type} (name : HeaderName) (decode : String → μ)
    (others : HeaderName.contentLength ≠ name ∧ HeaderName.allow ≠ name) : Journal μ where
  read w := (w.headers.all name).map decode
  reset w := by rw [Writer.reset, Headers.all_remove_of_ne others.1]
  stripBody w := by
    by_cases known : w.headers.contains HeaderName.contentLength = true
    · simp [Writer.stripBody, known]
    · simp [Writer.stripBody, known, Headers.all_set_of_ne others.1]
  setStatus _ _ := rfl
  setAllow w value := by rw [Writer.setHeader, Headers.all_set_of_ne others.2]

/-- A handler that leaves a journal as it is. -/
def Handler.Quiet {μ : Type} (J : Journal μ) (h : Handler) : Prop :=
  ∀ a, J.read (h.on a).2 = J.read a.writer

/-- A verdict that is no panic. -/
def Verdict.Calm (v : Verdict) : Prop := ∀ p, v ≠ .panicked p

/-- Middleware that calls what is behind it once and marks when it is entered and left.  A panic from
behind may pass through it, which leaves no time for the second mark. -/
structure Middleware.Marks (J : Journal Mark) (before : Middleware → Arrival → Arrival)
    (after : Middleware → Arrival → Verdict × Writer → Verdict × Writer) (m : Middleware) : Prop where
  once : m.CallsOnce (before m) (after m)
  enter : ∀ a, J.read (before m a).writer = J.read a.writer ++ [.enter m]
  leave : ∀ a result, J.read (after m a result).2 = J.read result.2 ++ [.leave m] ∨
    (∃ p, result.1 = .panicked p) ∧ after m a result = result

section Rules

variable (J : Journal Mark) (before : Middleware → Arrival → Arrival)
  (after : Middleware → Arrival → Verdict × Writer → Verdict × Writer)

/-- The rules under which all middleware marks, and nothing else does. -/
def Rules.marking : Rules where
  entry _ e := e.handler.Quiet J ∧ ∀ m ∈ e.chain, m.Marks J before after
  around m := m.Marks J before after
  fallback h := h.Quiet J

/-- The rules under which nothing panics. -/
def Rules.calm : Rules where
  entry _ e := (∀ a, (e.handler.on a).1.Calm) ∧
    ∀ m ∈ e.chain, ∀ a result, Verdict.Calm result.1 → (after m a result).1.Calm
  around m := ∀ a result, Verdict.Calm result.1 → (after m a result).1.Calm
  fallback h := ∀ a, (h.on a).1.Calm

end Rules

namespace Handler.Own

variable {h : Handler}

/-- A router at most sets the status and lists the methods. -/
theorem quiet {μ : Type} (J : Journal μ) (own : h.Own) : h.Quiet J := by
  intro a
  cases own with
  | unregistered methods =>
      by_cases options : canonicalMethod a.request.method = "OPTIONS"
      · by_cases legal : HeaderValue.isLegal methods.allow.toList = true <;>
          simp [Handler.on, MethodHandler.unregistered, options, legal, J.setStatus, J.setAllow]
      · simp [Handler.on, MethodHandler.unregistered, options]
  | _ => rfl

theorem calm (own : h.Own) (a : Arrival) : (h.on a).1.Calm := by
  cases own with
  | unregistered methods =>
      by_cases options : canonicalMethod a.request.method = "OPTIONS" <;>
        simp [Handler.on, MethodHandler.unregistered, options, Verdict.Calm]
  | _ =>
      intro p panicked
      cases panicked

end Handler.Own

/-- A journal that has got marks for all the middleware, and then marks for leaving it in reverse.  If
all is calm, all of it is left so. -/
def Traced (J : Journal Mark) (calm : Prop) (start : List Mark) (chain : List Middleware)
    (result : Verdict × Writer) : Prop :=
  ∃ left : List Middleware, J.read result.2 = start ++ chain.map .enter ++ left.map .leave ∧
    left.Sublist chain.reverse ∧ (calm → left = chain.reverse ∧ result.1.Calm)

namespace Traced

variable {J : Journal Mark} {before : Middleware → Arrival → Arrival}
  {after : Middleware → Arrival → Verdict × Writer → Verdict × Writer} {calm : Prop}
  {start : List Mark} {inner : List Middleware} {a : Arrival} {result later : Verdict × Writer}

/-- What comes later may change the verdict and the response, but not the journal. -/
theorem followed (traced : Traced J calm start inner result) (same : J.read later.2 = J.read result.2)
    (calms : calm → result.1.Calm → later.1.Calm) : Traced J calm start inner later := by
  rcases traced with ⟨left, journal, order, all⟩
  exact ⟨left, by rw [same, journal], order, fun holds =>
    ⟨(all holds).1, calms holds (all holds).2⟩⟩

/-- Middleware marks around what is traced inside of it. -/
theorem marked {m : Middleware} (marks : m.Marks J before after)
    (calms : calm → ∀ a result, Verdict.Calm result.1 → (after m a result).1.Calm)
    (traced : Traced J calm (J.read (before m a).writer) inner result) :
    Traced J calm (J.read a.writer) (m :: inner) (after m a result) := by
  rcases traced with ⟨left, journal, order, all⟩
  rw [marks.enter] at journal
  rcases marks.leave a result with left' | ⟨⟨p, panicked⟩, passed⟩
  · refine ⟨left ++ [m], ?_, ?_, fun holds => ?_⟩
    · simp [left', journal]
    · simpa using order.append (List.Sublist.refl [m])
    · rcases all holds with ⟨whole, calmly⟩
      exact ⟨by simp [whole], calms holds a _ calmly⟩
  · -- a panic that passes through leaves no mark
    refine ⟨left, ?_, ?_, fun holds => ?_⟩
    · simp [passed, journal]
    · simpa using order.trans (List.sublist_append_left _ [m])
    · exact absurd panicked ((all holds).2 p)

/-- A fallback does not show in the journal. -/
theorem settle {fallback : Option Handler} (traced : Traced J calm start inner result)
    (quiets : ∀ h ∈ fallback, h.Quiet J) (calms : calm → ∀ h ∈ fallback, ∀ a, (h.on a).1.Calm) :
    Traced J calm start inner (settle fallback a result) := by
  cases miss : result.1.isMiss with
  | false => rwa [settle_of_hit miss]
  | true =>
      cases fallback with
      | none => rwa [settle_none]
      | some h =>
          rw [settle_of_miss miss]
          refine traced.followed ?_ fun holds _ => calms holds h rfl _
          rw [quiets h rfl, J.reset]

/-- Nor does the loss of the body. -/
theorem headOfGet (a : Arrival) (traced : Traced J calm start inner result) :
    Traced J calm start inner (Handler.on (MethodTable.headOfGet fun _ _ _ => result) a) := by
  rcases result with ⟨verdict, w⟩
  cases verdict with
  | panicked p => exact traced
  | _ => exact traced.followed (J.stripBody w) fun _ _ => nofun

/-- A call through layers that mark leaves a journal of their middleware. -/
theorem callThrough {core : Handler} {layers : List Layer}
    (marks : ∀ layer ∈ layers, layer.Obeys (.marking J before after)) (quiet : core.Quiet J)
    (calms : calm → (∀ layer ∈ layers, layer.Obeys (.calm after)) ∧ ∀ a, (core.on a).1.Calm)
    (a : Arrival) :
    Traced J calm (J.read a.writer) (layers.filterMap Layer.middleware?)
      (callThrough before after core layers a).1 := by
  induction layers generalizing a with
  | nil =>
      refine ⟨[], ?_, List.Sublist.refl _, fun holds => ⟨rfl, (calms holds).2 a⟩⟩
      simp [PathRouter.callThrough, quiet a]
  | cons layer layers ih =>
      rcases List.forall_mem_cons.1 marks with ⟨mark, others⟩
      have still (holds : calm) := List.forall_mem_cons.1 (calms holds).1
      have inside := ih others (fun holds => ⟨(still holds).2, (calms holds).2⟩) (layer.inward before a)
      cases layer with
      | middleware m => exact inside.marked mark fun holds => (still holds).1
      | level fallback next => exact inside.settle mark fun holds => (still holds).1
      | headOfGet => exact inside.headOfGet a

end Traced

/-- The middleware that a request runs through is that on its way.  In a tree the middleware of which calls
what is behind it once, a router does with a request what a call through layers does, which are those of
the routers that the request passes.  They enter the middleware of each router, followed by that of the
node which the request goes on to there, and last what came along with the entry that answers; they leave
it in the reverse order; and there is no other middleware among them.  So middleware that marks in a
journal when it is entered and left does this in that order, but for what a panic passes through. -/
theorem History.trace {H : History} {b : Builder} (done : H.run = .ok b)
    (before : Middleware → Arrival → Arrival)
    (after : Middleware → Arrival → Verdict × Writer → Verdict × Writer)
    (obeys : ∀ r ∈ H, r.Obeys (.callingOnce before after)) (a : Arrival) :
    ∃ stops ending, H.Passes before a stops ending ∧
      (layers stops ending).filterMap Layer.middleware? = entered stops ending ∧
      callThrough before after ending.core (layers stops ending) a =
        (b.freeze.entry.on a,
          (entered stops ending).map .enter ++ (entered stops ending).reverse.map .leave) ∧
      ∀ J : Journal Mark, (∀ r ∈ H, r.Obeys (.marking J before after)) →
        Traced J (∀ r ∈ H, r.Obeys (.calm after)) (J.read a.writer) (entered stops ending)
          (b.freeze.entry.on a) := by
  rcases entry_on done obeys a with ⟨stops, ending, passes, back⟩
  have called := passes.callThrough_layers obeys
  rw [← back] at called
  refine ⟨stops, ending, passes, middleware_layers stops ending, called, fun J marks => ?_⟩
  have layered := passes.obeys_layers marks fun _ _ allowed => allowed.2
  have quiet : ending.core.Quiet J := by
    rcases (passes.keeps marks).2.core_cases with own | ⟨_, e, allowed, same⟩
    · exact own.quiet J
    · exact same ▸ allowed.1
  have calms (calm : ∀ r ∈ H, r.Obeys (.calm after)) :
      (∀ layer ∈ layers stops ending, layer.Obeys (.calm after)) ∧
        ∀ a, (ending.core.on a).1.Calm := by
    refine ⟨passes.obeys_layers calm fun _ _ allowed => allowed.2, ?_⟩
    rcases (passes.keeps calm).2.core_cases with own | ⟨_, e, allowed, same⟩
    · exact own.calm
    · exact same ▸ allowed.1
  have traced := Traced.callThrough layered quiet calms a
  rwa [called, middleware_layers] at traced

/-! ## Middleware that signs a header -/

/-- Middleware that writes its name to a header when it is entered and when it is left. -/
def Middleware.signing (name : Text) : Middleware := fun next req cx w =>
  match next req cx (w.appendHeader "x-trace" (String.ofList ('+' :: name))) with
  | (.panicked p, w) => (.panicked p, w)
  | (verdict, w) => (verdict, w.appendHeader "x-trace" (String.ofList ('-' :: name)))

namespace Signed

/-- What the header says. -/
def mark (value : String) : Mark :=
  match value.toList with
  | '+' :: name => .enter (.signing name)
  | name => .leave (.signing name.tail)

def journal : Journal Mark := .ofHeader "x-trace" mark ⟨by decide, by decide⟩

theorem marks (name : Text) :
    (Middleware.signing name).Marks journal Middleware.inward Middleware.outward where
  once _ _ := rfl
  enter a := by
    simp [Middleware.inward, Handler.on, Middleware.signing, journal, Journal.ofHeader,
      Writer.appendHeader, Headers.all_append_self, mark]
  leave a result := by
    rcases result with ⟨verdict, w⟩
    cases verdict with
    | panicked p => exact .inr ⟨⟨p, rfl⟩, rfl⟩
    | _ =>
        left
        simp [Middleware.outward, Handler.on, Middleware.signing, journal, Journal.ofHeader,
          Writer.appendHeader, Headers.all_append_self, mark]

theorem calm (name : Text) (a : Arrival) (result : Verdict × Writer) :
    Verdict.Calm result.1 → (Middleware.outward (.signing name) a result).1.Calm := by
  intro calm
  rcases result with ⟨verdict, w⟩
  cases verdict with
  | panicked p => exact absurd rfl (calm p)
  | _ => exact fun _ => nofun

/-- A page with three chains, that of the router and that of the node registered after the route. -/
def tree (router node entry : Middleware) : History :=
  [.call "/a".toList (.method "get" (Handler.writing fun _ _ w => w) [entry]),
    .useMiddleware router, .call "/a".toList (.wrapWith node)]

def request : Arrival := ⟨⟨"HEAD", ⟨"/a".toList, none⟩, .empty, ""⟩, .new "/a".toList, .empty⟩

theorem obeys_tree {rules : Rules} {router node entry : Middleware} (around : rules.around router)
    (inner : rules.around node)
    (allowed : rules.entry (some (canonicalMethod "get")) ⟨Handler.writing fun _ _ w => w, [entry]⟩) :
    ∀ r ∈ tree router node entry, r.Obeys rules := by
  intro r mem
  simp only [tree, List.mem_cons, List.not_mem_nil, or_false] at mem
  rcases mem with rfl | rfl | rfl
  · exact .call allowed
  · exact .useMiddleware around
  · exact .call inner

/-- The request passes the three chains and nothing else. -/
theorem entered_tree {router node entry : Middleware} {stops : List Stop} {ending : Ending}
    (passes : (tree router node entry).Passes Middleware.inward request stops ending) :
    entered stops ending = [router, node, entry] := by
  have answered : NodeCall.answer ((tree router node entry).about "/a".toList).calls
      (canonicalMethod "HEAD") = .stripped ⟨Handler.writing fun _ _ w => w, [entry]⟩ := by
    have head : canonicalMethod "HEAD" = "HEAD" := by decide +kernel
    have get : canonicalMethod "get" = "GET" := by decide +kernel
    have calls : ((tree router node entry).about "/a".toList).calls =
        [.method "get" (Handler.writing fun _ _ w => w) [entry], .wrapWith node] := rfl
    rw [calls, head]
    simp [NodeCall.answer, NodeCall.own, NodeCall.entryFor?, get]
    rfl
  cases passes with
  | missed done arrival resolved =>
      cases done
      subst arrival
      cases resolved
  | redirected done arrival resolved =>
      cases done
      subst arrival
      cases resolved
  | reached done arrival resolved here stepped place =>
      cases done
      subst arrival
      cases resolved
      cases here
      cases stepped
      subst place
      exact congrArg (fun answer : Answer => [router, node] ++ answer.chain) answered
  | nested done arrival resolved here stepped place more =>
      cases done
      subst arrival
      cases resolved
      cases here
      cases stepped
      subst place
      exact absurd rfl more

end Signed

/-- Middleware that signs shows its place, and the program's own, which leaves no sign, is in the record
all the same. -/
theorem History.trace_three_chains :
    let signing (name : String) : Middleware := .signing name.toList
    let signed := Signed.tree (signing "router") (signing "node") (signing "entry")
    let own := Signed.tree recoverer (signing "node") Demo.serverHeader
    let a := Signed.request
    (∃ b, signed.run = .ok b ∧
      (∀ r ∈ signed, r.Obeys (.marking Signed.journal Middleware.inward Middleware.outward)) ∧
      (b.freeze.entry.on a).2.headers.all "x-trace" =
        ["+router", "+node", "+entry", "-entry", "-node", "-router"] ∧
      Signed.journal.read (b.freeze.entry.on a).2 =
        inAndOut [signing "router", signing "node", signing "entry"]) ∧
    ∃ b, own.run = .ok b ∧
      (∀ r ∈ own, r.Obeys (.callingOnce Middleware.inward Middleware.outward)) ∧
      (b.freeze.entry.on a).2.headers.all "x-trace" = ["+node", "-node"] ∧
      ∃ stops ending, own.Passes Middleware.inward a stops ending ∧
        callThrough Middleware.inward Middleware.outward ending.core (layers stops ending) a =
          (b.freeze.entry.on a, inAndOut [recoverer, signing "node", Demo.serverHeader]) := by
  intro signing signed own a
  constructor
  · have marks : ∀ r ∈ signed, r.Obeys (.marking Signed.journal Middleware.inward Middleware.outward) := by
      refine Signed.obeys_tree (Signed.marks _) (Signed.marks _) ⟨fun _ => rfl, fun m mem => ?_⟩
      rw [List.mem_singleton.1 mem]
      exact Signed.marks _
    have calm : ∀ r ∈ signed, r.Obeys (.calm Middleware.outward) := by
      refine Signed.obeys_tree (Signed.calm _) (Signed.calm _) ⟨fun _ _ => nofun, fun m mem => ?_⟩
      rw [List.mem_singleton.1 mem]
      exact Signed.calm _
    have once : ∀ r ∈ signed, r.Obeys (.callingOnce Middleware.inward Middleware.outward) :=
      fun r mem => (marks r mem).mono (fun _ _ allowed m listed => (allowed.2 m listed).once)
        (fun _ => Middleware.Marks.once) fun _ _ => trivial
    rcases trace rfl Middleware.inward Middleware.outward once a with
      ⟨stops, ending, passes, -, -, traced⟩
    rcases traced Signed.journal marks with ⟨left, journal, -, all⟩
    refine ⟨_, rfl, marks, ?_, ?_⟩
    · decide +kernel
    · rw [journal, (all calm).1, Signed.entered_tree passes]
      rfl
  · have once : ∀ r ∈ own, r.Obeys (.callingOnce Middleware.inward Middleware.outward) := by
      refine Signed.obeys_tree (fun _ _ => rfl) (Signed.marks _).once fun m mem => ?_
      rw [List.mem_singleton.1 mem]
      exact fun _ _ => rfl
    rcases trace rfl Middleware.inward Middleware.outward once a with
      ⟨stops, ending, passes, -, called, -⟩
    rw [Signed.entered_tree passes] at called
    refine ⟨_, rfl, once, ?_, stops, ending, passes, called⟩
    decide +kernel

end PathRouter
