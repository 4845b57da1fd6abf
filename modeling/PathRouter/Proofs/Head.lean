import PathRouter.Proofs.Consistency
import PathRouter.Proofs.Rendering

/-!
# Head — what is sent in answer to `HEAD`

An answer to `HEAD` should have no body, and a `Content-Length` in it should be the length of the body
that `GET` is answered with.  The body is dropped in two places: behind a handler for `GET` that stands
in for `HEAD`, and behind a failure that is rendered for a method written `HEAD`.  This file defines

* `Handler.Silent`, that a handler serves `HEAD` without a body, and the rules `Rules.silent`;
* `Handler.Mirrored`, that a handler answers `HEAD` as it answers `GET`, with or without the body, and
  the rules `Rules.mirroring`;
* `Router.ShowsNoStack`, that a response does not show the stack of a panic;

and shows `Builder.head_response`, when the body is empty, that it is so for what is served under the
first rules, and that the length is right under the second, unless a stack is shown.
-/

namespace PathRouter

variable {rules : Rules}

/-! ## Failures -/

/-- The failure that a response is rendered from. -/
def Verdict.failure? : Verdict → Option Failure
  | .served => none
  | .failed f => some f
  | .panicked p => some p.recover

theorem Verdict.failure?_outcome (v : Verdict) : v.outcome.failure? = v.failure? := by
  have kept (f : Failure) : (Outcome.ofFailure f).failure? = some f := by cases f <;> rfl
  cases v with
  | served => rfl
  | failed f => exact kept f
  | panicked p => exact kept _

@[simp] theorem Verdict.failure?_recover (v : Verdict) : v.recover.failure? = v.failure? := by
  cases v <;> rfl

theorem Json.toText_enclose_ne_nil (opening closing : Char) (items : List Json.Lines) :
    Json.toText (Json.enclose opening closing items) ≠ [] := by
  cases items with
  | nil => simp [Json.enclose, Json.toText, Text.join]
  | cons item items =>
      cases lines : (Json.separate (item :: items)).map (' ' :: ' ' :: ·) <;>
        simp [Json.enclose, Json.toText, Text.join, lines]

namespace Description

theorem toPlain_ne_empty (d : Description) : d.toPlain ≠ "" := by
  simp [toPlain]

theorem toJson_ne_empty (d : Description) : d.toJson ≠ "" := by
  intro empty
  have none := congrArg String.toList empty
  simp [toJson, Json.object, Json.toText_enclose_ne_nil] at none

end Description

/-- Only failures whose status allows no body are rendered without one. -/
theorem render_body_eq_empty (f : Failure) (req : Request) (w : Writer) (options : RenderOptions) :
    (render f req w options).body = "" ↔ f.status = .noContent ∨ f.status = .notModified := by
  rw [render_body, Failure.body]
  by_cases bare : f.status = .noContent ∨ f.status = .notModified
  · simp [Failure.isBare, bare]
  · cases Failure.format req options with
    | json => simp [Failure.isBare, bare, Description.toJson_ne_empty]
    | text => simp [Failure.isBare, bare, Description.toPlain_ne_empty]

/-! ## Silence -/

/-- A handler that serves `HEAD` without a body. -/
def Handler.Silent (h : Handler) : Prop :=
  ∀ req cx w, canonicalMethod req.method = "HEAD" → w.body = "" →
    (h req cx w).1 = .served → (h req cx w).2.body = ""

/-- The rules under which all that may serve `HEAD` is silent.  Entries for `GET` may write bodies. -/
def Rules.silent : Rules where
  entry method e := method = none ∨ method = some "HEAD" → e.compile.Silent
  around middleware := ∀ handler, handler.Silent → (middleware handler).Silent
  fallback := Handler.Silent

theorem canonicalMethod_get : canonicalMethod "GET" = "GET" := by decide +kernel

namespace Handler

theorem silent_headOfGet (h : Handler) : (MethodTable.headOfGet h).Silent := by
  intro req cx w _ _ served
  rcases ran : h req cx w with ⟨verdict, after⟩
  cases verdict with
  | panicked p => simp [MethodTable.headOfGet, ran] at served
  | served => simp [MethodTable.headOfGet, ran, Writer.stripBody]
  | failed f => simp [MethodTable.headOfGet, ran] at served

/-- What catches panics serves nothing that was not served. -/
theorem silent_recoverer {h : Handler} (silent : h.Silent) : (recoverer h).Silent := by
  intro req cx w head clear served
  have below := silent req cx w head clear
  rcases ran : h req cx w with ⟨verdict, after⟩
  rw [ran] at below
  cases verdict with
  | served => simpa [recoverer, ran] using below
  | failed f => simp [recoverer, ran, Verdict.recover] at served
  | panicked p => simp [recoverer, ran, Verdict.recover] at served

theorem silent_toHandler {t : MethodTable} (follows : t.Follows .silent) :
    t.compile.toHandler.Silent := by
  intro req cx w head clear
  rw [MethodTable.toHandler_compile follows.sorted, head]
  cases picked : t.pick "HEAD" with
  | none => simp [MethodHandler.unregistered]
  | some handler =>
      have silent : handler.Silent := by
        rcases follows.pick_cases picked with ⟨e, holds, rfl⟩ | ⟨-, e, -, rfl⟩ | ⟨e, holds, rfl⟩
        · exact holds (.inr rfl)
        · -- whatever the entry for `GET` writes is dropped
          exact silent_headOfGet _
        · exact holds (.inl rfl)
      exact silent req cx w head clear

theorem silent_dispatcher {nodes : List CompiledNode} {notFound : Option Handler}
    (made : ∀ node ∈ nodes, node.Made rules) (below : ∀ node ∈ nodes, node.handler.Silent)
    (fallback : ∀ h ∈ notFound, h.Silent) :
    (dispatcher (Router.resolverOf (nodes.map CompiledNode.pattern))
      (nodes.map CompiledNode.handler) notFound).Silent := by
  intro req cx w head clear
  apply dispatcher_of_made made (P := fun out => out.1 = .served → out.2.body = "")
  · exact nofun
  · exact fun _ => nofun
  · exact fun node listed next => below node listed req next w head clear
  · exact fun h given after => fallback h given req cx after.reset head rfl

end Handler

/-! ## Lengths -/

def Writer.Lengthless (w : Writer) : Prop := w.headers.contains HeaderName.contentLength = false

def Failure.Lengthless (f : Failure) : Prop :=
  f.responseHeaders.contains HeaderName.contentLength = false

/-- A verdict that leads to no failure with a `Content-Length` of its own. -/
def Verdict.Lengthless (v : Verdict) : Prop := ∀ f, v.failure? = some f → f.Lengthless

theorem Failure.lengthless_headerOf {name : HeaderName} (value : Text)
    (other : name ≠ HeaderName.contentLength) :
    (headerOf name value).contains HeaderName.contentLength = false := by
  by_cases legal : HeaderValue.isLegal value <;>
    simp [headerOf, legal, Headers.contains_set, other]

/-- Rendering gives no `Content-Length`. -/
theorem lengthless_render {f : Failure} (lengthless : f.Lengthless) (req : Request) (w : Writer)
    (options : RenderOptions) : (render f req w options).Lengthless := by
  have others : ∀ field ∈ failureHeaders f, field.1 ≠ HeaderName.contentLength := by
    intro field mem
    exact Headers.ne_of_mem_toList lengthless (List.mem_filter.1 mem).1
  have start : (renderedHeaders f w).contains HeaderName.contentLength = false := by
    rw [renderedHeaders, Headers.contains_foldl_append, Headers.contains_remove_self, Bool.false_or]
    simpa using others
  rw [Writer.Lengthless, render_eq]
  cases f.isBare with
  | true => exact start
  | false =>
      simpa [Headers.contains_set, HeaderName.contentType, HeaderName.contentTypeOptions,
        HeaderName.contentLength] using start

/-! ## Mirrors -/

/-- The request with another method. -/
def Request.as (req : Request) (method : String) : Request := { req with method := method }

/-- Verdicts that are rendered alike, but for the stack of a panic: they may name different methods that
are not allowed, and a stack shows how a handler came to be called. -/
inductive Verdict.Alike : Verdict → Verdict → Prop
  | same {v : Verdict} : Alike v v
  | methods {one other allow : String} :
      Alike (.failed (.methodNotAllowed ⟨one, allow⟩)) (.failed (.methodNotAllowed ⟨other, allow⟩))
  | panics {payload : Payload} {one other : List Frame} :
      Alike (.panicked ⟨payload, one⟩) (.panicked ⟨payload, other⟩)
  /-- Such panics where they have been caught. -/
  | caught {text : String} {cause : Option Cause} {one other : List Frame} :
      Alike (.failed (.panic ⟨text, cause, one⟩)) (.failed (.panic ⟨text, cause, other⟩))

/-- A panic is caught as a failure that is alike, whatever its stack. -/
theorem Verdict.alike_recover (payload : Payload) (one other : List Frame) :
    Alike (.failed (Panic.recover ⟨payload, one⟩)) (.failed (Panic.recover ⟨payload, other⟩)) := by
  cases payload with
  | failure f => exact .same
  | methodNotAllowed e => exact .same
  | _ => exact .caught

theorem Verdict.Alike.recover {one other : Verdict} (alike : one.Alike other) :
    one.recover.Alike other.recover := by
  cases alike with
  | same => exact .same
  | methods => exact .methods
  | panics => exact alike_recover _ _ _
  | caught => exact .caught

/-- What has been written for `HEAD` against what has been written for `GET`: the same, or no body and
its length instead. -/
inductive Writer.Mirrors (get : Writer) : Writer → Prop
  | same : Mirrors get get
  | stripped {head : Writer} :
      head.chosen = get.chosen → head.headers.remove HeaderName.contentLength = get.headers →
        head.headers.all HeaderName.contentLength = [toString get.body.utf8ByteSize] →
          head.body = "" → Mirrors get head

/-- The outcomes of `GET` and `HEAD` belong together, and the length is not given for `GET`. -/
structure Mirror (get head : Verdict × Writer) : Prop where
  alike : get.1.Alike head.1
  verdict : get.1.Lengthless
  lengthless : get.2.Lengthless
  writer : get.2.Mirrors head.2

/-- A handler that answers `HEAD` as it answers `GET`. -/
def Handler.Mirrored (h : Handler) : Prop :=
  ∀ (req : Request) (cx : Context) (w : Writer) (method : String),
    canonicalMethod method = "HEAD" → w.Lengthless →
      Mirror (h (req.as "GET") cx w) (h (req.as method) cx w)

/-- A handler that does not look at the method and gives no `Content-Length`.  The stacks of its panics may
differ: what stands in for `HEAD` calls the handler of `GET` from a frame of its own. -/
structure Handler.Blind (h : Handler) : Prop where
  blind : ∀ (req : Request) (cx : Context) (w : Writer) (method : String),
    (h req cx w).1.Alike (h (req.as method) cx w).1 ∧ (h (req.as method) cx w).2 = (h req cx w).2
  verdict : ∀ req cx w, w.Lengthless → (h req cx w).1.Lengthless
  lengthless : ∀ req cx w, w.Lengthless → (h req cx w).2.Lengthless

/-- The rules under which nothing looks at the method or gives a `Content-Length`, nothing is registered
for `HEAD`, and middleware keeps what it wraps mirrored. -/
def Rules.mirroring : Rules where
  entry method e := method ≠ some "HEAD" ∧ e.compile.Blind
  around middleware := ∀ handler, handler.Mirrored → (middleware handler).Mirrored
  fallback := Handler.Blind

namespace Writer

variable {get head : Writer}

theorem length_stripBody (lengthless : get.Lengthless) :
    get.stripBody.headers.all HeaderName.contentLength = [toString get.body.utf8ByteSize] := by
  have absent : get.headers.contains HeaderName.contentLength = false := lengthless
  simp [stripBody, absent, Headers.all_set_self]

theorem mirrors_stripBody (lengthless : get.Lengthless) : get.Mirrors get.stripBody := by
  have absent : get.headers.contains HeaderName.contentLength = false := lengthless
  refine .stripped rfl ?_ (length_stripBody lengthless) rfl
  simpa [stripBody, absent, Headers.remove_set] using Headers.remove_of_not_contains absent

/-- Both are the same once they have been reset. -/
theorem Mirrors.reset (mirrors : get.Mirrors head) (lengthless : get.Lengthless) :
    head.reset = get.reset := by
  cases mirrors with
  | same => rfl
  | stripped _ headers _ _ =>
      simp [Writer.reset, headers, Headers.remove_of_not_contains lengthless]

end Writer

theorem lengthless_methodNotAllowed (method allow : String) :
    (Verdict.failed (.methodNotAllowed ⟨method, allow⟩)).Lengthless := by
  intro f failure
  cases failure
  exact Failure.lengthless_headerOf _ (by decide)

namespace Handler

variable {h : Handler}

theorem Blind.mirrored (blind : h.Blind) : h.Mirrored := by
  intro req cx w method _ start
  rcases blind.blind (req.as "GET") cx w method with ⟨alike, writer⟩
  refine ⟨alike, blind.verdict _ cx w start, blind.lengthless _ cx w start, ?_⟩
  exact writer ▸ .same

theorem blind_status (s : Status) : (Handler.status s).Blind where
  blind _ _ _ _ := ⟨.same, rfl⟩
  verdict _ _ _ _ := by
    intro f failure
    cases failure
    exact Headers.contains_empty _
  lengthless _ _ _ start := start

/-- The handler of `GET` beside itself in the place of one for `HEAD`. -/
theorem Blind.mirror_headOfGet (blind : h.Blind) (req : Request) (cx : Context) {w : Writer}
    (start : w.Lengthless) (method : String) :
    Mirror (h (req.as "GET") cx w) (MethodTable.headOfGet h (req.as method) cx w) := by
  have verdict := blind.verdict (req.as "GET") cx w start
  have lengthless := blind.lengthless (req.as "GET") cx w start
  have alike : (h (req.as "GET") cx w).1.Alike (h (req.as method) cx w).1 ∧
      (h (req.as method) cx w).2 = (h (req.as "GET") cx w).2 := blind.blind (req.as "GET") cx w method
  rw [MethodTable.headOfGet]
  rcases get : h (req.as "GET") cx w with ⟨result, after⟩
  rcases other : h (req.as method) cx w with ⟨result', after'⟩
  rw [get, other] at alike
  rw [get] at verdict lengthless
  rcases alike with ⟨alike, rfl⟩
  cases result' with
  | panicked p => exact ⟨alike, verdict, lengthless, .same⟩
  | served => exact ⟨alike, verdict, lengthless, Writer.mirrors_stripBody lengthless⟩
  | failed f => exact ⟨alike, verdict, lengthless, Writer.mirrors_stripBody lengthless⟩

theorem mirrored_recoverer (mirrored : h.Mirrored) : (recoverer h).Mirrored := by
  intro req cx w method head start
  have mirror := mirrored req cx w method head start
  refine ⟨mirror.alike.recover, fun f failure => ?_, mirror.lengthless, mirror.writer⟩
  exact mirror.verdict f (by simpa [recoverer] using failure)

theorem mirrored_toHandler {t : MethodTable} (follows : t.Follows .mirroring) :
    t.compile.toHandler.Mirrored := by
  intro req cx w method head start
  have none : Assoc.get? "HEAD" t.entries = none := by
    cases own : Assoc.get? "HEAD" t.entries with
    | none => rfl
    | some e => exact absurd rfl (follows.entry own).1
  have getMethod : canonicalMethod (req.as "GET").method = "GET" := canonicalMethod_get
  have headMethod : canonicalMethod (req.as method).method = "HEAD" := head
  rw [MethodTable.toHandler_compile follows.sorted, MethodTable.toHandler_compile follows.sorted,
    getMethod, headMethod]
  cases get : Assoc.get? "GET" t.entries with
  | some e =>
      have one : t.pick "GET" = some e.compile := by simp [MethodTable.pick, get]
      have other : t.pick "HEAD" = some (MethodTable.headOfGet e.compile) := by
        simp [MethodTable.pick, none, get]
      rw [one, other]
      exact (follows.entry get).2.mirror_headOfGet req cx start method
  | none =>
      have one : t.pick "GET" = t.any.map MethodEntry.compile := by simp [MethodTable.pick, get]
      have other : t.pick "HEAD" = t.any.map MethodEntry.compile := by
        simp [MethodTable.pick, none, get]
      rw [one, other]
      cases all : t.any with
      | some e => exact (follows.any all).2.mirrored req cx w method head start
      | none => exact ⟨.methods, lengthless_methodNotAllowed _ _, start, .same⟩

/-- The routing is the same for both methods, and what it leads to is mirrored. -/
theorem mirror_routeToNode {nodes : List CompiledNode} (made : ∀ node ∈ nodes, node.Made rules)
    (below : ∀ node ∈ nodes, node.handler.Mirrored) :
    (routeToNode (Router.resolverOf (nodes.map CompiledNode.pattern))
      (nodes.map CompiledNode.handler)).Mirrored := by
  intro req cx w method head start
  rcases routeToNode_cases made cx with ⟨-, miss⟩ | ⟨_, -, -, redirect⟩ |
    ⟨m, node, -, -, -, here, call⟩
  · rw [miss, miss]
    refine ⟨.same, fun f failure => ?_, start, .same⟩
    cases failure
    exact Headers.contains_empty _
  · rw [redirect, redirect]
    refine ⟨.same, fun f failure => ?_, start, .same⟩
    cases failure
    exact Failure.lengthless_headerOf _ (by decide)
  · rw [call, call]
    exact below node (List.mem_of_getElem? here) req (cx.after m) w method head start

/-- A dispatcher hands a miss to its fallback for both methods or for neither. -/
theorem mirrored_dispatcher {resolver : Resolver} {handlers : List Handler}
    {notFound : Option Handler} (routed : (routeToNode resolver handlers).Mirrored)
    (fallback : ∀ h ∈ notFound, h.Blind) : (dispatcher resolver handlers notFound).Mirrored := by
  intro req cx w method head start
  have mirror := routed req cx w method head start
  rcases get : routeToNode resolver handlers (req.as "GET") cx w with ⟨verdict, after⟩
  rcases other : routeToNode resolver handlers (req.as method) cx w with ⟨verdict', after'⟩
  rw [get, other] at mirror
  have same : verdict.Alike verdict' := mirror.alike
  by_cases miss : ∃ f, verdict = .failed f ∧ f.isRouteMiss = true
  · rcases miss with ⟨f, rfl, miss⟩
    cases same with
    | methods => cases miss
    | caught => cases miss
    | same =>
        cases notFound with
        | none =>
            rw [dispatcher_none, dispatcher_none, get, other]
            exact mirror
        | some handler =>
            -- the fallback starts from the same response for both
            have reset : after'.reset = after.reset := mirror.writer.reset mirror.lengthless
            rw [dispatcher_of_miss get miss, dispatcher_of_miss other miss, reset]
            exact (fallback handler rfl).mirrored req cx after.reset method head
              Headers.contains_remove_self
  · have notMiss : ∀ f, verdict = .failed f → f.isRouteMiss = false :=
      fun f failed => Bool.eq_false_iff.2 fun isMiss => miss ⟨f, failed, isMiss⟩
    have notMiss' : ∀ f, verdict' = .failed f → f.isRouteMiss = false := by
      intro f failed
      cases same with
      | same => exact notMiss f failed
      | panics => cases failed
      | methods =>
          cases failed
          rfl
      | caught =>
          cases failed
          rfl
    rw [dispatcher_of_not_miss get notMiss, dispatcher_of_not_miss other notMiss']
    exact mirror

end Handler

/-! ## Responses -/

/-- What is rendered does not depend on the method, nor on what was written before a reset. -/
theorem render_as {w w' : Writer} (reset : w'.reset = w.reset) (f : Failure) (req : Request)
    (method : String) (options : RenderOptions) :
    render f (req.as method) w' options = render f req w options := by
  simp only [render, reset]
  rfl

namespace Verdict

/-- Failures that are alike are rendered alike, unless the stack of a panic is shown. -/
theorem Alike.rendered {f f' : Failure} (alike : Alike (.failed f) (.failed f'))
    {options : RenderOptions} (unseen : options.exposeStack = false ∨ ∀ p, f' ≠ .panic p)
    (req : Request) (w : Writer) : render f' req w options = render f req w options := by
  cases alike with
  | same => rfl
  | methods => rfl
  | @caught text cause one other =>
      rcases unseen with hidden | typed
      · have bare (stack : List Frame) := render_withoutStack hidden (.panic ⟨text, cause, stack⟩) req w
        exact (bare other).symm.trans (bare one)
      · exact absurd rfl (typed _)

/-- Verdicts that are alike end without a failure, or in failures that are alike. -/
theorem Alike.failure? {one other : Verdict} (alike : one.Alike other) :
    (one.failure? = none ∧ other.failure? = none) ∨
      ∃ f f', one.failure? = some f ∧ other.failure? = some f' ∧ Alike (.failed f) (.failed f') := by
  cases alike with
  | methods => exact .inr ⟨_, _, rfl, rfl, .methods⟩
  | panics => exact .inr ⟨_, _, rfl, rfl, alike_recover _ _ _⟩
  | caught => exact .inr ⟨_, _, rfl, rfl, .caught⟩
  | same =>
      cases failure : one.failure? with
      | none => exact .inl ⟨rfl, rfl⟩
      | some f => exact .inr ⟨f, f, rfl, rfl, .same⟩

end Verdict

namespace Router

variable {r : Router}

/-- The response of a router, from what its entry has made of the request. -/
theorem serve_eq (r : Router) (req : Request) {verdict : Verdict} {w : Writer}
    (ran : r.entry req (.new req.uri.path) .empty = (verdict, w)) :
    r.serve req =
      match verdict.failure? with
      | none => w.toResponse
      | some f =>
        (if req.method = "HEAD" then (render f req w r.options).stripBody
          else render f req w r.options).toResponse := by
  cases failure : verdict.failure? with
  | none => simp [serve, dispatch, ran, Verdict.failure?_outcome, failure]
  | some f => simp [serve, dispatch, ran, Verdict.failure?_outcome, failure]

/-- The body of a response is empty where a handler has left it so, and where a failure is rendered for
`HEAD` or with a status that allows no body. -/
theorem body_serve (r : Router) (req : Request) :
    (r.serve req).body = "" ↔
      match (r.dispatch req .empty).1.failure? with
      | none => (r.dispatch req .empty).2.body = ""
      | some f => req.method = "HEAD" ∨ f.status = .noContent ∨ f.status = .notModified := by
  cases failure : (r.dispatch req .empty).1.failure? with
  | none => simp [serve, failure, Writer.toResponse]
  | some f =>
      by_cases upper : req.method = "HEAD"
      · simp [serve, failure, upper, Writer.toResponse, Writer.stripBody]
      · simp [serve, failure, upper, Writer.toResponse, render_body_eq_empty]

/-- What a silent router serves for `HEAD` has no body. -/
theorem body_of_silent (silent : r.entry.Silent) {req : Request}
    (head : canonicalMethod req.method = "HEAD")
    (served : (r.dispatch req .empty).1.failure? = none) : (r.dispatch req .empty).2.body = "" := by
  have ending : (r.entry req (.new req.uri.path) .empty).1.failure? = none := by
    simpa [dispatch, Verdict.failure?_outcome] using served
  cases verdict : (r.entry req (.new req.uri.path) .empty).1 with
  | served => exact silent req (.new req.uri.path) .empty head rfl verdict
  | failed f => simp [verdict, Verdict.failure?] at ending
  | panicked p => simp [verdict, Verdict.failure?] at ending

/-- The response to a request shows no stack: stacks are hidden, or no panic is rendered. -/
def ShowsNoStack (r : Router) (req : Request) : Prop :=
  r.options.exposeStack = false ∨ ∀ p, (r.dispatch req .empty).1.failure? ≠ some (.panic p)

/-- A response to `HEAD` gives no length but that of the body for `GET`. -/
theorem length_of_mirrored (mirrored : r.entry.Mirrored) (req : Request) {method : String}
    (head : canonicalMethod method = "HEAD") (unseen : r.ShowsNoStack (req.as method)) :
    ∀ value ∈ (r.serve (req.as method)).headers.all HeaderName.contentLength,
      value = toString (r.serve (req.as "GET")).body.utf8ByteSize := by
  intro value listed
  have mirror := mirrored req (.new req.uri.path) .empty method head rfl
  rcases get : r.entry (req.as "GET") (.new req.uri.path) .empty with ⟨verdict, w⟩
  rcases other : r.entry (req.as method) (.new req.uri.path) .empty with ⟨verdict', w'⟩
  rw [get, other] at mirror
  have reset : w'.reset = w.reset := mirror.writer.reset mirror.lengthless
  have responseGet := serve_eq r (req.as "GET") get
  have responseHead := serve_eq r (req.as method) other
  rw [responseHead] at listed
  rw [responseGet]
  rcases mirror.alike.failure? with ⟨none, none'⟩ | ⟨f, f', failure, failure', alike⟩
  · simp only [none, none'] at listed ⊢
    cases mirror.writer with
    | same => simp [Writer.toResponse, Headers.all_of_not_contains mirror.lengthless] at listed
    | stripped _ _ length _ => simpa [Writer.toResponse, length] using listed
  · -- both are rendered from the same failure, and the body is dropped from one of them at most
    have lengthless := lengthless_render (mirror.verdict f failure) req w r.options
    have rendered : render f (req.as "GET") w r.options = render f req w r.options :=
      render_as rfl f req "GET" r.options
    have unseen : r.options.exposeStack = false ∨ ∀ p, f' ≠ .panic p := by
      refine unseen.imp_right fun typed p shown => typed p ?_
      have ending : (r.entry (req.as method) (.new (req.as method).uri.path) .empty).1.failure? =
          some f' := by rw [← failure']; exact congrArg (fun out => out.1.failure?) other
      rw [dispatch, Verdict.failure?_outcome, ending, shown]
    have rendered' : render f' (req.as method) w' r.options = render f req w r.options := by
      rw [alike.rendered unseen, render_as reset]
    have getMethod : (req.as "GET").method ≠ "HEAD" := fun same => by simp [Request.as] at same
    simp only [failure, failure', rendered, rendered', if_neg getMethod] at listed ⊢
    by_cases upper : (req.as method).method = "HEAD"
    · simpa [upper, Writer.toResponse, Writer.length_stripBody lengthless] using listed
    · simp [upper, Writer.toResponse, Headers.all_of_not_contains lengthless] at listed

end Router

/-- The responses to `HEAD`, in any letter case.  Their body is empty where the handlers have left it so,
and where a failure is rendered for the method as it is written in upper case or with a status that
allows no body.  The length is that of the body for `GET`, unless a stack is shown in both: the one for
`HEAD` has the frame of what stands in for it. -/
theorem Builder.head_response (b : Builder) (req : Request)
    (head : canonicalMethod req.method = "HEAD") :
    ((b.freeze.serve req).body = "" ↔
      match (b.freeze.dispatch req .empty).1.failure? with
      | none => (b.freeze.dispatch req .empty).2.body = ""
      | some f => req.method = "HEAD" ∨ f.status = .noContent ∨ f.status = .notModified) ∧
    (b.Registered .silent → (b.freeze.dispatch req .empty).1.failure? = none →
      (b.freeze.serve req).body = "") ∧
    (b.Registered .mirroring → b.freeze.ShowsNoStack req →
      ∀ value ∈ (b.freeze.serve req).headers.all HeaderName.contentLength,
        value = toString (b.freeze.serve (req.as "GET")).body.utf8ByteSize) := by
  refine ⟨?_, fun registered served => ?_, fun registered unseen => ?_⟩
  · exact b.freeze.body_serve req
  · have silent : b.freeze.entry.Silent := by
      refine registered.built.entry (fun _ handler keeps => keeps handler) ?_
        (fun _ allowed => allowed (.inl rfl)) (fun t follows => Handler.silent_toHandler follows)
        fun nodes notFound made below fallback => Handler.silent_dispatcher made below fallback
      -- the answer of an empty node is no service at all
      intro req cx w _ _ served
      cases served
    have body := Router.body_of_silent silent head served
    exact (b.freeze.body_serve req).2 (by simpa [served] using body)
  · have mirrored : b.freeze.entry.Mirrored :=
      registered.built.entry (fun _ handler keeps => keeps handler)
        (Handler.blind_status .notFound).mirrored (fun _ allowed => allowed.2.mirrored)
        (fun t follows => Handler.mirrored_toHandler follows)
        fun nodes notFound made below fallback =>
          Handler.mirrored_dispatcher (Handler.mirror_routeToNode made below) fallback
    exact b.freeze.length_of_mirrored mirrored req head unseen

/-- A handler for `GET` that says hello below a recoverer stands in for `HEAD`, without the body. -/
theorem Builder.head_response_get :
    ∃ (b : Builder) (req : Request), canonicalMethod req.method = "HEAD" ∧
      b.Registered .silent ∧ b.Registered .mirroring ∧ b.freeze.ShowsNoStack req ∧
        (b.freeze.serve req).body = "" ∧ (b.freeze.serve (req.as "GET")).body = "hello" ∧
          ∀ value ∈ (b.freeze.serve req).headers.all HeaderName.contentLength, value = "5" := by
  let hello : Handler := .writing fun _ _ w => w.write "hello"
  let root : Pattern := ⟨['/'], ['/'], ['/'], .literal ['/']⟩
  let b : Builder :=
    ⟨[.raw root (.methods (MethodTable.empty.insert "GET" hello [])) []], [recoverer], none, .default, none⟩
  let req : Request := ⟨"head", ⟨['/'], none⟩, .empty, ""⟩
  have head : canonicalMethod req.method = "HEAD" := by decide +kernel
  have caught : Builder.empty.useMiddleware recoverer = .ok ⟨[], [recoverer], none, .default, none⟩ := rfl
  have added : Builder.method ⟨[], [recoverer], none, .default, none⟩ "GET" ['/'] [] hello = .ok b := rfl
  have silent : b.Registered .silent := by
    have allowed : Rules.silent.entry (some (canonicalMethod "GET")) ⟨hello, []⟩ := by
      intro methods
      simp [canonicalMethod_get] at methods
    exact .method (.useMiddleware .empty (fun _ => Handler.silent_recoverer) caught) allowed added
  have mirroring : b.Registered .mirroring := by
    have blind : hello.Blind :=
      ⟨fun _ _ _ _ => ⟨.same, rfl⟩, fun _ _ _ _ => nofun, fun _ _ _ start => start⟩
    have allowed : Rules.mirroring.entry (some (canonicalMethod "GET")) ⟨hello, []⟩ := by
      refine ⟨?_, blind⟩
      simp [canonicalMethod_get]
    exact .method (.useMiddleware .empty (fun _ => Handler.mirrored_recoverer) caught) allowed added
  have served : (b.freeze.dispatch req .empty).1.failure? = none := by decide +kernel
  have unseen : b.freeze.ShowsNoStack req := .inr fun p => by simp [served]
  have get : (b.freeze.serve (req.as "GET")).body = "hello" := by decide +kernel
  rcases head_response b req head with ⟨-, body, length⟩
  have five : toString ("hello").utf8ByteSize = "5" := by decide +kernel
  rw [get, five] at length
  exact ⟨b, req, head, silent, mirroring, unseen, body silent served, get, length mirroring unseen⟩

/-- A handler for all methods that says hello does so to `HEAD`. -/
theorem Builder.head_response_with_body :
    let hello : Handler := .writing fun _ _ w => w.write "hello"
    let root : Pattern := ⟨['/'], ['/'], ['/'], .literal ['/']⟩
    let b : Builder := ⟨[.raw root (.handler hello []) []], [], none, .default, none⟩
    let req : Request := ⟨"HEAD", ⟨['/'], none⟩, .empty, ""⟩
    Builder.empty.handle ['/'] [] hello = .ok b ∧ canonicalMethod req.method = "HEAD" ∧
      (b.freeze.serve req).status = .ok ∧ (b.freeze.serve req).body = "hello" ∧
        (b.freeze.serve req).body ≠ "" := by
  intro hello root b req
  have head : canonicalMethod req.method = "HEAD" := by decide +kernel
  have status : (b.freeze.serve req).status = .ok := by decide +kernel
  have body : (b.freeze.serve req).body = "hello" := by decide +kernel
  exact ⟨rfl, head, status, body, by rw [body]; decide⟩

/-- A handler for `GET` whose panic shows a frame more for `HEAD` is told of with another length. -/
theorem Builder.head_response_with_stack :
    let frame : Frame := ⟨"head_of_get".toList, none⟩
    let boom : Handler := fun req _ w =>
      (.panicked ⟨.text "boom", if req.method = "HEAD" then [frame] else []⟩, w)
    let root : Pattern := ⟨['/'], ['/'], ['/'], .literal ['/']⟩
    let b : Builder :=
      ⟨[.raw root (.methods (MethodTable.empty.insert "GET" boom [])) []], [], none, .default, none⟩
    let req : Request := ⟨"HEAD", ⟨['/'], none⟩, .empty, ""⟩
    b.Registered .mirroring ∧ ¬ b.freeze.ShowsNoStack req ∧
      (b.freeze.serve req).headers.all HeaderName.contentLength ≠
        [toString (b.freeze.serve (req.as "GET")).body.utf8ByteSize] := by
  intro frame boom root b req
  have blind : boom.Blind :=
    ⟨fun _ _ _ _ => ⟨.panics, rfl⟩, fun _ _ _ _ f failure => by cases failure; rfl,
      fun _ _ _ start => start⟩
  have added : Builder.empty.method "GET" ['/'] [] boom = .ok b := rfl
  have allowed : Rules.mirroring.entry (some (canonicalMethod "GET")) ⟨boom, []⟩ := by
    refine ⟨?_, blind⟩
    simp [canonicalMethod_get]
  have shown : (b.freeze.dispatch req .empty).1.failure? = some (.panic ⟨"boom", none, [frame]⟩) := by
    decide +kernel
  refine ⟨.method .empty allowed added, ?_, ?_⟩
  · rintro (hidden | typed)
    · cases hidden
    · exact typed _ shown
  · decide +kernel

end PathRouter
