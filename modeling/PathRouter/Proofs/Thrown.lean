import PathRouter.Proofs.Head
import PathRouter.Proofs.Passage

/-!
# Thrown — a failure may be returned or thrown

A handler that cannot go on returns a failure, or panics with it as the value of the panic.  A returned
failure comes back through everything around the handler, a panic goes to the next place that catches
it, and what has been written by then is dropped in the end.  This file defines

* `Handler.Exchanges`, that a handler does what another one does, but may throw a failure that the
  other one returns, or return one that the other one throws;
* `Tantamount`, what is left of this difference on the way out;
* `Middleware.HandsOn`, middleware that does nothing once what it has called returns;

and shows that what routers are made of keeps handlers tantamount, if the middleware hands on or catches
panics, and `Router.serve_of_tantamounts`, that routers with tantamount entries answer alike.
-/

namespace PathRouter

/-- The failure that a panic carries as its value. -/
def Payload.failure? : Payload → Option Failure
  | .failure f => some f
  | .methodNotAllowed e => some (.methodNotAllowed e)
  | _ => none

/-- What catches a panic finds the failure that it carries. -/
theorem Payload.recover_of_failure? {p : Payload} {f : Failure} (carries : p.failure? = some f)
    (stack : List Frame) : p.recover stack = f := by
  cases p <;> cases carries <;> rfl

/-! ## What comes of a handler -/

/-- The same, or one failure that is returned in one case and thrown in the other, with the same
written.  The failure of a router without a route is left out: routers look for it in what is
returned. -/
inductive Exchanged : Verdict × Writer → Verdict × Writer → Prop
  | same (out : Verdict × Writer) : Exchanged out out
  | thrown {f : Failure} {p : Panic} {w : Writer} : p.payload.failure? = some f →
      f.isRouteMiss = false → Exchanged (.failed f, w) (.panicked p, w)
  | returned {f : Failure} {p : Panic} {w : Writer} : p.payload.failure? = some f →
      f.isRouteMiss = false → Exchanged (.panicked p, w) (.failed f, w)

/-- The same, or one failure however it comes, with the same left of what is written after a reset. -/
inductive Tantamount : Verdict × Writer → Verdict × Writer → Prop
  | same (out : Verdict × Writer) : Tantamount out out
  | failure {f : Failure} {verdict verdict' : Verdict} {w w' : Writer} :
      verdict.failure? = some f → verdict'.failure? = some f → f.isRouteMiss = false →
        w'.reset = w.reset → Tantamount (verdict, w) (verdict', w')

theorem Exchanged.tantamount {out out' : Verdict × Writer} (exchanged : Exchanged out out') :
    Tantamount out out' := by
  cases exchanged with
  | same => exact .same out
  | @thrown f p w carries notMiss =>
      have caught := congrArg some (Payload.recover_of_failure? carries p.stack)
      exact .failure rfl caught notMiss rfl
  | @returned f p w carries notMiss =>
      have caught := congrArg some (Payload.recover_of_failure? carries p.stack)
      exact .failure caught rfl notMiss rfl

/-- A change of what comes of a handler keeps it tantamount, if it leaves every failure a failure and
makes no difference to what a reset leaves. -/
theorem Tantamount.map {out out' : Verdict × Writer} {g : Verdict × Writer → Verdict × Writer}
    (failure : ∀ out, (g out).1.failure? = out.1.failure?)
    (reset : ∀ out, (g out).2.reset = out.2.reset) (same : Tantamount out out') :
    Tantamount (g out) (g out') := by
  cases same with
  | same => exact .same _
  | failure fails fails' notMiss left =>
      refine .failure ((failure _).trans fails) ((failure _).trans fails') notMiss ?_
      rw [reset, reset, left]

/-- No verdict of a tantamount failure is the returned failure of a router without a route. -/
theorem notMiss_of_failure? {verdict : Verdict} {f : Failure} (fails : verdict.failure? = some f)
    (notMiss : f.isRouteMiss = false) : ∀ g, verdict = .failed g → g.isRouteMiss = false := by
  rintro g rfl
  cases fails
  exact notMiss

theorem Writer.reset_stripBody (w : Writer) : w.stripBody.reset = w.reset := by
  by_cases given : w.headers.contains HeaderName.contentLength = true
  · simp [stripBody, reset, given]
  · simp [stripBody, reset, given, Headers.remove_set]

/-! ## Middleware -/

/-- Middleware that answers by itself, or hands a request on and adds nothing to what comes of it. -/
def Middleware.HandsOn (m : Middleware) : Prop :=
  ∀ a, (∃ out, ∀ next : Handler, (m next).on a = out) ∨
    ∃ b, ∀ next : Handler, (m next).on a = next.on b

/-- Middleware that hands on, or catches panics and does nothing else. -/
def Middleware.Neutral (m : Middleware) : Prop := m = recoverer ∨ m.HandsOn

/-! ## Handlers -/

namespace Handler

/-- The second handler does what the first one does, but may throw what the first one returns and return
what the first one throws. -/
def Exchanges (h h' : Handler) : Prop := ∀ a, Exchanged (h.on a) (h'.on a)

def Tantamounts (h h' : Handler) : Prop := ∀ a, Tantamount (h.on a) (h'.on a)

variable {h h' : Handler} {chain : List Middleware}

theorem Tantamounts.refl (h : Handler) : h.Tantamounts h := fun a => .same (h.on a)

theorem Exchanges.tantamounts (exchanges : h.Exchanges h') : h.Tantamounts h' :=
  fun a => (exchanges a).tantamount

theorem Tantamounts.recoverer (same : h.Tantamounts h') :
    (recoverer h).Tantamounts (recoverer h') := by
  intro a
  -- the failure of a panic is the one that it is turned into
  exact (same a).map (g := fun out => (out.1.recover, out.2)) (fun out => out.1.failure?_recover)
    fun out => rfl

theorem Tantamounts.headOfGet (same : h.Tantamounts h') :
    (MethodTable.headOfGet h).Tantamounts (MethodTable.headOfGet h') := by
  intro a
  -- the body is left out where the handler returns, and a reset does not see it
  let strip (out : Verdict × Writer) := (MethodTable.headOfGet fun _ _ _ => out).on a
  refine (same a).map (g := strip) (fun out => ?_) fun out => ?_
  · rcases out with ⟨verdict, w⟩
    cases verdict <;> rfl
  · rcases out with ⟨verdict, w⟩
    cases verdict with
    | panicked p => rfl
    | served => exact w.reset_stripBody
    | failed f => exact w.reset_stripBody

theorem Tantamounts.wrap (neutral : ∀ m ∈ chain, m.Neutral) (same : h.Tantamounts h') :
    (wrap chain h).Tantamounts (wrap chain h') := by
  induction chain with
  | nil => exact same
  | cons m chain ih =>
      have inside := ih fun other mem => neutral other (List.mem_cons_of_mem m mem)
      rw [wrap_cons, wrap_cons]
      rcases neutral m List.mem_cons_self with rfl | handsOn
      · exact inside.recoverer
      · intro a
        rcases handsOn a with ⟨out, itself⟩ | ⟨b, handed⟩
        · rw [itself, itself]
          exact .same out
        · rw [handed, handed]
          exact inside b

end Handler

/-! ## Related lists -/

section Lists

variable {α β γ : Type} {R : α → β → Prop} {l : List α} {l' : List β}

/-- Related lists have related elements in the same places. -/
theorem rel_getElem? (related : List.Forall₂ R l l') (i : Nat) : Option.Rel R l[i]? l'[i]? := by
  induction related generalizing i with
  | nil => exact .none
  | cons head _ ih =>
      cases i with
      | zero => exact .some head
      | succ i => exact ih i

/-- A view under which related elements are equal cannot tell related lists apart. -/
theorem map_eq_of_rel {f : α → γ} {g : β → γ} (same : ∀ a b, R a b → g b = f a)
    (related : List.Forall₂ R l l') : l'.map g = l.map f := by
  induction related with
  | nil => rfl
  | cons head _ ih => rw [List.map_cons, List.map_cons, same _ _ head, ih]

end Lists

/-! ## Dispatchers -/

section Dispatchers

variable {resolver : Resolver} {handlers handlers' : List Handler}
  {notFound notFound' : Option Handler}

/-- A request falls on the same node, whatever its handler. -/
theorem tantamounts_routeToNode (same : List.Forall₂ Handler.Tantamounts handlers handlers') :
    (routeToNode resolver handlers).Tantamounts (routeToNode resolver handlers') := by
  rintro ⟨req, cx, w⟩
  simp only [Handler.on, routeToNode]
  cases resolver.resolve cx.path with
  | notFound => exact .same _
  | redirect m => exact .same _
  | matched m =>
      have node := rel_getElem? same m.node
      -- both lists have a handler for the node, or neither has one
      simp only
      generalize handlers[m.node]? = found, handlers'[m.node]? = found' at node ⊢
      cases stepped : cx.step m.taken m.params with
      | error fault =>
          cases node with
          | none => exact .same _
          | some _ => exact .same _
      | ok next =>
          cases node with
          | none => exact .same _
          | some node => exact node ⟨req, next, w⟩

/-- A route miss comes back from both, and what they fall back to starts from the same response; no
failure in which they differ is a miss. -/
theorem tantamounts_dispatcher (same : List.Forall₂ Handler.Tantamounts handlers handlers')
    (fallback : Option.Rel Handler.Tantamounts notFound notFound') :
    (dispatcher resolver handlers notFound).Tantamounts (dispatcher resolver handlers' notFound') := by
  rintro ⟨req, cx, w⟩
  have routed : Tantamount (routeToNode resolver handlers req cx w)
      (routeToNode resolver handlers' req cx w) := tantamounts_routeToNode same ⟨req, cx, w⟩
  simp only [Handler.on]
  rcases one : routeToNode resolver handlers req cx w with ⟨verdict, after⟩
  rcases other : routeToNode resolver handlers' req cx w with ⟨verdict', after'⟩
  rw [one, other] at routed
  cases routed with
  | failure fails fails' notMiss left =>
      rw [dispatcher_of_not_miss one (notMiss_of_failure? fails notMiss),
        dispatcher_of_not_miss other (notMiss_of_failure? fails' notMiss)]
      exact .failure fails fails' notMiss left
  | same =>
      by_cases miss : ∃ f, verdict = .failed f ∧ f.isRouteMiss = true
      · rcases miss with ⟨f, rfl, miss⟩
        cases fallback with
        | none =>
            rw [dispatcher_none, dispatcher_none, one, other]
            exact .same _
        | some fallback =>
            rw [dispatcher_of_miss one miss, dispatcher_of_miss other miss]
            exact fallback ⟨req, cx, after.reset⟩
      · have notMiss : ∀ f, verdict = .failed f → f.isRouteMiss = false :=
          fun f failed => Bool.eq_false_iff.2 fun isMiss => miss ⟨f, failed, isMiss⟩
        rw [dispatcher_of_not_miss one notMiss, dispatcher_of_not_miss other notMiss]
        exact .same _

end Dispatchers

/-! ## Method tables -/

namespace Assoc

variable {κ ν ν' : Type} [LT κ] [DecidableLT κ] [DecidableEq κ] {R : ν → ν' → Prop}
  {entries : List (κ × ν)} {entries' : List (κ × ν')} {k : κ} {v : ν} {v' : ν'}

/-- The same keys in the same order, with related values. -/
def Agree (R : ν → ν' → Prop) : List (κ × ν) → List (κ × ν') → Prop :=
  List.Forall₂ fun entry entry' => entry'.1 = entry.1 ∧ R entry.2 entry'.2

omit [LT κ] [DecidableLT κ] [DecidableEq κ] in
theorem Agree.keys (agree : Agree R entries entries') :
    entries'.map Prod.fst = entries.map Prod.fst :=
  map_eq_of_rel (fun _ _ entry => entry.1) agree

omit [LT κ] [DecidableLT κ] in
theorem Agree.get? (agree : Agree R entries entries') (k : κ) :
    Option.Rel R (get? k entries) (get? k entries') := by
  induction agree with
  | nil => exact .none
  | @cons entry entry' _ _ head _ ih =>
      rcases entry with ⟨_, value⟩
      rcases entry' with ⟨key, value'⟩
      rcases head with ⟨rfl, related⟩
      simp only [Assoc.get?]
      by_cases here : k = key
      · rw [if_pos here, if_pos here]
        exact .some related
      · rw [if_neg here, if_neg here]
        exact ih

theorem Agree.insert (agree : Agree R entries entries') (related : R v v') :
    Agree R (insert k v entries) (insert k v' entries') := by
  induction agree with
  | nil => exact .cons ⟨rfl, related⟩ .nil
  | @cons entry entry' _ _ head tail ih =>
      rcases entry with ⟨_, value⟩
      rcases entry' with ⟨key, value'⟩
      rcases head with ⟨rfl, kept⟩
      simp only [Assoc.insert, alter]
      by_cases here : k = key
      · rw [if_pos here, if_pos here]
        exact .cons ⟨rfl, related⟩ tail
      · rw [if_neg here, if_neg here]
        by_cases before : k < key
        · rw [if_pos before, if_pos before]
          exact .cons ⟨rfl, related⟩ (.cons ⟨rfl, kept⟩ tail)
        · rw [if_neg before, if_neg before]
          exact .cons ⟨rfl, kept⟩ ih

end Assoc

/-- An entry that comes to much the same. -/
def MethodEntry.Tantamounts (e e' : MethodEntry) : Prop := e.compile.Tantamounts e'.compile

namespace MethodTable

/-- The same methods, with entries that come to much the same. -/
structure Tantamounts (t t' : MethodTable) : Prop where
  entries : Assoc.Agree MethodEntry.Tantamounts t.entries t'.entries
  any : Option.Rel MethodEntry.Tantamounts t.any t'.any

variable {t t' : MethodTable} {handler handler' : Handler} {chain chain' : List Middleware}

theorem Tantamounts.empty : Tantamounts .empty .empty := ⟨.nil, .none⟩

theorem Tantamounts.insert (same : t.Tantamounts t') (name : String)
    (entry : MethodEntry.Tantamounts ⟨handler, chain⟩ ⟨handler', chain'⟩) :
    (t.insert name handler chain).Tantamounts (t'.insert name handler' chain') :=
  ⟨same.entries.insert entry, same.any⟩

theorem Tantamounts.setAny (same : t.Tantamounts t')
    (entry : MethodEntry.Tantamounts ⟨handler, chain⟩ ⟨handler', chain'⟩) :
    (t.setAny handler chain).Tantamounts (t'.setAny handler' chain') :=
  ⟨same.entries, .some entry⟩

/-- `HEAD` is added to both or to none. -/
theorem agree_withHead {handlers handlers' : List (String × Handler)}
    (same : Assoc.Agree Handler.Tantamounts handlers handlers') :
    Assoc.Agree Handler.Tantamounts (withHead handlers) (withHead handlers') := by
  have head := same.get? "HEAD"
  have get := same.get? "GET"
  unfold withHead
  generalize Assoc.get? "HEAD" handlers = own, Assoc.get? "HEAD" handlers' = own' at head ⊢
  generalize Assoc.get? "GET" handlers = found, Assoc.get? "GET" handlers' = found' at get ⊢
  cases head with
  | some _ => exact same
  | none =>
      cases get with
      | none => exact same
      | some get => exact same.insert get.headOfGet

theorem Tantamounts.handlers (same : t.Tantamounts t') :
    Assoc.Agree Handler.Tantamounts t.compile.handlers t'.compile.handlers := by
  have entries : Assoc.Agree Handler.Tantamounts
      (t.entries.map fun entry => (entry.1, entry.2.compile))
      (t'.entries.map fun entry => (entry.1, entry.2.compile)) :=
    List.rel_map (fun _ _ entry => ⟨entry.1, entry.2⟩) same.entries
  exact agree_withHead entries

theorem Tantamounts.compile_any (same : t.Tantamounts t') :
    Option.Rel Handler.Tantamounts t.compile.any t'.compile.any := by
  rcases t with ⟨_, any⟩
  rcases t' with ⟨_, any'⟩
  cases same.any with
  | none => exact .none
  | some entry => exact .some entry

/-- A table lists the methods that the other one lists. -/
theorem Tantamounts.allow (same : t.Tantamounts t') : t'.compile.allow = t.compile.allow := by
  have keys := same.handlers.keys
  have catchAll : t'.any.isSome = t.any.isSome := by
    rcases t with ⟨_, any⟩
    rcases t' with ⟨_, any'⟩
    cases same.any <;> rfl
  simp only [MethodTable.compile] at keys ⊢
  rw [keys, catchAll]

/-- A request is answered by related handlers, or by both tables themselves, with the same list. -/
theorem Tantamounts.toHandler (same : t.Tantamounts t') :
    t.compile.toHandler.Tantamounts t'.compile.toHandler := by
  rintro ⟨req, cx, w⟩
  have own := same.handlers.get? (canonicalMethod req.method)
  have any := same.compile_any
  simp only [Handler.on, MethodHandler.toHandler]
  generalize Assoc.get? (canonicalMethod req.method) t.compile.handlers = found,
    Assoc.get? (canonicalMethod req.method) t'.compile.handlers = found' at own ⊢
  generalize t.compile.any = given, t'.compile.any = given' at any ⊢
  cases own with
  | some handler => exact handler ⟨req, cx, w⟩
  | none =>
      cases any with
      | some handler => exact handler ⟨req, cx, w⟩
      | none =>
          simp only [MethodHandler.unregistered, same.allow]
          exact .same _

end MethodTable

/-! ## Routers -/

/-- A finished node at the same pattern, which comes to much the same. -/
structure CompiledNode.Tantamounts (node node' : CompiledNode) : Prop where
  pattern : node'.pattern = node.pattern
  handler : node.handler.Tantamounts node'.handler

namespace Router

/-- A router that comes to much the same and reveals as much of failures. -/
structure Tantamounts (r r' : Router) : Prop where
  entry : r.entry.Tantamounts r'.entry
  options : r'.options = r.options

variable {r r' : Router} {nodes nodes' : List CompiledNode} {chain : List Middleware}
  {notFound notFound' : Option Handler}

theorem tantamounts_ofNodes (same : List.Forall₂ CompiledNode.Tantamounts nodes nodes')
    (neutral : ∀ m ∈ chain, m.Neutral) (fallback : Option.Rel Handler.Tantamounts notFound notFound')
    (options : RenderOptions) :
    (ofNodes nodes chain notFound options).Tantamounts (ofNodes nodes' chain notFound' options) := by
  have patterns : nodes'.map CompiledNode.pattern = nodes.map CompiledNode.pattern :=
    map_eq_of_rel (fun _ _ node => node.pattern) same
  have handlers : List.Forall₂ Handler.Tantamounts (nodes.map CompiledNode.handler)
      (nodes'.map CompiledNode.handler) :=
    List.rel_map (fun _ _ node => node.handler) same
  refine ⟨?_, rfl⟩
  simp only [ofNodes, patterns]
  exact (tantamounts_dispatcher handlers fallback).wrap neutral

/-- In the end all is equal: a failure is rendered over what a reset leaves. -/
theorem serve_of_tantamounts (same : r.Tantamounts r') (req : Request) :
    r'.serve req = r.serve req := by
  have ended := same.entry ⟨req, .new req.uri.path, .empty⟩
  rcases one : r.entry req (.new req.uri.path) .empty with ⟨verdict, w⟩
  rcases other : r'.entry req (.new req.uri.path) .empty with ⟨verdict', w'⟩
  simp only [Handler.on, one, other] at ended
  rw [r.serve_eq req one, r'.serve_eq req other, same.options]
  cases ended with
  | same => rfl
  | @failure f _ _ _ _ fails fails' _ left =>
      have rendered : render f req w' r.options = render f req w r.options :=
        render_as left f req req.method r.options
      rw [fails, fails']
      simp only [rendered]

end Router
end PathRouter
