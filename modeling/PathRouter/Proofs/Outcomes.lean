import PathRouter.Proofs.Consistency
import PathRouter.Proofs.Convergence

/-!
# Outcomes — what routing keeps of all that can come of a handler

Many properties of a router say the same of every handler in it: something holds of what comes of the
handler, given the request, the context and the response it was called with.  This file defines

* `Assertion`, such a property of outcomes, and `Handler.Ensures`;
* `Assertion.Kept`, what has to be shown for an assertion so that routing keeps it;

and shows `Router.Built.ensures`, that a router whose parts ensure a kept assertion does so as a whole.
-/

namespace PathRouter

/-- Nothing is sent elsewhere from the root. -/
theorem Router.path_of_redirect {rules : Rules} {nodes : List CompiledNode}
    (made : ∀ node ∈ nodes, node.Made rules) {path : Text} {m : RouteMatch}
    (redirected : (resolverOf (nodes.map CompiledNode.pattern)).resolve path = .redirect m) :
    path ≠ [] ∧ path ≠ ['/'] :=
  Resolver.path_of_redirect (compiled_of_made made) redirected

theorem Router.Built.path_of_redirect {rules : Rules} {r : Router} (built : r.Built rules)
    {path : Text} {m : RouteMatch} (redirected : r.resolve path = .redirect m) :
    path ≠ [] ∧ path ≠ ['/'] := by
  cases built with
  | ofNodes made _ _ _ => exact Router.path_of_redirect made redirected

/-- What may be said of an outcome, given what a handler was called with. -/
abbrev Assertion := Request → Context → Writer → Verdict × Writer → Prop

/-- Whatever comes of the handler is as asserted. -/
def Handler.Ensures (P : Assertion) (h : Handler) : Prop := ∀ req cx w, P req cx w (h req cx w)

/-- An assertion that routing keeps: it holds of the answers that a router makes itself, and what holds
of a handler holds of what the router makes of its outcome. -/
structure Assertion.Kept (P : Assertion) : Prop where
  bare : ∀ req cx w, P req cx w (.failed (.http .notFound), w)
  miss : ∀ req cx w, P req cx w (.failed .routeMiss, w)
  /-- A mount is addressed without its final slash; the path is more than the slash. -/
  redirect : ∀ req (cx : Context) w, cx.path ≠ [] → cx.path ≠ ['/'] →
    P req cx w (.failed (.redirect (.permanent (redirectLocation req cx))), w)
  unregistered : ∀ (methods : MethodHandler) method req cx w,
    P req cx w (methods.unregistered method w)
  /-- The handler of `GET` stands in for `HEAD`. -/
  strip : ∀ req cx w verdict after, P req cx w (verdict, after) → P req cx w (verdict, after.stripBody)
  below : ∀ req (cx : Context) w out (m : RouteMatch), m.Divides cx.path → P req (cx.after m) w out →
    P req cx w out
  /-- A miss is handed to a fallback. -/
  fallback : ∀ req cx w f after out, P req cx w (.failed f, after) → P req cx after.reset out →
    P req cx w out

namespace Assertion.Kept

variable {P : Assertion} {rules : Rules} {h : Handler}

theorem headOfGet (kept : P.Kept) (ensures : h.Ensures P) : (MethodTable.headOfGet h).Ensures P := by
  intro req cx w
  have below := ensures req cx w
  rw [MethodTable.headOfGet]
  rcases ran : h req cx w with ⟨verdict, after⟩
  rw [ran] at below
  cases verdict with
  | panicked p => exact below
  | served => exact kept.strip req cx w _ after below
  | failed f => exact kept.strip req cx w _ after below

theorem toHandler (kept : P.Kept) {t : MethodTable}
    (follows : t.Follows (.keeping (Handler.Ensures P))) : t.compile.toHandler.Ensures P := by
  intro req cx w
  rw [MethodTable.toHandler_compile follows.sorted]
  cases picked : t.pick (canonicalMethod req.method) with
  | none => exact kept.unregistered _ _ req cx w
  | some handler =>
      rcases follows.pick_cases picked with ⟨e, holds, rfl⟩ | ⟨-, e, holds, rfl⟩ | ⟨e, holds, rfl⟩
      · exact holds req cx w
      · exact kept.headOfGet holds req cx w
      · exact holds req cx w

variable {nodes : List CompiledNode}

theorem routeToNode (kept : P.Kept) (made : ∀ node ∈ nodes, node.Made rules)
    (below : ∀ node ∈ nodes, node.handler.Ensures P) :
    Handler.Ensures P (PathRouter.routeToNode (Router.resolverOf (nodes.map CompiledNode.pattern))
      (nodes.map CompiledNode.handler)) := by
  intro req cx w
  rcases routeToNode_cases made cx with ⟨-, miss⟩ | ⟨m, redirected, -, redirect⟩ |
    ⟨m, node, -, divides, -, here, call⟩
  · rw [miss]
    exact kept.miss req cx w
  · rw [redirect]
    rcases Router.path_of_redirect made redirected with ⟨filled, proper⟩
    exact kept.redirect req cx w filled proper
  · rw [call]
    exact kept.below req cx w _ m divides (below node (List.mem_of_getElem? here) req (cx.after m) w)

theorem dispatcher (kept : P.Kept) (made : ∀ node ∈ nodes, node.Made rules)
    (below : ∀ node ∈ nodes, node.handler.Ensures P) {notFound : Option Handler}
    (fallback : ∀ h ∈ notFound, h.Ensures P) :
    Handler.Ensures P (PathRouter.dispatcher (Router.resolverOf (nodes.map CompiledNode.pattern))
      (nodes.map CompiledNode.handler) notFound) := by
  intro req cx w
  have routed := kept.routeToNode made below req cx w
  rcases ran : PathRouter.routeToNode (Router.resolverOf (nodes.map CompiledNode.pattern))
    (nodes.map CompiledNode.handler) req cx w with ⟨verdict, after⟩
  rw [ran] at routed
  -- only a miss goes to the fallback, and with the response that it has left
  by_cases miss : ∃ f, verdict = .failed f ∧ f.isRouteMiss = true
  · rcases miss with ⟨f, rfl, miss⟩
    cases notFound with
    | none =>
        rw [dispatcher_none, ran]
        exact routed
    | some handler =>
        rw [dispatcher_of_miss ran miss]
        exact kept.fallback req cx w f after _ routed (fallback handler rfl req cx after.reset)
  · rw [dispatcher_of_not_miss ran fun f failed => Bool.eq_false_iff.2 fun isMiss =>
      miss ⟨f, failed, isMiss⟩]
    exact routed

end Assertion.Kept

/-- A router whose parts ensure an assertion that routing keeps ensures it as a whole. -/
theorem Router.Built.ensures {P : Assertion} {r : Router}
    (built : r.Built (.keeping (Handler.Ensures P))) (kept : P.Kept) : r.entry.Ensures P :=
  built.entry (fun _ handler keeps => keeps handler) (fun req cx w => kept.bare req cx w)
    (fun _ holds => holds) (fun _ follows => kept.toHandler follows)
    fun _ _ made below fallback => kept.dispatcher made below fallback

end PathRouter
