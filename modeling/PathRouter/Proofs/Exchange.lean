import PathRouter.Proofs.Thrown

/-!
# Exchange — trees whose handlers throw what others return

Two histories register the same tree, but for handlers that throw failures where the others return them.
This file defines

* `History.Exchanges`, such histories, with middleware that hands on or catches panics on all levels;
* `Builder.Tantamounts`, builders that hold the same nodes, with targets that come to much the same;
* `Accord`, that two registrations are refused alike or both succeed;

and shows `History.Exchanges.run`, that the builders of such histories come to much the same, step by
step, and `History.thrown_as_returned`, that their routers give equal responses.
-/

namespace PathRouter

/-! ## Histories -/

/-- The same call, with a handler that may throw what the other one returns. -/
inductive NodeCall.Exchanges : NodeCall → NodeCall → Prop
  | handle {h h' : Handler} {chain : List Middleware} : h.Exchanges h' →
      (∀ m ∈ chain, m.Neutral) → Exchanges (.handle h chain) (.handle h' chain)
  | method {name : String} {h h' : Handler} {chain : List Middleware} : h.Exchanges h' →
      (∀ m ∈ chain, m.Neutral) → Exchanges (.method name h chain) (.method name h' chain)
  | wrapWith {m : Middleware} : m.Neutral → Exchanges (.wrapWith m) (.wrapWith m)

mutual

/-- The same registration, with handlers that may throw what the others return, on all levels. -/
inductive Registration.Exchanges : Registration → Registration → Prop
  | call {path : Text} {c c' : NodeCall} : c.Exchanges c' →
      Registration.Exchanges (.call path c) (.call path c')
  | route {path : Text} {inner inner' : History} : History.Exchanges inner inner' →
      Registration.Exchanges (.route path inner) (.route path inner')
  | mount {path : Text} {inner inner' : History} : History.Exchanges inner inner' →
      Registration.Exchanges (.mount path inner) (.mount path inner')
  | useMiddleware {m : Middleware} : m.Neutral →
      Registration.Exchanges (.useMiddleware m) (.useMiddleware m)
  | setNotFound {h h' : Handler} : h.Exchanges h' →
      Registration.Exchanges (.setNotFound h) (.setNotFound h')
  | setOptions {options : RenderOptions} :
      Registration.Exchanges (.setOptions options) (.setOptions options)
  | compile : Registration.Exchanges .compile .compile

/-- The same registrations in the same order. -/
inductive History.Exchanges : History → History → Prop
  | nil : History.Exchanges [] []
  | cons {r r' : Registration} {H H' : History} : Registration.Exchanges r r' →
      History.Exchanges H H' → History.Exchanges (r :: H) (r' :: H')

end

/-! ## Builders -/

mutual

/-- A target of the same kind, which comes to much the same. -/
inductive Target.Tantamounts : Target → Target → Prop
  | empty : Target.Tantamounts .empty .empty
  | handler {h h' : Handler} {chain chain' : List Middleware} :
      MethodEntry.Tantamounts ⟨h, chain⟩ ⟨h', chain'⟩ →
        Target.Tantamounts (.handler h chain) (.handler h' chain')
  | methods {t t' : MethodTable} : t.Tantamounts t' → Target.Tantamounts (.methods t) (.methods t')
  | router {b b' : Builder} : Builder.Tantamounts b b' →
      Target.Tantamounts (.router b) (.router b')
  | mounted {r r' : Router} : r.Tantamounts r' → Target.Tantamounts (.mounted r) (.mounted r')

/-- A node at the same pattern and in the same middleware.  No node of a builder is finished. -/
inductive Node.Tantamounts : Node → Node → Prop
  | raw {p : Pattern} {target target' : Target} {chain : List Middleware} :
      Target.Tantamounts target target' → (∀ m ∈ chain, m.Neutral) →
        Node.Tantamounts (.raw p target chain) (.raw p target' chain)

inductive Node.AllTantamount : List Node → List Node → Prop
  | nil : Node.AllTantamount [] []
  | cons {n n' : Node} {nodes nodes' : List Node} : Node.Tantamounts n n' →
      Node.AllTantamount nodes nodes' → Node.AllTantamount (n :: nodes) (n' :: nodes')

/-- The same nodes, in the same middleware.  A builder that is finished stays the router it is. -/
inductive Builder.Tantamounts : Builder → Builder → Prop
  | level {nodes nodes' : List Node} {chain : List Middleware} {notFound notFound' : Option Handler}
      {options : RenderOptions} {compiled compiled' : Option Router} :
      Node.AllTantamount nodes nodes' → (∀ m ∈ chain, m.Neutral) →
        Option.Rel Handler.Tantamounts notFound notFound' →
          Option.Rel Router.Tantamounts compiled compiled' →
            Builder.Tantamounts ⟨nodes, chain, notFound, options, compiled⟩
              ⟨nodes', chain, notFound', options, compiled'⟩

end

/-! ## Finishing

By recursion on the derivation, which follows the targets down to the routers nested below. -/

mutual

theorem Target.Tantamounts.freeze {target target' : Target} :
    target.Tantamounts target' → target.freeze.1.Tantamounts target'.freeze.1
  | .empty => .refl _
  | .handler entry => entry
  | .methods table => table.toHandler
  | .router nested => nested.freeze.entry
  | .mounted router => router.entry

theorem Node.Tantamounts.freeze {n n' : Node} :
    n.Tantamounts n' → n.freeze.Tantamounts n'.freeze
  | .raw target neutral => ⟨rfl, target.freeze.wrap neutral⟩

theorem Node.AllTantamount.freeze {nodes nodes' : List Node} : Node.AllTantamount nodes nodes' →
    List.Forall₂ CompiledNode.Tantamounts (freezeNodes nodes) (freezeNodes nodes')
  | .nil => .nil
  | .cons node rest => .cons node.freeze rest.freeze

/-- Routers that builders come to come to much the same if the builders do. -/
theorem Builder.Tantamounts.freeze {b b' : Builder} :
    b.Tantamounts b' → b.freeze.Tantamounts b'.freeze
  | .level nodes neutral fallback .none =>
      Router.tantamounts_ofNodes nodes.freeze neutral fallback _
  | .level _ _ _ (.some router) => router

end

/-! ## Work on nodes -/

theorem neutral_concat {chain : List Middleware} {m : Middleware} (neutral : ∀ m ∈ chain, m.Neutral)
    (last : m.Neutral) : ∀ other ∈ chain ++ [m], other.Neutral :=
  List.forall_mem_append.2 ⟨neutral, List.forall_mem_singleton.2 last⟩

/-- Both are refused for the same reason, or both succeed, with related results. -/
inductive Accord {α β : Type} (R : α → β → Prop) : Except Refusal α → Except Refusal β → Prop
  | refused (refusal : Refusal) : Accord R (.error refusal) (.error refusal)
  | done {a : α} {b : β} : R a b → Accord R (.ok a) (.ok b)

namespace Accord

variable {α β γ δ : Type} {R : α → β → Prop} {S : γ → δ → Prop} {one : Except Refusal α}
  {other : Except Refusal β}

theorem map {f : α → γ} {g : β → δ} (accord : Accord R one other)
    (related : ∀ a b, R a b → S (f a) (g b)) : Accord S (one.map f) (other.map g) := by
  cases accord with
  | refused refusal => exact .refused refusal
  | done result => exact .done (related _ _ result)

/-- Work on related results goes on as it does on one. -/
theorem bind {f : α → Except Refusal γ} {g : β → Except Refusal δ} (accord : Accord R one other)
    (next : ∀ a b, R a b → Accord S (f a) (g b)) : Accord S (one.bind f) (other.bind g) := by
  cases accord with
  | refused refusal => exact .refused refusal
  | done result => exact next _ _ result

theorem ite {c : Prop} [Decidable c] {one' : Except Refusal α} {other' : Except Refusal β}
    (yes : c → Accord R one other) (no : ¬c → Accord R one' other') :
    Accord R (if c then one else one') (if c then other else other') := by
  by_cases holds : c
  · rw [if_pos holds, if_pos holds]
    exact yes holds
  · rw [if_neg holds, if_neg holds]
    exact no holds

end Accord

/-- The same result beside related values. -/
def Beside {α ν : Type} (R : ν → ν → Prop) (x y : α × ν) : Prop := y.1 = x.1 ∧ R x.2 y.2

namespace Node

variable {n n' : Node} {h h' : Handler} {chain : List Middleware}

theorem Tantamounts.pattern (same : n.Tantamounts n') : n'.pattern = n.pattern := by
  cases same
  rfl

theorem Tantamounts.new (p : Pattern) : (new p).Tantamounts (new p) := .raw .empty nofun

theorem Tantamounts.handle (same : n.Tantamounts n')
    (entry : MethodEntry.Tantamounts ⟨h, chain⟩ ⟨h', chain⟩) :
    Accord Tantamounts (n.handle h chain) (n'.handle h' chain) := by
  rcases same with ⟨target, neutral⟩
  cases target with
  | empty => exact .done (.raw (.handler entry) neutral)
  | handler _ => exact .done (.raw (.handler entry) neutral)
  | methods table => exact .done (.raw (.methods (table.setAny entry)) neutral)
  | router _ => exact .refused _
  | mounted _ => exact .refused _

theorem Tantamounts.method (same : n.Tantamounts n') (name : String)
    (entry : MethodEntry.Tantamounts ⟨h, chain⟩ ⟨h', chain⟩) :
    Accord Tantamounts (n.method name h chain) (n'.method name h' chain) := by
  rcases same with ⟨target, neutral⟩
  cases target with
  | empty => exact .done (.raw (.methods (MethodTable.Tantamounts.empty.insert name entry)) neutral)
  | handler any =>
      have table := (MethodTable.Tantamounts.empty.setAny any).insert name entry
      exact .done (.raw (.methods table) neutral)
  | methods table => exact .done (.raw (.methods (table.insert name entry)) neutral)
  | router _ => exact .refused _
  | mounted _ => exact .refused _

theorem Tantamounts.wrapWith {m : Middleware} (same : n.Tantamounts n') (hands : m.Neutral) :
    Accord Tantamounts (n.wrapWith m) (n'.wrapWith m) := by
  rcases same with ⟨target, neutral⟩
  exact .done (.raw target (neutral_concat neutral hands))

theorem Tantamounts.call {c c' : NodeCall} (same : n.Tantamounts n') (exchanges : c.Exchanges c') :
    Accord Tantamounts (c.run n) (c'.run n') := by
  cases exchanges with
  | handle handlers neutral => exact same.handle (handlers.tantamounts.wrap neutral)
  | method handlers neutral => exact same.method _ (handlers.tantamounts.wrap neutral)
  | wrapWith neutral => exact same.wrapWith neutral

/-- What is built below a mount comes to much the same if what is done there does. -/
theorem Tantamounts.route {f f' : Builder → Except Refusal Builder} (same : n.Tantamounts n')
    (below : ∀ b b', b.Tantamounts b' → Accord Builder.Tantamounts (f b) (f' b')) :
    Accord (Beside Tantamounts) (n.route (Builder.nesting f)) (n'.route (Builder.nesting f')) := by
  have work {b b' : Builder} (p : Pattern) (chain : List Middleware) (nested : b.Tantamounts b')
      (neutral : ∀ m ∈ chain, m.Neutral) : Beside Tantamounts
        ((Builder.nesting f b).1, Node.raw p (.router (Builder.nesting f b).2) chain)
        ((Builder.nesting f' b').1, Node.raw p (.router (Builder.nesting f' b').2) chain) := by
    have worked := below b b' nested
    unfold Builder.nesting
    generalize f b = result, f' b' = result' at worked ⊢
    cases worked with
    -- work that is refused leaves the nested builder as it was
    | refused refusal => exact ⟨rfl, .raw (.router nested) neutral⟩
    | done grown => exact ⟨rfl, .raw (.router grown) neutral⟩
  rcases same with @⟨p, _, _, chain, target, neutral⟩
  -- the pattern is the same, so that both are mounts or neither is
  refine Accord.ite (c := p.isMount = true) (fun _ => ?_) fun _ => .refused _
  cases target with
  | empty => exact .done (work p chain (.level .nil nofun .none .none) neutral)
  | router nested => exact .done (work p chain nested neutral)
  | handler _ => exact .refused _
  | methods _ => exact .refused _
  | mounted _ => exact .refused _

theorem Tantamounts.mount {r r' : Router} (same : n.Tantamounts n') (routers : r.Tantamounts r') :
    Accord Tantamounts (n.mount r) (n'.mount r') := by
  rcases same with @⟨p, _, _, chain, target, neutral⟩
  refine Accord.ite (c := p.isMount = true) (fun _ => ?_) fun _ => .refused _
  cases target with
  | empty => exact .done (.raw (.mounted routers) neutral)
  | router _ => exact .refused _
  | handler _ => exact .refused _
  | methods _ => exact .refused _
  | mounted _ => exact .refused _

end Node

/-! ## Registrations -/

namespace Builder

variable {b b' : Builder}

theorem Tantamounts.empty : Tantamounts empty empty := .level .nil nofun .none .none

theorem Tantamounts.requireOpen (same : b.Tantamounts b') (operation : String) :
    b'.requireOpen operation = b.requireOpen operation := by
  rcases same with ⟨-, -, -, compiled⟩
  cases compiled <;> rfl

theorem accord_editNodes {α : Type} {f f' : Node → Except Refusal (α × Node)} {nodes nodes' : List Node}
    (p : Pattern) (same : Node.AllTantamount nodes nodes')
    (work : ∀ n n', n.Tantamounts n' → Accord (Beside Node.Tantamounts) (f n) (f' n')) :
    Accord (Beside Node.AllTantamount) (editNodes p f nodes) (editNodes p f' nodes') := by
  induction nodes generalizing nodes' with
  | nil =>
      cases same
      exact (work _ _ (.new p)).map fun _ _ done => ⟨done.1, .cons done.2 .nil⟩
  | cons node nodes ih =>
      rcases same with - | ⟨head, tail⟩
      simp only [editNodes, head.pattern]
      -- the edited node is the first one with the pattern's form, in the same place of both lists
      refine .ite (fun _ => ?_) fun _ => ?_
      · exact (work _ _ head).map fun _ _ done => ⟨done.1, .cons done.2 tail⟩
      · exact (ih tail).map fun _ _ done => ⟨done.1, .cons head done.2⟩

/-- Both builders are open, and know the path, or neither. -/
theorem Tantamounts.edit {α : Type} {f f' : Node → Except Refusal (α × Node)} (same : b.Tantamounts b')
    (path : Text) (operation : String)
    (work : ∀ n n', n.Tantamounts n' → Accord (Beside Node.Tantamounts) (f n) (f' n')) :
    Accord (Beside Tantamounts) (b.edit path operation f) (b'.edit path operation f') := by
  have isOpen := same.requireOpen operation
  simp only [Builder.edit, isOpen]
  cases b.requireOpen operation with
  | error refusal => exact .refused refusal
  | ok _ =>
      cases Pattern.compile path with
      | error e => exact .refused _
      | ok p =>
          rcases same with ⟨nodes, neutral, fallback, compiled⟩
          exact (accord_editNodes p nodes work).map fun _ _ done =>
            ⟨done.1, .level done.2 neutral fallback compiled⟩

theorem Tantamounts.change {f f' : Node → Except Refusal Node} (same : b.Tantamounts b')
    (path : Text) (operation : String)
    (work : ∀ n n', n.Tantamounts n' → Accord Node.Tantamounts (f n) (f' n')) :
    Accord Tantamounts (b.change path operation f) (b'.change path operation f') := by
  have edited : Accord (Beside Tantamounts)
      (b.edit path operation fun node => (f node).map ((), ·))
      (b'.edit path operation fun node => (f' node).map ((), ·)) :=
    same.edit path operation fun _ _ node => (work _ _ node).map fun _ _ done => ⟨rfl, done⟩
  exact edited.map fun _ _ done => done.2

/-- What is nested is kept if the work below succeeds. -/
theorem nest_eq (b : Builder) (path : Text) (f : Builder → Except Refusal Builder) :
    b.nest path f = (b.route path (nesting f)).bind fun done => done.1.map fun _ => done.2 := by
  rw [Builder.nest]
  split
  · next refusal routed =>
      have same : b.route path (nesting f) = .error refusal := routed
      rw [same]
      rfl
  · next refusal kept routed =>
      have same : b.route path (nesting f) = .ok (.error refusal, kept) := routed
      rw [same]
      rfl
  · next kept routed =>
      have same : b.route path (nesting f) = .ok (.ok (), kept) := routed
      rw [same]
      rfl

theorem Tantamounts.nest {f f' : Builder → Except Refusal Builder} (same : b.Tantamounts b')
    (path : Text) (below : ∀ b b', b.Tantamounts b' → Accord Tantamounts (f b) (f' b')) :
    Accord Tantamounts (b.nest path f) (b'.nest path f') := by
  have routed : Accord (Beside Tantamounts) (b.route path (nesting f)) (b'.route path (nesting f')) :=
    same.edit _ _ fun _ _ node => node.route below
  rw [nest_eq, nest_eq]
  refine routed.bind fun one other result => ?_
  rcases one with ⟨_, grown⟩
  rcases other with ⟨inside, grown'⟩
  rcases result with ⟨rfl, kept⟩
  cases inside with
  | error refusal => exact .refused refusal
  | ok _ => exact .done kept

end Builder

theorem run_mount (path : Text) (inner : History) (b : Builder) :
    (Registration.mount path inner).run b =
      inner.run.bind fun built => b.mount path built.freeze := by
  rw [Registration.run, History.run]
  cases Registration.runAll inner .empty <;> rfl

theorem runAll_cons (r : Registration) (H : History) (b : Builder) :
    Registration.runAll (r :: H) b = (r.run b).bind (Registration.runAll H) := by
  rw [Registration.runAll]
  cases r.run b <;> rfl

mutual

/-- A registration is refused on both builders, or they come to much the same after it. -/
theorem Registration.Exchanges.run {r r' : Registration} {b b' : Builder} :
    r.Exchanges r' → b.Tantamounts b' → Accord Builder.Tantamounts (r.run b) (r'.run b')
  | .call (.handle handlers neutral), same =>
      same.change _ _ fun _ _ node => node.call (.handle handlers neutral)
  | .call (.method handlers neutral), same =>
      same.change _ _ fun _ _ node => node.call (.method handlers neutral)
  | .call (.wrapWith neutral), same =>
      same.change _ _ fun _ _ node => node.call (.wrapWith neutral)
  | .route inner, same => same.nest _ fun _ _ nested => inner.runAll nested
  | .mount inner, same => by
      rw [run_mount, run_mount]
      exact Accord.bind (inner.runAll .empty) fun _ _ built =>
        same.change _ _ fun _ _ node => node.mount built.freeze
  | .useMiddleware neutral, .level nodes around fallback .none =>
      .done (.level nodes (neutral_concat around neutral) fallback .none)
  | .useMiddleware _, .level _ _ _ (.some _) => .refused _
  | .setNotFound exchanges, .level nodes around _ .none =>
      .done (.level nodes around (.some exchanges.tantamounts) .none)
  | .setNotFound _, .level _ _ _ (.some _) => .refused _
  | .setOptions, .level nodes around fallback .none => .done (.level nodes around fallback .none)
  | .setOptions, .level _ _ _ (.some _) => .refused _
  | .compile, .level nodes around fallback compiled =>
      let same := Builder.Tantamounts.level nodes around fallback compiled
      .done (.level nodes around fallback (.some same.freeze))

theorem History.Exchanges.runAll {H H' : History} {b b' : Builder} :
    History.Exchanges H H' → b.Tantamounts b' →
      Accord Builder.Tantamounts (Registration.runAll H b) (Registration.runAll H' b')
  | .nil, same => .done same
  | .cons first rest, same => by
      rw [runAll_cons, runAll_cons]
      exact Accord.bind (first.run same) fun _ _ next => rest.runAll next

end

/-- A failure may be thrown where it could be returned.  Take a tree whose middleware does nothing once
what it has called returns, but may catch panics, and let any of its handlers, on any level, throw
failures that they returned, other than that of a router without a route, after having written what
they wrote.  The tree is built as before, and its router gives the same response to every request. -/
theorem History.thrown_as_returned {H H' : History} {b : Builder} (exchanges : H.Exchanges H')
    (built : H.run = .ok b) :
    ∃ b', H'.run = .ok b' ∧ ∀ req, b'.freeze.serve req = b.freeze.serve req := by
  have ran : Accord Builder.Tantamounts H.run H'.run := exchanges.runAll .empty
  rw [built] at ran
  cases other : H'.run with
  | error refusal =>
      -- what the one history comes to is not refused to the other
      rw [other] at ran
      cases ran
  | ok b' =>
      rw [other] at ran
      cases ran with
      | done same => exact ⟨b', rfl, Router.serve_of_tantamounts same.freeze⟩

/-- A handler for `GET` below a recoverer answers `HEAD` alike, whether it returns or throws its failure
after having written half of a page. -/
theorem History.thrown_as_returned_head :
    let failure : Failure := .http ((HttpFailure.new .notFound).withDetail "no page")
    let page (verdict : Verdict) : Handler := fun _ _ w => (verdict, w.write "half")
    let inner (verdict : Verdict) : History :=
      [.useMiddleware recoverer, .call "/b".toList (.method "GET" (page verdict) [])]
    let tree (verdict : Verdict) : History := [.route "/a".toList (inner verdict)]
    let req : Request := ⟨"HEAD", ⟨"/a/b".toList, none⟩, .empty, ""⟩
    ∃ b b', (tree (.failed failure)).run = .ok b ∧
      (tree (.panicked (Payload.failure failure))).run = .ok b' ∧
        (b.freeze.serve req).status = .notFound ∧ b'.freeze.serve req = b.freeze.serve req := by
  intro failure page inner tree req
  have swap : (page (.failed failure)).Exchanges (page (.panicked (Payload.failure failure))) :=
    fun a => .thrown rfl rfl
  have below : (inner (.failed failure)).Exchanges (inner (.panicked (Payload.failure failure))) :=
    .cons (.useMiddleware (.inl rfl)) (.cons (.call (.method swap nofun)) .nil)
  have exchanges : (tree (.failed failure)).Exchanges (tree (.panicked (Payload.failure failure))) :=
    .cons (.route below) .nil
  rcases made : (tree (.failed failure)).run with refusal | b
  · cases made
  · rcases thrown_as_returned exchanges made with ⟨b', made', alike⟩
    refine ⟨b, b', rfl, made', ?_, alike req⟩
    cases made
    decide +kernel

end PathRouter
