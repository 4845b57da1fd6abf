import PathRouter.Proofs.Division
import PathRouter.Proofs.Methods
import PathRouter.Router.Builder

/-!
# Registration — the routers that registrations lead to

A router is the end of a sequence of registrations on an empty builder, some of which attach builders
and routers that have come about in the same way.  This file defines

* `Rules`, what is asked of the handlers and the middleware that are registered;
* `Builder.Registered`, the builders that registrations under such rules lead to;
* `NodeKind.Serves`, `CompiledNode.Made` and `Router.Built`, what a finished router then is;

and shows `Builder.Registered.built`, and with `Router.Built.entry` how a property of all handlers is
carried from the leaves of a router to its entry.
-/

namespace PathRouter

/-- What is asked of the parts of a router. -/
structure Rules where
  /-- Of an entry with its chain: for a method in upper case, or for all that have no entry. -/
  entry : Option String → MethodEntry → Prop
  around : Middleware → Prop
  /-- Of a handler for requests that no route takes. -/
  fallback : Handler → Prop

variable {rules : Rules}

/-- The rules under which all parts keep a property of handlers. -/
def Rules.keeping (Q : Handler → Prop) : Rules where
  entry _ e := Q e.compile
  around middleware := ∀ handler, Q handler → Q (middleware handler)
  fallback := Q

/-! ## Builders -/

/-- The builders that registrations lead to.  What the closure of a nested router does comes down to
the builder it leaves behind. -/
inductive Builder.Registered (rules : Rules) : Builder → Prop
  | empty : Registered rules .empty
  | handle {b next : Builder} {path : Text} {chain : List Middleware} {handler : Handler} :
      Registered rules b → rules.entry none ⟨handler, chain⟩ →
        b.handle path chain handler = .ok next → Registered rules next
  | method {b next : Builder} {name : String} {path : Text} {chain : List Middleware}
      {handler : Handler} :
      Registered rules b → rules.entry (some (canonicalMethod name)) ⟨handler, chain⟩ →
        b.method name path chain handler = .ok next → Registered rules next
  | useMiddleware {b next : Builder} {middleware : Middleware} :
      Registered rules b → rules.around middleware →
        b.useMiddleware middleware = .ok next → Registered rules next
  | wrapPath {b next : Builder} {path : Text} {middleware : Middleware} :
      Registered rules b → rules.around middleware →
        b.wrapPath path middleware = .ok next → Registered rules next
  | route {b next nested : Builder} {path : Text} :
      Registered rules b → Registered rules nested →
        b.route path (fun _ => ((), nested)) = .ok ((), next) → Registered rules next
  | mount {b next inner : Builder} {path : Text} :
      Registered rules b → Registered rules inner →
        b.mount path inner.freeze = .ok next → Registered rules next
  | setNotFound {b next : Builder} {handler : Handler} :
      Registered rules b → rules.fallback handler →
        b.setNotFound handler = .ok next → Registered rules next
  | setOptions {b next : Builder} {options : RenderOptions} :
      Registered rules b → b.setOptions options = .ok next → Registered rules next
  | compile {b : Builder} : Registered rules b → Registered rules b.compile.2

/-! ## Finished routers -/

/-- The entries of a table are in order, and all of them follow the rules. -/
structure MethodTable.Follows (rules : Rules) (t : MethodTable) : Prop where
  sorted : t.Sorted
  entry : ∀ {method e}, Assoc.get? method t.entries = some e → rules.entry (some method) e
  any : ∀ {e}, t.any = some e → rules.entry none e

/-- What a node of some kind serves inside of its middleware; only mounts hold routers. -/
inductive NodeKind.Serves (rules : Rules) (mount : Bool) : NodeKind → Handler → Prop
  | empty : Serves rules mount .empty (Handler.status .notFound)
  | handler {e : MethodEntry} : rules.entry none e → Serves rules mount .handler e.compile
  | methods {table : MethodTable} :
      table.Follows rules → Serves rules mount (.methods table.compile.allow) table.compile.toHandler
  | router {inner : Router} : mount = true → Serves rules mount (.router inner) inner.entry

/-- A finished node of a compiled path, with middleware around what it serves. -/
structure CompiledNode.Made (rules : Rules) (node : CompiledNode) : Prop where
  compiled : ∃ raw, Pattern.compile raw = .ok node.pattern
  served : ∃ wraps served, (∀ m ∈ wraps, rules.around m) ∧
    node.kind.Serves rules node.pattern.isMount served ∧ node.handler = wrap wraps served

/-- A router of finished nodes, in which the routers below are built likewise. -/
inductive Router.Built (rules : Rules) : Router → Prop
  | ofNodes {nodes : List CompiledNode} {chain : List Middleware} {notFound : Option Handler}
      {options : RenderOptions} :
      (∀ node ∈ nodes, node.Made rules) →
      (∀ node ∈ nodes, ∀ inner, node.kind = .router inner → Router.Built rules inner) →
      (∀ m ∈ chain, rules.around m) → (∀ h ∈ notFound, rules.fallback h) →
        Router.Built rules (.ofNodes nodes chain notFound options)

/-! ## What registrations keep -/

/-- What a node may hold under the rules. -/
inductive Target.Fits (rules : Rules) (mount : Bool) : Target → Prop
  | empty : Fits rules mount .empty
  | handler {handler : Handler} {chain : List Middleware} :
      rules.entry none ⟨handler, chain⟩ → Fits rules mount (.handler handler chain)
  | methods {table : MethodTable} : table.Follows rules → Fits rules mount (.methods table)
  | router {nested : Builder} :
      mount = true → nested.Registered rules → nested.freeze.Built rules →
        Fits rules mount (.router nested)
  | mounted {router : Router} :
      mount = true → router.Built rules → Fits rules mount (.mounted router)

/-- A node under construction that keeps to the rules. -/
inductive Node.Fits (rules : Rules) : Node → Prop
  | raw {pattern : Pattern} {target : Target} {chain : List Middleware} :
      (∃ raw, Pattern.compile raw = .ok pattern) → target.Fits rules pattern.isMount →
        (∀ m ∈ chain, rules.around m) → Fits rules (.raw pattern target chain)

/-- A builder that keeps to the rules; once finished, it stays what it was. -/
structure Builder.Ready (rules : Rules) (b : Builder) : Prop where
  nodes : ∀ node ∈ b.nodes, node.Fits rules
  chain : ∀ m ∈ b.chain, rules.around m
  notFound : ∀ h ∈ b.notFound, rules.fallback h
  frozen : ∀ router, b.compiled = some router →
    router = .ofNodes (freezeNodes b.nodes) b.chain b.notFound b.options

namespace MethodTable

variable {t : MethodTable} {name : String} {handler : Handler} {chain : List Middleware}

theorem follows_empty : empty.Follows rules where
  sorted := sorted_empty
  entry := nofun
  any := nofun

theorem Follows.setAny (follows : t.Follows rules) (allowed : rules.entry none ⟨handler, chain⟩) :
    (t.setAny handler chain).Follows rules where
  sorted := follows.sorted
  entry := follows.entry
  any := by
    intro e found
    cases found
    exact allowed

theorem Follows.insert (follows : t.Follows rules)
    (allowed : rules.entry (some (canonicalMethod name)) ⟨handler, chain⟩) :
    (t.insert name handler chain).Follows rules where
  sorted := sorted_insert follows.sorted
  entry := by
    intro method e found
    rw [get?_insert follows.sorted] at found
    by_cases same : method = canonicalMethod name
    · have made : (⟨handler, chain⟩ : MethodEntry) = e := by simpa [same] using found
      simpa [same, made] using allowed
    · have other : Assoc.get? method t.entries = some e := by simpa [same] using found
      exact follows.entry other
  any := follows.any

/-- The handler picked for a method is that of an entry for it, or, for `HEAD`, of one for `GET`, or of
the one for all methods. -/
theorem Follows.pick_cases (follows : t.Follows rules) {method : String} :
    t.pick method = some handler →
      (∃ e, rules.entry (some method) e ∧ e.compile = handler) ∨
      (method = "HEAD" ∧ ∃ e, rules.entry (some "GET") e ∧ headOfGet e.compile = handler) ∨
      ∃ e, rules.entry none e ∧ e.compile = handler := by
  intro picked
  cases own : Assoc.get? method t.entries with
  | some e => exact .inl ⟨e, follows.entry own, by simpa [pick, own] using picked⟩
  | none =>
      cases head : (if method = "HEAD" then Assoc.get? "GET" t.entries else none) with
      | some e =>
          have found : method = "HEAD" ∧ Assoc.get? "GET" t.entries = some e := by simpa using head
          have made : headOfGet e.compile = handler := by simpa [pick, own, head] using picked
          exact .inr (.inl ⟨found.1, e, follows.entry found.2, made⟩)
      | none =>
          have all : t.any.map MethodEntry.compile = some handler := by
            simpa [pick, own, head] using picked
          rcases Option.map_eq_some_iff.1 all with ⟨e, given, made⟩
          exact .inr (.inr ⟨e, follows.any given, made⟩)

end MethodTable

namespace Node

variable {n next : Node} {handler : Handler} {chain : List Middleware}

/-- A router is nested in a node that serves nothing, or grows in one that holds it. -/
theorem route_eq_ok {α : Type} {f : Builder → α × Builder} {a : α} :
    n.route f = .ok (a, next) →
      ∃ p target chain b grown, n = .raw p target chain ∧ p.isMount = true ∧
        (target = .empty ∧ b = .empty ∨ target = .router b) ∧ f b = (a, grown) ∧
          next = .raw p (.router grown) chain := by
  intro done
  cases n with
  | compiled node => cases mount : node.pattern.isMount <;> simp [route, pattern, mount] at done
  | raw p target chain =>
      cases mount : p.isMount with
      | false => simp [route, pattern, mount] at done
      | true =>
          simp only [route, pattern, mount, if_true] at done
          cases target with
          | empty =>
              cases done
              exact ⟨p, _, chain, .empty, _, rfl, mount, .inl ⟨rfl, rfl⟩, rfl, rfl⟩
          | router b =>
              cases done
              exact ⟨p, _, chain, b, _, rfl, mount, .inr rfl, rfl, rfl⟩
          | handler _ _ => cases done
          | methods _ => cases done
          | mounted _ => cases done

theorem mount_eq_ok {router : Router} :
    n.mount router = .ok next →
      ∃ p chain, n = .raw p .empty chain ∧ p.isMount = true ∧
        next = .raw p (.mounted router) chain := by
  intro done
  cases n with
  | compiled node => cases mount : node.pattern.isMount <;> simp [Node.mount, pattern, mount] at done
  | raw p target chain =>
      cases mount : p.isMount with
      | false => simp [Node.mount, pattern, mount] at done
      | true =>
          simp only [Node.mount, pattern, mount, if_true] at done
          cases target with
          | empty =>
              cases done
              exact ⟨p, chain, rfl, mount, rfl⟩
          | router _ => cases done
          | handler _ _ => cases done
          | methods _ => cases done
          | mounted _ => cases done

theorem fits_new {raw : Text} {pattern : Pattern} (compiled : Pattern.compile raw = .ok pattern) :
    (new pattern).Fits rules :=
  .raw ⟨raw, compiled⟩ .empty (by simp)

theorem Fits.handle (fits : n.Fits rules) (allowed : rules.entry none ⟨handler, chain⟩) :
    n.handle handler chain = .ok next → next.Fits rules := by
  intro done
  rcases fits with ⟨compiled, target, around⟩
  cases target with
  | empty =>
      cases done
      exact .raw compiled (.handler allowed) around
  | handler _ =>
      cases done
      exact .raw compiled (.handler allowed) around
  | methods follows =>
      cases done
      exact .raw compiled (.methods (follows.setAny allowed)) around
  | router => cases done
  | mounted => cases done

theorem Fits.method {name : String} (fits : n.Fits rules)
    (allowed : rules.entry (some (canonicalMethod name)) ⟨handler, chain⟩) :
    n.method name handler chain = .ok next → next.Fits rules := by
  intro done
  rcases fits with ⟨compiled, target, around⟩
  cases target with
  | empty =>
      cases done
      exact .raw compiled (.methods (MethodTable.follows_empty.insert allowed)) around
  | handler any =>
      cases done
      exact .raw compiled (.methods ((MethodTable.follows_empty.setAny any).insert allowed)) around
  | methods follows =>
      cases done
      exact .raw compiled (.methods (follows.insert allowed)) around
  | router => cases done
  | mounted => cases done

theorem Fits.wrapWith {middleware : Middleware} (fits : n.Fits rules)
    (allowed : rules.around middleware) : n.wrapWith middleware = .ok next → next.Fits rules := by
  intro done
  rcases fits with ⟨compiled, target, around⟩
  cases done
  refine .raw compiled target fun m mem => ?_
  rcases List.mem_append.1 mem with old | last
  · exact around m old
  · rwa [List.mem_singleton.1 last]

/-- The router that a nested one grows from keeps to the rules. -/
theorem Fits.start {pattern : Pattern} {target : Target} {outer : List Middleware} {b : Builder}
    (fits : (Node.raw pattern target outer).Fits rules) :
    target = .empty ∧ b = .empty ∨ target = .router b → b.Registered rules := by
  rintro (⟨-, rfl⟩ | rfl)
  · exact .empty
  · rcases fits with ⟨-, target, -⟩
    cases target with
    | router _ registered _ => exact registered

/-- A nested router is worked on where there is one, or else from scratch. -/
theorem Fits.route {α : Type} {f : Builder → α × Builder} {a : α} (fits : n.Fits rules)
    (work : ∀ nested, nested.Registered rules →
      (f nested).2.Registered rules ∧ (f nested).2.freeze.Built rules) :
    n.route f = .ok (a, next) → next.Fits rules := by
  intro done
  rcases route_eq_ok done with ⟨p, target, outer, b, grown, rfl, mount, start, worked, rfl⟩
  have after := work b (fits.start start)
  rw [worked] at after
  rcases fits with ⟨compiled, -, around⟩
  exact .raw compiled (.router mount after.1 after.2) around

/-- The closure is called on the nested router that is there, or on an empty one. -/
theorem Fits.of_route {α : Type} {f : Builder → α × Builder} {a : α} (fits : n.Fits rules) :
    n.route f = .ok (a, next) →
      ∃ nested, nested.Registered rules ∧
        n.route (fun _ => ((), (f nested).2)) = .ok ((), next) := by
  intro done
  rcases route_eq_ok done with ⟨p, target, outer, b, grown, rfl, mount, start, worked, rfl⟩
  refine ⟨b, fits.start start, ?_⟩
  rcases start with ⟨rfl, -⟩ | rfl <;> simp [Node.route, Node.pattern, mount, worked]

theorem Fits.mount {router : Router} (fits : n.Fits rules) (built : router.Built rules) :
    n.mount router = .ok next → next.Fits rules := by
  intro done
  rcases mount_eq_ok done with ⟨p, outer, rfl, mount, rfl⟩
  rcases fits with ⟨compiled, -, around⟩
  exact .raw compiled (.mounted mount built) around

/-- A node that keeps to the rules is finished to one that does. -/
theorem Fits.made (fits : n.Fits rules) :
    n.freeze.Made rules ∧ ∀ inner, n.freeze.kind = .router inner → inner.Built rules := by
  rcases fits with ⟨compiled, target, around⟩
  cases target with
  | empty => exact ⟨⟨compiled, _, _, around, .empty, rfl⟩, nofun⟩
  | handler allowed => exact ⟨⟨compiled, _, _, around, .handler allowed, rfl⟩, nofun⟩
  | methods follows => exact ⟨⟨compiled, _, _, around, .methods follows, rfl⟩, nofun⟩
  | router mount _ built =>
      refine ⟨⟨compiled, _, _, around, .router mount, rfl⟩, fun inner kind => ?_⟩
      cases kind
      exact built
  | mounted mount built =>
      refine ⟨⟨compiled, _, _, around, .router mount, rfl⟩, fun inner kind => ?_⟩
      cases kind
      exact built

end Node

namespace Builder

variable {b next : Builder} {path : Text} {operation : String}

/-! ## Registrations one by one -/

theorem map_eq_ok {α β : Type} {f : α → β} {e : Except Refusal α} {b : β} :
    e.map f = .ok b ↔ ∃ a, e = .ok a ∧ f a = b := by
  cases e with
  | error refusal => simp [Except.map]
  | ok a => simp [Except.map]

/-- An edit works on one node, which stands there or is new.  Work that comes to the same on this node
is the same edit. -/
theorem editNodes_spec {α : Type} {pattern : Pattern} {f : Node → Except Refusal (α × Node)} {a : α}
    {nodes after : List Node} :
    editNodes pattern f nodes = .ok (a, after) →
      ∃ before node, (before ∈ nodes ∨ before = .new pattern) ∧ f before = .ok (a, node) ∧
        (∀ other ∈ after, other ∈ nodes ∨ other = node) ∧
          ∀ {β : Type} (g : Node → Except Refusal (β × Node)) (b : β), g before = .ok (b, node) →
            editNodes pattern g nodes = .ok (b, after) := by
  intro edited
  induction nodes generalizing after with
  | nil =>
      -- no node stands for the path, so a new one is put at the end
      rcases map_eq_ok.1 edited with ⟨⟨_, node⟩, work, made⟩
      cases made
      refine ⟨.new pattern, node, .inr rfl, work, by simp, fun g b same => ?_⟩
      simp [editNodes, same, Except.map]
  | cons head nodes ih =>
      by_cases here : head.pattern.canonical = pattern.canonical
      · simp only [editNodes, here, if_true] at edited
        rcases map_eq_ok.1 edited with ⟨⟨_, node⟩, work, made⟩
        cases made
        refine ⟨head, node, .inl List.mem_cons_self, work, fun other mem => ?_, fun g b same => ?_⟩
        · rcases List.mem_cons.1 mem with new | old
          · exact .inr new
          · exact .inl (List.mem_cons_of_mem _ old)
        · simp [editNodes, here, same, Except.map]
      · simp only [editNodes, here, if_false] at edited
        rcases map_eq_ok.1 edited with ⟨⟨_, rest⟩, found, made⟩
        cases made
        rcases ih found with ⟨before, node, known, work, others, again⟩
        refine ⟨before, node, known.imp_left (List.mem_cons_of_mem _), work, fun other mem => ?_,
          fun g b same => ?_⟩
        · rcases List.mem_cons.1 mem with first | later
          · exact .inl (by simp [first])
          · exact (others other later).imp_left (List.mem_cons_of_mem _)
        · simp [editNodes, here, again g b same, Except.map]

/-- An edit works on the first node of the pattern, or on a new one behind all others. -/
theorem editNodes_cases {α : Type} {pattern : Pattern} {f : Node → Except Refusal (α × Node)} {a : α}
    {nodes after : List Node} :
    editNodes pattern f nodes = .ok (a, after) →
      (∃ first node later next, nodes = first ++ node :: later ∧
        node.pattern.canonical = pattern.canonical ∧ f node = .ok (a, next) ∧
          after = first ++ next :: later) ∨
      ((∀ node ∈ nodes, node.pattern.canonical ≠ pattern.canonical) ∧
        ∃ next, f (.new pattern) = .ok (a, next) ∧ after = nodes ++ [next]) := by
  intro edited
  induction nodes generalizing after with
  | nil =>
      rcases map_eq_ok.1 edited with ⟨⟨_, next⟩, work, made⟩
      cases made
      exact .inr ⟨nofun, next, work, rfl⟩
  | cons head nodes ih =>
      by_cases here : head.pattern.canonical = pattern.canonical
      · simp only [editNodes, here, if_true] at edited
        rcases map_eq_ok.1 edited with ⟨⟨_, next⟩, work, made⟩
        cases made
        exact .inl ⟨[], head, nodes, next, rfl, here, work, rfl⟩
      · simp only [editNodes, here, if_false] at edited
        rcases map_eq_ok.1 edited with ⟨⟨_, rest⟩, found, made⟩
        cases made
        rcases ih found with ⟨first, node, later, next, rfl, same, work, rfl⟩ |
          ⟨others, next, work, rfl⟩
        · exact .inl ⟨head :: first, node, later, next, rfl, same, work, rfl⟩
        · exact .inr ⟨List.forall_mem_cons.2 ⟨here, others⟩, next, work, rfl⟩

/-- A builder that takes a registration is not finished. -/
theorem requireOpen_eq_ok {u : Unit} : b.requireOpen operation = .ok u ↔ b.compiled = none := by
  cases compiled : b.compiled <;> simp [requireOpen, compiled]

/-- An edit compiles the path and works on the nodes, and leaves all else. -/
theorem edit_eq_ok {α : Type} {f : Node → Except Refusal (α × Node)} {a : α} :
    b.edit path operation f = .ok (a, next) ↔
      b.compiled = none ∧ ∃ pattern nodes, Pattern.compile path = .ok pattern ∧
        editNodes pattern f b.nodes = .ok (a, nodes) ∧ { b with nodes := nodes } = next := by
  cases isOpen : b.requireOpen operation with
  | error refusal =>
      have finished : b.compiled ≠ none := by
        intro unfinished
        simp [requireOpen, unfinished] at isOpen
      simp [edit, isOpen, finished]
  | ok u =>
      cases compiled : Pattern.compile path with
      | error e => simp [edit, isOpen, compiled]
      | ok pattern => simp [edit, isOpen, compiled, map_eq_ok, requireOpen_eq_ok.1 isOpen]

theorem change_eq_ok {f : Node → Except Refusal Node} :
    b.change path operation f = .ok next →
      b.edit path operation (fun node => (f node).map ((), ·)) = .ok ((), next) := by
  intro changed
  rcases map_eq_ok.1 changed with ⟨⟨_, _⟩, edited, rfl⟩
  exact edited

/-- What needs no node is done on a builder that is not finished. -/
theorem map_requireOpen_eq_ok {f : Unit → Builder} :
    (b.requireOpen operation).map f = .ok next → b.compiled = none ∧ f () = next := by
  intro done
  rcases map_eq_ok.1 done with ⟨_, isOpen, made⟩
  exact ⟨requireOpen_eq_ok.1 isOpen, made⟩

/-- The node that an edit works on keeps to the rules. -/
theorem Ready.fits_of_edited {pattern : Pattern} {node : Node} (ready : b.Ready rules)
    (compiled : Pattern.compile path = .ok pattern) :
    node ∈ b.nodes ∨ node = .new pattern → node.Fits rules := by
  intro known
  cases known with
  | inl old => exact ready.nodes node old
  | inr fresh =>
      subst fresh
      exact Node.fits_new compiled

theorem Ready.edit {α : Type} {f : Node → Except Refusal (α × Node)} {a : α} (ready : b.Ready rules)
    (work : ∀ node after, node.Fits rules → f node = .ok (a, after) → after.Fits rules) :
    b.edit path operation f = .ok (a, next) → next.Ready rules := by
  intro edited
  rcases edit_eq_ok.1 edited with ⟨isOpen, pattern, nodes, compiled, worked, rfl⟩
  refine ⟨fun node mem => ?_, ready.chain, ready.notFound, fun router frozen => ?_⟩
  · rcases editNodes_spec worked with ⟨before, edited, known, done, others, -⟩
    rcases others node mem with old | rfl
    · exact ready.nodes node old
    · exact work before node (ready.fits_of_edited compiled known) done
  · simp [isOpen] at frozen

theorem Ready.change {f : Node → Except Refusal Node} (ready : b.Ready rules)
    (work : ∀ node after, node.Fits rules → f node = .ok after → after.Fits rules) :
    b.change path operation f = .ok next → next.Ready rules := by
  intro changed
  refine ready.edit (fun node after fits done => ?_) (change_eq_ok changed)
  rcases map_eq_ok.1 done with ⟨_, worked, made⟩
  cases made
  exact work node _ fits worked

theorem freezeNodes_eq_map (nodes : List Node) : freezeNodes nodes = nodes.map Node.freeze := by
  induction nodes with
  | nil => simp [freezeNodes]
  | cons node nodes ih => simp [freezeNodes, ih]

theorem Ready.freeze_eq (ready : b.Ready rules) :
    b.freeze = .ofNodes (freezeNodes b.nodes) b.chain b.notFound b.options := by
  rcases b with ⟨nodes, chain, notFound, options, compiled⟩
  cases compiled with
  | none => rw [freeze]
  | some router => simpa [freeze] using ready.frozen router rfl

/-! ## Routers -/

theorem Ready.built (ready : b.Ready rules) : b.freeze.Built rules := by
  have finished : ∀ node ∈ freezeNodes b.nodes, ∃ n ∈ b.nodes, n.freeze = node := by
    intro node mem
    simpa [freezeNodes_eq_map] using mem
  rw [ready.freeze_eq]
  refine .ofNodes (fun node mem => ?_) (fun node mem => ?_) ready.chain ready.notFound
  · rcases finished node mem with ⟨n, listed, rfl⟩
    exact (ready.nodes n listed).made.1
  · rcases finished node mem with ⟨n, listed, rfl⟩
    exact (ready.nodes n listed).made.2

theorem Registered.ready (registered : b.Registered rules) : b.Ready rules := by
  -- what is registered on a path goes by its node, all else leaves the nodes alone
  induction registered with
  | empty => exact ⟨nofun, nofun, nofun, nofun⟩
  | handle _ allowed done ih =>
      exact ih.change (fun _ _ fits worked => fits.handle allowed worked) done
  | method _ allowed done ih =>
      exact ih.change (fun _ _ fits worked => fits.method allowed worked) done
  | wrapPath _ allowed done ih =>
      exact ih.change (fun _ _ fits worked => fits.wrapWith allowed worked) done
  | route _ nested done ih ihNested =>
      exact ih.edit (fun _ _ fits worked => fits.route (fun _ _ => ⟨nested, ihNested.built⟩) worked)
        done
  | mount _ inner done ih ihInner =>
      exact ih.change (fun _ _ fits worked => fits.mount ihInner.built worked) done
  | @useMiddleware b _ middleware _ allowed done ih =>
      rcases map_requireOpen_eq_ok done with ⟨isOpen, rfl⟩
      refine ⟨ih.nodes, fun m mem => ?_, ih.notFound, by simp [isOpen]⟩
      rcases List.mem_append.1 mem with old | last
      · exact ih.chain m old
      · rwa [List.mem_singleton.1 last]
  | setNotFound _ allowed done ih =>
      rcases map_requireOpen_eq_ok done with ⟨isOpen, rfl⟩
      refine ⟨ih.nodes, ih.chain, fun h given => ?_, by simp [isOpen]⟩
      cases given
      exact allowed
  | setOptions _ done ih =>
      rcases map_requireOpen_eq_ok done with ⟨isOpen, rfl⟩
      exact ⟨ih.nodes, ih.chain, ih.notFound, by simp [isOpen]⟩
  | compile _ ih =>
      -- the router that is kept is the one its parts lead to
      refine ⟨ih.nodes, ih.chain, ih.notFound, fun router frozen => ?_⟩
      cases frozen
      exact ih.freeze_eq

theorem Registered.built (registered : b.Registered rules) : b.freeze.Built rules :=
  registered.ready.built

/-- A closure may do to a nested router whatever registrations can do. -/
theorem Registered.route_of {α : Type} {f : Builder → α × Builder} {a : α}
    (registered : b.Registered rules)
    (work : ∀ nested, nested.Registered rules → (f nested).2.Registered rules) :
    b.route path f = .ok (a, next) → next.Registered rules := by
  intro done
  rcases edit_eq_ok.1 done with ⟨isOpen, pattern, nodes, compiled, worked, rfl⟩
  rcases editNodes_spec worked with ⟨before, node, known, routed, -, again⟩
  -- what the closure makes of the nested router is all that counts
  rcases (registered.ready.fits_of_edited compiled known).of_route routed with
    ⟨nested, start, same⟩
  have fixed : b.route path (fun _ => ((), (f nested).2)) = .ok ((), { b with nodes := nodes }) := by
    have remade := again (fun node => node.route fun _ => ((), (f nested).2)) () same
    exact edit_eq_ok.2 ⟨isOpen, pattern, nodes, compiled, remade, rfl⟩
  exact .route registered (work nested start) fixed

end Builder

namespace Router

variable {r : Router}

variable {nodes : List CompiledNode}

theorem Built.made (built : r.Built rules) : ∀ node ∈ r.nodes, node.Made rules := by
  cases built with
  | ofNodes made _ _ _ => exact made

/-- Each node is registered in the resolver under its place. -/
theorem exists_node_of_mem {route : Pattern × Nat} :
    route ∈ (nodes.map CompiledNode.pattern).zipIdx →
      ∃ node ∈ nodes, nodes[route.2]? = some node ∧ node.pattern = route.1 := by
  intro mem
  have place : (nodes.map CompiledNode.pattern)[route.2]? = some route.1 :=
    List.mem_zipIdx_iff_getElem?.1 mem
  rcases (by simpa using place) with ⟨node, here, pattern⟩
  exact ⟨node, List.mem_of_getElem? here, here, pattern⟩

/-- The routes of finished nodes have compiled paths. -/
theorem compiled_of_made (made : ∀ node ∈ nodes, node.Made rules) :
    ∀ route ∈ (nodes.map CompiledNode.pattern).zipIdx, ∃ raw, Pattern.compile raw = .ok route.1 := by
  intro route mem
  rcases exists_node_of_mem mem with ⟨node, listed, -, pattern⟩
  simpa [pattern] using (made node listed).compiled

/-- What the resolver of finished nodes answers: no route, or one of the nodes with a match that
divides the path. -/
theorem resolve_cases (made : ∀ node ∈ nodes, node.Made rules) (path : Text) :
    (resolverOf (nodes.map CompiledNode.pattern)).resolve path = .notFound ∨
      ∃ (m : RouteMatch) (node : CompiledNode), nodes[m.node]? = some node ∧ m.Divides path ∧
        (resolverOf (nodes.map CompiledNode.pattern)).resolve path =
          .ofRoute node.pattern.isMount (some m) := by
  have resolver : resolverOf (nodes.map CompiledNode.pattern) =
      Resolver.ofRoutes (nodes.map CompiledNode.pattern).zipIdx := rfl
  rw [resolver]
  rcases Resolver.resolve_cases (compiled_of_made made) path with miss | ⟨route, mem, m, number, divides, found⟩
  · exact .inl miss
  · rcases exists_node_of_mem mem with ⟨node, -, here, pattern⟩
    exact .inr ⟨m, node, by rw [number]; exact here, divides, by rw [found, pattern]⟩

/-- A property of handlers that all middleware keeps holds of a handler in a chain of it. -/
theorem holds_wrap {Q : Handler → Prop} {chain : List Middleware} {handler : Handler}
    (around : ∀ middleware handler, rules.around middleware → Q handler → Q (middleware handler))
    (allowed : ∀ m ∈ chain, rules.around m) (holds : Q handler) : Q (wrap chain handler) := by
  induction chain with
  | nil => exact holds
  | cons middleware chain ih =>
      have rest := ih fun m mem => allowed m (List.mem_cons_of_mem _ mem)
      exact around middleware _ (allowed middleware List.mem_cons_self) rest

/-- A property of handlers that middleware and the dispatcher keep holds of the entry of a router if
it holds of all that the nodes serve. -/
theorem Built.entry {Q : Handler → Prop} (built : r.Built rules)
    (around : ∀ middleware handler, rules.around middleware → Q handler → Q (middleware handler))
    (bare : Q (Handler.status .notFound)) (all : ∀ e, rules.entry none e → Q e.compile)
    (table : ∀ t : MethodTable, t.Follows rules → Q t.compile.toHandler)
    (dispatch : ∀ (nodes : List CompiledNode) (notFound : Option Handler),
      (∀ node ∈ nodes, node.Made rules) → (∀ node ∈ nodes, Q node.handler) →
        (∀ h ∈ notFound, rules.fallback h) →
          Q (dispatcher (resolverOf (nodes.map CompiledNode.pattern))
            (nodes.map CompiledNode.handler) notFound)) :
    Q r.entry := by
  induction built with
  | @ofNodes nodes chain notFound options made _ allowed fallback ih =>
      refine holds_wrap around allowed (dispatch nodes notFound made (fun node mem => ?_) fallback)
      rcases (made node mem).served with ⟨wraps, served, outer, serves, eq⟩
      rw [eq]
      refine holds_wrap around outer ?_
      cases kind : node.kind with
      | empty =>
          rw [kind] at serves
          cases serves
          exact bare
      | handler =>
          rw [kind] at serves
          cases serves with
          | handler entry => exact all _ entry
      | methods allow =>
          rw [kind] at serves
          cases serves with
          | methods follows => exact table _ follows
      | router inner =>
          rw [kind] at serves
          cases serves
          exact ih node mem inner kind

end Router
end PathRouter
