import PathRouter.Proofs.Joining

/-!
# Nesting — a route below a mount, seen from outside

This file defines

* `Router.single`, the router with one route, and `Router.Delivers`, what becomes of the requests
  for a path when a router is built around a handler;

and shows `Builder.nest_transparent`, that a route below a mount is reached as the one route that
is spelled like both of them, and in the same context.
-/

namespace PathRouter

/-! ## Routers with one route -/

namespace Router

/-- A router that has one route, and nothing around it. -/
def single (p : Pattern) (handler : Handler) (kind : NodeKind) : Router :=
  .ofNodes [⟨p, handler, kind⟩] [] none .default

/-- The same below a mount that has nothing else. -/
def nested (m p : Pattern) (handler : Handler) : Router :=
  single m (single p handler .handler).entry (.router (single p handler .handler))

/-- Requests for the path are answered by the handler, in the context reached.  Where none is
reached they fail, in a way in which the handler has no part. -/
def Delivers (build : Handler → Router) (path : Text) (reached : Option Context) : Prop :=
  ∀ req, req.uri.path = path → ∃ failure, ∀ handler w,
    (build handler).entry req (.new path) w =
      reached.elim (.failed failure, w) fun cx => handler req cx w

/-- Handlers tell apart where they are reached, so that there is one answer for each path. -/
theorem Delivers.unique {build : Handler → Router} {path : Text} {one other : Option Context}
    (first : Delivers build path one) (second : Delivers build path other) : one = other := by
  let req : Request := ⟨"GET", ⟨path, none⟩, .empty, ""⟩
  rcases first req rfl with ⟨failure, hf⟩
  rcases second req rfl with ⟨failure', hf'⟩
  have same (handler : Handler) := (hf handler .empty).symm.trans (hf' handler .empty)
  -- a handler that serves in one context only, and panics elsewhere
  let probe (cx : Context) : Handler := fun _ next w =>
    (if next = cx then .served else .panicked Payload.value, w)
  cases one with
  | none =>
      cases other with
      | none => rfl
      | some cx =>
          have met := congrArg Prod.fst (same (probe cx))
          simp [probe] at met
  | some cx =>
      have met := congrArg Prod.fst (same (probe cx))
      cases other with
      | none => simp [probe] at met
      | some cx' =>
          by_cases eq : cx' = cx
          · rw [eq]
          · simp [probe, eq] at met

end Router

/-! ## Registrations of one route -/

namespace Builder

variable {path : Text} {p : Pattern}

/-- The first registration for a path makes a node of its own. -/
theorem edit_empty {α : Type} (compiled : Pattern.compile path = .ok p) (operation : String)
    (f : Node → Except Refusal (α × Node)) :
    empty.edit path operation f =
      (f (.new p)).map fun made => (made.1, ⟨[made.2], [], none, .default, none⟩) := by
  have opened : empty.requireOpen operation = .ok () := rfl
  rw [edit, opened, compiled]
  simp only [empty, editNodes]
  cases f (.new p) <;> rfl

theorem freeze_handle (compiled : Pattern.compile path = .ok p) (handler : Handler) :
    (empty.handle path [] handler).map freeze = .ok (.single p handler .handler) := by
  rw [handle, change, edit_empty compiled]
  rfl

theorem freeze_nest (compiled : Pattern.compile (mountPath path) = .ok p) (mount : p.isMount = true)
    {f : Builder → Except Refusal Builder} {nested : Router} :
    (f empty).map freeze = .ok nested →
      (empty.nest path f).map freeze = .ok (.single p nested.entry (.router nested)) := by
  intro built
  cases made : f empty with
  | error refusal =>
      rw [made] at built
      cases built
  | ok b =>
      rw [made] at built
      cases built
      simp only [nest, route, edit_empty compiled, Node.route, Node.new, Node.pattern, mount, if_true,
        made]
      rfl

theorem freeze_mount (compiled : Pattern.compile (mountPath path) = .ok p)
    (mount : p.isMount = true) (nested : Router) :
    (empty.mount path nested).map freeze = .ok (.single p nested.entry (.router nested)) := by
  rw [Builder.mount, change, edit_empty compiled]
  simp only [Node.mount, Node.new, Node.pattern, mount, if_true]
  rfl

end Builder

/-! ## Contexts below a mount -/

namespace Context

variable {a : Template} {path : Text} {cx : Context}

/-- A mount leaves something of each path for the routes below it. -/
theorem path_ne_nil_of_reached (mount : a.endsInSlash = true) :
    (new path).reached a = some cx → cx.path ≠ [] := by
  intro arrived
  rcases Option.bind_eq_some_iff.1 arrived with ⟨one, routed, kept⟩
  have parts := Template.taken_append_remainder routed
  rw [mount] at kept
  by_cases done : one.remainder = []
  · -- the mount has taken the whole path, so it does not call the handler
    rw [RouteMatch.redirects_of_done parts (path_new_ne_nil path) done, if_pos rfl] at kept
    cases kept
  · rw [RouteMatch.redirects_of_more done, if_neg Bool.false_ne_true, Option.some.injEq] at kept
    rw [← kept, after_new done]
    exact done

end Context

/-! ## Delivery -/

namespace Router

variable {p m f : Pattern} {a b t : Template} {raw given : Text}

theorem delivers_single (compiled : Pattern.compile raw = .ok p) (described : p.Describes t)
    (form : p.canonical = Pattern.mountForm p.path) (separate : Template.Separate p.path)
    (kind : NodeKind) (path : Text) :
    Delivers (fun handler => single p handler kind) path ((Context.new path).reached t) := by
  intro req _
  exact dispatcher_single compiled described form separate (Context.path_new_ne_nil path) req

/-- A router below a mount takes over in the context behind the mount. -/
theorem delivers_nested (outer : Pattern.compile given = .ok m) (mounts : m.Mounts a)
    (apart : Template.Separate m.canonical) (inner : Pattern.compile raw = .ok p)
    (follows : p.Follows b) (separate : Template.Separate p.path) (path : Text) :
    Delivers (nested m p) path
      (((Context.new path).reached (a ++ .slash .done)).bind fun cx => cx.reached b) := by
  intro req _
  have bare : Template.Separate m.path := by
    refine apart.of_infix ⟨[], ['*'], ?_⟩
    rw [mounts.path, mounts.canonical]
    simp
  -- the mount takes its step whatever stands below it
  obtain ⟨missed, above⟩ := dispatcher_single outer mounts.described mounts.form bare
    (Context.path_new_ne_nil path) req
  cases arrived : (Context.new path).reached (a ++ .slash .done) with
  | none =>
      rw [arrived] at above
      exact ⟨missed, fun handler w => above _ w⟩
  | some cx =>
      rw [arrived] at above
      have left : cx.path ≠ [] :=
        Context.path_ne_nil_of_reached (Template.endsInSlash_append a rfl) arrived
      obtain ⟨failure, below⟩ :=
        dispatcher_single inner follows.described follows.form separate left req
      exact ⟨failure, fun handler w => (above _ w).trans (below handler w)⟩

end Router

/-! ## Nesting is transparent -/

/-- Under a mount without optional groups, a single route is reached by the same requests, and in the
same context, as the one route of a flat router that is spelled like both of them. -/
theorem Builder.nest_transparent {mount inner : Text} {m p : Pattern}
    (outerCompiled : Pattern.compile mount = .ok m) (isMount : m.isMount = true)
    (free : '[' ∉ m.canonical) (outerSeparate : ¬ ['/', '/'] <:+: m.canonical)
    (innerCompiled : Pattern.compile inner = .ok p) (notRoot : p.canonical ≠ ['/'])
    (innerSeparate : ¬ ['/', '/'] <:+: p.canonical)
    (ownSlash : ∀ rest, p.canonical = '/' :: '[' :: rest → rest.head? = some '/') :
    ∃ nested flat : Handler → Router,
      (∀ handler,
        (empty.nest mount fun b => b.handle inner [] handler).map freeze = .ok (nested handler)) ∧
      (∀ handler, ∃ router,
        (empty.handle inner [] handler).map freeze = .ok router ∧
        (empty.mount mount router).map freeze = .ok (nested handler)) ∧
      (∀ handler,
        (empty.handle (joinPattern m.canonical p.canonical) [] handler).map freeze =
          .ok (flat handler)) ∧
      ∀ path, ∃ reached, Router.Delivers nested path reached ∧ Router.Delivers flat path reached := by
  rcases Pattern.mounts_of_compile outerCompiled isMount free outerSeparate with ⟨a, mounts⟩
  rcases Pattern.follows_of_compile innerCompiled notRoot ownSlash with ⟨b, follows⟩
  obtain ⟨f, joined, described, form, separate⟩ :=
    Pattern.compile_join mounts follows outerSeparate innerSeparate
  -- the builder registers the mount under its canonical form
  have registered : Pattern.compile (mountPath mount) = .ok { m with raw := m.canonical } := by
    rw [mounts.mountPath_eq outerCompiled, mounts.compile_canonical]
  have shaped : Pattern.Mounts { m with raw := m.canonical } a :=
    ⟨mounts.plain, mounts.legal, mounts.ends, mounts.path, mounts.canonical,
      ⟨mounts.described.parsed, mounts.described.canonical, mounts.described.matching,
        mounts.described.shallow⟩⟩
  have below (handler : Handler) := freeze_handle innerCompiled handler
  refine ⟨Router.nested { m with raw := m.canonical } p, fun handler => .single f handler .handler,
    fun handler => freeze_nest registered isMount (below handler),
    fun handler => ⟨_, below handler, freeze_mount registered isMount _⟩,
    fun handler => freeze_handle joined handler,
    fun path => ⟨(Context.new path).reached (a ++ b), ?_, ?_⟩⟩
  · rw [Context.reached_append mounts.plain mounts.legal mounts.ends follows.boundary]
    exact Router.delivers_nested registered shaped outerSeparate innerCompiled follows
      (follows.separate innerSeparate) path
  · exact Router.delivers_single joined described form separate .handler path

/-- One name at both levels has both values, in their order. -/
theorem Builder.nest_transparent_captures :
    let x : Template := .slash (.capture ['x'] [] .done)
    let m : Pattern :=
      ⟨"/\x7bx\x7d/*".toList, "/\x7bx\x7d/".toList, "/\x7bx\x7d/*".toList,
        .expression (x ++ .slash .done).matcher [['x']] false⟩
    let p : Pattern :=
      ⟨"/\x7bx\x7d".toList, "/\x7bx\x7d".toList, "/\x7bx\x7d".toList,
        .expression x.matcher [['x']] true⟩
    let cx : Context := ⟨"/a/b".toList, [], "/a/b".toList, ⟨[(['x'], .many [['a'], ['b']])]⟩⟩
    Pattern.compile "/\x7bx\x7d/*".toList = .ok m ∧ Pattern.compile "/\x7bx\x7d".toList = .ok p ∧
      ∃ nested flat : Handler → Router,
        (∀ handler,
          (empty.nest "/\x7bx\x7d/*".toList fun b => b.handle "/\x7bx\x7d".toList [] handler).map
            freeze = .ok (nested handler)) ∧
        (∀ handler,
          (empty.handle "/\x7bx\x7d/\x7bx\x7d".toList [] handler).map freeze =
            .ok (flat handler)) ∧
        Router.Delivers nested "/a/b".toList (some cx) ∧
        Router.Delivers flat "/a/b".toList (some cx) := by
  intro x m p cx
  have outer : Pattern.compile "/\x7bx\x7d/*".toList = .ok m := rfl
  have inner : Pattern.compile "/\x7bx\x7d".toList = .ok p := rfl
  let f : Pattern :=
    ⟨(x ++ x).toText, (x ++ x).toText, (x ++ x).toText,
      .expression (x ++ x).matcher [['x'], ['x']] true⟩
  have joined : Pattern.compile "/\x7bx\x7d/\x7bx\x7d".toList = .ok f := rfl
  obtain ⟨nested, flat, nests, -, joins, same⟩ :=
    nest_transparent outer rfl (by decide) (by decide) inner (by decide) (by decide)
      (fun rest begun => by cases begun)
  rcases same "/a/b".toList with ⟨reached, deep, plain⟩
  have described : f.Describes (x ++ x) := ⟨rfl, .inl rfl, rfl, fun _ => by decide⟩
  have made : flat = fun handler => .single f handler .handler :=
    funext fun handler => Except.ok.inj ((joins handler).symm.trans (freeze_handle joined handler))
  have separate : ¬ ['/', '/'] <:+: f.path := by decide
  have there := Router.delivers_single joined described rfl separate .handler "/a/b".toList
  rw [← made] at there
  -- the flat router shows where both of them lead
  have eq : reached = some cx := Router.Delivers.unique plain there
  rw [eq] at deep
  exact ⟨outer, inner, nested, flat, nests, joins, deep, there⟩

end PathRouter
