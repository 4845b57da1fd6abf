import PathRouter.Proofs.History

/-!
# Tree — the finished router that a history leads to

This file defines

* `Registration.Obeys`, that what a history registers keeps to rules, on all levels;
* `CompiledNode.Reflects` and `Router.Reflects`, that a finished router is what has been registered;

and shows `History.registered`, that builders keep to the rules of their history, and `History.freeze`.
-/

namespace PathRouter

/-! ## Rules -/

/-- Whether what a call registers keeps to the rules. -/
def NodeCall.Obeys (rules : Rules) : NodeCall → Prop
  | .handle handler chain => rules.entry none ⟨handler, chain⟩
  | .method name handler chain => rules.entry (some (canonicalMethod name)) ⟨handler, chain⟩
  | .wrapWith middleware => rules.around middleware

/-- A registration that keeps to the rules, with all that it attaches. -/
inductive Registration.Obeys (rules : Rules) : Registration → Prop
  | call {path : Text} {c : NodeCall} : c.Obeys rules → Obeys rules (.call path c)
  | route {path : Text} {inner : History} : (∀ r ∈ inner, Obeys rules r) →
      Obeys rules (.route path inner)
  | mount {path : Text} {inner : History} : (∀ r ∈ inner, Obeys rules r) →
      Obeys rules (.mount path inner)
  | useMiddleware {middleware : Middleware} : rules.around middleware →
      Obeys rules (.useMiddleware middleware)
  | setNotFound {handler : Handler} : rules.fallback handler → Obeys rules (.setNotFound handler)
  | setOptions {options : RenderOptions} : Obeys rules (.setOptions options)
  | compile : Obeys rules .compile

/-- The rules that ask for nothing. -/
def Rules.any : Rules where
  entry _ _ := True
  around _ := True
  fallback _ := True

theorem Registration.obeys_any : (registration : Registration) → registration.Obeys .any
  | .call _ (.handle _ _) => .call trivial
  | .call _ (.method _ _ _) => .call trivial
  | .call _ (.wrapWith _) => .call trivial
  | .route _ inner => .route fun r _ => obeys_any r
  | .mount _ inner => .mount fun r _ => obeys_any r
  | .useMiddleware _ => .useMiddleware trivial
  | .setNotFound _ => .setNotFound trivial
  | .setOptions _ => .setOptions
  | .compile => .compile

variable {rules : Rules}

/-- What keeps to rules keeps to rules that ask for less. -/
theorem Registration.Obeys.mono {less : Rules} {registration : Registration}
    (entry : ∀ name? e, rules.entry name? e → less.entry name? e)
    (around : ∀ m, rules.around m → less.around m)
    (fallback : ∀ h, rules.fallback h → less.fallback h) (obeys : registration.Obeys rules) :
    registration.Obeys less := by
  induction obeys with
  | @call _ c allowed =>
      refine .call ?_
      cases c with
      | handle _ _ => exact entry _ _ allowed
      | method _ _ _ => exact entry _ _ allowed
      | wrapWith _ => exact around _ allowed
  | route _ ih => exact .route ih
  | mount _ ih => exact .mount ih
  | useMiddleware allowed => exact .useMiddleware (around _ allowed)
  | setNotFound allowed => exact .setNotFound (fallback _ allowed)
  | setOptions => exact .setOptions
  | compile => exact .compile

/-- The builders that a history leads to are registered under the rules it keeps to. -/
theorem Registration.Obeys.registered {registration : Registration} {b next : Builder}
    (obeys : registration.Obeys rules) :
    b.Registered rules → registration.run b = .ok next → next.Registered rules := by
  -- the runs of what is attached
  have all {inner : History} (each : ∀ r ∈ inner, ∀ b next : Builder, b.Registered rules →
      r.run b = .ok next → next.Registered rules) {b next : Builder} :
      b.Registered rules → runAll inner b = .ok next → next.Registered rules := by
    intro registered done
    induction inner generalizing b with
    | nil =>
        cases done
        exact registered
    | cons r inner ih =>
        rw [runAll] at done
        cases worked : r.run b with
        | error refusal =>
            rw [worked] at done
            cases done
        | ok middle =>
            rw [worked] at done
            refine ih (fun r mem => each r (List.mem_cons_of_mem _ mem)) ?_ done
            exact each r List.mem_cons_self b middle registered worked
  induction obeys generalizing b next with
  | @call path c allowed =>
      intro registered done
      cases c with
      | handle handler chain => exact .handle registered allowed done
      | method name handler chain => exact .method registered allowed done
      | wrapWith middleware => exact .wrapPath registered allowed done
  | @route path inner _ ih =>
      intro registered done
      refine registered.route_of (fun nested start => ?_) (Builder.nest_eq_ok done)
      cases worked : runAll inner nested with
      | error refusal => simpa [Builder.nesting, worked] using start
      | ok grown =>
          have after := all (fun r mem b next => ih r mem) start worked
          simpa [Builder.nesting, worked] using after
  | @mount path inner _ ih =>
      intro registered done
      rw [run] at done
      cases ran : runAll inner Builder.empty with
      | error refusal =>
          rw [ran] at done
          cases done
      | ok built =>
          rw [ran] at done
          exact .mount registered (all (fun r mem b next => ih r mem) .empty ran) done
  | useMiddleware allowed => exact fun registered done => .useMiddleware registered allowed done
  | setNotFound allowed => exact fun registered done => .setNotFound registered allowed done
  | setOptions => exact fun registered done => .setOptions registered done
  | compile =>
      intro registered done
      cases done
      exact .compile registered

theorem History.registered {H : History} {b : Builder} (obeys : ∀ r ∈ H, r.Obeys rules) :
    H.run = .ok b → b.Registered rules := by
  intro done
  induction H using List.reverseRecOn generalizing b with
  | nil =>
      cases done
      exact .empty
  | append_singleton H registration ih =>
      rcases (run_concat H registration).1 done with ⟨before, ran, last⟩
      have start := ih (fun r mem => obeys r (List.mem_append_left _ mem)) ran
      exact (obeys registration (by simp)).registered start last

/-! ### What the views keep -/

namespace History

variable {H : History}

theorem around_of_mem_uses (obeys : ∀ r ∈ H, r.Obeys rules) : ∀ m ∈ H.uses, rules.around m := by
  intro m mem
  rcases List.mem_filterMap.1 mem with ⟨registration, listed, made⟩
  cases obeys registration listed with
  | useMiddleware allowed =>
      cases made
      exact allowed
  | _ => cases made

theorem fallback_of_mem (obeys : ∀ r ∈ H, r.Obeys rules) : ∀ h ∈ H.fallback, rules.fallback h := by
  intro h given
  rcases List.mem_filterMap.1 (List.mem_of_getLast? given) with ⟨registration, listed, made⟩
  cases obeys registration listed with
  | setNotFound allowed =>
      cases made
      exact allowed
  | _ => cases made

theorem obeys_calls_about (obeys : ∀ r ∈ H, r.Obeys rules) (place : Text) :
    ∀ c ∈ (H.about place).calls, c.Obeys rules := by
  intro c mem
  rcases List.mem_filterMap.1 mem with ⟨registration, listed, made⟩
  cases obeys registration (List.mem_of_mem_filter listed) with
  | call allowed =>
      cases made
      exact allowed
  | _ => cases made

theorem obeys_inner_about (obeys : ∀ r ∈ H, r.Obeys rules) (place : Text) :
    ∀ r ∈ (H.about place).inner, r.Obeys rules := by
  intro r mem
  rcases List.mem_flatten.1 mem with ⟨inner, attached, below⟩
  rcases List.mem_filterMap.1 attached with ⟨registration, listed, made⟩
  cases obeys registration (List.mem_of_mem_filter listed) with
  | route allowed =>
      cases made
      exact allowed r below
  | mount allowed =>
      cases made
      exact allowed r below
  | _ => cases made

end History

namespace NodeCall

variable {calls : List NodeCall}

theorem around_of_mem_wraps (obeys : ∀ c ∈ calls, c.Obeys rules) :
    ∀ m ∈ wraps calls, rules.around m := by
  intro m mem
  rcases List.mem_filterMap.1 mem with ⟨c, listed, made⟩
  cases c with
  | wrapWith _ =>
      cases made
      exact obeys _ listed
  | _ => cases made

theorem entry_of_own (obeys : ∀ c ∈ calls, c.Obeys rules) {method : String} {e : MethodEntry} :
    own method calls = some e → rules.entry (some method) e := by
  intro last
  rcases List.mem_filterMap.1 (List.mem_of_getLast? last) with ⟨c, listed, made⟩
  cases c with
  | method name handler chain =>
      by_cases same : canonicalMethod name = method
      · have allowed := obeys _ listed
        simp only [entryFor?, if_pos same, Option.some.injEq] at made
        rwa [Obeys, same, made] at allowed
      · simp [entryFor?, same] at made
  | _ => cases made

theorem entry_of_all (obeys : ∀ c ∈ calls, c.Obeys rules) {e : MethodEntry} :
    all calls = some e → rules.entry none e := by
  intro last
  rcases List.mem_filterMap.1 (List.mem_of_getLast? last) with ⟨c, listed, made⟩
  cases c with
  | handle handler chain =>
      cases made
      exact obeys _ listed
  | _ => cases made

end NodeCall

/-! ## Finished routers -/

/-- A finished node that is what has been registered at its place. -/
inductive CompiledNode.Reflects (L : History) (node : CompiledNode) : Prop
  | serving : L.inners = [] →
      node.handler = wrap (NodeCall.wraps L.calls) (NodeCall.target L.calls).freeze.1 →
        node.kind = (NodeCall.target L.calls).freeze.2 → Reflects L node
  | holding {b : Builder} : L.inners ≠ [] → L.inner.run = .ok b →
      node.handler = wrap (NodeCall.wraps L.calls) b.freeze.entry →
        node.kind = .router b.freeze → Reflects L node

theorem NodeCall.freeze_target_ne_router (calls : List NodeCall) (inner : Router) :
    (NodeCall.target calls).freeze.2 ≠ .router inner := by
  rcases NodeCall.target_cases calls with none | ⟨_, _, one⟩ | ⟨_, many⟩
  · rw [none]
    nofun
  · rw [one]
    nofun
  · rw [many]
    nofun

theorem Node.Reflects.pattern_freeze {n : Node} {L : History} (reflects : n.Reflects L) :
    n.freeze.pattern = n.pattern := by
  rcases reflects with ⟨-, -⟩
  rfl

theorem Node.Reflects.freeze {n : Node} {L : History} (reflects : n.Reflects L) :
    n.freeze.Reflects L := by
  rcases reflects with ⟨held, rfl⟩
  cases held with
  | serving bare serves => exact .serving bare (by rw [serves]; rfl) (by rw [serves]; rfl)
  | holding more ran holds =>
      rcases holds with rfl | rfl <;> exact .holding more ran rfl rfl

/-- What a history comes to when its router is finished. -/
structure Router.Reflects (H : History) (r : Router) : Prop where
  built : r.Built .any
  whole : ∃ options, r = .ofNodes r.nodes H.uses H.fallback options
  places : r.nodes.map (fun node => node.pattern.canonical) = H.places.eraseDups
  nodes : ∀ node ∈ r.nodes, node.Reflects (H.about node.pattern.canonical)

theorem History.freeze {H : History} {b : Builder} : H.run = .ok b → b.freeze.Reflects H := by
  intro done
  have registered := registered (fun r _ => r.obeys_any) done
  have reflects := reflects done
  have whole := registered.ready.freeze_eq
  have nodes : b.freeze.nodes = b.nodes.map Node.freeze := by
    rw [whole, Builder.freezeNodes_eq_map]
    rfl
  refine ⟨registered.built, ⟨b.options, ?_⟩, ?_, fun node mem => ?_⟩
  · rw [nodes, ← Builder.freezeNodes_eq_map, ← reflects.chain, ← reflects.notFound]
    exact whole
  · rw [nodes, ← reflects.places, List.map_map]
    refine List.map_congr_left fun n mem => ?_
    rw [Function.comp, (reflects.nodes n mem).pattern_freeze]
  · rw [nodes] at mem
    rcases List.mem_map.1 mem with ⟨n, listed, rfl⟩
    have held := reflects.nodes n listed
    rw [held.pattern_freeze]
    exact held.freeze

end PathRouter
