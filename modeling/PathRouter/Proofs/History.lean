import PathRouter.Proofs.Calls
import PathRouter.Proofs.Registration
import Mathlib.Data.List.Nodup

/-!
# History — what a builder holds after a sequence of registrations

Registrations on one level in any order come down to what is said about each place, in order, and to the
middleware and the handler for misses of the level.  This file defines

* `Registration`, with what is registered on nested and mounted routers, and `History.run`;
* `History.uses`, `History.fallback` and `History.about`, what a history says of the level and of a place;
* `Node.Reflects` and `Builder.Reflects`, that nodes and builders hold just that;

and shows `History.reflects`, which holds of all histories.
-/

namespace PathRouter

/-- A registration on a builder.  One that attaches a router comes with the registrations on it. -/
inductive Registration where
  | call (path : Text) (call : NodeCall)
  | route (path : Text) (inner : List Registration)
  | mount (path : Text) (inner : List Registration)
  | useMiddleware (middleware : Middleware)
  | setNotFound (handler : Handler)
  | setOptions (options : RenderOptions)
  | compile

abbrev History := List Registration

mutual

def Registration.run : Registration → Builder → Except Refusal Builder
  | .call path (.handle handler chain), b => b.handle path chain handler
  | .call path (.method name handler chain), b => b.method name path chain handler
  | .call path (.wrapWith middleware), b => b.wrapPath path middleware
  | .route path inner, b => b.nest path (runAll inner)
  | .mount path inner, b =>
    match runAll inner .empty with
    | .error refusal => .error refusal
    | .ok built => b.mount path built.freeze
  | .useMiddleware middleware, b => b.useMiddleware middleware
  | .setNotFound handler, b => b.setNotFound handler
  | .setOptions options, b => b.setOptions options
  | .compile, b => .ok b.compile.2

/-- The builder after the registrations, up to the first that is refused. -/
def Registration.runAll : List Registration → Builder → Except Refusal Builder
  | [], b => .ok b
  | registration :: rest, b =>
    match registration.run b with
    | .error refusal => .error refusal
    | .ok next => runAll rest next

end

namespace Registration

/-! ## Views -/

/-- The canonical form of a path that is accepted. -/
def canonical? (path : Text) : Option Text := (Pattern.compile path).toOption.map Pattern.canonical

/-- The place that a registration is about, in canonical form. -/
def place? : Registration → Option Text
  | .call path _ => canonical? path
  | .route path _ => canonical? (Builder.mountPath path)
  | .mount path _ => canonical? (Builder.mountPath path)
  | _ => none

def call? : Registration → Option NodeCall
  | .call _ c => some c
  | _ => none

/-- What is registered on the router that a registration attaches. -/
def inner? : Registration → Option History
  | .route _ inner => some inner
  | .mount _ inner => some inner
  | _ => none

def middleware? : Registration → Option Middleware
  | .useMiddleware middleware => some middleware
  | _ => none

def fallback? : Registration → Option Handler
  | .setNotFound handler => some handler
  | _ => none

theorem runAll_append {b next : Builder} {first : History} (last : History) :
    runAll first b = .ok next → runAll (first ++ last) b = runAll last next := by
  intro done
  induction first generalizing b with
  | nil =>
      cases done
      rfl
  | cons registration first ih =>
      rw [runAll] at done
      rw [List.cons_append, runAll]
      cases worked : registration.run b with
      | error refusal =>
          rw [worked] at done
          cases done
      | ok middle =>
          rw [worked] at done
          exact ih done

/-- A run that is not refused runs each part. -/
theorem of_runAll_append {b next : Builder} {first last : History} :
    runAll (first ++ last) b = .ok next →
      ∃ middle, runAll first b = .ok middle ∧ runAll last middle = .ok next := by
  intro done
  cases start : runAll first b with
  | ok middle => exact ⟨middle, rfl, by rw [← done, runAll_append last start]⟩
  | error refusal =>
      -- what is refused on the way is refused
      exfalso
      induction first generalizing b with
      | nil => cases start
      | cons registration first ih =>
          rw [List.cons_append, runAll] at done
          rw [runAll] at start
          cases worked : registration.run b with
          | error refusal =>
              rw [worked] at done
              cases done
          | ok middle =>
              rw [worked] at done start
              exact ih done start

end Registration

namespace History

variable {H : History} {place : Text} {registration : Registration}

/-- The builder that the registrations lead to. -/
def run (H : History) : Except Refusal Builder := Registration.runAll H .empty

/-- The middleware around the level, in the order of its registration. -/
def uses (H : History) : List Middleware := H.filterMap Registration.middleware?

/-- The last handler for requests that no route takes. -/
def fallback (H : History) : Option Handler := (H.filterMap Registration.fallback?).getLast?

/-- What is registered at a place. -/
def about (place : Text) (H : History) : History :=
  H.filter fun registration => registration.place? = some place

/-- The places at which something is registered. -/
def places (H : History) : List Text := H.filterMap Registration.place?

/-- The calls among the registrations at a place. -/
def calls (H : History) : List NodeCall := H.filterMap Registration.call?

/-- What has been registered on the routers attached at a place, one after the other. -/
def inners (H : History) : List History := H.filterMap Registration.inner?

def inner (H : History) : History := H.inners.flatten

theorem run_concat (H : History) (registration : Registration) {next : Builder} :
    run (H ++ [registration]) = .ok next ↔
      ∃ b, H.run = .ok b ∧ registration.run b = .ok next := by
  have last (b : Builder) : Registration.runAll [registration] b = registration.run b := by
    rw [Registration.runAll]
    cases registration.run b <;> simp [Registration.runAll]
  constructor
  · intro done
    rcases Registration.of_runAll_append done with ⟨b, first, rest⟩
    exact ⟨b, first, by rw [← last, rest]⟩
  · rintro ⟨b, first, rest⟩
    rw [run, Registration.runAll_append _ first, last, rest]

theorem uses_concat : uses (H ++ [registration]) = H.uses ++ registration.middleware?.toList := by
  cases one : registration.middleware? <;> simp [uses, one]

theorem fallback_concat :
    fallback (H ++ [registration]) = registration.fallback?.or H.fallback := by
  cases one : registration.fallback? <;> simp [fallback, one]

theorem about_concat : about place (H ++ [registration]) =
    if registration.place? = some place then H.about place ++ [registration] else H.about place := by
  by_cases here : registration.place? = some place <;> simp [about, here]

theorem places_concat : places (H ++ [registration]) = H.places ++ registration.place?.toList := by
  cases one : registration.place? <;> simp [places, one]

theorem calls_concat : calls (H ++ [registration]) = H.calls ++ registration.call?.toList := by
  cases one : registration.call? <;> simp [calls, one]

theorem inners_concat : inners (H ++ [registration]) = H.inners ++ registration.inner?.toList := by
  cases one : registration.inner? <;> simp [inners, one]

theorem about_eq_nil_iff : H.about place = [] ↔ place ∉ H.places := by
  simp [about, places]

theorem inner_concat : inner (H ++ [registration]) = H.inner ++ registration.inner?.getD [] := by
  cases one : registration.inner? <;> simp [inner, inners_concat, one]

end History

/-! ## Nodes -/

/-- What a node holds after the registrations at its place: it serves as the calls say, or it holds a
router after all that has been registered on it, nested or mounted. -/
inductive Target.Reflects (L : History) (target : Target) : Prop
  | serving : L.inners = [] → target = NodeCall.target L.calls → Reflects L target
  | holding {b : Builder} : L.inners ≠ [] → L.inner.run = .ok b →
      target = .router b ∨ target = .mounted b.freeze → Reflects L target

/-- A node that holds just what has been registered at its place. -/
inductive Node.Reflects (L : History) : Node → Prop
  | raw {p : Pattern} {target : Target} {chain : List Middleware} :
      target.Reflects L → chain = NodeCall.wraps L.calls → Reflects L (.raw p target chain)

/-- The closure by which a router is nested. -/
def Builder.nesting (f : Builder → Except Refusal Builder) (nested : Builder) :
    Except Refusal Unit × Builder :=
  match f nested with
  | .ok grown => (.ok (), grown)
  | .error refusal => (.error refusal, nested)

theorem Builder.nest_eq_ok {b next : Builder} {path : Text} {f : Builder → Except Refusal Builder} :
    b.nest path f = .ok next → b.route path (nesting f) = .ok (.ok (), next) := by
  intro done
  rw [nest] at done
  split at done <;> cases done
  assumption

theorem Builder.nesting_eq_ok {b grown : Builder} {f : Builder → Except Refusal Builder} {u : Unit} :
    nesting f b = (.ok u, grown) ↔ f b = .ok grown := by
  cases worked : f b <;> simp [nesting, worked]

namespace Node.Reflects

variable {L : History} {n next : Node} {path : Text} {inner : History}

theorem call {c : NodeCall} (reflects : n.Reflects L) :
    c.run n = .ok next → next.Reflects (L ++ [.call path c]) ∧ next.pattern = n.pattern := by
  intro done
  have calls : History.calls (L ++ [.call path c]) = L.calls ++ [c] := History.calls_concat
  have inners : History.inners (L ++ [.call path c]) = L.inners :=
    History.inners_concat.trans (List.append_nil _)
  rcases reflects with @⟨p, target, chain, held, wraps⟩
  cases held with
  | serving bare serves =>
      have after := Node.run_concat c (Node.run_new p L.calls)
      rw [Node.run_new, ← serves, ← wraps, done] at after
      cases after
      exact ⟨.raw (.serving (inners.trans bare) (by rw [calls])) (by rw [calls]), rfl⟩
  | @holding b more ran holds =>
      -- a node that holds a router takes no handlers
      have wrapped : ∃ m, c = .wrapWith m ∧ next = .raw p target (chain ++ [m]) := by
        cases c with
        | handle handler chain => rcases holds with rfl | rfl <;> cases done
        | method name handler chain => rcases holds with rfl | rfl <;> cases done
        | wrapWith m =>
            cases done
            exact ⟨m, rfl, rfl⟩
      rcases wrapped with ⟨m, rfl, rfl⟩
      refine ⟨.raw (.holding (by rwa [inners]) ?_ holds) ?_, rfl⟩
      · rwa [History.inner, inners]
      · rw [calls, NodeCall.wraps_concat, wraps]
        rfl

/-- Where a router is attached, work starts from all that has been registered below. -/
theorem start {p : Pattern} {target : Target} {chain : List Middleware} {b : Builder}
    (reflects : (Node.raw p target chain).Reflects L) :
    target = .empty ∧ b = .empty ∨ target = .router b → L.inner.run = .ok b := by
  intro from_
  rcases reflects with ⟨held, -⟩
  cases held with
  | serving bare serves =>
      have start : target = .empty ∧ b = .empty := by
        refine from_.resolve_right fun router => ?_
        rcases NodeCall.target_cases L.calls with none | ⟨_, _, one⟩ | ⟨_, many⟩
        · cases router.symm.trans (serves.trans none)
        · cases router.symm.trans (serves.trans one)
        · cases router.symm.trans (serves.trans many)
      rw [History.inner, bare, start.2]
      rfl
  | holding more ran holds =>
      rcases from_ with ⟨rfl, -⟩ | rfl
      · rcases holds with holds | holds <;> cases holds
      · rcases holds with holds | holds <;> cases holds
        exact ran

/-- A router is attached to a node that holds none, or, if it is nested, grows where it is. -/
theorem attach {p : Pattern} {target held : Target} {chain : List Middleware} {b grown : Builder}
    {registration : Registration} (reflects : (Node.raw p target chain).Reflects L)
    (attaches : registration.inner? = some inner) (alone : registration.call? = none)
    (start : target = .empty ∧ b = .empty ∨ target = .router b)
    (ran : Registration.runAll inner b = .ok grown)
    (holds : held = .router grown ∨ held = .mounted grown.freeze) :
    (Node.raw p held chain).Reflects (L ++ [registration]) := by
  have inners : History.inners (L ++ [registration]) = L.inners ++ [inner] := by
    rw [History.inners_concat, attaches]
    rfl
  have whole : History.run (History.inner (L ++ [registration])) = .ok grown := by
    rw [History.inner_concat, attaches, History.run]
    exact (Registration.runAll_append inner (reflects.start start)).trans ran
  have calls : History.calls (L ++ [registration]) = L.calls := by
    rw [History.calls_concat, alone]
    exact List.append_nil _
  rcases reflects with ⟨-, wraps⟩
  exact .raw (.holding (by simp [inners]) whole holds) (by rw [calls, wraps])

theorem route (reflects : n.Reflects L) :
    n.route (Builder.nesting (Registration.runAll inner)) = .ok (.ok (), next) →
      next.Reflects (L ++ [.route path inner]) ∧ next.pattern = n.pattern := by
  intro done
  rcases Node.route_eq_ok done with ⟨p, target, chain, b, grown, rfl, -, start, worked, rfl⟩
  have ran := Builder.nesting_eq_ok.1 worked
  exact ⟨reflects.attach rfl rfl start ran (.inl rfl), rfl⟩

theorem mount {b : Builder} (reflects : n.Reflects L) (ran : inner.run = .ok b) :
    n.mount b.freeze = .ok next →
      next.Reflects (L ++ [.mount path inner]) ∧ next.pattern = n.pattern := by
  intro done
  rcases Node.mount_eq_ok done with ⟨p, chain, rfl, -, rfl⟩
  exact ⟨reflects.attach rfl rfl (.inl ⟨rfl, rfl⟩) ran (.inr rfl), rfl⟩

end Node.Reflects

/-! ## Builders -/

/-- A builder that holds just what has been registered: a node for each place, in the order in which the
places are first named. -/
structure Builder.Reflects (H : History) (b : Builder) : Prop where
  chain : b.chain = H.uses
  notFound : b.notFound = H.fallback
  places : b.nodes.map (fun n => n.pattern.canonical) = H.places.eraseDups
  nodes : ∀ n ∈ b.nodes, n.Reflects (H.about n.pattern.canonical)

section Places

variable {α : Type} [BEq α] [LawfulBEq α] {l : List α} {a : α}

theorem eraseDups_concat_of_mem (known : a ∈ l) : (l ++ [a]).eraseDups = l.eraseDups := by
  simp [List.eraseDups_append, List.removeAll, known]

theorem eraseDups_concat_of_not_mem (fresh : a ∉ l) :
    (l ++ [a]).eraseDups = l.eraseDups ++ [a] := by
  simp [List.eraseDups_append, List.removeAll, fresh, List.eraseDups_cons]

theorem nodup_eraseDups (l : List α) : l.eraseDups.Nodup := by
  induction l using List.reverseRecOn with
  | nil => exact List.nodup_nil
  | append_singleton l a ih =>
      by_cases known : a ∈ l
      · rwa [eraseDups_concat_of_mem known]
      · rw [eraseDups_concat_of_not_mem known]
        refine List.nodup_append.2 ⟨ih, List.nodup_singleton a, fun b mem c last => ?_⟩
        rw [List.mem_singleton.1 last]
        rintro rfl
        exact known (List.mem_eraseDups.1 mem)

end Places

namespace Builder

variable {H : History} {b next : Builder} {path : Text} {registration : Registration}

theorem Reflects.nodup (reflects : b.Reflects H) :
    (b.nodes.map fun n => n.pattern.canonical).Nodup :=
  reflects.places ▸ nodup_eraseDups _

/-- Work at a place that has the effect of a registration there. -/
theorem Reflects.edit {α : Type} {operation : String} {f : Node → Except Refusal (α × Node)} {a : α}
    (reflects : b.Reflects H) (place : registration.place? = Registration.canonical? path)
    (work : ∀ L n after, Node.Reflects L n → f n = .ok (a, after) →
      after.Reflects (L ++ [registration]) ∧ after.pattern = n.pattern) :
    b.edit path operation f = .ok (a, next) → next.Reflects (H ++ [registration]) := by
  intro edited
  rcases edit_eq_ok.1 edited with ⟨-, pattern, nodes, compiled, worked, rfl⟩
  have named : registration.place? = some pattern.canonical := by
    rw [place, Registration.canonical?, compiled]
    rfl
  have aside : registration.middleware? = none ∧ registration.fallback? = none := by
    cases registration <;> first | exact ⟨rfl, rfl⟩ | cases named
  have places : History.places (H ++ [registration]) = H.places ++ [pattern.canonical] := by
    rw [History.places_concat, named]
    rfl
  -- only what is said of the one place changes
  have elsewhere {n : Node} (other : n.pattern.canonical ≠ pattern.canonical) :
      History.about n.pattern.canonical (H ++ [registration]) = H.about n.pattern.canonical := by
    rw [History.about_concat, named, if_neg fun same => other (Option.some.inj same).symm]
  have there {n : Node} (same : n.pattern.canonical = pattern.canonical) :
      History.about n.pattern.canonical (H ++ [registration]) =
        H.about n.pattern.canonical ++ [registration] := by
    rw [History.about_concat, named, if_pos (by rw [same])]
  have chain : b.chain = History.uses (H ++ [registration]) := by
    rw [History.uses_concat, aside.1, reflects.chain]
    exact (List.append_nil _).symm
  have notFound : b.notFound = History.fallback (H ++ [registration]) := by
    rw [History.fallback_concat, aside.2, reflects.notFound]
    rfl
  rcases editNodes_cases worked with ⟨first, node, later, n, whole, same, done, rfl⟩ |
    ⟨others, n, done, rfl⟩
  · -- the place has a node, and no other node has the place
    have mem : node ∈ b.nodes := by simp [whole]
    have known : pattern.canonical ∈ H.places := by
      rw [← same, ← List.mem_eraseDups, ← reflects.places]
      exact List.mem_map_of_mem mem
    rcases work _ node n (reflects.nodes node mem) done with ⟨after, kept⟩
    have distinct := reflects.nodup
    rw [whole, List.map_append, List.map_cons, List.nodup_middle, List.nodup_cons, same,
      ← List.map_append] at distinct
    refine ⟨chain, notFound, ?_, fun other listed => ?_⟩
    · rw [places, eraseDups_concat_of_mem known, ← reflects.places, whole]
      simp [kept]
    · by_cases new : other = n
      · rw [new, there (by rw [kept, same]), kept]
        exact after
      · have old : other ∈ first ++ later := by simpa [new] using listed
        have apart : other.pattern.canonical ≠ pattern.canonical := fun eq =>
          distinct.1 (eq ▸ List.mem_map_of_mem old)
        rw [elsewhere apart]
        refine reflects.nodes other ?_
        rw [whole]
        exact (List.perm_middle.mem_iff).2 (List.mem_cons_of_mem _ old)
  · have fresh : pattern.canonical ∉ H.places := by
      rw [← List.mem_eraseDups, ← reflects.places]
      intro mem
      rcases List.mem_map.1 mem with ⟨node, listed, eq⟩
      exact others node listed eq
    have bare : (Node.new pattern).Reflects [] := .raw (.serving rfl rfl) rfl
    rcases work _ _ n bare done with ⟨after, kept⟩
    have here : n.pattern.canonical = pattern.canonical := by rw [kept]; rfl
    refine ⟨chain, notFound, ?_, fun other listed => ?_⟩
    · rw [places, eraseDups_concat_of_not_mem fresh, ← reflects.places]
      simp [here]
    · rcases List.mem_append.1 listed with old | new
      · rw [elsewhere (others other old)]
        exact reflects.nodes other old
      · rw [List.mem_singleton.1 new, there here, here, History.about_eq_nil_iff.2 fresh]
        exact after

/-- A registration that is about no place leaves the nodes. -/
theorem Reflects.level (reflects : b.Reflects H) (nowhere : registration.place? = none)
    (nodes : next.nodes = b.nodes) (chain : next.chain = b.chain ++ registration.middleware?.toList)
    (notFound : next.notFound = registration.fallback?.or b.notFound) :
    next.Reflects (H ++ [registration]) := by
  refine ⟨?_, ?_, ?_, ?_⟩
  · rw [chain, reflects.chain, History.uses_concat]
  · rw [notFound, reflects.notFound, History.fallback_concat]
  · rw [nodes, reflects.places, History.places_concat, nowhere]
    exact congrArg List.eraseDups (List.append_nil _).symm
  · intro n mem
    rw [History.about_concat, nowhere, if_neg (by simp)]
    exact reflects.nodes n (nodes ▸ mem)

theorem Reflects.run (reflects : b.Reflects H) :
    registration.run b = .ok next → next.Reflects (H ++ [registration]) := by
  intro done
  cases registration with
  | call path c =>
      have changed : ∃ operation, b.change path operation c.run = .ok next := by
        cases c <;> exact ⟨_, done⟩
      rcases changed with ⟨operation, changed⟩
      refine reflects.edit rfl (fun L n after held worked => ?_) (change_eq_ok changed)
      rcases map_eq_ok.1 worked with ⟨_, ran, made⟩
      cases made
      exact held.call ran
  | route path inner =>
      exact reflects.edit rfl (fun L n after held worked => held.route worked) (nest_eq_ok done)
  | mount path inner =>
      rw [Registration.run] at done
      cases ran : Registration.runAll inner empty with
      | error refusal =>
          rw [ran] at done
          cases done
      | ok built =>
          rw [ran] at done
          refine reflects.edit rfl (fun L n after held worked => ?_) (change_eq_ok done)
          rcases map_eq_ok.1 worked with ⟨_, mounted, made⟩
          cases made
          exact held.mount ran mounted
  | useMiddleware middleware =>
      rcases map_requireOpen_eq_ok done with ⟨-, rfl⟩
      exact reflects.level rfl rfl rfl rfl
  | setNotFound handler =>
      rcases map_requireOpen_eq_ok done with ⟨-, rfl⟩
      exact reflects.level rfl rfl (List.append_nil _).symm rfl
  | setOptions options =>
      rcases map_requireOpen_eq_ok done with ⟨-, rfl⟩
      exact reflects.level rfl rfl (List.append_nil _).symm rfl
  | compile =>
      cases done
      exact reflects.level rfl rfl (List.append_nil _).symm rfl

end Builder

/-- What a builder holds after a history is what the history says. -/
theorem History.reflects {H : History} {b : Builder} : H.run = .ok b → b.Reflects H := by
  intro done
  induction H using List.reverseRecOn generalizing b with
  | nil =>
      cases done
      exact ⟨rfl, rfl, rfl, nofun⟩
  | append_singleton H registration ih =>
      rcases (run_concat H registration).1 done with ⟨before, ran, last⟩
      exact (ih ran).run last

end PathRouter
