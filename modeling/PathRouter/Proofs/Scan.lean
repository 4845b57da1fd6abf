import PathRouter.Proofs.Ways
import PathRouter.Routing.Resolver

/-!
# Scan — the winner among the routes, by looking at each of them

This is the plain reading of precedence, with neither a trie nor an order of search.  It defines

* `Bid`, what one route offers for a path, and `Bid.beats`, which of two offers is better;
* `Scan.bids`, the offers of all routes, and `Scan.winner`, the first of the best;
* `Scan.resolve`, the answer to a path.

`Scan.winner_eq_merge` splits the winner into the best literal and the best expression.
-/

namespace PathRouter

/-- What kind of route makes an offer. -/
inductive BidKind where
  | expression
  | mount
  | exact
  deriving DecidableEq

/-- The standing of a kind among offers that take equally much. -/
def BidKind.rank : BidKind → Nat
  | .expression => 0
  | .mount => 1
  | .exact => 2

/-- What one route offers for a path. -/
structure Bid where
  /-- The beginning of the path that the route takes. -/
  taken : Text
  node : Nat
  params : Params
  kind : BidKind
  /-- Whether the route is a mount. -/
  mount : Bool

namespace Bid

/-- Whether an offer is better: it takes more, or as much with a better standing. -/
def beats (a b : Bid) : Bool :=
  b.taken.length < a.taken.length ||
    (a.taken.length = b.taken.length && b.kind.rank < a.kind.rank)

/-- Whether the offer is that of an expression. -/
def isExpression (b : Bid) : Bool := b.kind = .expression

/-- The offer of the literal route with a key. -/
def ofLiteral (path key : Text) (mount : Bool) (node : Nat) : Option Bid :=
  if mount then
    if key = ['/'] then
      if path.head? = some '/' then some ⟨[], node, .empty, .mount, true⟩ else none
    else if path = key ∨ key ++ ['/'] <+: path then some ⟨key, node, .empty, .mount, true⟩
    else none
  else if path = key then some ⟨key, node, .empty, .exact, false⟩
  else none

/-- The offer of an expression: a slash at the end of what it matches is left, unless the pattern
is a leaf. -/
def ofExpression (path : Text) (pattern : Pattern) (node : Nat) (regex : Regex)
    (names : List Text) (leaf : Bool) : Option Bid :=
  (regex.match? path).map fun m =>
    let whole := m.whole path
    let taken := if !leaf && Pattern.endsIn '/' whole then whole.dropLast else whole
    ⟨taken, node, Resolver.captured names m.captures, .expression, pattern.isMount⟩

end Bid

namespace Scan

/-- Whether two patterns are literal with one key and both or neither are mounts. -/
def sameSlot (p q : Pattern) : Bool :=
  p.key?.isSome && p.key? = q.key? && p.isMount = q.isMount

/-- The offer of a route, given the routes that were inserted later. -/
def bid (path : Text) (route : Pattern × Nat) (later : List (Pattern × Nat)) : Option Bid :=
  match route.1.matching with
  | .literal key =>
    if later.any fun other => sameSlot route.1 other.1 then none
    else Bid.ofLiteral path key route.1.isMount route.2
  | .expression regex names leaf => Bid.ofExpression path route.1 route.2 regex names leaf

/-- The offers of all routes, in the order of insertion. -/
def bids (path : Text) : List (Pattern × Nat) → List Bid
  | [] => []
  | route :: later => (bid path route later).toList ++ bids path later

/-- The better of two offers: the second only if it beats the first. -/
def better (best : Option Bid) (next : Bid) : Option Bid :=
  match best with
  | none => some next
  | some b => if next.beats b then some next else some b

/-- The best offer, and of equals the first. -/
def winner (offers : List Bid) : Option Bid := offers.foldl better none

/-- The answer to a path, given the best offer. -/
def answer (path : Text) : Option Bid → Resolution
  | none => .notFound
  | some b =>
    let m : RouteMatch := ⟨b.taken, path.drop b.taken.length, b.node, b.params⟩
    if b.mount ∧ m.remainder = [] ∧ m.taken ≠ [] then .redirect m else .matched m

/-- The answer to a path, from the list of routes. -/
def resolve (routes : List (Pattern × Nat)) (path : Text) : Resolution :=
  answer path (winner (bids path routes))

end Scan

/-! ## The best of a list -/

theorem Bid.beats_iff {a b : Bid} :
    a.beats b = true ↔
      b.taken.length < a.taken.length ∨
        (a.taken.length = b.taken.length ∧ b.kind.rank < a.kind.rank) := by
  simp [Bid.beats]

theorem Bid.not_beats_of_not_beats {x a b : Bid} :
    ¬ x.beats a = true → b.beats a = true → ¬ x.beats b = true := by
  simp only [Bid.beats_iff]
  omega

namespace Scan

theorem winner_concat (offers : List Bid) (b : Bid) :
    winner (offers ++ [b]) = better (winner offers) b := by
  simp [winner]

theorem mem_better {best : Option Bid} {b x : Bid} : x ∈ better best b → x ∈ best ∨ x = b := by
  intro mem
  cases best with
  | none => exact Or.inr (Option.some.inj mem).symm
  | some a =>
      simp only [better] at mem
      split_ifs at mem
      · exact Or.inr (Option.some.inj mem).symm
      · exact Or.inl mem

theorem winner_eq_none {offers : List Bid} : winner offers = none ↔ offers = [] := by
  cases offers using List.reverseRecOn with
  | nil => simp [winner]
  | append_singleton offers b =>
      rw [winner_concat]
      cases before : winner offers with
      | none => simp [better]
      | some a => by_cases beaten : b.beats a = true <;> simp [better, beaten]

/-- The winner is one of the offers, and none of them is better. -/
theorem winner_best {offers : List Bid} {w : Bid} :
    winner offers = some w → w ∈ offers ∧ ∀ x ∈ offers, ¬ x.beats w = true := by
  induction offers using List.reverseRecOn generalizing w with
  | nil =>
      intro won
      cases won
  | append_singleton offers b ih =>
      intro won
      rw [winner_concat] at won
      have selfless : ¬ b.beats b = true := by simp [Bid.beats]
      cases before : winner offers with
      | none =>
          have empty : offers = [] := winner_eq_none.1 before
          rw [before] at won
          cases won
          subst empty
          refine ⟨List.mem_cons_self, fun x mem => ?_⟩
          rw [List.mem_singleton.1 mem]
          exact selfless
      | some a =>
          rcases ih before with ⟨memA, topA⟩
          -- what the last offer beats has withstood all that came before
          by_cases beaten : b.beats a = true
          · simp only [better, before, if_pos beaten, Option.some.injEq] at won
            subst won
            refine ⟨List.mem_append_right _ List.mem_cons_self, fun x mem => ?_⟩
            rcases List.mem_append.1 mem with mem | mem
            · exact Bid.not_beats_of_not_beats (topA x mem) beaten
            · rw [List.mem_singleton.1 mem]
              exact selfless
          · simp only [better, before, if_neg beaten, Option.some.injEq] at won
            subst won
            refine ⟨List.mem_append_left _ memA, fun x mem => ?_⟩
            rcases List.mem_append.1 mem with mem | mem
            · exact topA x mem
            · rw [List.mem_singleton.1 mem]
              exact beaten

/-- An offer that beats all others wins. -/
theorem winner_eq_some_of_beats {offers : List Bid} {b : Bid} (mem : b ∈ offers) :
    (∀ x ∈ offers, x ≠ b → b.beats x = true) → winner offers = some b := by
  intro best
  cases won : winner offers with
  | none =>
      rw [winner_eq_none] at won
      simp [won] at mem
  | some w =>
      rcases winner_best won with ⟨memW, topW⟩
      by_cases same : w = b
      · rw [same]
      · exact absurd (best w memW same) (topW b mem)

/-- The better of a literal offer and the offer of an expression. -/
def merge (literal expression : Option Bid) : Option Bid :=
  match literal, expression with
  | some l, some e => if l.taken.length < e.taken.length then some e else some l
  | some l, none => some l
  | none, e => e

theorem rank_of_isExpression {b : Bid} : b.isExpression = true → b.kind.rank = 0 := by
  intro kind
  rw [of_decide_eq_true kind, BidKind.rank]

theorem rank_pos_of_not_isExpression {b : Bid} : b.isExpression = false → 0 < b.kind.rank := by
  intro kind
  cases h : b.kind with
  | expression => simp [Bid.isExpression, h] at kind
  | mount => exact Nat.one_pos
  | exact => exact Nat.two_pos

theorem merge_better_literal {l e : Option Bid} {b : Bid} (kind : b.isExpression = false)
    (kinds : ∀ x ∈ e, x.isExpression = true) :
    better (merge l e) b = merge (better l b) e := by
  have rank := rank_pos_of_not_isExpression kind
  cases e with
  | none =>
      cases l with
      | none => rfl
      | some a => simp only [merge, better]; split_ifs <;> rfl
  | some x =>
      have rankX := rank_of_isExpression (kinds x rfl)
      cases l with
      | none => simp only [merge, better, Bid.beats_iff]; grind
      | some a => simp only [merge, better, Bid.beats_iff]; grind

theorem merge_better_expression {l e : Option Bid} {b : Bid} (kind : b.isExpression = true)
    (kinds : ∀ x ∈ l, x.isExpression = false) (others : ∀ x ∈ e, x.isExpression = true) :
    better (merge l e) b = merge l (better e b) := by
  have rank := rank_of_isExpression kind
  cases l with
  | none => cases e <;> rfl
  | some a =>
      have rankA := rank_pos_of_not_isExpression (kinds a rfl)
      cases e with
      | none => simp only [merge, better, Bid.beats_iff]; grind
      | some x =>
          have rankX := rank_of_isExpression (others x rfl)
          simp only [merge, better, Bid.beats_iff]
          grind

theorem winner_kind {offers : List Bid} {p : Bid → Bool} {w : Bid} :
    winner (offers.filter p) = some w → p w = true := by
  intro won
  exact (List.mem_filter.1 (winner_best won).1).2

/-- The winner is the better of the best literal and the best expression. -/
theorem winner_eq_merge (offers : List Bid) :
    winner offers =
      merge (winner (offers.filter fun b => !b.isExpression))
        (winner (offers.filter Bid.isExpression)) := by
  induction offers using List.reverseRecOn with
  | nil => rfl
  | append_singleton offers b ih =>
      have literals : ∀ x ∈ winner (offers.filter fun b => !b.isExpression),
          x.isExpression = false := by
        intro x won
        simpa using winner_kind won
      have expressions : ∀ x ∈ winner (offers.filter Bid.isExpression),
          x.isExpression = true := fun x won => winner_kind won
      rw [winner_concat, ih, List.filter_append, List.filter_append]
      cases kind : b.isExpression with
      | false => simp [kind, winner_concat, merge_better_literal kind expressions]
      | true => simp [kind, winner_concat, merge_better_expression kind literals expressions]

end Scan
end PathRouter
