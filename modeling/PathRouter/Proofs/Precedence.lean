import PathRouter.Proofs.Compile
import PathRouter.Proofs.Scan
import PathRouter.Proofs.Trie

/-!
# Precedence — the resolver answers as the scan does

The resolver walks the trie from the longest key down, runs the expressions one by one and compares
the two finds.  This file defines

* `Resolver.ofRoutes`, a resolver after a sequence of insertions;
* `Resolver.holder`, the route that holds a slot;

and shows `Resolver.resolve_ofRoutes`, that the answer is that of `Scan.resolve`.  The walk visits
keys, not offers: since every key starts with a slash, only the key `/` can be longer than what its
route takes, and it is visited last.
-/

namespace PathRouter

/-- The candidate behind an offer. -/
def Bid.candidate (path : Text) (b : Bid) : Candidate :=
  ⟨⟨b.taken, path.drop b.taken.length, b.node, b.params⟩, b.mount⟩

namespace Resolver

/-- The resolver after inserting the routes one after the other. -/
def ofRoutes (routes : List (Pattern × Nat)) : Resolver :=
  routes.foldl (fun r route => r.insert route.1 route.2) .empty

theorem ofRoutes_concat (routes : List (Pattern × Nat)) (route : Pattern × Nat) :
    ofRoutes (routes ++ [route]) = (ofRoutes routes).insert route.1 route.2 := by
  simp [ofRoutes]

/-! ## Slots -/

/-- Whether a route is literal with the key and a mount or not. -/
def fills (key : Text) (mount : Bool) (route : Pattern × Nat) : Bool :=
  route.1.key? = some key && route.1.isMount = mount

/-- The route that holds a slot: the last one inserted there. -/
def holder (routes : List (Pattern × Nat)) (key : Text) (mount : Bool) : Option Nat :=
  (routes.filter (fills key mount)).getLast?.map Prod.snd

theorem holder_concat (routes : List (Pattern × Nat)) (route : Pattern × Nat) (key : Text)
    (mount : Bool) :
    holder (routes ++ [route]) key mount =
      if fills key mount route then some route.2 else holder routes key mount := by
  by_cases filled : fills key mount route = true
  · simp [holder, filled]
  · simp [holder, filled]

theorem holder_cons (route : Pattern × Nat) (later : List (Pattern × Nat)) (key : Text)
    (mount : Bool) :
    holder (route :: later) key mount =
      (holder later key mount <|> if fills key mount route then some route.2 else none) := by
  by_cases filled : fills key mount route = true
  · simp only [holder, List.filter_cons, filled, if_true, List.getLast?_cons]
    cases (later.filter (fills key mount)).getLast? <;> rfl
  · simp [holder, filled]

/-- A slot is held by a later route just if one of them is for the same slot. -/
theorem any_sameSlot {p : Pattern} {key : Text} (literal : p.key? = some key)
    (later : List (Pattern × Nat)) :
    (later.any fun other => Scan.sameSlot p other.1) = (holder later key p.isMount).isSome := by
  induction later with
  | nil => rfl
  | cons other later ih =>
      have same : Scan.sameSlot p other.1 = fills key p.isMount other := by
        simp [Scan.sameSlot, fills, literal, eq_comm]
      rw [List.any_cons, ih, holder_cons, same]
      cases fills key p.isMount other <;> cases holder later key p.isMount <;> rfl

theorem exists_of_holder {routes : List (Pattern × Nat)} {key : Text} {mount : Bool} {node : Nat} :
    holder routes key mount = some node →
      ∃ pattern, (pattern, node) ∈ routes ∧ fills key mount (pattern, node) = true := by
  intro held
  rw [holder, Option.map_eq_some_iff] at held
  rcases held with ⟨route, last, rfl⟩
  exact ⟨route.1, List.mem_filter.1 (List.mem_of_getLast? last)⟩

/-- The slot of a key, as far as it is filled. -/
def slotOf (routes : List (Pattern × Nat)) (key : Text) : Slot :=
  ⟨holder routes key false, holder routes key true⟩

/-- What the trie of a resolver stores is what was inserted last. -/
theorem literals_ofRoutes (routes : List (Pattern × Nat)) :
    (ofRoutes routes).literals.Ordered ∧
      ∀ key, ((ofRoutes routes).literals.get? key).getD ⟨none, none⟩ = slotOf routes key := by
  induction routes using List.reverseRecOn with
  | nil => exact ⟨Trie.ordered_empty, fun key => by rw [ofRoutes, List.foldl_nil, empty, Trie.get?_empty]; rfl⟩
  | append_singleton routes route ih =>
      rcases ih with ⟨ordered, stored⟩
      rw [ofRoutes_concat]
      cases literal : route.1.key? with
      | none =>
          have unfilled : ∀ key mount, fills key mount route = false := by
            simp [fills, literal]
          simp only [insert, literal, slotOf, holder_concat, unfilled]
          exact ⟨ordered, stored⟩
      | some key =>
          refine ⟨?_, fun other => ?_⟩
          · simp only [insert, literal]
            exact Trie.ordered_update _ key ordered
          · simp only [insert, literal, Trie.get?_update _ key other ordered, slotOf, holder_concat]
            by_cases same : other = key
            · subst same
              have slot := stored other
              cases mount : route.1.isMount <;> simp [fills, literal, mount, slot, slotOf]
            · have unfilled : ∀ mount, fills other mount route = false := by
                simp [fills, literal, Ne.symm same]
              simp only [if_neg same, unfilled]
              exact stored other

theorem patterns_ofRoutes (routes : List (Pattern × Nat)) :
    (ofRoutes routes).patterns = routes.filter fun route => route.1.key?.isNone := by
  induction routes using List.reverseRecOn with
  | nil => rfl
  | append_singleton routes route ih =>
      rw [ofRoutes_concat, List.filter_append, ← ih]
      cases literal : route.1.key? with
      | none => simp [insert, literal]
      | some key => simp [insert, literal]

/-! ## Literal offers -/

theorem isExpression_of_ofLiteral {path key : Text} {mount : Bool} {node : Nat} {b : Bid} :
    Bid.ofLiteral path key mount node = some b → b.isExpression = false := by
  intro offered
  simp only [Bid.ofLiteral] at offered
  split_ifs at offered <;> cases offered <;> rfl

theorem isExpression_of_ofExpression {path : Text} {pattern : Pattern} {node : Nat} {regex : Regex}
    {names : List Text} {leaf : Bool} {b : Bid} :
    Bid.ofExpression path pattern node regex names leaf = some b → b.isExpression = true := by
  intro offered
  rcases Option.map_eq_some_iff.1 offered with ⟨m, _, rfl⟩
  rfl

/-- The literal offers are those of the routes that hold a slot. -/
theorem mem_literal_bids {path : Text} {routes : List (Pattern × Nat)} {b : Bid} :
    b ∈ (Scan.bids path routes).filter (fun b => !b.isExpression) ↔
      ∃ key mount node, holder routes key mount = some node ∧
        Bid.ofLiteral path key mount node = some b := by
  induction routes with
  | nil => simp [Scan.bids, holder]
  | cons route later ih =>
      rw [Scan.bids, List.filter_append, List.mem_append, ih]
      cases matching : route.1.matching with
      | expression regex names leaf =>
          have unfilled : ∀ key mount, fills key mount route = false := by
            simp [fills, Pattern.key?, matching]
          have absent : b ∉ ((Scan.bid path route later).toList).filter fun b => !b.isExpression := by
            intro mem
            rcases List.mem_filter.1 mem with ⟨offered, literal⟩
            simp only [Scan.bid, matching] at offered
            simp [isExpression_of_ofExpression (Option.mem_toList.1 offered)] at literal
          simp [absent, holder_cons, unfilled]
      | literal key =>
          have literal : route.1.key? = some key := by simp [Pattern.key?, matching]
          constructor
          · rintro (mem | ⟨other, mount, node, held, offered⟩)
            -- an offer of this route: no later one has taken the slot
            · have offered := Option.mem_toList.1 (List.mem_filter.1 mem).1
              simp only [Scan.bid, matching, any_sameSlot literal] at offered
              split_ifs at offered with shadowed
              have free : holder later key route.1.isMount = none := by simpa using shadowed
              refine ⟨key, route.1.isMount, route.2, ?_, offered⟩
              simp [holder_cons, free, fills, literal]
            · exact ⟨other, mount, node, by simp [holder_cons, held], offered⟩
          · rintro ⟨other, mount, node, held, offered⟩
            rw [holder_cons] at held
            -- the slot is held by a later route, or else by this one
            cases before : holder later other mount with
            | some n =>
                rw [before] at held
                exact Or.inr ⟨other, mount, n, before, by cases held; exact offered⟩
            | none =>
                have filled : fills other mount route = true ∧ route.2 = node := by
                  simpa [before] using held
                have slot : key = other ∧ route.1.isMount = mount := by
                  simpa [fills, literal] using filled.1
                rcases slot with ⟨rfl, rfl⟩
                refine Or.inl (List.mem_filter.2 ⟨?_, by simp [isExpression_of_ofLiteral offered]⟩)
                simp [Scan.bid, matching, any_sameSlot literal, before, filled.2, offered]

/-- The offers of expressions, in the order of insertion. -/
theorem expression_bids (path : Text) (routes : List (Pattern × Nat)) :
    (Scan.bids path routes).filter Bid.isExpression =
      (routes.filter fun route => route.1.key?.isNone).filterMap fun route =>
        Scan.bid path route [] := by
  induction routes with
  | nil => rfl
  | cons route later ih =>
      rw [Scan.bids, List.filter_append, ih]
      cases matching : route.1.matching with
      | literal key =>
          have none : ((Scan.bid path route later).toList).filter Bid.isExpression = [] := by
            rw [List.filter_eq_nil_iff]
            intro b mem
            simp only [Scan.bid, matching] at mem
            split_ifs at mem
            · simp at mem
            · simp [isExpression_of_ofLiteral (Option.mem_toList.1 mem)]
          simp [none, Pattern.key?, matching]
      | expression regex names leaf =>
          have all : ((Scan.bid path route later).toList).filter Bid.isExpression =
              (Scan.bid path route []).toList := by
            rw [List.filter_eq_self.2]
            · simp [Scan.bid, matching]
            · intro b mem
              simp only [Scan.bid, matching] at mem
              exact isExpression_of_ofExpression (Option.mem_toList.1 mem)
          simp only [all, Pattern.key?, matching, List.filter_cons, Option.isNone_none, if_true]
          cases offered : Scan.bid path route [] <;> simp [offered]

/-! ## The walk over keys -/

/-- The better offer of a slot. -/
def slotBid (path key : Text) (slot : Slot) : Option Bid :=
  slot.exact.bind (Bid.ofLiteral path key false) <|> slot.mount.bind (Bid.ofLiteral path key true)

theorem ofLiteral_exact {path key rest : Text} (cut : key ++ rest = path) (node : Nat) :
    Bid.ofLiteral path key false node =
      if rest = [] then some ⟨key, node, .empty, .exact, false⟩ else none := by
  have whole : path = key ↔ rest = [] := by
    rw [← cut, List.append_right_eq_self]
  simp [Bid.ofLiteral, whole]

theorem ofLiteral_mount {path key rest : Text} (cut : key ++ rest = path) (node : Nat) :
    Bid.ofLiteral path key true node =
      if key = ['/'] then some ⟨[], node, .empty, .mount, true⟩
      else if rest = [] ∨ rest.head? = some '/' then some ⟨key, node, .empty, .mount, true⟩
      else none := by
  by_cases root : key = ['/']
  · subst root
    have first : path.head? = some '/' := by rw [← cut]; rfl
    simp [Bid.ofLiteral, first]
  · have whole : path = key ↔ rest = [] := by
      rw [← cut, List.append_right_eq_self]
    have below : key ++ ['/'] <+: path ↔ rest.head? = some '/' := by
      rw [← cut, List.prefix_append_right_inj]
      cases rest with
      | nil => simp
      | cons c rest => simp [List.cons_prefix_cons, eq_comm]
    simp only [Bid.ofLiteral, if_true, if_neg root, whole, below]

/-- The candidate of a slot is its better offer. -/
theorem slotCandidate_eq {path key rest : Text} (cut : key ++ rest = path) (slot : Slot) :
    slotCandidate path key rest slot = (slotBid path key slot).map (Bid.candidate path) := by
  have left : path.drop key.length = rest := by rw [← cut, List.drop_left]
  -- the exact route is asked first, then the mount
  have exact : (if rest.isEmpty then
      slot.exact.map fun node => (⟨⟨key, [], node, .empty⟩, false⟩ : Candidate) else none) =
        (slot.exact.bind (Bid.ofLiteral path key false)).map (Bid.candidate path) := by
    cases slot.exact with
    | none => simp
    | some node =>
        rw [Option.bind_some, ofLiteral_exact cut]
        cases rest with
        | nil => simp [Bid.candidate, left]
        | cons c rest => simp
  have mount : (slot.mount.bind fun node =>
      if key = ['/'] then some (⟨⟨[], path, node, .empty⟩, true⟩ : Candidate)
      else if rest.isEmpty || rest.head? == some '/' then
        some ⟨⟨key, rest, node, .empty⟩, true⟩
      else none) =
        (slot.mount.bind (Bid.ofLiteral path key true)).map (Bid.candidate path) := by
    cases slot.mount with
    | none => rfl
    | some node =>
        rw [Option.bind_some, Option.bind_some, ofLiteral_mount cut]
        by_cases root : key = ['/']
        · simp [root, Bid.candidate]
        · by_cases boundary : rest = [] ∨ rest.head? = some '/'
          · simp [root, boundary, Bid.candidate, left]
          · simp [root, boundary]
  rw [slotCandidate, exact, mount, slotBid]
  cases slot.exact.bind (Bid.ofLiteral path key false) <;> rfl

/-- The walk over the keys in the trie finds the first offer of a slot. -/
theorem literalCandidate_eq (routes : List (Pattern × Nat)) (path : Text) :
    (ofRoutes routes).literalCandidate path =
      ((Text.cuts path).findSome? fun cut => slotBid path cut.1 (slotOf routes cut.1)).map
        (Bid.candidate path) := by
  have stored := (literals_ofRoutes routes).2
  -- where the trie has no value the slot is empty and makes no offer, so all cuts may be tried
  have walk : ∀ l : List (Text × Text), (∀ cut ∈ l, cut.1 ++ cut.2 = path) →
      (l.filterMap fun cut =>
        ((ofRoutes routes).literals.get? cut.1).map fun v => (cut.1, cut.2, v)).findSome?
          (fun found => slotCandidate path found.1 found.2.1 found.2.2) =
        (l.findSome? fun cut => slotBid path cut.1 (slotOf routes cut.1)).map
          (Bid.candidate path) := by
    intro l cuts
    induction l with
    | nil => rfl
    | cons cut l ih =>
        have here := slotCandidate_eq (cuts cut List.mem_cons_self)
        have rest := ih fun other mem => cuts other (List.mem_cons_of_mem cut mem)
        have slot := stored cut.1
        cases found : (ofRoutes routes).literals.get? cut.1 with
        | none =>
            rw [found, Option.getD_none] at slot
            simp only [List.filterMap_cons, found, Option.map_none, List.findSome?_cons, ← slot]
            exact rest
        | some v =>
            rw [found, Option.getD_some] at slot
            simp only [List.filterMap_cons, found, Option.map_some, List.findSome?_cons, here, slot,
              rest]
            cases slotBid path cut.1 (slotOf routes cut.1) <;> rfl
  rw [literalCandidate, Trie.prefixes_eq]
  exact walk (Text.cuts path) fun cut mem => Text.mem_cuts.1 mem

/-- A literal offer comes from a cut of the path. -/
theorem exists_cut_of_ofLiteral {path key : Text} {mount : Bool} {node : Nat} {b : Bid} :
    Bid.ofLiteral path key mount node = some b → ∃ rest, key ++ rest = path := by
  intro offered
  simp only [Bid.ofLiteral] at offered
  split_ifs at offered with mounts root first below same
  · cases path with
    | nil => cases first
    | cons c rest =>
        rw [List.head?_cons, Option.some.injEq] at first
        exact ⟨rest, by rw [root, first]; rfl⟩
  · rcases below with rfl | ⟨rest, eq⟩
    · exact ⟨[], List.append_nil _⟩
    · exact ⟨'/' :: rest, by rw [← eq, List.append_assoc]; rfl⟩
  · exact ⟨[], by rw [same, List.append_nil]⟩

theorem exists_holder_of_slotBid {routes : List (Pattern × Nat)} {path key : Text} {b : Bid} :
    slotBid path key (slotOf routes key) = some b →
      ∃ mount node, holder routes key mount = some node ∧
        Bid.ofLiteral path key mount node = some b ∧
        (mount = true → (holder routes key false).bind (Bid.ofLiteral path key false) = none) := by
  intro offered
  cases exact : (holder routes key false).bind (Bid.ofLiteral path key false) with
  | some a =>
      rw [slotBid, slotOf, exact] at offered
      cases offered
      rcases Option.bind_eq_some_iff.1 exact with ⟨node, held, offer⟩
      exact ⟨false, node, held, offer, fun mount => absurd mount Bool.false_ne_true⟩
  | none =>
      have mount : (holder routes key true).bind (Bid.ofLiteral path key true) = some b := by
        simpa [slotBid, slotOf, exact] using offered
      rcases Option.bind_eq_some_iff.1 mount with ⟨node, held, offer⟩
      exact ⟨true, node, held, offer, fun _ => rfl⟩

/-- An offer for a slot with a longer key takes more. -/
theorem beats_of_longer_key {path key key' : Text} {mount mount' : Bool} {node node' : Nat}
    {b x : Bid} (longer : key'.length < key.length) (slash : ∃ tail, key' = '/' :: tail)
    (offered : Bid.ofLiteral path key mount node = some b)
    (other : Bid.ofLiteral path key' mount' node' = some x) : b.beats x = true := by
  rcases slash with ⟨tail, rfl⟩
  have notRoot : key ≠ ['/'] := by
    rintro rfl
    simp at longer
  have takesKey : b.taken = key := by
    simp only [Bid.ofLiteral, if_neg notRoot] at offered
    split_ifs at offered <;> cases offered <;> rfl
  have takesLess : x.taken.length ≤ ('/' :: tail).length := by
    simp only [Bid.ofLiteral] at other
    split_ifs at other <;> cases other <;> simp
  rw [Bid.beats_iff, takesKey]
  exact Or.inl (Nat.lt_of_le_of_lt takesLess longer)

/-- The exact route of a key beats the mount with that key. -/
theorem exact_beats_mount {path key : Text} {node node' : Nat} {b x : Bid}
    (slash : ∃ tail, key = '/' :: tail) (offered : Bid.ofLiteral path key false node = some b)
    (other : Bid.ofLiteral path key true node' = some x) : b.beats x = true := by
  rcases slash with ⟨tail, rfl⟩
  have exact : b = ⟨'/' :: tail, node, .empty, .exact, false⟩ := by
    simp only [Bid.ofLiteral, Bool.false_eq_true, if_false] at offered
    split_ifs at offered
    cases offered
    rfl
  have mount : x.kind = .mount ∧ (x.taken = [] ∨ x.taken = '/' :: tail) := by
    simp only [Bid.ofLiteral] at other
    split_ifs at other <;> cases other <;> simp
  rw [Bid.beats_iff, exact, mount.1]
  rcases mount.2 with taken | taken <;> simp [taken, BidKind.rank]

theorem exists_cons_of_holder {routes : List (Pattern × Nat)} {key : Text} {mount : Bool}
    {node : Nat} (compiled : ∀ route ∈ routes, ∃ raw, Pattern.compile raw = .ok route.1) :
    holder routes key mount = some node → ∃ tail, key = '/' :: tail := by
  intro held
  rcases exists_of_holder held with ⟨pattern, mem, filled⟩
  rcases compiled _ mem with ⟨raw, ok⟩
  have slot : pattern.key? = some key ∧ pattern.isMount = mount := by
    simpa [fills] using filled
  exact Pattern.exists_cons_of_key ok slot.1

/-- An offer for a slot is found where the path is cut after the key. -/
theorem slotBid_ne_none {routes : List (Pattern × Nat)} {path key : Text} {mount : Bool}
    {node : Nat} {b : Bid} (held : holder routes key mount = some node)
    (offered : Bid.ofLiteral path key mount node = some b) :
    slotBid path key (slotOf routes key) ≠ none := by
  cases mount <;> simp [slotBid, slotOf, held, offered]

/-- The offer that a slot makes beats the other offer for its key. -/
theorem beats_of_slotBid {routes : List (Pattern × Nat)} {path key : Text} {mount : Bool}
    {node : Nat} {b x : Bid} (slashed : ∃ tail, key = '/' :: tail)
    (found : slotBid path key (slotOf routes key) = some b)
    (held : holder routes key mount = some node)
    (offered : Bid.ofLiteral path key mount node = some x) (differs : x ≠ b) :
    b.beats x = true := by
  rcases exists_holder_of_slotBid found with ⟨mount', node', held', offered', alone⟩
  by_cases same : mount = mount'
  · -- one slot has one offer
    subst same
    rw [held', Option.some.injEq] at held
    rw [← held, offered', Option.some.injEq] at offered
    exact absurd offered.symm differs
  · cases mount' with
    | false =>
        rw [Bool.not_eq_false] at same
        subst same
        exact exact_beats_mount slashed offered' offered
    | true =>
        -- a mount is asked only if there is no offer from the exact route
        rw [Bool.not_eq_true] at same
        subst same
        simp [held, offered] at alone

/-- The first offer on the walk beats every other literal offer. -/
theorem winner_literal {routes : List (Pattern × Nat)}
    (compiled : ∀ route ∈ routes, ∃ raw, Pattern.compile raw = .ok route.1) (path : Text) :
    Scan.winner ((Scan.bids path routes).filter fun b => !b.isExpression) =
      (Text.cuts path).findSome? fun cut => slotBid path cut.1 (slotOf routes cut.1) := by
  cases walk : (Text.cuts path).findSome? fun cut => slotBid path cut.1 (slotOf routes cut.1) with
  | none =>
      rw [Scan.winner_eq_none, List.eq_nil_iff_forall_not_mem]
      intro b mem
      rcases mem_literal_bids.1 mem with ⟨key, mount, node, held, offered⟩
      rcases exists_cut_of_ofLiteral offered with ⟨rest, cut⟩
      have missed := List.findSome?_eq_none_iff.1 walk (key, rest) (Text.mem_cuts.2 cut)
      exact slotBid_ne_none held offered missed
  | some b =>
      rcases List.findSome?_eq_some_iff.1 walk with
        ⟨before, ⟨key, rest⟩, after, cuts, found, skipped⟩
      have mine : b ∈ (Scan.bids path routes).filter fun b => !b.isExpression := by
        rcases exists_holder_of_slotBid found with ⟨mount, node, held, offered, -⟩
        exact mem_literal_bids.2 ⟨key, mount, node, held, offered⟩
      apply Scan.winner_eq_some_of_beats mine
      intro x mem differs
      rcases mem_literal_bids.1 mem with ⟨key', mount', node', held', offered'⟩
      rcases exists_cut_of_ofLiteral offered' with ⟨rest', cut'⟩
      have slashed := exists_cons_of_holder compiled held'
      have position : (key', rest') ∈ before ++ (key, rest) :: after := by
        rw [← cuts]
        exact Text.mem_cuts.2 cut'
      -- the other key is longer, the same or shorter
      rcases List.mem_append.1 position with early | late
      · exact absurd (skipped _ early) (slotBid_ne_none held' offered')
      · rcases List.mem_cons.1 late with same | later
        · rcases Prod.mk.inj same with ⟨rfl, rfl⟩
          exact beats_of_slotBid slashed found held' offered' differs
        · have shorter : key'.length < key.length := by
            have order := Text.cuts_pairwise path
            rw [cuts, List.pairwise_append] at order
            exact (List.pairwise_cons.1 order.2.1).1 _ later
          rcases exists_holder_of_slotBid found with ⟨mount, node, -, offered, -⟩
          exact beats_of_longer_key shorter slashed offered offered'

/-! ## Expressions -/

theorem cut_eq {path whole rest : Text} (parts : whole ++ rest = path) (giveBack : Bool) :
    let taken := if giveBack && Pattern.endsIn '/' whole then whole.dropLast else whole
    cut giveBack whole rest = (taken, path.drop taken.length) := by
  simp only [cut, Pattern.endsIn]
  by_cases ends : (giveBack && whole.getLast? == some '/') = true
  · rcases Bool.and_eq_true_iff.1 ends with ⟨_, slash⟩
    rcases Pattern.endsIn_iff.1 slash with ⟨before, rfl⟩
    have left : path.drop before.length = '/' :: rest := by
      rw [← parts, List.append_assoc, List.drop_left]
      rfl
    simp only [if_pos ends, List.dropLast_concat, left]
  · simp only [ends, ← parts]
    simp

/-- An expression offers what it matches. -/
theorem patternMatch_eq (path : Text) (route : Pattern × Nat) (varies : route.1.key? = none) :
    patternMatch route.1 route.2 path =
      (Scan.bid path route []).map (Bid.candidate path) := by
  cases matching : route.1.matching with
  | literal key => simp [Pattern.key?, matching] at varies
  | expression regex names leaf =>
      simp only [patternMatch, Scan.bid, matching, Bid.ofExpression]
      cases found : regex.match? path with
      | none => rfl
      | some m =>
          have parts := cut_eq (Regex.whole_append_rest found) (!leaf)
          simp only [Option.map_some, parts, Bid.candidate]

theorem longer_map (path : Text) (best next : Option Bid) :
    longer (best.map (Bid.candidate path)) (next.map (Bid.candidate path)) =
      (Scan.merge best next).map (Bid.candidate path) := by
  cases best with
  | none => cases next <;> rfl
  | some b =>
      cases next with
      | none => rfl
      | some n =>
          by_cases more : b.taken.length < n.taken.length <;>
            simp [longer, Scan.merge, Bid.candidate, more]

/-- Among expressions taking more is all that counts. -/
theorem better_eq_merge {best : Option Bid} {b : Bid} (kind : b.isExpression = true)
    (kinds : ∀ x ∈ best, x.isExpression = true) : Scan.better best b = Scan.merge best (some b) := by
  have rank := Scan.rank_of_isExpression kind
  cases best with
  | none => rfl
  | some a =>
      have rankA := Scan.rank_of_isExpression (kinds a rfl)
      have beats : b.beats a = true ↔ a.taken.length < b.taken.length := by
        rw [Bid.beats_iff]
        omega
      simp only [Scan.better, Scan.merge, beats]

/-- The loop over the expressions finds the first of the best among their offers. -/
theorem patternCandidate_eq (routes : List (Pattern × Nat)) (path : Text) :
    (ofRoutes routes).patternCandidate path =
      (Scan.winner ((Scan.bids path routes).filter Bid.isExpression)).map (Bid.candidate path) := by
  -- the best so far is general, but always the offer of an expression
  have loop : ∀ (l : List (Pattern × Nat)) (best : Option Bid),
      (∀ route ∈ l, route.1.key? = none) → (∀ x ∈ best, x.isExpression = true) →
      l.foldl (fun best route => longer best (patternMatch route.1 route.2 path))
          (best.map (Bid.candidate path)) =
        ((l.filterMap fun route => Scan.bid path route []).foldl Scan.better best).map
          (Bid.candidate path) := by
    intro l
    induction l with
    | nil => intro best _ _; rfl
    | cons route l ih =>
        rcases route with ⟨pattern, node⟩
        intro best varies kinds
        have here : pattern.key? = none := varies _ List.mem_cons_self
        have rest : ∀ other ∈ l, other.1.key? = none :=
          fun other mem => varies other (List.mem_cons_of_mem _ mem)
        have offer := patternMatch_eq path (pattern, node) here
        simp only [List.foldl_cons, offer, longer_map]
        cases offered : Scan.bid path (pattern, node) [] with
        | none =>
            have same : Scan.merge best none = best := by cases best <;> rfl
            simp only [same, List.filterMap_cons, offered]
            exact ih best rest kinds
        | some b =>
            have kind : b.isExpression = true := by
              cases matching : pattern.matching with
              | literal key => simp [Pattern.key?, matching] at here
              | expression regex names leaf =>
                  simp only [Scan.bid, matching] at offered
                  exact isExpression_of_ofExpression offered
            simp only [List.filterMap_cons, offered, List.foldl_cons, ← better_eq_merge kind kinds]
            apply ih _ rest
            intro x won
            rcases Scan.mem_better won with mem | rfl
            · exact kinds x mem
            · exact kind
  rw [patternCandidate, patterns_ofRoutes, expression_bids]
  refine loop _ none (fun route mem => ?_) (fun x mem => absurd mem (Option.not_mem_none x))
  simpa using (List.mem_filter.1 mem).2

/-! ## The winner -/

/-- The better of the two finds is the winner of the scan. -/
theorem best_ofRoutes {routes : List (Pattern × Nat)}
    (compiled : ∀ route ∈ routes, ∃ raw, Pattern.compile raw = .ok route.1) (path : Text) :
    longer ((ofRoutes routes).literalCandidate path) ((ofRoutes routes).patternCandidate path) =
      (Scan.winner (Scan.bids path routes)).map (Bid.candidate path) := by
  rw [literalCandidate_eq, patternCandidate_eq, ← winner_literal compiled, longer_map,
    ← Scan.winner_eq_merge]

theorem resolve_of_best {r : Resolver} {path : Text} {best : Option Bid}
    (found : longer (r.literalCandidate path) (r.patternCandidate path) =
      best.map (Bid.candidate path)) : r.resolve path = Scan.answer path best := by
  rw [resolve, found]
  cases best with
  | none => rfl
  | some b => simp [Scan.answer, Bid.candidate, and_assoc]

/-- A resolver with one route answers with what that route offers. -/
theorem resolve_singleton {raw : Text} {p : Pattern} (compiled : Pattern.compile raw = .ok p)
    (node : Nat) (path : Text) :
    (ofRoutes [(p, node)]).resolve path = Scan.answer path (Scan.bid path (p, node) []) := by
  have all : ∀ route ∈ [(p, node)], ∃ raw, Pattern.compile raw = .ok route.1 := by
    intro route mem
    rw [List.mem_singleton.1 mem]
    exact ⟨raw, compiled⟩
  have alone : Scan.winner (Scan.bids path [(p, node)]) = Scan.bid path (p, node) [] := by
    rw [Scan.bids, Scan.bids, List.append_nil]
    cases Scan.bid path (p, node) [] <;> rfl
  apply resolve_of_best
  rw [best_ofRoutes all, alone]

/-- The answer of a resolver to a path is that of the scan over its routes. -/
theorem resolve_ofRoutes (routes : List (Pattern × Nat))
    (compiled : ∀ route ∈ routes, ∃ raw, Pattern.compile raw = .ok route.1) (path : Text) :
    (ofRoutes routes).resolve path = Scan.resolve routes path := by
  rw [resolve_of_best (best_ofRoutes compiled path), Scan.resolve]

/-- An expression takes more than the mount and the root mount, which take part as well. -/
theorem resolve_ofRoutes_overlapping :
    let mount (raw key : String) : Pattern :=
      ⟨raw.toList, raw.toList.dropLast, raw.toList, .literal key.toList⟩
    let last : Template := .slash (.capture ['x'] [] (.slash (.literal ['b'] .done)))
    let routes : List (Pattern × Nat) :=
      [(mount "/*" "/", 0), (mount "/a/*" "/a", 1),
        (⟨last.toText, last.toText, last.toText, .expression last.matcher [['x']] true⟩, 2)]
    (∀ route ∈ routes, ∃ raw, Pattern.compile raw = .ok route.1) ∧
      (ofRoutes routes).resolve "/a/b".toList =
        .matched ⟨"/a/b".toList, [], 2, ⟨[(['x'], .one ['a'])]⟩⟩ := by
  intro mount last routes
  have compiled : ∀ route ∈ routes, ∃ raw, Pattern.compile raw = .ok route.1 := by
    intro route mem
    rcases List.mem_cons.1 mem with rfl | mem
    · exact ⟨"/*".toList, rfl⟩
    rcases List.mem_cons.1 mem with rfl | mem
    · exact ⟨"/a/*".toList, rfl⟩
    rw [List.mem_singleton.1 mem]
    exact ⟨last.toText, rfl⟩
  exact ⟨compiled, (resolve_ofRoutes routes compiled _).trans rfl⟩

end Resolver
end PathRouter
