import PathRouter.Proofs.Tree
import PathRouter.Proofs.Single
import PathRouter.Proofs.Walk

/-!
# Listing — the order in which the routes of a router are listed

Nodes are told apart by their canonical forms, and the slots of the resolver by keys.  The two agree but
for `/*` and `//*`, which share a slot.  This file defines

* `Router.Precedes`, the order of the nodes of a level, and `Router.Shadowed`, a node that is not listed;
* `Router.ListsLevel` and `Router.Enumerates`, that all other nodes are listed once and in order, on one
  level and on all;

and shows `Resolver.mem_order` and `Resolver.pairwise_order`, what a resolver lists, and
`History.enumerates`, that all histories lead to routers which list what has been registered.
-/

namespace PathRouter

/-! ## Slots -/

namespace Pattern

variable {p q : Pattern} {raw other key : Text}

/-- The slot of a literal pattern tells its canonical form, except that the root mount `/*` has the key
`/`. -/
theorem canonical_of_key (compiled : compile raw = .ok p) (literal : p.key? = some key) :
    p.canonical = (if p.isMount then key ++ ['/', '*'] else key) ∨
      key = ['/'] ∧ p.isMount = true ∧ p.canonical = ['/', '*'] := by
  rcases describes_of_compile compiled with ⟨t, described⟩
  have held := (key_spec described literal).2
  rcases described.canonical with form | ⟨path, root⟩
  · have mount := Template.isMount_of_describes described form
    rcases Template.parse_sound described.parsed with ⟨-, legal, spelled⟩
    have ends : endsIn '/' p.path = t.endsInSlash := by rw [← spelled, Template.endsIn_toText legal]
    cases slash : t.endsInSlash with
    | false =>
        rw [slash] at ends mount
        refine .inl ?_
        rw [mount, form, mountForm, ends, ← held, Template.literalKey_of_leaf ends]
        rfl
    | true =>
        rw [slash] at ends mount
        rcases endsIn_iff.1 ends with ⟨stem, path⟩
        rw [path, Template.literalKey_append_slash] at held
        rw [mount, form, mountForm, ends, path]
        -- `/` and `//` have the same key, and a slash at the end makes both mounts
        by_cases root : stem = []
        · rw [if_pos root] at held
          exact .inr ⟨held.symm, rfl, by simp [root]⟩
        · rw [if_neg root] at held
          exact .inl (by simp [held])
  · have leaf : p.isMount = false := by rw [isMount, root]; rfl
    refine .inl ?_
    rw [leaf, root, ← held, path]
    rfl

/-- Two literal patterns in one slot are the same, or they are `/*` and `//*`. -/
theorem canonical_of_slot (compiled : compile raw = .ok p) (compiled' : compile other = .ok q)
    (literal : p.key? = some key) (literal' : q.key? = some key) (kind : p.isMount = q.isMount) :
    p.canonical = q.canonical ∨
      p.canonical = ['/', '*'] ∧ q.canonical = ['/', '/', '*'] ∨
      p.canonical = ['/', '/', '*'] ∧ q.canonical = ['/', '*'] := by
  rcases canonical_of_key compiled literal with one | ⟨root, mount, one⟩ <;>
    rcases canonical_of_key compiled' literal' with two | ⟨root', mount', two⟩
  · exact .inl (by rw [one, two, kind])
  · subst root'
    rw [kind, mount'] at one
    exact .inr (.inr ⟨one, two⟩)
  · subst root
    rw [← kind, mount] at two
    exact .inr (.inl ⟨one, two⟩)
  · exact .inl (by rw [one, two])

/-- Both `/*` and `//*` are mounts with the key `/`. -/
theorem slot_of_canonical (compiled : compile raw = .ok p)
    (either : p.canonical = ['/', '*'] ∨ p.canonical = ['/', '/', '*']) :
    p.key? = some ['/'] ∧ p.isMount = true := by
  have mount : p.isMount = true := by
    refine isMount_iff.2 ?_
    rcases either with one | one
    · exact ⟨[], one⟩
    · exact ⟨['/'], one⟩
  refine ⟨?_, mount⟩
  rcases describes_of_compile compiled with ⟨t, described⟩
  rcases Template.parse_sound described.parsed with ⟨-, legal, spelled⟩
  have starless : '*' ∉ p.path := spelled ▸ Template.star_not_mem_toText legal
  have form : p.canonical = mountForm p.path := by
    refine described.canonical.resolve_right fun leaf => ?_
    rcases either with one | one <;> rw [one] at leaf <;> cases leaf.2
  have path : p.canonical = p.path ++ ['*'] := by
    rw [form, mountForm]
    refine if_pos ?_
    by_contra leaf
    rw [mountForm, if_neg leaf] at form
    rcases either with one | one <;> rw [← form, one] at starless <;> simp at starless
  have paths : p.path = ['/'] ∨ p.path = ['/', '/'] := by
    rcases either with one | one <;> rw [one] at path
    · exact .inl ((List.append_left_inj ['*']).1 path.symm)
    · exact .inr ((List.append_left_inj ['*']).1 path.symm)
  have parsed := described.parsed
  have matching := described.matching
  rw [key?, matching]
  rcases paths with path | path <;> rw [path] at parsed ⊢ <;> cases parsed <;> rfl

end Pattern

theorem Scan.sameSlot_iff {p q : Pattern} : sameSlot p q = true ↔
    ∃ key, p.key? = some key ∧ q.key? = some key ∧ p.isMount = q.isMount := by
  cases literal : p.key? with
  | none => simp [sameSlot, literal]
  | some key =>
      simp only [sameSlot, literal, Option.isSome_some, Bool.true_and, Bool.and_eq_true,
        decide_eq_true_eq]
      constructor
      · rintro ⟨same, kind⟩
        exact ⟨key, rfl, same.symm, kind⟩
      · rintro ⟨_, one, two, kind⟩
        exact ⟨one.trans two.symm, kind⟩

/-! ## One level -/

/-- The order of routes with their numbers: literals come first, by the bytes of their keys, exact ones
before mounts. -/
def Pattern.Precedes (one other : Pattern × Nat) : Prop :=
  match one.1.key?, other.1.key? with
  | some key, some key' =>
    Text.bytes key < Text.bytes key' ∨
      key = key' ∧ one.1.isMount = false ∧ other.1.isMount = true
  | some _, none => True
  | none, some _ => False
  | none, none => one.2 < other.2

namespace Resolver

variable {routes : List (Pattern × Nat)} {key : Text} {mount : Bool} {i : Nat}

/-- A slot of the trie is held as the routes say. -/
theorem slot_of_mem_entries {slot : Slot} (mem : (key, slot) ∈ (ofRoutes routes).literals.entries) :
    slot = slotOf routes key := by
  rcases literals_ofRoutes routes with ⟨ordered, stored⟩
  rw [← stored key, (Trie.mem_entries ordered).1 mem, Option.getD_some]

theorem mem_entries_of_holder (held : holder routes key mount = some i) :
    (key, slotOf routes key) ∈ (ofRoutes routes).literals.entries := by
  rcases literals_ofRoutes routes with ⟨ordered, stored⟩
  have filled := stored key
  cases found : (ofRoutes routes).literals.get? key with
  | some slot =>
      rw [found, Option.getD_some] at filled
      exact (Trie.mem_entries ordered).2 (found.trans (congrArg some filled))
  | none =>
      rw [found, Option.getD_none] at filled
      simp only [slotOf, Slot.mk.injEq] at filled
      cases mount <;> simp [held] at filled

/-- A slot lists the routes that hold it, the exact one first. -/
theorem mem_slot {slot : Slot} (mem : (key, slot) ∈ (ofRoutes routes).literals.entries) :
    i ∈ slot.exact.toList ++ slot.mount.toList ↔ ∃ mount, holder routes key mount = some i := by
  rw [slot_of_mem_entries mem]
  simp [slotOf]

theorem literal_of_holder (held : holder routes key mount = some i) :
    ∃ p, (p, i) ∈ routes ∧ p.key? = some key ∧ p.isMount = mount := by
  rcases exists_of_holder held with ⟨p, known, fill⟩
  exact ⟨p, known, by simpa [fills] using fill⟩

/-- Listed are the holders of the slots and all expressions. -/
theorem mem_order : i ∈ (ofRoutes routes).order ↔
    (∃ key mount, holder routes key mount = some i) ∨ ∃ p, (p, i) ∈ routes ∧ p.key? = none := by
  rw [order, List.mem_append, patterns_ofRoutes]
  refine or_congr ?_ (by simp)
  rw [List.mem_flatMap]
  constructor
  · rintro ⟨⟨key, slot⟩, mem, listed⟩
    exact ⟨key, (mem_slot mem).1 listed⟩
  · rintro ⟨key, mount, held⟩
    have mem := mem_entries_of_holder held
    exact ⟨_, mem, (mem_slot mem).2 ⟨mount, held⟩⟩

/-- What is listed comes from routes in the order of a walk. -/
theorem pairwise_order (numbered : routes.Pairwise fun one other => one.2 < other.2) :
    (ofRoutes routes).order.Pairwise fun i j =>
      ∃ p q, (p, i) ∈ routes ∧ (q, j) ∈ routes ∧ Pattern.Precedes (p, i) (q, j) := by
  rw [order, patterns_ofRoutes]
  refine List.pairwise_append.2 ⟨List.pairwise_flatMap.2 ⟨?_, ?_⟩, ?_, ?_⟩
  · -- in one slot
    rintro ⟨key, slot⟩ mem
    rw [slot_of_mem_entries mem]
    refine List.pairwise_append.2 ⟨?_, ?_, fun i exact j mount => ?_⟩
    · cases (slotOf routes key).exact <;> simp
    · cases (slotOf routes key).mount <;> simp
    · rcases literal_of_holder (Option.mem_toList.1 exact) with ⟨p, known, keyed, leaf⟩
      rcases literal_of_holder (Option.mem_toList.1 mount) with ⟨q, known', keyed', mounts⟩
      exact ⟨p, q, known, known', by simp [Pattern.Precedes, keyed, keyed', leaf, mounts]⟩
  · -- from slot to slot
    refine (Trie.pairwise_entries (literals_ofRoutes routes).1).imp_of_mem ?_
    rintro ⟨key, slot⟩ ⟨key', slot'⟩ mem mem' less i listed j listed'
    rcases (mem_slot mem).1 listed with ⟨mount, held⟩
    rcases (mem_slot mem').1 listed' with ⟨mount', held'⟩
    rcases literal_of_holder held with ⟨p, known, keyed, -⟩
    rcases literal_of_holder held' with ⟨q, known', keyed', -⟩
    refine ⟨p, q, known, known', ?_⟩
    simp [Pattern.Precedes, keyed, keyed', Text.bytes_lt_bytes less]
  · -- expressions
    refine List.pairwise_map.2 ((numbered.filter _).imp_of_mem fun {one other} mem mem' less => ?_)
    rcases List.mem_filter.1 mem with ⟨known, varies⟩
    rcases List.mem_filter.1 mem' with ⟨known', varies'⟩
    refine ⟨one.1, other.1, known, known', ?_⟩
    simp [Pattern.Precedes, Option.isNone_iff_eq_none.1 varies, Option.isNone_iff_eq_none.1 varies', less]
  · intro i listed j listed'
    rcases List.mem_flatMap.1 listed with ⟨⟨key, slot⟩, mem, here⟩
    rcases List.mem_map.1 listed' with ⟨⟨q, _⟩, mem', rfl⟩
    rcases (mem_slot mem).1 here with ⟨mount, held⟩
    rcases literal_of_holder held with ⟨p, known, keyed, -⟩
    rcases List.mem_filter.1 mem' with ⟨known', varies⟩
    refine ⟨p, q, known, known', ?_⟩
    simp [Pattern.Precedes, keyed, Option.isNone_iff_eq_none.1 varies]

/-- A slot is held by the last of its routes. -/
theorem holder_eq_some_iff (numbered : routes.Pairwise fun one other => one.2 < other.2) :
    holder routes key mount = some i ↔
      (∃ p, (p, i) ∈ routes ∧ fills key mount (p, i) = true) ∧
        ∀ route ∈ routes, fills key mount route = true → route.2 ≤ i := by
  have last {j : Nat} (held : holder routes key mount = some j) :
      ∀ route ∈ routes, fills key mount route = true → route.2 ≤ j := by
    intro route known fill
    rcases Option.map_eq_some_iff.1 held with ⟨top, found, rfl⟩
    rcases List.getLast?_eq_some_iff.1 found with ⟨before, whole⟩
    have ascending := numbered.filter (fills key mount)
    have mem := List.mem_filter.2 ⟨known, fill⟩
    rw [whole] at ascending mem
    rcases List.mem_append.1 mem with early | same
    · exact ((List.pairwise_append.1 ascending).2.2 route early top (by simp)).le
    · rw [List.mem_singleton.1 same]
  constructor
  · exact fun held => ⟨exists_of_holder held, last held⟩
  · rintro ⟨⟨p, known, fill⟩, highest⟩
    cases held : holder routes key mount with
    | some j =>
        rcases exists_of_holder held with ⟨q, known', fill'⟩
        have up := last held _ known fill
        have down := highest _ known' fill'
        exact congrArg some (Nat.le_antisymm down up)
    | none =>
        have empty : routes.filter (fills key mount) = [] := by simpa [holder] using held
        have mem := List.mem_filter.2 ⟨known, fill⟩
        rw [empty] at mem
        cases mem

end Resolver
namespace Router

/-- The order of the nodes of a level in a walk. -/
def Precedes (r : Router) (i j : Nat) : Prop :=
  ∃ one other, r.nodes[i]? = some one ∧ r.nodes[j]? = some other ∧
    Pattern.Precedes (one.pattern, i) (other.pattern, j)

/-- The node of `/*` or of `//*`, where that of the other is a later one: both are kept in the slot of the
root mount. -/
def Shadowed (r : Router) (i : Nat) : Prop :=
  ∃ j one other, i < j ∧ r.nodes[i]? = some one ∧ r.nodes[j]? = some other ∧
    (one.pattern.canonical = ['/', '*'] ∧ other.pattern.canonical = ['/', '/', '*'] ∨
      one.pattern.canonical = ['/', '/', '*'] ∧ other.pattern.canonical = ['/', '*'])

variable {H : History} {r : Router} {i : Nat}

theorem resolver_of_reflects (reflects : r.Reflects H) :
    r.resolver = Resolver.ofRoutes (r.nodes.map CompiledNode.pattern).zipIdx := by
  rcases reflects.whole with ⟨options, whole⟩
  rw [whole]
  rfl

theorem numbered (patterns : List Pattern) :
    patterns.zipIdx.Pairwise fun one other => one.2 < other.2 := by
  refine List.pairwise_map.1 ?_
  rw [List.zipIdx_map_snd]
  exact List.pairwise_lt_range'

theorem mem_routes {p : Pattern} : (p, i) ∈ (r.nodes.map CompiledNode.pattern).zipIdx ↔
    ∃ node, r.nodes[i]? = some node ∧ node.pattern = p := by
  rw [List.mem_zipIdx_iff_getElem?]
  simp

/-- The nodes of a level are listed in the order of a walk. -/
theorem pairwise_order (reflects : r.Reflects H) : r.resolver.order.Pairwise r.Precedes := by
  rw [resolver_of_reflects reflects]
  refine (Resolver.pairwise_order (numbered _)).imp ?_
  rintro i j ⟨p, q, known, known', before⟩
  rcases mem_routes.1 known with ⟨one, here, rfl⟩
  rcases mem_routes.1 known' with ⟨other, there, rfl⟩
  exact ⟨one, other, here, there, before⟩

theorem compiled_of_reflects (reflects : r.Reflects H) {node : CompiledNode}
    (here : r.nodes[i]? = some node) : ∃ raw, Pattern.compile raw = .ok node.pattern :=
  (reflects.built.made node (List.mem_of_getElem? here)).compiled

/-- The nodes of a level have different places. -/
theorem eq_of_canonical (reflects : r.Reflects H) {j : Nat} {one other : CompiledNode}
    (here : r.nodes[i]? = some one) (there : r.nodes[j]? = some other) :
    one.pattern.canonical = other.pattern.canonical → i = j := by
  intro same
  have distinct : (r.nodes.map fun node => node.pattern.canonical).Nodup :=
    reflects.places ▸ nodup_eraseDups _
  rcases List.getElem?_eq_some_iff.1 here with ⟨bound, -⟩
  refine (List.getElem?_inj (by simpa using bound) distinct).1 ?_
  simp [here, there, same]

/-- A node is listed unless a later one has its slot. -/
theorem mem_order_iff (reflects : r.Reflects H) :
    i ∈ r.resolver.order ↔ ∃ node, r.nodes[i]? = some node ∧ ∀ j other, r.nodes[j]? = some other →
      Scan.sameSlot node.pattern other.pattern = true → j ≤ i := by
  rw [resolver_of_reflects reflects, Resolver.mem_order]
  constructor
  · rintro (⟨key, mount, held⟩ | ⟨p, known, varies⟩)
    · rcases (Resolver.holder_eq_some_iff (numbered _)).1 held with ⟨⟨p, known, fill⟩, highest⟩
      rcases mem_routes.1 known with ⟨node, here, rfl⟩
      refine ⟨node, here, fun j other there same => ?_⟩
      have slot : node.pattern.key? = some key ∧ node.pattern.isMount = mount := by
        simpa [Resolver.fills] using fill
      rcases Scan.sameSlot_iff.1 same with ⟨_, keyed, keyed', kind⟩
      cases Option.some.inj (slot.1.symm.trans keyed)
      exact highest (other.pattern, j) (mem_routes.2 ⟨other, there, rfl⟩)
        (by simp [Resolver.fills, keyed', ← kind, slot.2])
    · rcases mem_routes.1 known with ⟨node, here, rfl⟩
      exact ⟨node, here, fun j other there same => by simp [Scan.sameSlot, varies] at same⟩
  · rintro ⟨node, here, highest⟩
    have known := mem_routes.2 ⟨node, here, rfl⟩
    cases literal : node.pattern.key? with
    | none => exact .inr ⟨node.pattern, known, literal⟩
    | some key =>
        refine .inl ⟨key, node.pattern.isMount, (Resolver.holder_eq_some_iff (numbered _)).2
          ⟨⟨node.pattern, known, by simp [Resolver.fills, literal]⟩, ?_⟩⟩
        rintro ⟨q, j⟩ known' fill
        rcases mem_routes.1 known' with ⟨other, there, rfl⟩
        have slot : other.pattern.key? = some key ∧ other.pattern.isMount = node.pattern.isMount := by
          simpa [Resolver.fills] using fill
        exact highest j other there (by simp [Scan.sameSlot, literal, slot])

/-- All nodes of a level are listed, unless they are shadowed. -/
theorem mem_order (reflects : r.Reflects H) :
    i ∈ r.resolver.order ↔ i < r.size ∧ ¬ r.Shadowed i := by
  rw [mem_order_iff reflects]
  constructor
  · rintro ⟨node, here, highest⟩
    refine ⟨(List.getElem?_eq_some_iff.1 here).1, ?_⟩
    rintro ⟨j, one, other, later, there, after, names⟩
    cases Option.some.inj (here.symm.trans there)
    rcases compiled_of_reflects reflects here with ⟨raw, compiled⟩
    rcases compiled_of_reflects reflects after with ⟨raw', compiled'⟩
    have slot := Pattern.slot_of_canonical compiled (names.imp And.left And.left)
    have slot' := Pattern.slot_of_canonical compiled' (names.symm.imp And.right And.right)
    have early := highest j other after (by simp [Scan.sameSlot, slot, slot'])
    exact absurd later (Nat.not_lt.2 early)
  · rintro ⟨inside, unshadowed⟩
    have here : r.nodes[i]? = some r.nodes[i] := List.getElem?_eq_getElem inside
    refine ⟨_, here, fun j other there same => Nat.not_lt.1 fun later => ?_⟩
    rcases compiled_of_reflects reflects here with ⟨raw, compiled⟩
    rcases compiled_of_reflects reflects there with ⟨raw', compiled'⟩
    rcases Scan.sameSlot_iff.1 same with ⟨key, keyed, keyed', kind⟩
    rcases Pattern.canonical_of_slot compiled compiled' keyed keyed' kind with same | names
    · exact absurd (eq_of_canonical reflects here there same) (Nat.ne_of_lt later)
    · exact unshadowed ⟨j, _, other, later, here, there, names⟩

/-- A level is listed as its history says: each place has one node, in the order of registration, and the
nodes are listed once each, in the order of a walk, unless they are shadowed. -/
structure ListsLevel (H : History) (r : Router) : Prop where
  places : r.nodes.map (fun node => node.pattern.canonical) = H.places.eraseDups
  distinct : r.resolver.order.Nodup
  ordered : r.resolver.order.Pairwise r.Precedes
  complete : ∀ i, i ∈ r.resolver.order ↔ i < r.size ∧ ¬ r.Shadowed i

/-- A tree all levels of which are listed as the histories say that lead to them. -/
inductive Enumerates : History → Router → Prop
  | level {H : History} {r : Router} : r.ListsLevel H →
      (∀ node ∈ r.nodes, (H.about node.pattern.canonical).inners = [] →
        ∀ inner, node.kind ≠ .router inner) →
      (∀ node ∈ r.nodes, ∀ inner, node.kind = .router inner →
        Enumerates (H.about node.pattern.canonical).inner inner) → Enumerates H r

theorem Precedes.irrefl (r : Router) (i : Nat) : ¬ r.Precedes i i := by
  rintro ⟨one, other, here, there, before⟩
  cases Option.some.inj (here.symm.trans there)
  cases literal : one.pattern.key? with
  | none => simp [Pattern.Precedes, literal] at before
  | some key =>
      have kinds : Text.bytes key < Text.bytes key ∨
          one.pattern.isMount = false ∧ one.pattern.isMount = true := by
        simpa [Pattern.Precedes, literal] using before
      rcases kinds with less | ⟨leaf, mount⟩
      · exact List.lt_irrefl _ less
      · rw [leaf] at mount
        cases mount

theorem listsLevel (reflects : r.Reflects H) : r.ListsLevel H where
  places := reflects.places
  distinct := by
    refine (pairwise_order reflects).imp fun before => ?_
    rintro rfl
    exact Precedes.irrefl r _ before
  ordered := pairwise_order reflects
  complete _ := mem_order reflects

theorem enumerates_of_reflects (r : Router) (H : History) (reflects : r.Reflects H) :
    r.Enumerates H := by
  induction r using Router.induct generalizing H with
  | step r ih =>
      refine .level (listsLevel reflects) (fun node mem bare inner kind => ?_)
        fun node mem inner kind => ?_
      · cases reflects.nodes node mem with
        | serving _ _ serves =>
            rw [serves] at kind
            exact NodeCall.freeze_target_ne_router _ _ kind
        | holding more _ _ _ => exact more bare
      · cases reflects.nodes node mem with
        | serving _ _ serves =>
            rw [serves] at kind
            exact absurd kind (NodeCall.freeze_target_ne_router _ _)
        | holding _ ran _ holds =>
            cases holds.symm.trans kind
            exact ih node mem _ kind _ (History.freeze ran)

theorem Enumerates.within {level : Router} (lists : r.Enumerates H) :
    r.Within level → ∃ I, level.Enumerates I := by
  intro within
  induction within with
  | self => exact ⟨H, lists⟩
  | nested _ mem kind ih =>
      rcases ih with ⟨I, ⟨-, -, below⟩⟩
      exact ⟨_, below _ mem _ kind⟩

/-- Where no node is shadowed, all nodes are listed. -/
theorem ListsLevel.perm (lists : r.ListsLevel H) (clear : ∀ i, ¬ r.Shadowed i) :
    r.resolver.order.Perm (List.range r.size) := by
  refine (List.perm_ext_iff_of_nodup lists.distinct List.nodup_range).2 fun i => ?_
  rw [lists.complete, List.mem_range, and_iff_left (clear i)]

end Router

/-- Every registered route has its place in the walk.  On each level of a finished router the nodes come
once each and in the order of a walk, except that of `/*` and `//*` on one level the one registered first
is shadowed by the other; `routes` lists the levels so, each nested one in the place of its node; and
where no node is shadowed, it lists all nodes that hold no router. -/
theorem History.enumerates {H : History} {b : Builder} (done : H.run = .ok b) :
    b.freeze.Enumerates H ∧
      b.freeze.routes = b.freeze.listing (fun r => r.resolver.order) [] ∧
      ((∀ level, b.freeze.Within level → ∀ i, ¬ level.Shadowed i) →
        b.freeze.routes.Perm (b.freeze.listing (fun r => List.range r.size) [])) := by
  have lists := b.freeze.enumerates_of_reflects H (freeze done)
  refine ⟨lists, b.freeze.routes_eq, fun clear => ?_⟩
  rw [b.freeze.routes_eq]
  refine Router.listing_perm _ (fun level within => ?_) []
  rcases lists.within within with ⟨I, ⟨here, -, -⟩⟩
  exact here.perm (clear level within)

/-- Two levels: the routes below `/api` are listed in its place, behind `/a`. -/
theorem History.enumerates_nested :
    let page : NodeCall := .handle (Handler.writing fun _ _ w => w) []
    let H : History :=
      [.route "/api".toList [.call "/\x7bx\x7d".toList page, .call "/b".toList page],
        .call "/a".toList page]
    ∃ b, H.run = .ok b ∧ b.freeze.Enumerates H ∧
      b.freeze.routes = [⟨"/a".toList, .handler⟩, ⟨"/api/b".toList, .handler⟩,
        ⟨"/api/\x7bx\x7d".toList, .handler⟩] := by
  intro page H
  exact ⟨_, rfl, (enumerates rfl).1, rfl⟩

/-- Of the routes `/*` and `//*` the one registered first is not listed. -/
theorem History.lost_beside_root_mount :
    let page : NodeCall := .handle (Handler.writing fun _ _ w => w) []
    let H : History := [.call "/*".toList page, .call "//*".toList page]
    ∃ b, H.run = .ok b ∧ b.freeze.size = 2 ∧
      b.freeze.nodes.map (fun node => node.pattern.canonical) = ["/*".toList, "//*".toList] ∧
      b.freeze.resolver.order = [1] ∧ b.freeze.routes = [⟨"//*".toList, .handler⟩] := by
  intro page H
  exact ⟨_, rfl, rfl, rfl, rfl, rfl⟩

end PathRouter
