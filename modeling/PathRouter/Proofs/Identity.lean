import PathRouter.Proofs.InPlace

/-!
# Identity — which paths are one route

A route is known by the canonical form of its path, and a builder finds the node of a route by it.  This
file defines

* `Builder.spellings`, the ways to give the path of a mount;
* `Builder.placeOf`, the place of the node that stands for a pattern;

and shows `Pattern.compile_canonical`, that a canonical form stands for the pattern it comes from,
`Pattern.canonical_eq_iff`, which paths have the same one, `Builder.attach_same_node`, that all spellings
lead to one node, and these together in `Builder.canonical_identifies`.
-/

namespace PathRouter

/-! ## Canonical forms -/

namespace Pattern

variable {raw other stem : Text} {p q : Pattern}

theorem compile_canonical (compiled : compile raw = .ok p) :
    compile p.canonical = .ok { p with raw := p.canonical } := by
  rcases describes_of_compile compiled with ⟨t, described⟩
  rcases described.canonical with form | ⟨path, root⟩
  · exact described.compile_canonical form
  · have given : raw = ['/'] := by
      rcases raw_of_compile compiled with same | same
      · rw [same, path]
      · rw [same, root]
    subst given
    cases compiled
    rfl

/-- A pattern either takes all paths below a place or takes whole paths only. -/
theorem isMount_eq_not_isLeaf (compiled : compile raw = .ok p) : p.isMount = !p.isLeaf := by
  rcases describes_of_compile compiled with ⟨t, described⟩
  cases fixed : t.isFixed with
  | true => simp [isLeaf, described.matching, fixed]
  | false =>
      -- a pattern with captures or groups is not the root, so its last slash makes the mount
      have form : p.canonical = mountForm p.path := by
        refine described.canonical.resolve_right fun root => ?_
        have parsed := described.parsed
        rw [root.1, Template.parse_root] at parsed
        cases parsed
        cases fixed
      simp [isLeaf, described.matching, fixed, Template.isMount_of_describes described form]

theorem canonical_of_slash (compiled : compile (stem ++ ['/']) = .ok p) (mount : p.isMount = true) :
    p.canonical = stem ++ ['/', '*'] := by
  rcases canonical_cases compiled with same | ⟨-, star⟩
  · rcases isMount_iff.1 mount with ⟨before, form⟩
    rw [same] at form
    have last := congrArg (endsIn '*') form
    rw [endsIn_append, endsIn_append_of_ne_nil _ _ (List.cons_ne_nil _ _)] at last
    cases last
  · rw [star, List.append_assoc]
    rfl

/-- Two accepted paths have one canonical form if they are the same, or if both are mounts and one has a
star after the last slash of the other. -/
theorem canonical_eq_iff (compiled : compile raw = .ok p) (compiled' : compile other = .ok q) :
    p.canonical = q.canonical ↔ raw = other ∨
      p.isMount = true ∧ q.isMount = true ∧ ∃ stem,
        raw = stem ++ ['/'] ∧ other = stem ++ ['/', '*'] ∨
          raw = stem ++ ['/', '*'] ∧ other = stem ++ ['/'] := by
  have marked {stem : Text} {m : Pattern} (form : m.canonical = stem ++ ['/'] ++ ['*']) :
      m.isMount = true := by
    refine isMount_iff.2 ⟨stem, ?_⟩
    rw [form, List.append_assoc]
    rfl
  constructor
  · intro same
    rcases canonical_cases compiled with form | ⟨slash, form⟩ <;>
      rcases canonical_cases compiled' with form' | ⟨slash', form'⟩
    · exact .inl (form.symm.trans (same.trans form'))
    · rcases endsIn_iff.1 slash' with ⟨stem, rfl⟩
      refine .inr ⟨marked (same.trans form'), marked form', stem, .inr ⟨?_, rfl⟩⟩
      rw [← form, same, form', List.append_assoc]
      rfl
    · rcases endsIn_iff.1 slash with ⟨stem, rfl⟩
      refine .inr ⟨marked form, marked (same.symm.trans form), stem, .inl ⟨rfl, ?_⟩⟩
      rw [← form', ← same, form, List.append_assoc]
      rfl
    · rw [form, form'] at same
      exact .inl (List.append_cancel_right same)
  · rintro (rfl | ⟨mount, mount', stem, ⟨rfl, rfl⟩ | ⟨rfl, rfl⟩⟩)
    · cases Except.ok.inj (compiled.symm.trans compiled')
      rfl
    · rw [canonical_of_slash compiled mount, canonical_of_star compiled']
    · rw [canonical_of_star compiled, canonical_of_slash compiled' mount']

end Pattern

/-! ## Nodes -/

namespace Builder

variable {α : Type} {b after : Builder} {p : Pattern} {path s : Text} {operation : String}

/-- The place of the node that stands for a pattern; if there is none, the one behind all nodes. -/
def placeOf (b : Builder) (p : Pattern) : Nat := b.nodes.findIdx (standsFor p)

/-- What a builder finds for an accepted path: the node in its place, where a new one is put if there is
none. -/
theorem outcome_nodeInPlace (isOpen : b.compiled = none) (compiled : Pattern.compile path = .ok p) :
    (nodeInPlace path operation).outcome b =
      (.ok (b.placeOf p, b.nodes[b.placeOf p]?.getD (.new p)),
        { b with nodes := if b.placeOf p < b.nodes.length then b.nodes else b.nodes ++ [.new p] }) := by
  have place : b.placeOf p = ((b.nodes.findFinIdx? (standsFor p)).map Fin.val).getD b.nodes.length := by
    rw [placeOf, List.findIdx_eq_getD_findIdx?, List.findIdx?_eq_map_findFinIdx?_val]
  cases found : b.nodes.findFinIdx? (standsFor p) with
  | none =>
      rw [found] at place
      have fresh : b.placeOf p = b.nodes.length := place
      simp [nodeInPlace, openInPlace, isOpen, compiled, found, fresh, Except.map]
  | some i =>
      rw [found] at place
      have known : b.placeOf p = i.val := place
      have kept : { b with compiled := none } = b := by
        cases b
        cases isOpen
        rfl
      simp [nodeInPlace, openInPlace, isOpen, compiled, found, known, kept]

/-- An edit works on the node in the place of the pattern, or on a new one that is put there, and leaves
all other nodes; the place stays that of the pattern. -/
theorem editNodes_place {f : Node → Except Refusal (α × Node)} {a : α} {nodes edited : List Node} :
    editNodes p f nodes = .ok (a, edited) →
      ∃ node, f (nodes[nodes.findIdx (standsFor p)]?.getD (.new p)) = .ok (a, node) ∧
        edited[nodes.findIdx (standsFor p)]? = some node ∧
        (∀ i, i ≠ nodes.findIdx (standsFor p) → edited[i]? = nodes[i]?) ∧
        (standsFor p node = true → edited.findIdx (standsFor p) = nodes.findIdx (standsFor p)) := by
  intro done
  induction nodes generalizing edited with
  | nil =>
      rcases map_eq_ok.1 done with ⟨⟨_, node⟩, worked, made⟩
      cases made
      refine ⟨node, worked, rfl, fun i other => ?_, fun stands => by simp [stands]⟩
      cases i with
      | zero => exact absurd rfl other
      | succ i => rfl
  | cons head nodes ih =>
      by_cases here : head.pattern.canonical = p.canonical
      · have stands : standsFor p head = true := decide_eq_true here
        simp only [editNodes, here, if_true] at done
        rcases map_eq_ok.1 done with ⟨⟨_, node⟩, worked, made⟩
        cases made
        rw [List.findIdx_cons, stands, cond_true]
        refine ⟨node, worked, rfl, fun i other => ?_, fun stands => by simp [List.findIdx_cons, stands]⟩
        cases i with
        | zero => exact absurd rfl other
        | succ i => rfl
      · have passes : standsFor p head = false := decide_eq_false here
        simp only [editNodes, here, if_false] at done
        rcases map_eq_ok.1 done with ⟨⟨_, rest⟩, worked, made⟩
        cases made
        rcases ih worked with ⟨node, found, placed, others, stays⟩
        rw [List.findIdx_cons, passes, cond_false]
        refine ⟨node, found, placed, fun i other => ?_, fun stands => ?_⟩
        · cases i with
          | zero => rfl
          | succ i => exact others i fun same => other (congrArg Nat.succ same)
        · rw [List.findIdx_cons, passes, cond_false, stays stands]

/-! ## Spellings -/

/-- The ways to give the path of a mount, with and without the slash and the star at its end. -/
def spellings (s : Text) : List Text := [s, s ++ ['/'], s ++ ['/', '*']]

theorem mountPath_of_mem_spellings (noSlash : Pattern.endsIn '/' s = false)
    (noStar : Pattern.endsIn '*' s = false) :
    path ∈ spellings s → mountPath path = s ++ ['/', '*'] := by
  intro spelled
  simp only [spellings, List.mem_cons, List.not_mem_nil, or_false] at spelled
  rcases spelled with rfl | rfl | rfl
  · simp [mountPath_of_not_star noStar, noSlash]
  · exact mountPath_append_slash s
  · exact mountPath_append_mark s

namespace Call

variable {call : Call α} {place : Nat}

/-- The path as it is given in the call. -/
def given : Call α → Text
  | .handle path _ _ => path
  | .method _ path _ _ => path
  | .wrapPath path _ => path
  | .route path _ => path
  | .mount path _ => path

/-- The call works on the node in a place, which is behind all others if the node is new. -/
def Addresses (call : Call α) (b : Builder) (place : Nat) : Prop :=
  ∃ node after, (nodeInPlace call.path call.operation).outcome b = (.ok (place, node), after)

theorem path_of_spelled (noSlash : Pattern.endsIn '/' s = false)
    (noStar : Pattern.endsIn '*' s = false) (attaches : call.attaches = true)
    (spelled : call.given ∈ spellings s) : call.path = s ++ ['/', '*'] := by
  cases call with
  | route given f => exact mountPath_of_mem_spellings noSlash noStar spelled
  | mount given router => exact mountPath_of_mem_spellings noSlash noStar spelled
  | _ => cases attaches

theorem addresses_placeOf (isOpen : b.compiled = none) (compiled : Pattern.compile call.path = .ok p) :
    call.Addresses b (b.placeOf p) :=
  ⟨_, _, outcome_nodeInPlace isOpen compiled⟩

/-- A node that a router is attached to keeps its pattern. -/
theorem pattern_of_work {a : Option α} {n next : Node} (attaches : call.attaches = true) :
    call.work n = .ok (a, next) → next.pattern = n.pattern := by
  intro worked
  cases call with
  | route given f =>
      rcases map_eq_ok.1 worked with ⟨⟨a, node⟩, done, made⟩
      cases made
      rcases Node.route_eq_ok done with ⟨p, target, chain, nested, grown, rfl, -, -, -, rfl⟩
      rfl
  | mount given router =>
      rcases map_eq_ok.1 worked with ⟨node, done, made⟩
      cases made
      rcases Node.mount_eq_ok done with ⟨p, chain, rfl, -, rfl⟩
      rfl
  | _ => cases attaches

/-- An attached router goes to the node in the place of the pattern, and the place stays that of the
pattern. -/
theorem nodes_of_perform {a : Option α} (isOpen : b.compiled = none)
    (compiled : Pattern.compile call.path = .ok p) (attaches : call.attaches = true)
    (ended : call.perform.outcome b = (.ok a, after)) :
    after.compiled = none ∧ after.placeOf p = b.placeOf p ∧
      (∃ node, after.nodes[b.placeOf p]? = some node ∧ node.pattern.canonical = p.canonical) ∧
      ∀ i, i ≠ b.placeOf p → after.nodes[i]? = b.nodes[i]? := by
  rw [outcome_perform, run_of_isOpen isOpen] at ended
  cases edited : b.edit call.path call.operation call.work with
  | error refusal => simp [edited, InPlace.settle] at ended
  | ok done =>
      rcases done with ⟨result, next⟩
      rw [edited, InPlace.settle] at ended
      cases ended
      rcases edit_eq_ok.1 edited with ⟨-, q, nodes, compiled', worked, rfl⟩
      cases compiled.symm.trans compiled'
      rcases editNodes_place worked with ⟨node, done, placed, others, stays⟩
      -- the node that was there stands for the pattern, and so does a new one
      have before : ((b.nodes[b.placeOf p]?).getD (.new p)).pattern.canonical = p.canonical := by
        cases found : b.nodes[b.placeOf p]? with
        | none => rfl
        | some old =>
            rcases List.getElem?_eq_some_iff.1 found with ⟨bound, rfl⟩
            exact of_decide_eq_true (List.findIdx_getElem (w := bound))
      have canonical : node.pattern.canonical = p.canonical := by
        rw [pattern_of_work attaches done]
        exact before
      exact ⟨isOpen, stays (decide_eq_true canonical), ⟨node, placed, canonical⟩, others⟩

/-- All spellings of the path of a mount are refused as a pattern, or routers attached under any of them
go to one node, before and after one of them has been attached. -/
theorem attach_same_node (noSlash : Pattern.endsIn '/' s = false)
    (noStar : Pattern.endsIn '*' s = false) (isOpen : b.compiled = none) :
    (∃ e, ∀ call : Call α, call.attaches = true → call.given ∈ spellings s →
      call.perform.outcome b = (.error (.rejected (.pattern e)), b)) ∨
    ∃ place, ∀ call : Call α, call.attaches = true → call.given ∈ spellings s →
      call.Addresses b place ∧
      ∀ a after, call.perform.outcome b = (.ok a, after) →
        (∃ node, after.nodes[place]? = some node ∧ node.pattern.canonical = s ++ ['/', '*']) ∧
        (∀ i, i ≠ place → after.nodes[i]? = b.nodes[i]?) ∧
        ∀ later : Call α, later.attaches = true → later.given ∈ spellings s →
          later.Addresses after place := by
  cases compiled : Pattern.compile (s ++ ['/', '*']) with
  | error e =>
      refine .inl ⟨e, fun call attaches spelled => ?_⟩
      have path := path_of_spelled noSlash noStar attaches spelled
      rw [outcome_perform, run_of_isOpen isOpen]
      simp [edit, requireOpen, isOpen, path, compiled, InPlace.settle]
  | ok p =>
      refine .inr ⟨b.placeOf p, fun call attaches spelled => ?_⟩
      have path := path_of_spelled noSlash noStar attaches spelled
      rw [← path] at compiled
      refine ⟨addresses_placeOf isOpen compiled, fun a after ended => ?_⟩
      rcases nodes_of_perform isOpen compiled attaches ended with
        ⟨isOpen', stays, ⟨node, placed, canonical⟩, others⟩
      have form : p.canonical = s ++ ['/', '*'] := Pattern.canonical_of_star (path ▸ compiled)
      refine ⟨⟨node, placed, canonical.trans form⟩, others, fun later attaches' spelled' => ?_⟩
      have path' := path_of_spelled noSlash noStar attaches' spelled'
      rw [path, ← path'] at compiled
      rw [← stays]
      exact addresses_placeOf isOpen' compiled

end Call

/-- Canonical forms identify routes.  The canonical form of an accepted path is accepted and stands for
the same pattern, which is a mount exactly if it is no leaf.  Two accepted paths have one canonical form
exactly if they are the same or both are mounts that differ in the star after the last slash.  And of the
paths `s`, `s/` and `s/*`, routers attached to an open builder go to one and the same node, whichever
comes first, or all three are refused as a pattern. -/
theorem canonical_identifies {α : Type} :
    (∀ raw p, Pattern.compile raw = .ok p →
      Pattern.compile p.canonical = .ok { p with raw := p.canonical } ∧ p.isMount = !p.isLeaf) ∧
    (∀ raw other p q, Pattern.compile raw = .ok p → Pattern.compile other = .ok q →
      (p.canonical = q.canonical ↔ raw = other ∨
        p.isMount = true ∧ q.isMount = true ∧ ∃ stem,
          raw = stem ++ ['/'] ∧ other = stem ++ ['/', '*'] ∨
            raw = stem ++ ['/', '*'] ∧ other = stem ++ ['/'])) ∧
    ∀ s, Pattern.endsIn '/' s = false → Pattern.endsIn '*' s = false →
      ∀ b : Builder, b.compiled = none →
        (∃ e, ∀ call : Call α, call.attaches = true → call.given ∈ spellings s →
          call.perform.outcome b = (.error (.rejected (.pattern e)), b)) ∨
        ∃ place, ∀ call : Call α, call.attaches = true → call.given ∈ spellings s →
          call.Addresses b place ∧
          ∀ a after, call.perform.outcome b = (.ok a, after) →
            (∃ node, after.nodes[place]? = some node ∧ node.pattern.canonical = s ++ ['/', '*']) ∧
            (∀ i, i ≠ place → after.nodes[i]? = b.nodes[i]?) ∧
            ∀ later : Call α, later.attaches = true → later.given ∈ spellings s →
              later.Addresses after place := by
  refine ⟨fun raw p compiled => ⟨?_, ?_⟩, fun raw other p q compiled compiled' => ?_,
    fun s noSlash noStar b isOpen => ?_⟩
  · exact Pattern.compile_canonical compiled
  · exact Pattern.isMount_eq_not_isLeaf compiled
  · exact Pattern.canonical_eq_iff compiled compiled'
  · exact Call.attach_same_node noSlash noStar isOpen

/-- A router is attached under one path, whichever way it is given. -/
theorem canonical_identifies_empty :
    (∀ p q, Pattern.compile "/a/".toList = .ok p → Pattern.compile "/a/*".toList = .ok q →
      p.canonical = q.canonical) ∧
    ∃ place, ∀ call : Call Unit, call.attaches = true → call.given ∈ spellings "/a".toList →
      call.Addresses empty place := by
  rcases canonical_identifies (α := Unit) with ⟨-, same, attached⟩
  refine ⟨fun p q compiled compiled' => ?_, ?_⟩
  · refine (same _ _ p q compiled compiled').2 (.inr ?_)
    cases compiled
    cases compiled'
    exact ⟨rfl, rfl, "/a".toList, .inl ⟨rfl, rfl⟩⟩
  · rcases attached "/a".toList rfl rfl empty rfl with ⟨e, refused⟩ | ⟨place, addressed⟩
    · let call : Call Unit := .mount "/a".toList empty.freeze
      have ended : (call.perform.outcome empty).1 = .ok none := rfl
      rw [refused call rfl (by decide)] at ended
      cases ended
    · exact ⟨place, fun call attaches spelled => (addressed call attaches spelled).1⟩

end Builder
end PathRouter
