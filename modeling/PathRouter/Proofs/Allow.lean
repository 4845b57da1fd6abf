import PathRouter.Proofs.Calls
import Mathlib.Data.List.Sort
import Mathlib.Tactic.Tauto

/-!
# Allow — the list of methods says what a table serves

A compiled table carries one text that names its methods.  The text is sent in the `Allow` header of
the answer to `OPTIONS`, and the failure for a method that is not served carries it too.  This file
defines

* `NodeCall.respond`, the entry of a table that answers a method, or what the table answers itself;
* `NodeCall.Lists`, which names the text has and in which order;

and shows `NodeCall.allow_exact`: after any sequence of calls, the methods that are named are those
that are served, and the text depends on no more than which methods have entries.
-/

namespace PathRouter

/-- The failure that a method is not served. -/
def Verdict.deniesMethod : Verdict → Bool
  | .failed (.methodNotAllowed _) => true
  | _ => false

/-! ## Names in ascending order -/

namespace MethodTable

variable {name other : String} {names registered : List String}

@[simp] theorem mem_insertName : other ∈ insertName name names ↔ other = name ∨ other ∈ names := by
  induction names with
  | nil => simp [insertName]
  | cons head rest ih =>
      simp only [insertName]
      split
      · next same => simp [same]
      · split
        · simp
        · simp only [List.mem_cons, ih, or_left_comm]

theorem pairwise_insertName (sorted : names.Pairwise (· < ·)) :
    (insertName name names).Pairwise (· < ·) := by
  induction names with
  | nil => exact List.pairwise_singleton _ _
  | cons head rest ih =>
      rcases List.pairwise_cons.1 sorted with ⟨above, tail⟩
      simp only [insertName]
      split
      · exact sorted
      · next differs =>
          split
          · next less =>
              refine List.pairwise_cons.2 ⟨fun later mem => ?_, sorted⟩
              rcases List.mem_cons.1 mem with rfl | mem
              · exact less
              · exact lt_trans less (above later mem)
          · next notLess =>
              refine List.pairwise_cons.2 ⟨fun later mem => ?_, ih tail⟩
              rcases mem_insertName.1 mem with rfl | mem
              -- the new name is neither the head nor below it
              · exact lt_of_le_of_ne (not_lt.1 notLess) (Ne.symm differs)
              · exact above later mem

theorem mem_foldr_insertName {added : List String} :
    other ∈ added.foldr insertName names ↔ other ∈ names ∨ other ∈ added := by
  induction added with
  | nil => simp
  | cons head rest ih => simp only [List.foldr_cons, mem_insertName, ih, List.mem_cons, or_left_comm]

theorem pairwise_foldr_insertName {added : List String} (sorted : names.Pairwise (· < ·)) :
    (added.foldr insertName names).Pairwise (· < ·) := by
  induction added with
  | nil => exact sorted
  | cons head rest ih => exact pairwise_insertName ih

/-- The names of a table are ascending ones, and `OPTIONS` behind them if it is not among them. -/
theorem allowed_spec (catchAll : Bool) (sorted : registered.Pairwise (· < ·)) :
    ∃ names : List String, names.Pairwise (· < ·) ∧
      (∀ name, name ∈ names ↔ name ∈ registered ∨ catchAll = true ∧ name ∈ catchAllMethods) ∧
      allowed registered catchAll =
        if "OPTIONS" ∈ names then names else names ++ ["OPTIONS"] := by
  cases catchAll with
  | false => exact ⟨registered, sorted, by simp, by simp [allowed]⟩
  | true =>
      refine ⟨catchAllMethods.foldr insertName registered, pairwise_foldr_insertName sorted, ?_, ?_⟩
      · intro name
        simp only [mem_foldr_insertName, true_and]
      · simp [allowed]

end MethodTable

theorem canonicalMethod_canonicalMethod (method : String) :
    canonicalMethod (canonicalMethod method) = canonicalMethod method := by
  simp only [canonicalMethod, String.map_map]
  congr 1
  funext c
  delta Char.toUpper
  by_cases lower : 97 ≤ c.val ∧ c.val ≤ 122
  · -- what a lower-case letter turns into is none
    simp [lower]
    grind
  · simp [lower]

namespace NodeCall

variable {calls others : List NodeCall} {name method : String}

/-! ## Who answers -/

/-- Who answers a method, which is given in upper case, when the calls have filled a table. -/
def respond (calls : List NodeCall) (method : String) : Answer :=
  match answer calls method with
  | .missing => if method = "OPTIONS" then .options else .notAllowed
  | given => given

/-- The entries of the table, with the one for all methods. -/
def Serves (calls : List NodeCall) (e : MethodEntry) : Prop :=
  all calls = some e ∨ ∃ method, own method calls = some e

/-- A method is answered by its own entry, for `HEAD` also by that of `GET`, or else by the entry for
all methods.  Only where there is none of these does the table answer itself. -/
theorem respond_cases (calls : List NodeCall) (method : String) :
    (∃ e, Serves calls e ∧ (respond calls method = .entry e ∨ respond calls method = .stripped e)) ∧
        (method ∈ methods calls ∨ method = "HEAD" ∧ "GET" ∈ methods calls ∨
          (all calls).isSome) ∨
      respond calls method = (if method = "OPTIONS" then .options else .notAllowed) ∧
        method ∉ methods calls ∧ ¬ (method = "HEAD" ∧ "GET" ∈ methods calls) ∧ all calls = none := by
  simp only [← isSome_own_iff, respond, answer]
  -- in the order in which entries are looked for: its own, that of `GET`, the one for all methods
  cases mine : own method calls with
  | some e => exact .inl ⟨⟨e, .inr ⟨method, mine⟩, .inl rfl⟩, .inl rfl⟩
  | none =>
      cases get : (if method = "HEAD" then own "GET" calls else none) with
      | some e =>
          split at get
          · next head => exact .inl ⟨⟨e, .inr ⟨"GET", get⟩, .inr rfl⟩, .inr (.inl ⟨head, get ▸ rfl⟩)⟩
          · cases get
      | none =>
          cases given : all calls with
          | some e => exact .inl ⟨⟨e, .inl given, .inl rfl⟩, .inr (.inr rfl)⟩
          | none =>
              have noHead : ¬ (method = "HEAD" ∧ (own "GET" calls).isSome = true) := by
                rintro ⟨head, found⟩
                rw [if_pos head] at get
                rw [get] at found
                cases found
              -- a table without entries answers as any other, where a node without calls does not
              refine .inr ⟨?_, Bool.false_ne_true, noHead, rfl⟩
              by_cases empty : methods calls = [] <;>
                by_cases options : method = "OPTIONS" <;> simp [empty, options]

/-- The handler of a table that calls have filled answers as `respond` says. -/
theorem toHandler_table (legal : HeaderValue.isLegal (table calls).compile.allow.toList = true)
    (req : Request) (cx : Context) (w : Writer) :
    (table calls).compile.toHandler req cx w =
      (respond calls (canonicalMethod req.method)).toHandler (table calls).compile.allow req cx w := by
  rw [MethodTable.toHandler_compile (sorted_table calls)]
  simp only [MethodTable.pick, respond, answer, get?_table, any_table]
  cases own (canonicalMethod req.method) calls with
  | some e => rfl
  | none =>
      cases (if canonicalMethod req.method = "HEAD" then own "GET" calls else none) with
      | some get => rfl
      | none =>
          cases all calls with
          | some e => rfl
          | none =>
              by_cases empty : methods calls = [] <;>
                by_cases options : canonicalMethod req.method = "OPTIONS" <;>
                simp [empty, options, MethodHandler.unregistered, legal, Answer.toHandler]

/-! ## What is named -/

/-- The names of a list of methods after the calls, in their order. -/
structure Lists (calls : List NodeCall) (names : List String) : Prop where
  distinct : names.Nodup
  upper : ∀ name ∈ names, canonicalMethod name = name
  /-- Ascending, but for an `OPTIONS` that nobody registered. -/
  ordered : if "OPTIONS" ∈ methods calls then names.Pairwise (· < ·)
    else ∃ before, names = before ++ ["OPTIONS"] ∧ before.Pairwise (· < ·)
  mem_iff : ∀ name, name ∈ names ↔ name ∈ methods calls ∨ name = "HEAD" ∧ "GET" ∈ methods calls ∨
    name = "OPTIONS" ∨ (all calls).isSome ∧ name ∈ MethodTable.catchAllMethods

theorem canonicalMethod_of_mem_methods (mem : name ∈ methods calls) :
    canonicalMethod name = name := by
  rcases List.mem_filterMap.1 mem with ⟨call, -, named⟩
  cases call with
  | method given handler chain =>
      cases named
      exact canonicalMethod_canonicalMethod given
  | handle handler chain => cases named
  | wrapWith middleware => cases named

/-- The names that the standard adds are in upper case. -/
theorem canonicalMethod_of_standard (standard : name ∈ "OPTIONS" :: MethodTable.catchAllMethods) :
    canonicalMethod name = name := by
  have all : ∀ name ∈ "OPTIONS" :: MethodTable.catchAllMethods, canonicalMethod name = name := by
    decide +kernel
  exact all name standard

theorem exists_lists (calls : List NodeCall) : ∃ names,
    (table calls).compile.allow = String.intercalate ", " names ∧ Lists calls names := by
  rcases MethodTable.allowed_spec (table calls).any.isSome (pairwise_listed calls) with
    ⟨names, sorted, members, allowed⟩
  have distinct : names.Nodup := sorted.imp fun less => ne_of_lt less
  have options : "OPTIONS" ∈ names ↔ "OPTIONS" ∈ methods calls := by
    rw [members, mem_listed, isSome_own_iff]
    simp [MethodTable.catchAllMethods]
  -- what is named behind the others as well
  have named (name : String) : name ∈ names ∨ name = "OPTIONS" ↔ name ∈ methods calls ∨
      name = "HEAD" ∧ "GET" ∈ methods calls ∨ name = "OPTIONS" ∨
        (all calls).isSome ∧ name ∈ MethodTable.catchAllMethods := by
    rw [members, mem_listed, isSome_own_iff, isSome_own_iff, any_table]
    tauto
  have upper (name : String) (mem : name ∈ names ∨ name = "OPTIONS") :
      canonicalMethod name = name := by
    rcases (named name).1 mem with own | ⟨rfl, -⟩ | rfl | ⟨-, standard⟩
    · exact canonicalMethod_of_mem_methods own
    · exact canonicalMethod_of_standard (by decide)
    · exact canonicalMethod_of_standard (by decide)
    · exact canonicalMethod_of_standard (List.mem_cons_of_mem _ standard)
  refine ⟨_, congrArg (String.intercalate ", ") allowed, ?_⟩
  -- `OPTIONS` is in its place if it has an entry, and behind the others if not
  by_cases given : "OPTIONS" ∈ names
  · rw [if_pos given]
    refine ⟨distinct, fun name mem => upper name (.inl mem), ?_, fun name => ?_⟩
    · rw [if_pos (options.1 given)]
      exact sorted
    · rw [← named]
      exact ⟨.inl, fun mem => mem.elim id fun same => same ▸ given⟩
  · rw [if_neg given]
    refine ⟨?_, fun name mem => upper name ?_, ?_, fun name => ?_⟩
    · rw [List.nodup_append]
      refine ⟨distinct, List.nodup_singleton _, fun name mem other last same => given ?_⟩
      rw [← List.mem_singleton.1 last, ← same]
      exact mem
    · simpa using mem
    · rw [if_neg fun own => given (options.2 own)]
      exact ⟨names, rfl, sorted⟩
    · rw [← named, List.mem_append, List.mem_singleton]

/-- The names are determined by the methods that have entries and by whether there is one for all. -/
theorem Lists.eq {names names' : List String} (one : Lists calls names) (two : Lists others names')
    (sameMethods : ∀ name, name ∈ methods others ↔ name ∈ methods calls)
    (sameAll : (all others).isSome = (all calls).isSome) : names' = names := by
  have members (name : String) : name ∈ names' ↔ name ∈ names := by
    rw [one.mem_iff, two.mem_iff, sameMethods, sameMethods, sameAll]
  have orderOne := one.ordered
  have orderTwo := two.ordered
  simp only [sameMethods] at orderTwo
  by_cases options : "OPTIONS" ∈ methods calls
  · rw [if_pos options] at orderOne orderTwo
    exact orderTwo.eq_of_mem_iff orderOne fun name => members name
  · rw [if_neg options] at orderOne orderTwo
    rcases orderOne with ⟨before, rfl, sorted⟩
    rcases orderTwo with ⟨before', rfl, sorted'⟩
    -- `OPTIONS` stands at the end only, so the names before it are the same as well
    have last : "OPTIONS" ∉ before := fun mem =>
      (List.nodup_append.1 one.distinct).2.2 _ mem _ (List.mem_singleton_self _) rfl
    have last' : "OPTIONS" ∉ before' := fun mem =>
      (List.nodup_append.1 two.distinct).2.2 _ mem _ (List.mem_singleton_self _) rfl
    refine congrArg (· ++ ["OPTIONS"]) (sorted'.eq_of_mem_iff sorted fun name => ?_)
    have both := members name
    rw [List.mem_append, List.mem_append, List.mem_singleton] at both
    by_cases same : name = "OPTIONS"
    · rw [same]
      exact iff_of_false last' last
    · simpa [same] using both

/-- Without an entry for all methods, those are named that the table does not deny. -/
theorem Lists.mem_iff_served {names : List String} (lists : Lists calls names)
    (none : all calls = none) : method ∈ names ↔ respond calls method ≠ .notAllowed := by
  rw [lists.mem_iff, none]
  rcases respond_cases calls method with ⟨⟨e, -, one⟩, own | head | given⟩ | ⟨self, own, head, -⟩
  · exact iff_of_true (.inl own) (by rcases one with one | one <;> simp [one])
  · exact iff_of_true (.inr (.inl head)) (by rcases one with one | one <;> simp [one])
  · rw [none] at given
    cases given
  · by_cases options : method = "OPTIONS"
    · rw [self, if_pos options]
      exact iff_of_true (.inr (.inr (.inl options))) nofun
    · rw [self, if_neg options]
      exact iff_of_false (by simp [own, head, options]) (not_not_intro rfl)

/-! ## Denials -/

/-- If no entry says itself that the method is not served, the verdict says so exactly where the table
does. -/
theorem deniesMethod_toHandler {allow : String} {req : Request} {cx : Context} {w : Writer}
    (quiet : ∀ e, Serves calls e → (e.compile req cx w).1.deniesMethod = false) :
    ((respond calls method).toHandler allow req cx w).1.deniesMethod = true ↔
      respond calls method = .notAllowed := by
  rcases respond_cases calls method with ⟨⟨e, serves, one | one⟩, -⟩ | ⟨self, -⟩
  · have silent : (wrap e.chain e.handler req cx w).1.deniesMethod = false := quiet e serves
    simp [one, Answer.toHandler, silent]
  · have silent : (wrap e.chain e.handler req cx w).1.deniesMethod = false := quiet e serves
    rcases ran : wrap e.chain e.handler req cx w with ⟨verdict, after⟩
    rw [ran] at silent
    -- leaving out the body does not change the verdict
    have same : ((Answer.stripped e).toHandler allow req cx w).1 = verdict := by
      simp only [Answer.toHandler, ran]
      cases verdict <;> rfl
    simp [one, same, silent]
  · rw [self]
    split <;> simp [Answer.toHandler, Verdict.deniesMethod]

theorem isLegal_allow (legal : ∀ name ∈ methods calls, HeaderValue.isLegal name.toList = true) :
    HeaderValue.isLegal (table calls).compile.allow.toList = true := by
  rcases exists_lists calls with ⟨names, text, lists⟩
  rw [text]
  have standard : ∀ name ∈ "OPTIONS" :: MethodTable.catchAllMethods,
      HeaderValue.isLegal name.toList = true := by decide
  refine HeaderValue.isLegal_intercalate fun name mem => ?_
  rcases (lists.mem_iff name).1 mem with own | ⟨rfl, -⟩ | rfl | ⟨-, added⟩
  · exact legal name own
  · exact standard _ (by decide)
  · exact standard _ (by decide)
  · exact standard name (List.mem_cons_of_mem _ added)

/-- The text of a table that calls have filled, in any order.  Its names are distinct, in upper case
and ascending, as `Lists` says.  The table answers each request by an entry, or itself with that same
text.  Without an entry for all methods it denies exactly the methods that are not named; with one it
denies none.  Sequences that give entries to the same methods, in whatever case they are written, and
agree on whether there is an entry for all of them, lead to the same text. -/
theorem allow_exact (calls : List NodeCall)
    (legal : ∀ name ∈ methods calls, HeaderValue.isLegal name.toList = true) :
    ∃ names, (table calls).compile.allow = String.intercalate ", " names ∧ Lists calls names ∧
      (∀ req cx w, (table calls).compile.toHandler req cx w =
        (respond calls (canonicalMethod req.method)).toHandler (table calls).compile.allow
          req cx w) ∧
      (all calls = none → ∀ method, canonicalMethod method ∈ names ↔
        respond calls (canonicalMethod method) ≠ .notAllowed) ∧
      ((all calls).isSome → ∀ method, ∃ e, Serves calls e ∧
        (respond calls method = .entry e ∨ respond calls method = .stripped e)) ∧
      (∀ req cx w, (∀ e, Serves calls e → (e.compile req cx w).1.deniesMethod = false) →
        (((table calls).compile.toHandler req cx w).1.deniesMethod = true ↔
          all calls = none ∧ canonicalMethod req.method ∉ names)) ∧
      ∀ others, (∀ name, name ∈ methods others ↔ name ∈ methods calls) →
        (all others).isSome = (all calls).isSome →
          (table others).compile.allow = (table calls).compile.allow := by
  rcases exists_lists calls with ⟨names, text, lists⟩
  have answers := toHandler_table (isLegal_allow legal)
  have byEntry (given : (all calls).isSome) (method : String) : ∃ e, Serves calls e ∧
      (respond calls method = .entry e ∨ respond calls method = .stripped e) := by
    rcases respond_cases calls method with ⟨one, -⟩ | ⟨-, -, -, none⟩
    · exact one
    · rw [none] at given
      cases given
  refine ⟨names, text, lists, answers, fun none method => lists.mem_iff_served none, byEntry, ?_, ?_⟩
  · intro req cx w quiet
    rw [answers, deniesMethod_toHandler quiet]
    cases given : all calls with
    | none => simp [lists.mem_iff_served given]
    | some e =>
        rcases byEntry (by rw [given]; rfl) (canonicalMethod req.method) with ⟨e, -, one | one⟩ <;>
          simp [one]
  · intro others sameMethods sameAll
    rcases exists_lists others with ⟨names', text', lists'⟩
    rw [text', text, lists.eq lists' sameMethods sameAll]

/-- Registrations in mixed case, and `PATCH`, which nobody registered. -/
theorem allow_exact_purge :
    let page : Handler := Handler.writing fun _ _ w => w.write "page"
    let calls : List NodeCall := [.method "Purge" page [], .method "get" page []]
    (∀ name ∈ methods calls, HeaderValue.isLegal name.toList = true) ∧ all calls = none ∧
      (∀ e, Serves calls e → ∀ req cx w, (e.compile req cx w).1.deniesMethod = false) ∧
      (table calls).compile.allow = "GET, HEAD, PURGE, OPTIONS" ∧
      ∃ names, (table calls).compile.allow = String.intercalate ", " names ∧
        "PURGE" ∈ names ∧ "HEAD" ∈ names ∧ "PATCH" ∉ names ∧
        ∀ req cx w, (((table calls).compile.toHandler req cx w).1.deniesMethod = true ↔
          canonicalMethod req.method ∉ names) := by
  intro page calls
  have purge : canonicalMethod "Purge" = "PURGE" := by decide +kernel
  have get : canonicalMethod "get" = "GET" := by decide +kernel
  have named : methods calls = ["PURGE", "GET"] := by
    simp [calls, methods, method?, purge, get]
  have legal : ∀ name ∈ methods calls, HeaderValue.isLegal name.toList = true := by
    rw [named]
    decide
  have quiet : ∀ e, Serves calls e → ∀ req cx w, (e.compile req cx w).1.deniesMethod = false := by
    rintro e (given | ⟨method, given⟩) req cx w
    · cases given
    · have one : e ∈ calls.filterMap (entryFor? method) := List.mem_of_getLast? given
      simp only [calls, List.mem_filterMap, List.mem_cons, List.not_mem_nil, or_false] at one
      rcases one with ⟨call, rfl | rfl, one⟩ <;>
        · simp only [entryFor?, Option.ite_none_right_eq_some, Option.some.injEq] at one
          rcases one with ⟨-, rfl⟩
          rfl
  rcases allow_exact calls legal with ⟨names, text, lists, -, -, -, denied, -⟩
  refine ⟨legal, rfl, quiet, by decide +kernel, names, text, ?_, ?_, ?_, fun req cx w => ?_⟩
  · simp [lists.mem_iff, named]
  · simp [lists.mem_iff, named]
  · simp [lists.mem_iff, named, show all calls = none from rfl]
  · rw [denied req cx w fun e serves => quiet e serves req cx w]
    exact and_iff_right rfl

end NodeCall
end PathRouter
