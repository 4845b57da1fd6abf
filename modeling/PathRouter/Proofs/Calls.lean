import PathRouter.Proofs.Headers
import PathRouter.Proofs.Methods
import PathRouter.Router.Builder
import Mathlib.Data.List.Induction

/-!
# Calls — a node after a sequence of registrations

A node that serves requests itself is put together by calls in any order.  Of the sequence count only
the middleware, the last entry for each method and the last entry for all methods.  This file defines

* `NodeCall`, such a call, and `Node.run`, a sequence of calls on a node;
* `NodeCall.wraps`, `NodeCall.own` and `NodeCall.all`, what counts of a sequence;
* `NodeCall.answer`, which of its entries answers a method, and `Answer.toHandler`, how;

and shows `Node.run_new`, what a fresh node holds after the calls, and `Node.dispatch_of_calls`, how it
answers once it is finished.
-/

namespace PathRouter

/-- A registration on a node that serves requests itself. -/
inductive NodeCall where
  | handle (handler : Handler) (chain : List Middleware)
  | method (name : String) (handler : Handler) (chain : List Middleware)
  | wrapWith (middleware : Middleware)

def NodeCall.run : NodeCall → Node → Except Refusal Node
  | .handle handler chain, n => n.handle handler chain
  | .method name handler chain, n => n.method name handler chain
  | .wrapWith middleware, n => n.wrapWith middleware

/-- The node after the calls, up to the first that is refused. -/
def Node.run (n : Node) : List NodeCall → Except Refusal Node
  | [] => .ok n
  | call :: rest =>
    match call.run n with
    | .error refusal => .error refusal
    | .ok next => next.run rest

theorem Node.run_concat {n next : Node} {calls : List NodeCall} (call : NodeCall) :
    n.run calls = .ok next → n.run (calls ++ [call]) = call.run next := by
  intro done
  induction calls generalizing n with
  | nil =>
      cases done
      rw [List.nil_append, run]
      cases call.run next <;> simp [run]
  | cons first calls ih =>
      rw [run] at done
      rw [List.cons_append, run]
      cases worked : first.run n with
      | error refusal =>
          rw [worked] at done
          cases done
      | ok middle =>
          rw [worked] at done
          exact ih done

namespace NodeCall

variable {calls : List NodeCall} {method : String}

/-! ## What counts -/

def middleware? : NodeCall → Option Middleware
  | .wrapWith middleware => some middleware
  | _ => none

/-- The entry that a call gives to a method, which is given in upper case. -/
def entryFor? (method : String) : NodeCall → Option MethodEntry
  | .method name handler chain =>
    if canonicalMethod name = method then some ⟨handler, chain⟩ else none
  | _ => none

def entryForAll? : NodeCall → Option MethodEntry
  | .handle handler chain => some ⟨handler, chain⟩
  | _ => none

/-- The method that gets an entry, in upper case. -/
def method? : NodeCall → Option String
  | .method name _ _ => some (canonicalMethod name)
  | _ => none

/-- The middleware, in the order in which it was put around. -/
def wraps (calls : List NodeCall) : List Middleware := calls.filterMap middleware?

/-- The last entry for a method, which is given in upper case. -/
def own (method : String) (calls : List NodeCall) : Option MethodEntry :=
  (calls.filterMap (entryFor? method)).getLast?

/-- The last entry for all methods. -/
def all (calls : List NodeCall) : Option MethodEntry := (calls.filterMap entryForAll?).getLast?

/-- The methods that have entries, in upper case. -/
def methods (calls : List NodeCall) : List String := calls.filterMap method?

theorem wraps_concat (call : NodeCall) :
    wraps (calls ++ [call]) = wraps calls ++ call.middleware?.toList := by
  cases call <;> simp [wraps, middleware?]

theorem own_concat (call : NodeCall) :
    own method (calls ++ [call]) = (call.entryFor? method).or (own method calls) := by
  cases one : call.entryFor? method <;> simp [own, one]

theorem all_concat (call : NodeCall) :
    all (calls ++ [call]) = call.entryForAll?.or (all calls) := by
  cases one : call.entryForAll? <;> simp [all, one]

theorem methods_concat (call : NodeCall) :
    methods (calls ++ [call]) = methods calls ++ call.method?.toList := by
  cases one : call.method? <;> simp [methods, one]

end NodeCall

/-- Who answers a request that has been routed to a node. -/
inductive Answer where
  /-- An entry for the method, or one for all methods. -/
  | entry (e : MethodEntry)
  /-- The entry for `GET`, in answer to `HEAD`. -/
  | stripped (get : MethodEntry)
  /-- Nobody: nothing has been registered. -/
  | missing
  /-- The node itself, with the list of methods. -/
  | options
  | notAllowed

/-- How the answer is given, for a node with a list of methods. -/
def Answer.toHandler (allow : String) : Answer → Handler
  | .entry e => wrap e.chain e.handler
  | .stripped get => fun req cx w =>
    match wrap get.chain get.handler req cx w with
    -- a panic leaves the writer as it is
    | (.panicked p, after) => (.panicked p, after)
    | (verdict, after) => (verdict, after.stripBody)
  | .missing => fun _ _ w => (.failed (.http .notFound), w)
  | .options => fun _ _ w => (.served, (w.setHeader HeaderName.allow allow).setStatus .noContent)
  | .notAllowed => fun req _ w =>
    (.failed (.methodNotAllowed ⟨canonicalMethod req.method, allow⟩), w)

namespace NodeCall

variable {calls : List NodeCall} {method : String}

/-- Who answers a method, which is given in upper case. -/
def answer (calls : List NodeCall) (method : String) : Answer :=
  match own method calls with
  | some e => .entry e
  | none =>
    match if method = "HEAD" then own "GET" calls else none with
    | some get => .stripped get
    | none =>
      match all calls with
      | some e => .entry e
      | none =>
        if methods calls = [] then .missing
        else if method = "OPTIONS" then .options
        else .notAllowed

/-- How a node answers requests inside of its middleware. -/
def serve (calls : List NodeCall) (allow : String) : Handler := fun req cx w =>
  (answer calls (canonicalMethod req.method)).toHandler allow req cx w

/-- The list of methods as a header value: `OPTIONS` comes last if nobody registered it. -/
def allowText (listed : List String) : String :=
  String.intercalate ", " (if "OPTIONS" ∈ listed then listed else listed ++ ["OPTIONS"])

/-- A method has an entry if one has been registered for it. -/
theorem isSome_own_iff : (own method calls).isSome ↔ method ∈ methods calls := by
  induction calls using List.reverseRecOn with
  | nil => simp [own, methods]
  | append_singleton calls call ih =>
      rw [own_concat, methods_concat, List.mem_append, ← ih]
      cases call with
      | method name handler chain =>
          by_cases same : method = canonicalMethod name
          · simp [entryFor?, method?, same]
          · simp [entryFor?, method?, same, Ne.symm same]
      | handle handler chain => simp [entryFor?, method?]
      | wrapWith middleware => simp [entryFor?, method?]

theorem methods_eq_nil_iff : methods calls = [] ↔ ∀ method, own method calls = none := by
  simp only [List.eq_nil_iff_forall_not_mem, ← isSome_own_iff, Option.not_isSome_iff_eq_none]

/-! ## The table -/

/-- The table after one more call. -/
def fill (t : MethodTable) : NodeCall → MethodTable
  | .handle handler chain => t.setAny handler chain
  | .method name handler chain => t.insert name handler chain
  | .wrapWith _ => t

/-- The table that the calls fill. -/
def table (calls : List NodeCall) : MethodTable := calls.foldl fill .empty

theorem table_concat (call : NodeCall) : table (calls ++ [call]) = fill (table calls) call := by
  simp [table]

theorem any_table (calls : List NodeCall) : (table calls).any = all calls := by
  induction calls using List.reverseRecOn with
  | nil => rfl
  | append_singleton calls call ih =>
      rw [table_concat, all_concat, ← ih]
      cases call <;> rfl

theorem sorted_table (calls : List NodeCall) : (table calls).Sorted := by
  induction calls using List.reverseRecOn with
  | nil => exact MethodTable.sorted_empty
  | append_singleton calls call ih =>
      rw [table_concat]
      cases call with
      | handle handler chain => exact ih
      | method name handler chain => exact MethodTable.sorted_insert ih
      | wrapWith middleware => exact ih

theorem get?_table (calls : List NodeCall) (method : String) :
    Assoc.get? method (table calls).entries = own method calls := by
  induction calls using List.reverseRecOn with
  | nil => rfl
  | append_singleton calls call ih =>
      rw [table_concat, own_concat, ← ih]
      cases call with
      | handle handler chain => rfl
      | method name handler chain =>
          rw [fill, MethodTable.get?_insert (sorted_table calls)]
          by_cases same : method = canonicalMethod name
          · simp [entryFor?, same]
          · simp [entryFor?, same, Ne.symm same]
      | wrapWith middleware => rfl

theorem table_of_no_methods (none : methods calls = []) : table calls = ⟨[], all calls⟩ := by
  have entries : (table calls).entries = [] := by
    refine Assoc.ext_of_sorted (sorted_table calls) List.Pairwise.nil fun method => ?_
    rw [get?_table, methods_eq_nil_iff.1 none method]
    rfl
  rw [← any_table, ← entries]

/-- What a fresh node holds after the calls. -/
def target (calls : List NodeCall) : Target :=
  if methods calls = [] then
    match all calls with
    | none => .empty
    | some e => .handler e.handler e.chain
  else .methods (table calls)

/-- Calls attach no router. -/
theorem target_cases (calls : List NodeCall) : target calls = .empty ∨
    (∃ handler chain, target calls = .handler handler chain) ∨
      ∃ table, target calls = .methods table := by
  rw [target]
  split
  · split
    · exact .inl rfl
    · exact .inr (.inl ⟨_, _, rfl⟩)
  · exact .inr (.inr ⟨_, rfl⟩)

end NodeCall

/-- No call on a fresh node is refused, and it holds what the calls make of it. -/
theorem Node.run_new (p : Pattern) (calls : List NodeCall) :
    (Node.new p).run calls = .ok (.raw p (NodeCall.target calls) (NodeCall.wraps calls)) := by
  -- on the last call
  induction calls using List.reverseRecOn with
  | nil => rfl
  | append_singleton calls call ih =>
      rw [run_concat call ih, NodeCall.wraps_concat]
      simp only [NodeCall.target, NodeCall.methods_concat, NodeCall.all_concat,
        NodeCall.table_concat]
      by_cases none : NodeCall.methods calls = []
      · have table := NodeCall.table_of_no_methods none
        cases before : NodeCall.all calls with
        | none =>
            cases call <;> simp [NodeCall.run, handle, method, wrapWith, none, table, before,
              NodeCall.method?, NodeCall.entryForAll?, NodeCall.middleware?, NodeCall.fill,
              MethodTable.empty]
        | some e =>
            cases call <;> simp [NodeCall.run, handle, method, wrapWith, none, table, before,
              NodeCall.method?, NodeCall.entryForAll?, NodeCall.middleware?, NodeCall.fill,
              MethodTable.empty, MethodTable.setAny]
      · cases call <;> simp [NodeCall.run, handle, method, wrapWith, none, NodeCall.middleware?,
          NodeCall.fill]

/-! ## Finished nodes -/

namespace NodeCall

variable {calls : List NodeCall}

/-- The handler of what a node holds after the calls: it answers as `answer` says, and as the table does
where no entry is found. -/
theorem freeze_target (calls : List NodeCall) (req : Request) (cx : Context) (w : Writer) :
    (target calls).freeze.1 req cx w =
      match answer calls (canonicalMethod req.method) with
      | .entry e => e.compile req cx w
      | .stripped get => MethodTable.headOfGet get.compile req cx w
      | .missing => (.failed (.http .notFound), w)
      | .options => (table calls).compile.unregistered (canonicalMethod req.method) w
      | .notAllowed => (table calls).compile.unregistered (canonicalMethod req.method) w := by
  by_cases none : methods calls = []
  · have bare := methods_eq_nil_iff.1 none
    cases given : all calls with
    | none =>
        simp [target, answer, none, bare, given, Target.freeze, Handler.status]
        rfl
    | some e => simp [target, answer, none, bare, given, Target.freeze, MethodEntry.compile]
  · have picked : (table calls).pick (canonicalMethod req.method) =
        match answer calls (canonicalMethod req.method) with
        | .entry e => some e.compile
        | .stripped get => some (MethodTable.headOfGet get.compile)
        | _ => Option.none := by
      simp only [MethodTable.pick, answer, get?_table, any_table]
      cases own (canonicalMethod req.method) calls with
      | some e => rfl
      | none =>
          cases (if canonicalMethod req.method = "HEAD" then own "GET" calls else Option.none) with
          | some get => rfl
          | none =>
              cases all calls with
              | some e => rfl
              | none => by_cases options : canonicalMethod req.method = "OPTIONS" <;> simp [none, options]
    rw [target, if_neg none]
    simp only [Target.freeze]
    rw [MethodTable.toHandler_compile (sorted_table calls), picked]
    cases who : answer calls (canonicalMethod req.method) with
    | missing =>
        -- some method has an entry
        simp only [answer] at who
        split at who <;> try cases who
        split at who <;> try cases who
        split at who <;> try cases who
        rw [if_neg none] at who
        split at who <;> cases who
    | _ => rfl

/-- The methods that a node lists: those with entries, and `HEAD` beside `GET`. -/
def listed (calls : List NodeCall) : List String :=
  (table calls).compile.handlers.map Prod.fst

theorem mem_listed {name : String} : name ∈ listed calls ↔
    (own name calls).isSome ∨ name = "HEAD" ∧ (own "GET" calls).isSome := by
  rw [listed, MethodTable.mem_handlers (sorted_table calls), get?_table, get?_table]

theorem pairwise_listed (calls : List NodeCall) : (listed calls).Pairwise (· < ·) :=
  List.pairwise_map.2 (MethodTable.sorted_handlers (sorted_table calls))

/-- The list of methods depends on no more than the methods that have entries. -/
theorem listed_eq {others : List NodeCall} (same : ∀ method, own method others = own method calls) :
    listed others = listed calls := by
  refine List.Perm.eq_of_pairwise (fun a b _ _ less more => ?_) (pairwise_listed others)
    (pairwise_listed calls) ?_
  · exact absurd (lt_trans less more) (lt_irrefl a)
  · refine (List.perm_ext_iff_of_nodup ?_ ?_).2 fun name => ?_
    · exact (pairwise_listed others).imp fun less => ne_of_lt less
    · exact (pairwise_listed calls).imp fun less => ne_of_lt less
    · rw [mem_listed, mem_listed, same, same]

/-- Without an entry for all methods, the value of the `Allow` header names the methods listed. -/
theorem allow_table (none : all calls = none) :
    (table calls).compile.allow = allowText (listed calls) := by
  have text : (table calls).compile.allow = String.intercalate ", "
      (MethodTable.allowed (listed calls) (table calls).any.isSome) := rfl
  rw [text, any_table, none]
  by_cases options : "OPTIONS" ∈ listed calls <;> simp [MethodTable.allowed, allowText, options]

theorem isLegal_allowText {listed : List String}
    (legal : ∀ name ∈ listed, HeaderValue.isLegal name.toList = true) :
    HeaderValue.isLegal (allowText listed).toList = true := by
  refine HeaderValue.isLegal_intercalate fun name mem => ?_
  split at mem
  · exact legal name mem
  · rcases List.mem_append.1 mem with old | last
    · exact legal name old
    · rw [List.mem_singleton.1 last]
      decide

/-- The node answers itself only where there is no entry for all methods. -/
theorem all_of_answer {method : String}
    (alone : answer calls method = .options ∨ answer calls method = .notAllowed) :
    all calls = none ∧ (answer calls method = .options ↔ method = "OPTIONS") := by
  cases mine : own method calls with
  | some e => simp only [answer, mine, reduceCtorEq, or_self] at alone
  | none =>
      cases get : (if method = "HEAD" then own "GET" calls else none) with
      | some e => simp only [answer, mine, get, reduceCtorEq, or_self] at alone
      | none =>
          cases any : all calls with
          | some e => simp only [answer, mine, get, any, reduceCtorEq, or_self] at alone
          | none =>
              simp only [answer, mine, get, any] at alone ⊢
              by_cases none : methods calls = []
              · simp [none] at alone
              · by_cases options : method = "OPTIONS" <;> simp [none, options]

/-- The handler of what a node holds after the calls is that of its answers. -/
theorem freeze_target_eq_serve
    (legal : ∀ name ∈ methods calls, HeaderValue.isLegal name.toList = true) :
    (target calls).freeze.1 = serve calls (allowText (listed calls)) := by
  have sendable : HeaderValue.isLegal (allowText (listed calls)).toList = true := by
    refine isLegal_allowText fun name mem => ?_
    rcases mem_listed.1 mem with own | ⟨head, -⟩
    · exact legal name (isSome_own_iff.1 own)
    · rw [head]
      decide
  funext req cx w
  rw [freeze_target, serve]
  cases who : answer calls (canonicalMethod req.method) with
  | entry e => rfl
  | stripped get => rfl
  | missing => rfl
  | options =>
      rcases all_of_answer (.inl who) with ⟨none, named⟩
      simp [MethodHandler.unregistered, named.1 who, allow_table none, sendable, Answer.toHandler]
  | notAllowed =>
      rcases all_of_answer (.inr who) with ⟨none, named⟩
      have other : canonicalMethod req.method ≠ "OPTIONS" := by
        intro options
        simp [named.2 options] at who
      simp [MethodHandler.unregistered, other, allow_table none, Answer.toHandler]

/-- Who answers depends on no more than the last entries. -/
theorem answer_eq {others : List NodeCall} (sameAll : all others = all calls)
    (same : ∀ method, own method others = own method calls) :
    answer others = answer calls := by
  have empty : methods others = [] ↔ methods calls = [] := by
    simp only [methods_eq_nil_iff, same]
  funext method
  simp only [answer, same, sameAll, empty]

end NodeCall

/-- How a fresh node answers after any sequence of calls, once it is finished: within its middleware as
`NodeCall.serve` says, where the list of methods is that of the entries, in ascending order.  Sequences
with the same middleware and the same last entries, for each method in upper case and for all of them,
lead to the same handler. -/
theorem Node.dispatch_of_calls (p : Pattern) (calls : List NodeCall)
    (legal : ∀ name ∈ NodeCall.methods calls, HeaderValue.isLegal name.toList = true) :
    ∃ n listed, (Node.new p).run calls = .ok n ∧
      n.freeze.handler =
        wrap (NodeCall.wraps calls) (NodeCall.serve calls (NodeCall.allowText listed)) ∧
      listed.Pairwise (· < ·) ∧
      (∀ name, name ∈ listed ↔ (NodeCall.own name calls).isSome ∨
        name = "HEAD" ∧ (NodeCall.own "GET" calls).isSome) ∧
      ∀ others other, (Node.new p).run others = .ok other →
        NodeCall.wraps others = NodeCall.wraps calls → NodeCall.all others = NodeCall.all calls →
          (∀ method, NodeCall.own method others = NodeCall.own method calls) →
            other.freeze.handler = n.freeze.handler := by
  have finished (calls : List NodeCall) (n : Node) (done : (Node.new p).run calls = .ok n) :
      n.freeze.handler = wrap (NodeCall.wraps calls) (NodeCall.target calls).freeze.1 := by
    rw [run_new] at done
    cases done
    rfl
  refine ⟨_, NodeCall.listed calls, run_new p calls, ?_, NodeCall.pairwise_listed calls,
    fun name => NodeCall.mem_listed, fun others other done wraps all own => ?_⟩
  · rw [finished calls _ (run_new p calls), NodeCall.freeze_target_eq_serve legal]
  · have legalOthers : ∀ name ∈ NodeCall.methods others, HeaderValue.isLegal name.toList = true := by
      intro name mem
      rw [← NodeCall.isSome_own_iff, own, NodeCall.isSome_own_iff] at mem
      exact legal name mem
    have answers : ∀ allow, NodeCall.serve others allow = NodeCall.serve calls allow := by
      intro allow
      funext req cx w
      rw [NodeCall.serve, NodeCall.serve, NodeCall.answer_eq all own]
    rw [finished others other done, finished calls _ (run_new p calls), wraps,
      NodeCall.freeze_target_eq_serve legal, NodeCall.freeze_target_eq_serve legalOthers,
      NodeCall.listed_eq own, answers]

/-- Registrations for `get` and for all methods, in either order and with the middleware anywhere. -/
theorem Node.dispatch_of_calls_mixed :
    let page : Handler := Handler.writing fun _ _ w => w.write "page"
    let calls : List NodeCall :=
      [.method "get" (Handler.status .notFound) [], .handle page [], .wrapWith recoverer,
        .method "Get" page []]
    let others : List NodeCall := [.wrapWith recoverer, .method "GET" page [], .handle page []]
    (∀ name ∈ NodeCall.methods calls, HeaderValue.isLegal name.toList = true) ∧
      NodeCall.answer calls "HEAD" = .stripped ⟨page, []⟩ ∧
      ∃ p n other, Pattern.compile "/a".toList = .ok p ∧ (Node.new p).run calls = .ok n ∧
        (Node.new p).run others = .ok other ∧ other.freeze.handler = n.freeze.handler := by
  intro page calls others
  have lower : canonicalMethod "get" = "GET" := by decide +kernel
  have title : canonicalMethod "Get" = "GET" := by decide +kernel
  have upper : canonicalMethod "GET" = "GET" := by decide +kernel
  have methods : NodeCall.methods calls = ["GET", "GET"] := by
    simp [calls, NodeCall.methods, NodeCall.method?, List.filterMap_cons, lower, title]
  have legal : ∀ name ∈ NodeCall.methods calls, HeaderValue.isLegal name.toList = true := by
    rw [methods]
    decide
  have own (method : String) : NodeCall.own method calls = NodeCall.own method others ∧
      NodeCall.own method others = if "GET" = method then some ⟨page, []⟩ else none := by
    simp only [calls, others, NodeCall.own, NodeCall.entryFor?, List.filterMap_cons, lower, title,
      upper]
    by_cases get : "GET" = method <;> simp [get]
  have head : NodeCall.answer calls "HEAD" = .stripped ⟨page, []⟩ := by
    simp [NodeCall.answer, (own _).1, (own _).2]
  rcases compiled : Pattern.compile "/a".toList with _ | p
  · cases compiled
  · rcases dispatch_of_calls p calls legal with ⟨n, _, done, _, _, _, depends⟩
    exact ⟨legal, head, p, n, _, rfl, done, run_new p others,
      depends others _ (run_new p others) rfl rfl fun method => (own method).1.symm⟩

end PathRouter
