import PathRouter.Handler.Methods
import PathRouter.Proofs.Assoc
import Mathlib.Data.String.Basic

/-!
# Methods — which handler of a table answers a request

* `MethodTable.pick`, the handler that a table has for a method, before the table is compiled;
* `MethodTable.mem_handlers`, the methods that have handlers once the table is compiled;
* `MethodTable.toHandler_compile`, that the compiled table calls it, and answers itself where there
  is none;
* `MethodTable.sorted_insert` and `MethodTable.get?_insert`, what a registration changes.
-/

namespace PathRouter
namespace MethodTable

variable {t : MethodTable} {name method : String} {handler : Handler} {chain : List Middleware}

/-- The entries are in ascending order of their methods. -/
def Sorted (t : MethodTable) : Prop := Assoc.Sorted t.entries

theorem sorted_empty : empty.Sorted := List.Pairwise.nil

theorem sorted_insert (sorted : t.Sorted) : (t.insert name handler chain).Sorted :=
  Assoc.sorted_alter sorted

/-- A registration is found under its own method and under no other. -/
theorem get?_insert (sorted : t.Sorted) :
    Assoc.get? method (t.insert name handler chain).entries =
      if method = canonicalMethod name then some ⟨handler, chain⟩
      else Assoc.get? method t.entries :=
  Assoc.get?_insert sorted

/-! ## The handler of a method -/

/-- The handler that a table has for a method, which is given in upper case: its own, for `HEAD` also
that of `GET`, or else the one for all methods. -/
def pick (t : MethodTable) (method : String) : Option Handler :=
  match Assoc.get? method t.entries with
  | some entry => some entry.compile
  | none =>
    match if method = "HEAD" then Assoc.get? "GET" t.entries else none with
    | some get => some (headOfGet get.compile)
    | none => t.any.map MethodEntry.compile

theorem get?_map (method : String) (entries : List (String × MethodEntry)) :
    Assoc.get? method (entries.map fun entry => (entry.1, entry.2.compile)) =
      (Assoc.get? method entries).map MethodEntry.compile := by
  induction entries with
  | nil => rfl
  | cons entry entries ih => by_cases same : method = entry.1 <;> simp [Assoc.get?, same, ih]

theorem sorted_map (sorted : t.Sorted) :
    Assoc.Sorted (t.entries.map fun entry => (entry.1, entry.2.compile)) :=
  List.Pairwise.map _ (fun _ _ less => less) sorted

/-- The compiled entries, with that of `GET` also under `HEAD` if nothing else is. -/
theorem get?_handlers (sorted : t.Sorted) (method : String) :
    Assoc.get? method t.compile.handlers =
      ((Assoc.get? method t.entries).map MethodEntry.compile <|>
        if method = "HEAD" then (Assoc.get? "GET" t.entries).map fun get => headOfGet get.compile
        else none) := by
  let compiled := t.entries.map fun entry => (entry.1, entry.2.compile)
  have found (name : String) : Assoc.get? name compiled =
      (Assoc.get? name t.entries).map MethodEntry.compile := get?_map name t.entries
  have handlers : t.compile.handlers = withHead compiled := rfl
  have order : Assoc.Sorted compiled := sorted_map sorted
  cases head : Assoc.get? "HEAD" t.entries with
  | some entry =>
      -- with an entry of its own, `HEAD` gets no other
      have kept : withHead compiled = compiled := by simp [withHead, found, head]
      rw [handlers, kept, found]
      by_cases own : method = "HEAD"
      · simp [own, head]
      · simp [own]
  | none =>
      cases get : Assoc.get? "GET" t.entries with
      | none =>
          have kept : withHead compiled = compiled := by simp [withHead, found, head, get]
          rw [handlers, kept, found]
          by_cases own : method = "HEAD" <;> simp [own]
      | some entry =>
          have added : withHead compiled =
              Assoc.insert "HEAD" (headOfGet entry.compile) compiled := by
            simp [withHead, found, head, get]
          rw [handlers, added, Assoc.get?_insert order, found]
          by_cases own : method = "HEAD" <;> simp [own, head]

/-- The compiled entries are in ascending order of their methods. -/
theorem sorted_handlers (sorted : t.Sorted) : Assoc.Sorted t.compile.handlers := by
  have order := sorted_map sorted
  simp only [compile, withHead]
  split
  · exact Assoc.sorted_alter order
  · exact order

/-- The methods of the compiled entries: those of the table, and `HEAD` beside `GET`. -/
theorem mem_handlers (sorted : t.Sorted) :
    method ∈ t.compile.handlers.map Prod.fst ↔
      (Assoc.get? method t.entries).isSome ∨
        method = "HEAD" ∧ (Assoc.get? "GET" t.entries).isSome := by
  rw [← Assoc.isSome_get?_iff, get?_handlers sorted]
  by_cases head : method = "HEAD"
  · simp [head]
  · simp [head]

/-- A compiled table calls the handler it has for the method of the request. -/
theorem toHandler_compile (sorted : t.Sorted) (req : Request) (cx : Context) (w : Writer) :
    t.compile.toHandler req cx w =
      match t.pick (canonicalMethod req.method) with
      | some handler => handler req cx w
      | none => t.compile.unregistered (canonicalMethod req.method) w := by
  have found := get?_handlers sorted (canonicalMethod req.method)
  have any : t.compile.any = t.any.map MethodEntry.compile := rfl
  cases own : Assoc.get? (canonicalMethod req.method) t.entries with
  | some entry => simp [MethodHandler.toHandler, pick, found, own]
  | none =>
      by_cases head : canonicalMethod req.method = "HEAD"
      · cases get : Assoc.get? "GET" t.entries with
        | some entry => simp_all [MethodHandler.toHandler, pick]
        | none => cases all : t.any <;> simp_all [MethodHandler.toHandler, pick]
      · cases all : t.any <;> simp_all [MethodHandler.toHandler, pick]

end MethodTable
end PathRouter
