import PathRouter.Proofs.Head
import PathRouter.Proofs.Outcomes

/-!
# OwnHeader — the header that a failure puts into its response

A redirect says where to go in a `Location`, and a method that is not allowed is answered with the
methods that are in an `Allow`.  Headers that were written before the failure stay in the response, so
there may be more than one of the name.  This file defines

* `Failure.ownHeader?`, the header that such a failure calls for;
* `LeavesOut`, that a handler that fails has not written a name;

and shows `Builder.own_header`: the failure's own value comes last in the response, behind what had been
written under the name, and it is the only one where all parts of the router leave the name out.
-/

namespace PathRouter

/-- The header by which a failure tells the client what to do instead. -/
def Failure.ownHeader? : Failure → Option (HeaderName × Text)
  | .redirect r => some (HeaderName.location, r.location)
  | .methodNotAllowed e => some (HeaderName.allow, e.allow.toList)
  | _ => none

/-- Of an outcome, that nothing is found under a name after a failure if nothing was before. -/
def LeavesOut (name : HeaderName) : Assertion := fun _ _ w out =>
  w.headers.all name = [] → ∀ f, out.1.failure? = some f → out.2.headers.all name = []

/-- A name that neither rendering nor the loss of a body has anything to say about. -/
structure HeaderName.Plain (name : HeaderName) : Prop where
  length : name ≠ HeaderName.contentLength
  type : name ≠ HeaderName.contentType
  options : name ≠ HeaderName.contentTypeOptions

section Names

variable {name : HeaderName} {f : Failure} {text : Text}

theorem Failure.plain_of_ownHeader (own : f.ownHeader? = some (name, text)) : name.Plain := by
  have plainLocation : HeaderName.location.Plain := ⟨by decide, by decide, by decide⟩
  have plainAllow : HeaderName.allow.Plain := ⟨by decide, by decide, by decide⟩
  cases f with
  | http e => cases own
  | panic p => cases own
  | redirect r =>
      cases own
      exact plainLocation
  | methodNotAllowed e =>
      cases own
      exact plainAllow

theorem valuesOf_headerOf (plain : name.Plain) (legal : HeaderValue.isLegal text = true) :
    Headers.valuesOf name ((Failure.headerOf name text).toList.filter fun field =>
      field.1 ≠ HeaderName.contentType && field.1 ≠ HeaderName.contentTypeOptions) =
        [String.ofList text] := by
  simp [Failure.headerOf, legal, Headers.set, Headers.empty, Headers.alter, Headers.toList,
    Headers.valuesOf, plain.type, plain.options]

/-- A value that can be sent goes into the response. -/
theorem valuesOf_ownHeader (own : f.ownHeader? = some (name, text))
    (legal : HeaderValue.isLegal text = true) :
    Headers.valuesOf name (failureHeaders f) = [String.ofList text] := by
  have plain := Failure.plain_of_ownHeader own
  cases f with
  | http e => cases own
  | panic p => cases own
  | redirect r =>
      cases own
      exact valuesOf_headerOf plain legal
  | methodNotAllowed e =>
      cases own
      exact valuesOf_headerOf plain legal

theorem Writer.all_stripBody (plain : name.Plain) (w : Writer) :
    w.stripBody.headers.all name = w.headers.all name := by
  rw [Writer.stripBody]
  simp only
  split
  · rfl
  · exact Headers.all_set_of_ne plain.length.symm

/-- What a router sends in answer to a failure, under a plain name. -/
theorem Router.all_serve (plain : name.Plain) (r : Router) (req : Request)
    (ended : (r.dispatch req .empty).1.failure? = some f) :
    (r.serve req).headers.all name =
      (r.dispatch req .empty).2.headers.all name ++ Headers.valuesOf name (failureHeaders f) := by
  have rendered : (render f req (r.dispatch req .empty).2 r.options).headers.all name =
      (r.dispatch req .empty).2.headers.all name ++ Headers.valuesOf name (failureHeaders f) := by
    rw [all_render f req _ _ plain.type plain.options, Headers.all_remove_of_ne plain.length.symm]
  by_cases head : req.method = "HEAD"
  · simpa [serve, ended, head, Writer.toResponse, Writer.all_stripBody plain] using rendered
  · simpa [serve, ended, head, Writer.toResponse] using rendered

/-! ## Routers that leave a name out -/

theorem kept_leavesOut (plain : name.Plain) : (LeavesOut name).Kept where
  bare _ _ _ := fun clear _ _ => clear
  miss _ _ _ := fun clear _ _ => clear
  redirect _ _ _ _ _ := fun clear _ _ => clear
  unregistered methods method req cx w := by
    intro clear f failed
    -- the answer to `OPTIONS` writes a name, but is no failure
    by_cases options : method = "OPTIONS"
    · simp [MethodHandler.unregistered, options, Verdict.failure?] at failed
    · simpa [MethodHandler.unregistered, options] using clear
  strip _ _ _ _ after ensured := by
    intro clear f failed
    rw [Writer.all_stripBody plain]
    exact ensured clear f failed
  below _ _ _ _ _ _ ensured := ensured
  fallback _ _ _ f after _ missed ensured := by
    intro clear
    refine ensured ?_
    rw [Writer.reset, Headers.all_remove_of_ne plain.length.symm]
    exact missed clear f rfl

/-- No failure of a router whose parts leave a name out comes with a value for it. -/
theorem Builder.all_dispatch_of_leavesOut {b : Builder} (plain : name.Plain)
    (registered : b.Registered (.keeping (Handler.Ensures (LeavesOut name)))) {req : Request}
    (ended : (b.freeze.dispatch req .empty).1.failure? = some f) :
    (b.freeze.dispatch req .empty).2.headers.all name = [] := by
  have ensured := registered.built.ensures (kept_leavesOut plain)
  refine ensured req (.new req.uri.path) .empty rfl f ?_
  rw [← Verdict.failure?_outcome]
  exact ended

end Names

/-! ## Responses -/

/-- A redirect is answered with its `Location`, and a method that is not allowed with its `Allow`, behind
whatever has been written under the name.  Where handlers and middleware that fail leave the name out,
there is no other value. -/
theorem Builder.own_header (b : Builder) (req : Request) {f : Failure} {name : HeaderName} {text : Text}
    (ended : (b.freeze.dispatch req .empty).1.failure? = some f)
    (own : f.ownHeader? = some (name, text)) (legal : HeaderValue.isLegal text = true) :
    (b.freeze.serve req).headers.all name =
      (b.freeze.dispatch req .empty).2.headers.all name ++ [String.ofList text] ∧
    (b.Registered (.keeping (Handler.Ensures (LeavesOut name))) →
      (b.freeze.serve req).headers.all name = [String.ofList text]) := by
  have plain := Failure.plain_of_ownHeader own
  have sent : (b.freeze.serve req).headers.all name =
      (b.freeze.dispatch req .empty).2.headers.all name ++ [String.ofList text] := by
    rw [Router.all_serve plain b.freeze req ended, valuesOf_ownHeader own legal]
  refine ⟨sent, fun registered => ?_⟩
  rw [sent, Builder.all_dispatch_of_leavesOut plain registered ended, List.nil_append]

/-- A path with a handler for `GET` alone says so to `POST`, once. -/
theorem Builder.own_header_allow :
    ∃ (b : Builder) (req : Request) (f : Failure),
      (b.freeze.dispatch req .empty).1.failure? = some f ∧
      f.ownHeader? = some (HeaderName.allow, "GET, HEAD, OPTIONS".toList) ∧
      HeaderValue.isLegal "GET, HEAD, OPTIONS".toList = true ∧
      b.Registered (.keeping (Handler.Ensures (LeavesOut HeaderName.allow))) ∧
      (b.freeze.serve req).headers.all HeaderName.allow = ["GET, HEAD, OPTIONS"] := by
  let hello : Handler := .writing fun _ _ w => w.write "hello"
  let x : Pattern := ⟨"/x".toList, "/x".toList, "/x".toList, .literal "/x".toList⟩
  let b : Builder :=
    ⟨[.raw x (.methods (MethodTable.empty.insert "GET" hello [])) []], [], none, .default, none⟩
  let req : Request := ⟨"POST", ⟨"/x".toList, none⟩, .empty, ""⟩
  let f : Failure := .methodNotAllowed ⟨"POST", "GET, HEAD, OPTIONS"⟩
  have registered : b.Registered (.keeping (Handler.Ensures (LeavesOut HeaderName.allow))) := by
    have allowed : (Rules.keeping (Handler.Ensures (LeavesOut HeaderName.allow))).entry
        (some (canonicalMethod "GET")) ⟨hello, []⟩ := fun _ _ _ _ _ => nofun
    have added : Builder.empty.method "GET" "/x".toList [] hello = .ok b := rfl
    exact .method .empty allowed added
  have ended : (b.freeze.dispatch req .empty).1.failure? = some f := by decide +kernel
  have own : f.ownHeader? = some (HeaderName.allow, "GET, HEAD, OPTIONS".toList) := by decide +kernel
  have legal : HeaderValue.isLegal "GET, HEAD, OPTIONS".toList = true := by decide +kernel
  have one := (own_header b req ended own legal).2 registered
  exact ⟨b, req, f, ended, own, legal, registered, by simpa using one⟩

/-- A handler that writes a `Location` and then redirects to another place sends both. -/
theorem Builder.two_locations :
    let handler : Handler := fun _ _ w =>
      (.failed (.redirect ⟨.found, "/new".toList⟩), w.setHeader HeaderName.location "/old")
    let x : Pattern := ⟨"/x".toList, "/x".toList, "/x".toList, .literal "/x".toList⟩
    let b : Builder := ⟨[.raw x (.handler handler []) []], [], none, .default, none⟩
    let req : Request := ⟨"GET", ⟨"/x".toList, none⟩, .empty, ""⟩
    Builder.empty.handle "/x".toList [] handler = .ok b ∧
      (b.freeze.dispatch req .empty).1 = .redirect ⟨.found, "/new".toList⟩ ∧
      HeaderValue.isLegal "/new".toList = true ∧
      (b.freeze.serve req).headers.all HeaderName.location = ["/old", "/new"] ∧
      (b.freeze.serve req).headers.all HeaderName.location ≠ ["/new"] := by
  intro handler x b req
  have ended : (b.freeze.dispatch req .empty).1 = .redirect ⟨.found, "/new".toList⟩ := by
    decide +kernel
  have legal : HeaderValue.isLegal "/new".toList = true := by decide +kernel
  have both : (b.freeze.serve req).headers.all HeaderName.location = ["/old", "/new"] := by
    decide +kernel
  exact ⟨rfl, ended, legal, both, by rw [both]; decide⟩

end PathRouter
