import PathRouter.Failure.Description
import PathRouter.Proofs.Headers

/-!
# Rendering — what a response to a failure shows

A failure is rendered in place of what has been written, over the headers that were set.  This file
defines

* `Failure.isBare`, whether a response with the status of the failure has no body;
* `Failure.mediaType` and `Failure.body`, what the renderer writes otherwise;
* `Failure.withoutCauses` and `Failure.withoutStack`, a failure without what may be hidden of it;

and shows `render_eq`, all that rendering does, and `render_reveals`, what it shows of the response before
and of the failure.
-/

namespace PathRouter

namespace Failure

variable {f g : Failure} {req : Request} {options : RenderOptions}

/-- Whether a response with the status of the failure has no body. -/
def isBare (f : Failure) : Bool := f.status = .noContent || f.status = .notModified

/-- The format in which a request is told of a failure. -/
def format (req : Request) (options : RenderOptions) : BodyFormat :=
  negotiate ((req.header? HeaderName.accept).map String.toList) options.defaultFormat

/-- The media type of a rendered body. -/
def mediaType (req : Request) (options : RenderOptions) : String :=
  match format req options with
  | .json => "application/json"
  | .text => "text/plain; charset=utf-8"

/-- The body that a failure is rendered with. -/
def body (f : Failure) (req : Request) (options : RenderOptions) : String :=
  if f.isBare then ""
  else
    match format req options with
    | .json => (Description.ofFailure f options).toJson
    | .text => (Description.ofFailure f options).toPlain

/-- The failure without the errors that it was caused by. -/
def withoutCauses : Failure → Failure
  | .http e => .http { e with source := none }
  | .panic p => .panic { p with cause := none }
  | f => f

/-- The failure without the stack of a panic. -/
def withoutStack : Failure → Failure
  | .panic p => .panic { p with stack := [] }
  | f => f

end Failure

/-! ## All that rendering does -/

theorem foldl_appendHeader (fields : List (HeaderName × String)) (w : Writer) :
    fields.foldl (fun w field => w.appendHeader field.1 field.2) w =
      { w with headers := fields.foldl (fun h field => h.append field.1 field.2) w.headers } := by
  induction fields generalizing w with
  | nil => rfl
  | cons field fields ih => rw [List.foldl_cons, ih, List.foldl_cons, Writer.appendHeader]

variable {f g : Failure} {req : Request} {options : RenderOptions} {w : Writer} {name : HeaderName}

/-- The headers of a rendered failure, but for those of its body. -/
def renderedHeaders (f : Failure) (w : Writer) : Headers :=
  (failureHeaders f).foldl (fun h field => h.append field.1 field.2)
    (w.headers.remove HeaderName.contentLength)

theorem render_eq (f : Failure) (req : Request) (w : Writer) (options : RenderOptions) :
    render f req w options =
      ⟨some f.status,
        if f.isBare then renderedHeaders f w
        else ((renderedHeaders f w).set HeaderName.contentTypeOptions "nosniff").set
          HeaderName.contentType (Failure.mediaType req options),
        f.body req options⟩ := by
  have start : (failureHeaders f).foldl (fun w field => w.appendHeader field.1 field.2) w.reset =
      ⟨none, renderedHeaders f w, ""⟩ := foldl_appendHeader _ _
  cases bare : f.isBare with
  | true =>
      have status : (f.status = .noContent || f.status = .notModified) = true := bare
      simp only [render, start, status, Failure.body, bare, if_true, Writer.setStatus]
  | false =>
      have status : (f.status = .noContent || f.status = .notModified) = false := bare
      cases format : Failure.format req options <;>
        · have negotiated := format
          rw [Failure.format] at negotiated
          simp [render, start, status, negotiated, Failure.body, Failure.mediaType, bare, format,
            Writer.setStatus, Writer.setHeader, Writer.write, Writer.status]

/-! ## Headers -/

/-- What the failure itself says of a name comes behind what was there, unless it is for the renderer to
say. -/
theorem all_renderedHeaders (f : Failure) (w : Writer) (name : HeaderName) :
    (renderedHeaders f w).all name =
      (w.headers.remove HeaderName.contentLength).all name ++
        Headers.valuesOf name (failureHeaders f) :=
  Headers.all_foldl_append _ _ _

/-- A failure does not say how its body is to be understood. -/
theorem valuesOf_failureHeaders_of_typing (f : Failure)
    (typing : name = HeaderName.contentType ∨ name = HeaderName.contentTypeOptions) :
    Headers.valuesOf name (failureHeaders f) = [] := by
  refine Headers.valuesOf_of_forall_ne fun field mem => ?_
  have kept := (List.mem_filter.1 mem).2
  simp only [Bool.and_eq_true, decide_eq_true_eq] at kept
  rcases typing with rfl | rfl
  · exact kept.1
  · exact kept.2

theorem valuesOf_failureHeaders_of_absent (absent : f.responseHeaders.contains name = false) :
    Headers.valuesOf name (failureHeaders f) = [] :=
  Headers.valuesOf_of_forall_ne fun _ mem => Headers.ne_of_mem_toList absent (List.mem_filter.1 mem).1

theorem render_status (f : Failure) (req : Request) (w : Writer) (options : RenderOptions) :
    (render f req w options).status = f.status := by
  rw [render_eq]
  rfl

theorem render_body (f : Failure) (req : Request) (w : Writer) (options : RenderOptions) :
    (render f req w options).body = f.body req options := by
  rw [render_eq]

/-- The values of a name that is not for the renderer to say. -/
theorem all_render (f : Failure) (req : Request) (w : Writer) (options : RenderOptions)
    (untyped : name ≠ HeaderName.contentType) (free : name ≠ HeaderName.contentTypeOptions) :
    (render f req w options).headers.all name =
      (w.headers.remove HeaderName.contentLength).all name ++
        Headers.valuesOf name (failureHeaders f) := by
  have told := all_renderedHeaders f w name
  rw [render_eq]
  cases f.isBare with
  | true => exact told
  | false =>
      calc
        (((renderedHeaders f w).set HeaderName.contentTypeOptions "nosniff").set
            HeaderName.contentType (Failure.mediaType req options)).all name
          = ((renderedHeaders f w).set HeaderName.contentTypeOptions "nosniff").all name :=
            Headers.all_set_of_ne untyped.symm
        _ = (renderedHeaders f w).all name := Headers.all_set_of_ne free.symm
        _ = _ := told

/-- A failure gives the length of the body, if anything does. -/
theorem all_contentLength_render (f : Failure) (req : Request) (w : Writer) (options : RenderOptions) :
    (render f req w options).headers.all HeaderName.contentLength =
      Headers.valuesOf HeaderName.contentLength (failureHeaders f) := by
  rw [all_render f req w options (by decide) (by decide), Headers.all_remove_self, List.nil_append]

/-- What a response without a body says of its type is what was there. -/
theorem all_render_of_typing (f : Failure) (req : Request) (w : Writer) (options : RenderOptions)
    (bare : f.isBare = true) (differs : name ≠ HeaderName.contentLength)
    (typing : name = HeaderName.contentType ∨ name = HeaderName.contentTypeOptions) :
    (render f req w options).headers.all name = w.headers.all name := by
  rw [render_eq, if_pos bare, all_renderedHeaders, valuesOf_failureHeaders_of_typing f typing,
    List.append_nil, Headers.all_remove_of_ne differs.symm]

theorem all_contentType_render (f : Failure) (req : Request) (w : Writer) (options : RenderOptions) :
    (render f req w options).headers.all HeaderName.contentType =
      if f.isBare then w.headers.all HeaderName.contentType else [Failure.mediaType req options] := by
  cases bare : f.isBare with
  | true => exact all_render_of_typing f req w options bare (by decide) (.inl rfl)
  | false =>
      rw [render_eq]
      simp [bare, Headers.all_set_self]

theorem all_contentTypeOptions_render (f : Failure) (req : Request) (w : Writer)
    (options : RenderOptions) :
    (render f req w options).headers.all HeaderName.contentTypeOptions =
      if f.isBare then w.headers.all HeaderName.contentTypeOptions else ["nosniff"] := by
  cases bare : f.isBare with
  | true => exact all_render_of_typing f req w options bare (by decide) (.inr rfl)
  | false =>
      have apart : HeaderName.contentType ≠ HeaderName.contentTypeOptions := by decide
      rw [render_eq]
      simp [bare, Headers.all_set_of_ne apart, Headers.all_set_self]

/-! ## What may be hidden -/

/-- Rendering looks at the status, the headers and the description of a failure. -/
theorem render_congr (status : f.status = g.status) (headers : f.responseHeaders = g.responseHeaders)
    (described : Description.ofFailure f options = Description.ofFailure g options) (req : Request)
    (w : Writer) : render f req w options = render g req w options := by
  have fields : failureHeaders f = failureHeaders g := by rw [failureHeaders, failureHeaders, headers]
  simp only [render, fields, status, described]

theorem render_withoutCauses (hidden : options.exposeCauses = false) (f : Failure) (req : Request)
    (w : Writer) : render f.withoutCauses req w options = render f req w options := by
  have status : f.withoutCauses.status = f.status := by cases f <;> rfl
  have headers : f.withoutCauses.responseHeaders = f.responseHeaders := by cases f <;> rfl
  have described : Description.ofFailure f.withoutCauses options = Description.ofFailure f options := by
    cases f <;> simp [Description.ofFailure, Failure.withoutCauses, Failure.status, hidden]
  exact render_congr status headers described req w

theorem render_withoutStack (hidden : options.exposeStack = false) (f : Failure) (req : Request)
    (w : Writer) : render f.withoutStack req w options = render f req w options := by
  have status : f.withoutStack.status = f.status := by cases f <;> rfl
  have headers : f.withoutStack.responseHeaders = f.responseHeaders := by cases f <;> rfl
  have described : Description.ofFailure f.withoutStack options = Description.ofFailure f options := by
    cases f <;>
      simp [Description.ofFailure, Failure.withoutStack, Failure.status, Failure.causes, hidden]
  exact render_congr status headers described req w

/-- What a rendered failure reveals.  Of the response before, nothing but its headers: not the status,
the body or the length, while names that the failure does not give keep their values.  Of the failure,
not how its body would be understood, and neither its causes nor its stack where they are to be
hidden. -/
theorem render_reveals (f : Failure) (req : Request) (options : RenderOptions) :
    (∀ w w' : Writer,
      (render f req w options).status = (render f req w' options).status ∧
      (render f req w options).body = (render f req w' options).body ∧
      (render f req w options).headers.all HeaderName.contentLength =
        (render f req w' options).headers.all HeaderName.contentLength) ∧
    (∀ (w : Writer) name, f.responseHeaders.contains name = false →
      name ≠ HeaderName.contentLength → name ≠ HeaderName.contentType →
        name ≠ HeaderName.contentTypeOptions →
          (render f req w options).headers.all name = w.headers.all name) ∧
    (∀ w : Writer,
      (render f req w options).headers.all HeaderName.contentType =
        (if f.isBare then w.headers.all HeaderName.contentType else [Failure.mediaType req options]) ∧
      (render f req w options).headers.all HeaderName.contentTypeOptions =
        if f.isBare then w.headers.all HeaderName.contentTypeOptions else ["nosniff"]) ∧
    (options.exposeCauses = false → ∀ g, f.withoutCauses = g.withoutCauses →
      ∀ w, render f req w options = render g req w options) ∧
    (options.exposeStack = false → ∀ g, f.withoutStack = g.withoutStack →
      ∀ w, render f req w options = render g req w options) := by
  refine ⟨fun w w' => ⟨?_, ?_, ?_⟩, fun w name absent unsized untyped free => ?_,
    fun w => ⟨all_contentType_render f req w options, all_contentTypeOptions_render f req w options⟩,
    fun hidden g same w => ?_, fun hidden g same w => ?_⟩
  · rw [render_status, render_status]
  · rw [render_body, render_body]
  · rw [all_contentLength_render, all_contentLength_render]
  · rw [all_render f req w options untyped free, valuesOf_failureHeaders_of_absent absent,
      List.append_nil, Headers.all_remove_of_ne unsized.symm]
  · calc
      render f req w options = render f.withoutCauses req w options :=
        (render_withoutCauses hidden f req w).symm
      _ = render g req w options := by rw [same, render_withoutCauses hidden]
  · calc
      render f req w options = render f.withoutStack req w options :=
        (render_withoutStack hidden f req w).symm
      _ = render g req w options := by rw [same, render_withoutStack hidden]

/-- A cause that is to be hidden is not shown, and it would be shown otherwise. -/
theorem render_reveals_no_cause :
    let f : Failure := .http (.internal ⟨"no space left", []⟩)
    let g : Failure := .http (.internal ⟨"timed out", []⟩)
    let strict : RenderOptions := ⟨false, false, .json⟩
    let req : Request := ⟨"GET", ⟨['/'], none⟩, .empty, ""⟩
    strict.exposeCauses = false ∧ f.withoutCauses = g.withoutCauses ∧
      render f req .empty strict = render g req .empty strict ∧
        (render f req .empty .default).body ≠ (render g req .empty .default).body := by
  intro f g strict req
  have same : f.withoutCauses = g.withoutCauses := rfl
  have shown : (render f req .empty .default).body ≠ (render g req .empty .default).body := by
    decide +kernel
  exact ⟨rfl, same, (render_reveals f req strict).2.2.2.1 rfl g same .empty, shown⟩

end PathRouter
