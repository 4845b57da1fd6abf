import PathRouter.Failure.Basic
import PathRouter.Failure.Json
import PathRouter.Failure.Negotiation
import PathRouter.Http.Request
import PathRouter.Http.Writer

/-!
# Description — what a response says about a failure

This file defines

* `RenderOptions`, what a response may reveal about a failure;
* `Description`, what it reveals, with a text form and a JSON form;
* `render`, which replaces whatever a handler has written by the description of its failure.
-/

namespace PathRouter

/-- What a response may reveal about a failure, and its format where the client has no wish. -/
structure RenderOptions where
  exposeStack : Bool
  exposeCauses : Bool
  defaultFormat : BodyFormat
  deriving DecidableEq, Repr

def RenderOptions.default : RenderOptions := ⟨true, true, .text⟩

instance : Inhabited RenderOptions := ⟨RenderOptions.default⟩

structure Description where
  status : Status
  /-- The message of a panic. -/
  fatal : Option String
  errors : List String
  stack : List Frame

namespace Description

def ofFailure (f : Failure) (options : RenderOptions) : Description :=
  let (fatal, stack) :=
    match f with
    | .panic p => (some p.text, p.stack)
    | _ => (none, [])
  let details :=
    match f with
    | .http e => e.details
    | _ => []
  { status := f.status
    fatal := fatal
    errors := details ++ if options.exposeCauses then f.causes else []
    stack := if options.exposeStack then stack else [] }

/-- A part of the text form, after an empty line unless there is nothing in it. -/
def paragraph : List String → String
  | [] => ""
  | lines => "\n" ++ String.join (lines.map (· ++ "\n"))

def toPlain (d : Description) : String :=
  let fatal := d.fatal.toList.map ("panic: " ++ ·)
  let errors := d.errors.zipIdx.map fun (error, index) => s!"{index}. {error}"
  let stack := d.stack.map fun frame => String.ofList frame.toText
  d.status.title ++ "\n" ++ paragraph fatal ++ paragraph errors ++ paragraph stack

def frameJson (f : Frame) : Json.Lines :=
  Json.object (("function".toList, Json.string f.function) ::
    f.location.toList.map fun location => ("location".toList, Json.string location))

/-- A field with a list, left out if there is nothing in it. -/
def listField (key : String) : List Json.Lines → List (Text × Json.Lines)
  | [] => []
  | items => [(key.toList, Json.list items)]

def toJson (d : Description) : String :=
  let string (s : String) := Json.string s.toList
  String.ofList <| Json.toText <| Json.object <|
    [("statusCode".toList, Json.number d.status.code),
      ("statusMessage".toList, string d.status.title)] ++
    d.fatal.toList.map (fun fatal => ("fatal".toList, string fatal)) ++
    listField "error" (d.errors.map string) ++ listField "stack" (d.stack.map frameJson)

end Description

/-- The headers of a failure that go into the response.  How the body is to be understood is not for
the failure to say. -/
def failureHeaders (f : Failure) : List (HeaderName × String) :=
  f.responseHeaders.toList.filter fun (name, _) =>
    name ≠ HeaderName.contentType && name ≠ HeaderName.contentTypeOptions

/-- The response to a failure, in place of whatever has been written. -/
def render (f : Failure) (req : Request) (w : Writer) (options : RenderOptions) : Writer :=
  let w := (failureHeaders f).foldl (fun w (name, value) => w.appendHeader name value) w.reset
  let w := w.setStatus f.status
  if f.status = .noContent || f.status = .notModified then w
  else
    let w := w.setHeader HeaderName.contentTypeOptions "nosniff"
    let d := Description.ofFailure f options
    match negotiate ((req.header? HeaderName.accept).map String.toList) options.defaultFormat with
    | .json => (w.setHeader HeaderName.contentType "application/json").write d.toJson
    | .text => (w.setHeader HeaderName.contentType "text/plain; charset=utf-8").write d.toPlain

end PathRouter
