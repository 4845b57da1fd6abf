import PathRouter.Http.Headers
import PathRouter.Http.Status

/-!
# Writer — a response in the making

This file defines

* `Writer`, the status, headers and body that handlers have written so far;
* `Writer.write`, `Writer.stripBody` and `Writer.reset`;
* `Response`, what is sent in the end, and `Writer.toResponse`.
-/

namespace PathRouter

/-- A response in the making. -/
structure Writer where
  chosen : Option Status
  headers : Headers
  body : String
  deriving DecidableEq, Repr

structure Response where
  status : Status
  headers : Headers
  body : String
  deriving DecidableEq, Repr

namespace Writer

def empty : Writer := ⟨none, .empty, ""⟩

instance : Inhabited Writer := ⟨empty⟩

/-- The status to be sent; 200 unless one was chosen. -/
def status (w : Writer) : Status := w.chosen.getD .ok

def setStatus (w : Writer) (s : Status) : Writer := { w with chosen := some s }

def setHeader (w : Writer) (name : HeaderName) (value : String) : Writer :=
  { w with headers := w.headers.set name value }

def appendHeader (w : Writer) (name : HeaderName) (value : String) : Writer :=
  { w with headers := w.headers.append name value }

/-- More body.  The first piece, be it empty, settles the status. -/
def write (w : Writer) (s : String) : Writer :=
  { w with chosen := some w.status, body := w.body ++ s }

/-- The response without its body, whose length stays on record unless one was given. -/
def stripBody (w : Writer) : Writer :=
  let headers :=
    if w.headers.contains HeaderName.contentLength then w.headers
    else w.headers.set HeaderName.contentLength (toString w.body.utf8ByteSize)
  { w with headers := headers, body := "" }

/-- The headers alone, without a length. -/
def reset (w : Writer) : Writer := ⟨none, w.headers.remove HeaderName.contentLength, ""⟩

def toResponse (w : Writer) : Response := ⟨w.status, w.headers, w.body⟩

end Writer
end PathRouter
