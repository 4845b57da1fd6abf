import PathRouter.Text.Quoted

/-!
# Headers — header fields of requests and responses

Names are compared without regard to case and kept in lower case.  A name may have several values,
which keep their order.  This file defines

* `Headers`, the fields in the order in which their names first appeared;
* `Headers.append`, `Headers.set`, `Headers.remove` and `Headers.get?`;
* `HeaderValue.isLegal` and `HeaderValue.isVisible`, two classes of values;
* `Headers.describe`, a listing for diagnostics.
-/

namespace PathRouter

/-- A field name in lower case. -/
abbrev HeaderName := String

namespace HeaderName

def accept : HeaderName := "accept"
def allow : HeaderName := "allow"
def contentLength : HeaderName := "content-length"
def contentType : HeaderName := "content-type"
def contentTypeOptions : HeaderName := "x-content-type-options"
def location : HeaderName := "location"
def requestId : HeaderName := "x-request-id"

end HeaderName

namespace HeaderValue

/-- Whether a text may be sent as a value: no control characters but the tab. -/
def isLegal (value : Text) : Bool :=
  value.all fun c => c = '\t' || (32 ≤ c.toNat && c.toNat ≠ 127)

/-- Whether a value is readable as text: visible ASCII, blanks and tabs. -/
def isVisible (value : Text) : Bool :=
  value.all fun c => c = '\t' || (32 ≤ c.toNat && c.toNat < 127)

/-- The hexadecimal form of a byte that is not readable. -/
def escapeByte (b : UInt8) : Text := ['\\', 'x'] ++ Text.hexDigits b.toNat

def describe (value : Text) : Text :=
  let show1 (c : Char) : Text :=
    if c = '"' then ['\\', '"']
    else if isVisible [c] then [c]
    else (String.singleton c).toUTF8.toList.flatMap escapeByte
  '"' :: value.flatMap show1 ++ ['"']

end HeaderValue

/-- Header fields: each name once, with its values. -/
structure Headers where
  fields : List (HeaderName × List String)
  deriving DecidableEq, Repr

namespace Headers

def empty : Headers := ⟨[]⟩

instance : Inhabited Headers := ⟨empty⟩

def all (h : Headers) (name : HeaderName) : List String := (h.fields.lookup name).getD []

def get? (h : Headers) (name : HeaderName) : Option String := (h.all name).head?

def contains (h : Headers) (name : HeaderName) : Bool := (h.fields.lookup name).isSome

/-- The fields with the values of one name changed, or given if there are none. -/
def alter (name : HeaderName) (f : List String → List String) :
    List (HeaderName × List String) → List (HeaderName × List String)
  | [] => [(name, f [])]
  | (n, values) :: rest =>
    if n = name then (n, f values) :: rest else (n, values) :: alter name f rest

def append (h : Headers) (name : HeaderName) (value : String) : Headers :=
  ⟨alter name (· ++ [value]) h.fields⟩

/-- One value in place of all others of the name. -/
def set (h : Headers) (name : HeaderName) (value : String) : Headers :=
  ⟨alter name (fun _ => [value]) h.fields⟩

def remove (h : Headers) (name : HeaderName) : Headers :=
  ⟨h.fields.filter fun field => field.1 ≠ name⟩

/-- Name and value of every field, the values of one name together. -/
def toList (h : Headers) : List (HeaderName × String) :=
  h.fields.flatMap fun (name, values) => values.map (name, ·)

/-- The fields of a list, appended in turn. -/
def ofList (fields : List (HeaderName × String)) : Headers :=
  fields.foldl (fun h (name, value) => h.append name value) empty

def describe (h : Headers) : String :=
  let field : HeaderName × String → Text := fun (name, value) =>
    Text.quote name.toList ++ [':', ' '] ++ HeaderValue.describe value.toList
  String.ofList ('\x7b' :: Text.join [',', ' '] (h.toList.map field) ++ ['\x7d'])

end Headers
end PathRouter
