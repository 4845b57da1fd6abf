/-!
# Status — three-digit response codes

This file defines

* `Status`, the codes from 100 to 999, and `Status.ofNat?`;
* `Status.reason?`, the registered reason phrase;
* `Status.title`, the phrase that error bodies start with, and `Status.line`, code and phrase.
-/

namespace PathRouter

structure Status where
  code : Nat
  inRange : 100 ≤ code ∧ code ≤ 999
  deriving DecidableEq, Repr

namespace Status

def ofNat? (n : Nat) : Option Status := if h : 100 ≤ n ∧ n ≤ 999 then some ⟨n, h⟩ else none

def ok : Status := ⟨200, by decide⟩
def noContent : Status := ⟨204, by decide⟩
def movedPermanently : Status := ⟨301, by decide⟩
def found : Status := ⟨302, by decide⟩
def seeOther : Status := ⟨303, by decide⟩
def notModified : Status := ⟨304, by decide⟩
def temporaryRedirect : Status := ⟨307, by decide⟩
def permanentRedirect : Status := ⟨308, by decide⟩
def badRequest : Status := ⟨400, by decide⟩
def notFound : Status := ⟨404, by decide⟩
def methodNotAllowed : Status := ⟨405, by decide⟩
def payloadTooLarge : Status := ⟨413, by decide⟩
def teapot : Status := ⟨418, by decide⟩
def internalServerError : Status := ⟨500, by decide⟩

def reasons : List (Nat × String) := [
  (100, "Continue"), (101, "Switching Protocols"), (102, "Processing"), (103, "Early Hints"),
  (200, "OK"), (201, "Created"), (202, "Accepted"), (203, "Non Authoritative Information"),
  (204, "No Content"), (205, "Reset Content"), (206, "Partial Content"), (207, "Multi-Status"),
  (208, "Already Reported"), (226, "IM Used"), (300, "Multiple Choices"),
  (301, "Moved Permanently"), (302, "Found"), (303, "See Other"), (304, "Not Modified"),
  (305, "Use Proxy"), (307, "Temporary Redirect"), (308, "Permanent Redirect"),
  (400, "Bad Request"), (401, "Unauthorized"), (402, "Payment Required"), (403, "Forbidden"),
  (404, "Not Found"), (405, "Method Not Allowed"), (406, "Not Acceptable"),
  (407, "Proxy Authentication Required"), (408, "Request Timeout"), (409, "Conflict"),
  (410, "Gone"), (411, "Length Required"), (412, "Precondition Failed"),
  (413, "Payload Too Large"), (414, "URI Too Long"), (415, "Unsupported Media Type"),
  (416, "Range Not Satisfiable"), (417, "Expectation Failed"), (418, "I'm a teapot"),
  (421, "Misdirected Request"), (422, "Unprocessable Entity"), (423, "Locked"),
  (424, "Failed Dependency"), (425, "Too Early"), (426, "Upgrade Required"),
  (428, "Precondition Required"), (429, "Too Many Requests"),
  (431, "Request Header Fields Too Large"), (451, "Unavailable For Legal Reasons"),
  (500, "Internal Server Error"), (501, "Not Implemented"), (502, "Bad Gateway"),
  (503, "Service Unavailable"), (504, "Gateway Timeout"), (505, "HTTP Version Not Supported"),
  (506, "Variant Also Negotiates"), (507, "Insufficient Storage"), (508, "Loop Detected"),
  (510, "Not Extended"), (511, "Network Authentication Required") ]

def reason? (s : Status) : Option String := reasons.lookup s.code

def isRedirection (s : Status) : Bool := 300 ≤ s.code && s.code ≤ 399

/-- What a response with the status and no further words says. -/
def title (s : Status) : String :=
  match s.reason? with
  | none => s!"Unknown Error {s.code}"
  | some reason => if 400 ≤ s.code then s!"{reason} (Error {s.code})" else reason

/-- The code and the phrase, as in a status line. -/
def line (s : Status) : String :=
  toString s.code ++ " " ++ s.reason?.getD "<unknown status code>"

end Status
end PathRouter
