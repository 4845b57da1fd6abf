import PathRouter.Config.Basic
import PathRouter.Router.Builder

/-!
# Demo — a small tree of routes

This file defines

* `Demo.builder`, routes that show captures, options, groups, failures, panics and nesting;
* `Demo.router`, the same, finished.
-/

namespace PathRouter
namespace Demo

/-- Names the program in every response. -/
def serverHeader : Middleware := fun next req cx w =>
  next req cx (w.setHeader "x-powered-by" "pathmux")

def fixed (s : String) : Handler := .writing fun _ _ w => w.write s

/-- A parameter, or nothing. -/
def param (cx : Context) (name : String) : String :=
  String.ofList ((cx.param? name.toList).getD [])

def user : Handler := fun _ cx w =>
  match cx.params.parse (Number.natural? (Number.maxOfBits 64)) "id".toList with
  | .error e => (.failed (.http (.badRequest e.message)), w)
  | .ok id => (.served, w.write ("user " ++ toString id ++ "\n"))

def file : Handler := .writing fun _ cx w => w.write ("file " ++ param cx "name" ++ "\n")

def teapot : Handler := fun _ _ w =>
  (.failed (.http ((HttpFailure.new .teapot).withDetail "short and stout")), w)

/-- A panic without a stack, the frames of which would be those of a build. -/
def panic : Handler := fun _ _ w => (.panicked (Payload.text "demo panic"), w)

def version : Handler := .writing fun _ cx w =>
  w.write ("api v" ++ param cx "version" ++ " ok (" ++ String.ofList cx.pattern ++ ")\n")

def archive : Handler := .writing fun _ cx w =>
  match cx.param? "year".toList with
  | some year => w.write ("archive " ++ String.ofList year ++ "\n")
  | none => w.write "archive\n"

def missing : Handler := .writing fun req _ w =>
  (w.setStatus .notFound).write ("no route for " ++ String.ofList req.uri.path ++ "\n")

def get (b : Builder) (path : String) (handler : Handler) : Except Refusal Builder :=
  b.method "GET" path.toList [] handler

def api (b : Builder) : Except Refusal Builder := do
  let b ← get b "/v\x7bversion:1|2\x7d/status" version
  get b "/archive[/\x7byear\x7d]" archive

def builder (options : RenderOptions) : Except Refusal Builder := do
  let b ← Builder.empty.useMiddleware recoverer
  let b ← b.useMiddleware serverHeader
  let b ← b.setOptions options
  let b ← get b "/" (fixed "pathmux\n")
  let b ← get b "/users/me" (fixed "it's you\n")
  let b ← get b "/users/\x7bid\x7d" user
  let b ← get b "/files/\x7bname\x7d.txt" file
  let b ← get b "/teapot" teapot
  let b ← get b "/panic" panic
  let b ← b.nest "/api".toList api
  b.setNotFound missing

def router (options : RenderOptions) : Except Refusal Router :=
  (builder options).map Builder.freeze

end Demo
end PathRouter
