import PathRouter.Config.Basic
import PathRouter.Toml.Document

/-!
# File — settings from the text of a file

A section is a table, in which unknown keys are ignored, or an array of values in the order of the
settings; what is not given has its default.  This file defines

* the readers of single settings and of sections;
* `ConfigError`, why a file is not accepted, and `Config.parse`.
-/

namespace PathRouter
namespace Setting

open Toml (Item Table)

/-- Reads a value; nothing if it is of the wrong kind. -/
abbrev Reader (α : Type) := Item → Option α

def text? : Reader Text
  | .string value => some value
  | _ => none

def natural? : Reader Nat
  | .integer value => if 0 ≤ value then some value.toNat else none
  | _ => none

def boolean? : Reader Bool
  | .boolean value => some value
  | _ => none

def isEmpty : Item → Bool
  | .array items => items.isEmpty
  | .tables elements => elements.isEmpty
  | .braced t => t.entries.isEmpty
  | .table t => t.entries.isEmpty
  | _ => false

def formatNamed? (name : Text) : Option BodyFormat :=
  if name = "text".toList then some .text
  else if name = "json".toList then some .json
  else none

/-- A format, by its name or as a table with nothing in it but the name. -/
def format? : Reader BodyFormat := fun item =>
  let single (t : Table) : Option BodyFormat :=
    match t.entries with
    | [(name, content)] => if isEmpty content then formatNamed? name else none
    | _ => none
  match item with
  | .string name => formatNamed? name
  | .braced t => single t
  | .table t => single t
  | _ => none

/-- Where the settings of a section are to be found. -/
inductive Source where
  | keyed (t : Table)
  | listed (items : List Item)

/-- Where an item has its settings. -/
def source? : Reader Source
  | .braced t => some (.keyed t)
  | .table t => some (.keyed t)
  | .array items => some (.listed items)
  | .tables elements => some (.listed (elements.map .table))
  | .datetime => some (.keyed .empty)
  | _ => none

/-- The setting with a key, which is also at an index; its default if it is not there. -/
def Source.get {α : Type} (s : Source) (key : String) (index : Nat) (read : Reader α)
    (default : α) : Option α :=
  let item :=
    match s with
    | .keyed t => t.get? key.toList
    | .listed items => items[index]?
  match item with
  | none => some default
  | some item => read item

def server? : Reader ServerConfig := fun item => do
  let s ← source? item
  let d := ServerConfig.default
  return {
    bindAddress := ← s.get "bind_address" 0 text? d.bindAddress
    maxBodyBytes := ← s.get "max_body_bytes" 1 natural? d.maxBodyBytes
    requestTimeoutSecs := ← s.get "request_timeout_secs" 2 natural? d.requestTimeoutSecs }

def errors? : Reader ErrorConfig := fun item => do
  let s ← source? item
  let d := ErrorConfig.default
  return {
    exposeStack := ← s.get "expose_stack" 0 boolean? d.exposeStack
    exposeCauses := ← s.get "expose_causes" 1 boolean? d.exposeCauses
    defaultFormat := ← s.get "default_format" 2 format? d.defaultFormat }

def observability? : Reader ObservabilityConfig := fun item => do
  let s ← source? item
  let d := ObservabilityConfig.default
  return {
    logLevel := ← s.get "log_level" 0 text? d.logLevel
    metricsEnabled := ← s.get "metrics_enabled" 1 boolean? d.metricsEnabled
    metricsAddress := ← s.get "metrics_address" 2 text? d.metricsAddress }

def config? (t : Table) : Option Config := do
  let s := Source.keyed t
  return {
    server := ← s.get "server" 0 server? .default
    errors := ← s.get "errors" 1 errors? .default
    observability := ← s.get "observability" 2 observability? .default }

end Setting

inductive ConfigError where
  /-- There is no such file, or it holds no text. -/
  | unreadable
  | malformed
  | invalid (faults : List ConfigFault)
  deriving DecidableEq, Repr

def ConfigError.message : ConfigError → String
  | .unreadable => "IO error"
  | .malformed => "Parse error"
  | .invalid faults =>
    "Validation failed: " ++ String.intercalate ", " (faults.map ConfigFault.message)

namespace Config

/-- The settings in a text, none of which is at fault. -/
def parse (s : Text) : Except ConfigError Config :=
  match (Toml.parse? s).bind Setting.config? with
  | none => .error .malformed
  | some config =>
    match config.faults with
    | [] => .ok config
    | faults => .error (.invalid faults)

/-- The settings in the bytes of a file, if there is one. -/
def load (bytes : Option ByteArray) : Except ConfigError Config :=
  match bytes.bind String.fromUTF8? with
  | none => .error .unreadable
  | some text => parse text.toList

end Config
end PathRouter
