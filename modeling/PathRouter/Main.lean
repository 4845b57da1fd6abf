import PathRouter.Config.File
import PathRouter.Demo

/-!
# Main — the command line

`--config FILE` names a file with settings, and `--routes` asks for the table of routes.
-/

open PathRouter

structure Arguments where
  config : Option String
  routes : Bool

def Arguments.parse (args : Arguments) : List String → Except String Arguments
  | [] => .ok args
  | "--routes" :: rest => Arguments.parse { args with routes := true } rest
  | "--config" :: file :: rest => Arguments.parse { args with config := some file } rest
  | "-c" :: file :: rest => Arguments.parse { args with config := some file } rest
  | arg :: _ => .error ("unexpected argument '" ++ arg ++ "' found")

/-- The settings in a file, or the defaults. -/
def readConfig : Option String → IO (Except ConfigError Config)
  | none => return .ok .default
  | some file => do
    try
      return Config.load (some (← IO.FS.readBinFile file))
    catch _ =>
      return Config.load none

def main (args : List String) : IO UInt32 := do
  match Arguments.parse ⟨none, false⟩ args with
  | .error message =>
    IO.eprintln ("error: " ++ message)
    return 2
  | .ok args =>
    match ← readConfig args.config with
    | .error e =>
      IO.eprintln ("Error: " ++ e.message)
      return 1
    | .ok config =>
      match Demo.router config.errors.options with
      | .error refusal =>
        IO.eprintln ("Error: " ++ refusal.message)
        return 1
      | .ok router =>
        if args.routes then
          for route in router.routes do
            IO.println route.line
        return 0
