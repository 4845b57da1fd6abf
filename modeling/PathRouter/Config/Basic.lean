import PathRouter.Config.SocketAddress
import PathRouter.Failure.Description

/-!
# Config — settings of a server

This file defines

* `ServerConfig`, `ErrorConfig`, `ObservabilityConfig` and `Config`, with their defaults;
* `ConfigFault`, what is wrong with a setting, and `Config.faults`, all that is wrong.
-/

namespace PathRouter

structure ServerConfig where
  bindAddress : Text
  maxBodyBytes : Nat
  requestTimeoutSecs : Nat
  deriving DecidableEq, Repr

def ServerConfig.default : ServerConfig := ⟨"127.0.0.1:8080".toList, 2 * 1024 * 1024, 30⟩

/-- What responses may reveal about failures. -/
structure ErrorConfig where
  exposeStack : Bool
  exposeCauses : Bool
  defaultFormat : BodyFormat
  deriving DecidableEq, Repr

def ErrorConfig.default : ErrorConfig := ⟨true, true, .text⟩

def ErrorConfig.options (c : ErrorConfig) : RenderOptions :=
  ⟨c.exposeStack, c.exposeCauses, c.defaultFormat⟩

structure ObservabilityConfig where
  logLevel : Text
  metricsEnabled : Bool
  metricsAddress : Text
  deriving DecidableEq, Repr

def ObservabilityConfig.default : ObservabilityConfig :=
  ⟨"info".toList, false, "127.0.0.1:9090".toList⟩

structure Config where
  server : ServerConfig
  errors : ErrorConfig
  observability : ObservabilityConfig
  deriving DecidableEq, Repr

def Config.default : Config := ⟨.default, .default, .default⟩

/-! ## Validation -/

inductive ConfigFault where
  | bindAddress (address : Text)
  | maxBodyBytes
  | requestTimeout
  | logLevel (level : Text)
  | metricsAddress (address : Text)
  deriving DecidableEq, Repr

def ConfigFault.message : ConfigFault → String
  | .bindAddress address => s!"server.bind_address {quoted address} is not a socket address"
  | .maxBodyBytes => "server.max_body_bytes must be greater than zero"
  | .requestTimeout => "server.request_timeout_secs must be greater than zero"
  | .logLevel level => s!"observability.log_level {quoted level} is not a known level"
  | .metricsAddress address =>
    s!"observability.metrics_address {quoted address} is not a socket address"

def levelNames : List String := ["off", "error", "warn", "info", "debug", "trace"]

/-- Whether a text names a level: a number up to 5, a name in any case, or nothing. -/
def isLevel (s : Text) : Bool :=
  (Number.natural? 5 s).isSome || s.isEmpty ||
    levelNames.any fun name => s.map Char.toLower = name.toList

/-- A fault if a condition holds. -/
def faultIf (condition : Bool) (fault : ConfigFault) : List ConfigFault :=
  if condition then [fault] else []

/-- All that is wrong with the settings.  The address for metrics matters only if there are any. -/
def Config.faults (c : Config) : List ConfigFault :=
  faultIf (!SocketAddress.isValid c.server.bindAddress) (.bindAddress c.server.bindAddress) ++
  faultIf (c.server.maxBodyBytes = 0) .maxBodyBytes ++
  faultIf (c.server.requestTimeoutSecs = 0) .requestTimeout ++
  faultIf (!isLevel c.observability.logLevel) (.logLevel c.observability.logLevel) ++
  faultIf
    (c.observability.metricsEnabled && !SocketAddress.isValid c.observability.metricsAddress)
    (.metricsAddress c.observability.metricsAddress)

end PathRouter
