import EventBroker.Broker.Basic
import EventBroker.Config.Overrides
import EventBroker.Net.SocketAddress
import EventBroker.Text.Utf8

/-! # The configuration

A setting comes from the configuration file, else from a variable of the environment, else it has a
default. Numbers that make no sense in the environment are passed over; an address that makes no
sense is an error, even if the file sets another one. `Config.load` reads all layers.
-/
set_option autoImplicit false

namespace EventBroker

structure Config where
  bind : Net.SocketAddress
  /-- Where its metrics are served. -/
  metricsBind : Net.SocketAddress
  /-- The longest sleep between two looks at the clock, in milliseconds. -/
  maxTick : Nat
  subscriberCapacity : Nat
  channelCapacity : Nat
  /-- How long a channel may lie idle until it is reaped, in milliseconds; none if it may forever.
  -/
  idleTimeout : Option Nat
  /-- How often idle channels are looked for, in milliseconds. -/
  reapInterval : Nat
  deriving DecidableEq, Repr

/-- The bytes of each variable that is set. -/
abbrev Environment := String → Option (List UInt8)

namespace Environment

def text? (env : Environment) (name : String) : Option String :=
  (env name).bind Utf8.toString?

/-- The number of a variable, if it is a word other than zero. -/
def positive? (env : Environment) (name : String) : Option Nat :=
  ((env.text? name).bind fun t => Text.readUnsigned 10 word64Max t.toList).filter (0 < ·)

end Environment

inductive ConfigError where
  | bindVariable
  | metricsBindVariable
  | unreadable (file : String)
  /-- The file is not YAML, or not of the right shape. -/
  | malformed
  | bindField
  | metricsBindField
  deriving DecidableEq, Repr

namespace ConfigError

def message : ConfigError → String
  | bindVariable => "parse KAIRO_BIND"
  | metricsBindVariable => "parse KAIRO_METRICS_BIND"
  | unreadable file => "read KAIRO_BROKER_CONFIG: " ++ file
  | malformed => "parse broker config yaml"
  | bindField => "parse bind_addr"
  | metricsBindField => "parse metrics_bind"

def cause? : ConfigError → Option String
  | bindVariable | metricsBindVariable | bindField | metricsBindField =>
    some "invalid socket address syntax"
  | unreadable _ | malformed => none

end ConfigError

namespace Config

def defaultBind : Net.SocketAddress := .v4 ⟨0, 0, 0, 0⟩ 2626

def defaultMetricsBind : Net.SocketAddress := .v4 ⟨0, 0, 0, 0⟩ 8080

def address (default : Net.SocketAddress) (text : Option String) (e : ConfigError) :
    Except ConfigError Net.SocketAddress :=
  match text with
  | none => .ok default
  | some t =>
    match Net.SocketAddress.parse? t with
    | some a => .ok a
    | none => .error e

def ofEnvironment (env : Environment) : Except ConfigError Config := do
  let bind ← address defaultBind (env.text? "KAIRO_BIND") .bindVariable
  let metricsBind ←
    address defaultMetricsBind (env.text? "KAIRO_METRICS_BIND") .metricsBindVariable
  return {
    bind
    metricsBind
    maxTick := (env.positive? "KAIRO_SCHEDULER_MAX_TICK_MS").getD 250
    subscriberCapacity := (env.positive? "KAIRO_SUBSCRIBER_QUEUE_CAPACITY").getD 1024
    channelCapacity := (env.positive? "KAIRO_CHANNEL_BUFFER_CAPACITY").getD 65536
    idleTimeout := env.positive? "KAIRO_CHANNEL_IDLE_TIMEOUT_MS"
    reapInterval := (env.positive? "KAIRO_CHANNEL_REAP_INTERVAL_MS").getD 1000 }

/-- The configuration with what a file sets. A zero in the file sets nothing, except that it takes
the idle timeout away. -/
def override (c : Config) (o : Overrides) : Except ConfigError Config := do
  let bind ← address c.bind o.bind .bindField
  let metricsBind ← address c.metricsBind o.metricsBind .metricsBindField
  let positive (n : Option Nat) : Option Nat := n.filter (0 < ·)
  return {
    bind
    metricsBind
    maxTick := (positive o.maxTick).getD c.maxTick
    subscriberCapacity := (positive o.subscriberCapacity).getD c.subscriberCapacity
    channelCapacity := (positive o.channelCapacity).getD c.channelCapacity
    idleTimeout := o.idleTimeout.elim c.idleTimeout fun n => positive (some n)
    reapInterval := (positive o.reapInterval).getD c.reapInterval }

/-- The configuration from all layers. `read` gives the text of a file that can be read, and the
variable `KAIRO_BROKER_CONFIG` names the file. -/
def load (env : Environment) (read : String → Option String) : Except ConfigError Config := do
  let c ← ofEnvironment env
  match env.text? "KAIRO_BROKER_CONFIG" with
  | none => return c
  | some file =>
    match read file with
    | none => throw (.unreadable file)
    | some text =>
      match Overrides.ofYaml? text with
      | none => throw .malformed
      | some o => c.override o

def brokerSettings (c : Config) : BrokerSettings :=
  ⟨c.subscriberCapacity, c.channelCapacity, c.maxTick⟩

end Config

end EventBroker
