import LogRelay.Members
import LogRelay.Number.Basic
import LogRelay.Publishing.KeyStrategy
import LogRelay.Yaml.Value
/-!
# Settings

What can be set from outside: the brokers to talk to, the topic and tag of records, how keys are
chosen, and limits and intervals.  Each setting has a type, a default, a name that files and the
command line use, and an environment variable.

## Main definitions

* `Setting`: the settings by name.
* `Settings`, `Settings.brokerList`
* `SettingsError`, `SettingsError.message`
-/
namespace LogRelay

/-- What can be set. -/
inductive Setting where
  | brokers
  | topic
  | tag
  | keyStrategy
  | logLevel
  | socketPath
  | maxFrameSize
  | pollTimeout
  | shutdownTimeout
  | queueSize
  | errorBufferSize
  | metricsInterval
  deriving DecidableEq

/-- The types of settings. -/
inductive Setting.Kind where
  | text
  | integer
  | real
  deriving DecidableEq

namespace Setting

/-- All settings, in the order in which the environment is asked for them. -/
def all : List Setting :=
  [.brokers, .topic, .tag, .keyStrategy, .logLevel, .socketPath, .maxFrameSize, .pollTimeout,
    .shutdownTimeout, .queueSize, .errorBufferSize, .metricsInterval]

/-- The name of a setting in files and, with dashes, on the command line. -/
def name : Setting → Text
  | .brokers => "brokers"
  | .topic => "topic"
  | .tag => "tag"
  | .keyStrategy => "key_strategy"
  | .logLevel => "log_level"
  | .socketPath => "socket_path"
  | .maxFrameSize => "max_frame_size"
  | .pollTimeout => "poll_timeout_ms"
  | .shutdownTimeout => "shutdown_timeout"
  | .queueSize => "queue_size"
  | .errorBufferSize => "error_buffer_size"
  | .metricsInterval => "metrics_interval"

/-- The environment variable of a setting. -/
def environmentName : Setting → Text
  | .brokers => "KAFKA_BROKER_ADDR"
  | .topic => "LOG_TOPIC"
  | .tag => "LOG_TAG"
  | .keyStrategy => "KEY_STRATEGY"
  | .logLevel => "LOG_LEVEL"
  | .socketPath => "PLUGIN_SOCKET"
  | .maxFrameSize => "MAX_FRAME_SIZE"
  | .pollTimeout => "POLL_TIMEOUT_MS"
  | .shutdownTimeout => "SHUTDOWN_TIMEOUT"
  | .queueSize => "READ_QUEUE_SIZE"
  | .errorBufferSize => "ERROR_BUFFER_SIZE"
  | .metricsInterval => "METRICS_INTERVAL"

/-- The type of a setting. -/
def kind : Setting → Kind
  | .shutdownTimeout => .real
  | .maxFrameSize | .pollTimeout | .queueSize | .errorBufferSize | .metricsInterval => .integer
  | _ => .text

/-- The value of a setting that is not given. -/
def default : Setting → Json
  | .brokers => .str "localhost:9092"
  | .topic => .str "dockerlogs"
  | .tag => .str []
  | .keyStrategy => .str KeyStrategy.byTime.name
  | .logLevel => .str "INFO"
  | .socketPath => .str "/run/docker/plugins/kafka-logdriver.sock"
  | .maxFrameSize => .int Frame.defaultLimit
  | .pollTimeout => .int 500
  | .shutdownTimeout => .float (.ofInt 10)
  | .queueSize => .int 1000
  | .errorBufferSize => .int 100
  | .metricsInterval => .int 0

/-- The setting of a name. -/
def ofName? (t : Text) : Option Setting :=
  all.find? fun s => s.name = t

end Setting

/-- Why there are no settings. -/
inductive SettingsError where
  /-- the file is no YAML document -/
  | file (fault : Yaml.Fault)
  /-- the file is a directory -/
  | directory
  /-- a value cannot be converted to a number: it has the wrong form -/
  | malformed
  /-- it is infinite, or too large -/
  | tooLarge
  /-- it is of a type that has no number -/
  | wrongType
  /-- a value cannot be written as a text -/
  | unwritable (reason : Yaml.Unwritable)
  /-- the brokers are not given as a text -/
  | noText
  /-- there is no setting of some name -/
  | unknown
  /-- there is no such way to choose keys -/
  | keyStrategy (given : Text)
  /-- there is no such level of logging -/
  | logLevel (given : Text)
  deriving DecidableEq

/-- The settings.  Without a time for the shutdown, that takes as long as it needs. -/
structure Settings where
  brokers : Text
  topic : Text
  tag : Text
  keyStrategy : KeyStrategy
  logLevel : Text
  socketPath : Text
  maxFrameSize : Int
  pollTimeout : Int
  shutdownTimeout : Option Number
  queueSize : Int
  errorBufferSize : Int
  metricsInterval : Int
  deriving DecidableEq

/-- The brokers in a text, one by one: what stands between the commas, without the blanks around
it. -/
def brokersIn (t : Text) : List Text :=
  ((Text.splitOn ',' t).map Text.trim).filter (· ≠ [])

namespace Settings

/-- The brokers, one by one. -/
def brokerList (s : Settings) : List Text :=
  brokersIn s.brokers

/-- The levels of logging. -/
def logLevels : List Text := ["DEBUG", "INFO", "WARNING", "ERROR", "CRITICAL"]

end Settings

/-- Texts as a message lists them. -/
def shownTexts (ts : List Text) : Text :=
  "(" ++ Text.join ", " (ts.map Text.quoted) ++ ")"

/-- The error in words. -/
def SettingsError.message : SettingsError → Text
  | .keyStrategy given =>
    "key_strategy must be one of " ++ shownTexts (KeyStrategy.all.map KeyStrategy.name) ++ ", got "
      ++ given
  | .logLevel given =>
    "log_level must be one of " ++ shownTexts Settings.logLevels ++ ", got " ++ given
  | .file _ => "the file is no document"
  | .directory => "the file is a directory"
  | .malformed => "a number has the wrong form"
  | .tooLarge => "a number is too large"
  | .wrongType => "a value is no number"
  | .unwritable .tooLong => "a number has too many digits"
  | .unwritable .tooDeep => "a value is nested too deeply"
  | .noText => "the brokers are no text"
  | .unknown => "there is no such setting"

end LogRelay
