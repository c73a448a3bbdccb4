import LogRelay.Settings.Basic
/-!
# Drafts of settings

A draft gives values to some settings, and may give any value to any of them.  The key strategy and
the level of logging are looked for among the allowed values before anything else; all other values
are only looked at by those who use them.

## Main definitions

* `Draft`, `Draft.value`, `Draft.ofJson`
* `Draft.check`: whether the key strategy and the level of logging are allowed.
* `Draft.toSettings`: the settings, if all values have the types of their settings.
-/
namespace LogRelay

/-- Values for some of the settings. -/
structure Draft where
  given : Members Setting Json := []

namespace Draft

/-- The draft with a value for one more setting. -/
def assign (d : Draft) (assignment : Setting × Json) : Draft :=
  ⟨Members.insert assignment.1 assignment.2 d.given⟩

/-- The value of a setting: the given one, else the default. -/
def value (d : Draft) (s : Setting) : Json :=
  (Members.get? s d.given).getD s.default

/-- The key strategy, if it is an allowed one. -/
def keyStrategy (d : Draft) : Except SettingsError KeyStrategy :=
  let given := d.value .keyStrategy
  match KeyStrategy.ofJson? given with
  | some keyStrategy => .ok keyStrategy
  | none => .error (.keyStrategy given.shown)

/-- The level of logging, if it is an allowed one. -/
def logLevel (d : Draft) : Except SettingsError Text :=
  let given := d.value .logLevel
  match given.str?.filter Settings.logLevels.contains with
  | some logLevel => .ok logLevel
  | none => .error (.logLevel given.shown)

/-- The draft, if its key strategy and its level of logging are allowed. -/
def check (d : Draft) : Except SettingsError Draft := do
  discard d.keyStrategy
  discard d.logLevel
  return d

/-- The brokers, one by one, if they are given as a text. -/
def brokerList (d : Draft) : Except SettingsError (List Text) :=
  match d.value .brokers with
  | .str t => .ok (brokersIn t)
  | _ => .error .noText

/-- The value of a setting that is a text. -/
def text (d : Draft) (s : Setting) : Except SettingsError Text :=
  match d.value s with
  | .str t => .ok t
  | _ => .error .wrongType

/-- The value of a setting that is an integer. -/
def integer (d : Draft) (s : Setting) : Except SettingsError Int :=
  match d.value s with
  | .int n => .ok n
  | _ => .error .wrongType

/-- The value of a setting that is a number, or none. -/
def number? (d : Draft) (s : Setting) : Except SettingsError (Option Number) :=
  match d.value s with
  | .null => .ok none
  | .int n => .ok (some (.integer n))
  | .float x => .ok (some (.real x))
  | _ => .error .wrongType

/-- The settings that a draft gives, if all its values have the types of their settings. -/
def toSettings (d : Draft) : Except SettingsError Settings := do
  return {
    keyStrategy := ← d.keyStrategy
    logLevel := ← d.logLevel
    brokers := ← d.text .brokers
    topic := ← d.text .topic
    tag := ← d.text .tag
    socketPath := ← d.text .socketPath
    maxFrameSize := ← d.integer .maxFrameSize
    pollTimeout := ← d.integer .pollTimeout
    shutdownTimeout := ← d.number? .shutdownTimeout
    queueSize := ← d.integer .queueSize
    errorBufferSize := ← d.integer .errorBufferSize
    metricsInterval := ← d.integer .metricsInterval }

/-- The draft that the members of an object give. -/
def ofJson (members : List (Text × Json)) : Except SettingsError Draft := do
  let given ← members.mapM fun (name, value) =>
    match Setting.ofName? name with
    | some s => .ok (s, value)
    | none => .error .unknown
  check (given.foldl assign {})

end Draft

end LogRelay
