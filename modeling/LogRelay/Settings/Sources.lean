import LogRelay.Settings.Assignment
/-!
# Where settings come from

A setting is taken from the command line, else from the environment, else from a file, else it has
its default.  All values that are given are converted, also those that another one overrides, in the
order file, environment, command line.

## Main definitions

* `options`: the options on a command line.
* `Sources`, `Sources.given`: all values that are given, in order.
* `Draft.load`, `Settings.load`
-/
namespace LogRelay

/-! ## The command line -/

/-- Whether an argument names an option. -/
def isOption (arg : Text) : Bool :=
  arg.startsWith "--"

/-- The options on a command line, by name and value.  The value stands after the first equals sign,
or it is the next argument, unless that names an option itself; otherwise it is empty.  Arguments
that neither name an option nor are its value are passed over. -/
def options : List Text → List (Text × Text)
  | [] => []
  | arg :: rest =>
    if !isOption arg then options rest
    else match Text.cut? '=' (arg.drop 2), rest with
      | some option, rest => option :: options rest
      | none, [] => [(arg.drop 2, [])]
      | none, value :: rest =>
        if isOption value then (arg.drop 2, []) :: options (value :: rest)
        else (arg.drop 2, value) :: options rest

/-- The setting that an option names, dashes standing for underscores. -/
def Setting.ofOption? (name : Text) : Option Setting :=
  ofName? (name.map fun (c : CodePoint) => if c = '-' then CodePoint.ofChar '_' else c)

/-! ## Sources -/

/-- What there is at the place where the file should be. -/
inductive FileContent where
  | missing
  | directory
  | bytes (bs : Bytes)
  deriving DecidableEq

/-- All sources of settings.  There may be no place where a file should be.  What the bytes of a file
stand for is the loader's business; collections in it are written as texts if they lie at most `depth`
deep inside of each other. -/
structure Sources where
  loader : Bytes → Except Yaml.Fault (Option Yaml.Document)
  depth : Nat
  file : Option FileContent := none
  environment : Members Text Text := []
  arguments : List Text := []

namespace Sources

/-- The values that a document gives to settings, in order.  Keys that name no setting do not
count, and neither does a document that is no mapping. -/
def ofDocument (depth : Nat) (d : Yaml.Document) : Except SettingsError (List (Setting × Json)) :=
  let known := d.pairs.filterMap fun (key, value) =>
    match key with
    | .text name => (Setting.ofName? name).map (·, value)
    | _ => none
  known.mapM fun (s, value) => Assignment.ofValue depth d.collections s value

/-- The values that the file gives. -/
def inFile (s : Sources) : Except SettingsError (List (Setting × Json)) :=
  match s.file with
  | none | some .missing => .ok []
  | some .directory => .error .directory
  | some (.bytes bs) => match s.loader bs with
    | .ok none => .ok []
    | .ok (some document) => ofDocument s.depth document
    | .error fault => .error (.file fault)

/-- The values that texts give to settings. -/
def ofTexts (texts : List (Setting × Text)) : Except SettingsError (List (Setting × Json)) :=
  texts.mapM fun (s, t) => Assignment.ofValue 0 #[] s (.text t)

/-- The values that the environment gives. -/
def inEnvironment (s : Sources) : Except SettingsError (List (Setting × Json)) :=
  ofTexts (Setting.all.filterMap fun setting =>
    (Members.get? setting.environmentName s.environment).map (setting, ·))

/-- The values that the command line gives. -/
def inArguments (s : Sources) : Except SettingsError (List (Setting × Json)) :=
  ofTexts ((options s.arguments).filterMap fun (name, value) =>
    (Setting.ofOption? name).map (·, value))

/-- All values that are given, those that count more after those that count less. -/
def given (s : Sources) : Except SettingsError (List (Setting × Json)) := do
  return (← s.inFile) ++ (← s.inEnvironment) ++ (← s.inArguments)

end Sources

/-- The draft that the sources give. -/
def Draft.load (s : Sources) : Except SettingsError Draft := do
  ((← s.given).foldl assign {}).check

/-- The settings that the sources give. -/
def Settings.load (s : Sources) : Except SettingsError Settings := do
  (← Draft.load s).toSettings

end LogRelay
