import LogRelay.Settings.Draft
import LogRelay.Text.Upper
/-!
# Giving settings their values

A value is converted to the type of the setting that it is for.

## Main definitions

* `Assignment.ofValue`: a setting with a value of its type.
-/
namespace LogRelay.Assignment

/-- The text of bytes that are all ASCII, or of which some cannot be part of a numeral. -/
def numeralText (bs : Bytes) : Text :=
  bs.map fun b => if b.toNat < 0x80 then CodePoint.ofNat b.toNat else .replacement

/-- The integer that a value gives. -/
def toInteger : Yaml.Value → Except SettingsError Int
  | .int n => .ok n
  | .bool b => .ok (if b then 1 else 0)
  | .float .nan => .error .malformed
  | .float x => match x.truncate? with
    | some n => .ok n
    | none => .error .tooLarge
  | .text t => (Integer.parse t).mapError fun _ => .malformed
  | .bytes bs => (Integer.parse (numeralText bs)).mapError fun _ => .malformed
  | _ => .error .wrongType

/-- The number that an integer is nearest to, if it is not too large. -/
def realOfInt (n : Int) : Except SettingsError Double :=
  match Double.ofInt n with
  | .infinite _ => .error .tooLarge
  | x => .ok x

/-- The number that a text writes. -/
def realOfText (t : Text) : Except SettingsError Double :=
  match Double.parse? t with
  | some x => .ok x
  | none => .error .malformed

/-- The number that a value gives. -/
def toReal : Yaml.Value → Except SettingsError Double
  | .float x => .ok x
  | .int n => realOfInt n
  | .bool b => realOfInt (if b then 1 else 0)
  | .text t => realOfText t
  | .bytes bs => realOfText (numeralText bs)
  | _ => .error .wrongType

/-- The text that stands for a value, unless its collections nest too deeply. -/
def toText (depth : Nat) (cs : Yaml.Collections) (v : Yaml.Value) : Except SettingsError Text :=
  (cs.plain depth v).mapError .unwritable

/-- The assignment of a value, which may be one of the given collections, to a setting.  The level
of logging may be given in small letters. -/
def ofValue (depth : Nat) (cs : Yaml.Collections) (s : Setting) (v : Yaml.Value) :
    Except SettingsError (Setting × Json) := do
  match s.kind with
  | .integer => return (s, .int (← toInteger v))
  | .real => return (s, .float (← toReal v))
  | .text =>
    let t ← toText depth cs v
    return (s, .str (if s = .logLevel then Text.toUpper t else t))

end LogRelay.Assignment
