import LogRelay.Text.Basic
import LogRelay.Text.Quoted
/-!
# Texts without a UTF-8 form

A text that holds a surrogate cannot be encoded.  The refusal names the first run of surrogates.

## Main definitions

* `Unencodable`: where the first run of surrogates stands.
* `Text.unencodable?`: the refusal of a text, if it is refused.
* `Unencodable.message`: the refusal in words.
-/
namespace LogRelay

/-- The refusal to encode a text: its first surrogate, at which index that stands, and the index
after the run of surrogates that starts there. -/
structure Unencodable where
  first : CodePoint
  start : Nat
  stop : Nat
  deriving DecidableEq

/-- The refusal of a text, or `none` when it can be encoded. -/
def Text.unencodable? (t : Text) : Option Unencodable :=
  match t.dropWhile (!·.isSurrogate) with
  | [] => none
  | c :: rest =>
    let start := (t.takeWhile (!·.isSurrogate)).length
    some ⟨c, start, start + 1 + (rest.takeWhile CodePoint.isSurrogate).length⟩

/-- The refusal in words. -/
def Unencodable.message (u : Unencodable) : Text :=
  if u.stop = u.start + 1 then
    "'utf-8' codec can't encode character '" ++ u.first.numbered ++ "' in position "
      ++ Text.ofNat u.start ++ ": surrogates not allowed"
  else
    "'utf-8' codec can't encode characters in position " ++ Text.ofNat u.start ++ "-"
      ++ Text.ofNat (u.stop - 1) ++ ": surrogates not allowed"

end LogRelay
