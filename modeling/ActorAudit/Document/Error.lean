import ActorAudit.Document.Tree
import ActorAudit.Text.Quoted

/-!
# Decoding errors

What can be wrong with a document that was expected to hold a certain kind of value. A fault in the
text itself has no message of its own.
-/

namespace ActorAudit

inductive Unexpected where
  | boolean (b : Bool)
  | integer (n : Int)
  | real (text : String)
  | text (s : String)
  | null
  | list
  | record
deriving DecidableEq, Repr

def Unexpected.describe : Unexpected → String
  | .boolean b => s!"boolean `{b}`"
  | .integer n => s!"integer `{n}`"
  | .real t => s!"floating point `{t}`"
  | .text s => "string " ++ Text.quoted s
  | .null => "null"
  | .list => "sequence"
  | .record => "map"

inductive DecodeError where
  | malformed
  | invalidType (found : Unexpected) (expected : String)
  | invalidValue (found : Unexpected) (expected : String)
  | missingField (name : String)
  | duplicateField (name : String)
  | unknownVariant (name : String) (known : List String)
  /-- A record of `size` fields given as a list that is too short. -/
  | invalidLength (given : Nat) (record : String) (size : Nat)
deriving DecidableEq, Repr

namespace DecodeError

def message : DecodeError → Option String
  | .malformed => none
  | .invalidType found expected => some s!"invalid type: {found.describe}, expected {expected}"
  | .invalidValue found expected => some s!"invalid value: {found.describe}, expected {expected}"
  | .missingField name => some s!"missing field `{name}`"
  | .duplicateField name => some s!"duplicate field `{name}`"
  | .unknownVariant name known =>
    some (s!"unknown variant `{name}`, expected one of " ++
      ", ".intercalate (known.map fun k => s!"`{k}`"))
  | .invalidLength given record size =>
    let elements := if size = 1 then "1 element" else s!"{size} elements"
    some s!"invalid length {given}, expected struct {record} with {elements}"

end DecodeError

namespace Doc

def mismatch (expected : String) : Doc → DecodeError
  | .null => .invalidType .null expected
  | .bool b => .invalidType (.boolean b) expected
  | .number n =>
    match n.value with
    | .natural n => .invalidType (.integer n) expected
    | .negative n => .invalidType (.integer (-n)) expected
    | .real t => .invalidType (.real t) expected
    | .outOfRange => .malformed
  | .text (some s) => .invalidType (.text s) expected
  | .text none => .malformed
  | .list .. => .invalidType .list expected
  | .record .. => .invalidType .record expected
  | .broken => .malformed

end Doc

end ActorAudit
