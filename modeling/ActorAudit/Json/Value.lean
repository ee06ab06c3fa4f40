import ActorAudit.Document.Tree

/-!
# JSON values

The values that are written. Numbers are integers; the keys of an object keep their order.
-/

namespace ActorAudit

inductive Json where
  | null
  | bool (b : Bool)
  | integer (n : Int)
  | string (s : String)
  | array (items : List Json)
  | object (fields : List (String × Json))
deriving Inhabited

namespace Json

def ofNat (n : Nat) : Json := .integer n

def ofOption {α : Type} (f : α → Json) : Option α → Json
  | some a => f a
  | none => .null

def optionalField {α : Type} (name : String) (f : α → Json) : Option α → List (String × Json)
  | some a => [(name, f a)]
  | none => []

def listField {α : Type} (name : String) (f : α → Json) (as : List α) : List (String × Json) :=
  if as.isEmpty then [] else [(name, .array (as.map f))]

def numeral (n : Int) : Numeral :=
  if 0 ≤ n then .natural n.toNat else .negated (-n).toNat

mutual
/-- The document that holds just this value. -/
def toDoc : Json → Doc
  | .null => .null
  | .bool b => .bool b
  | .integer n => .number (numeral n)
  | .string s => .text (some s)
  | .array items => .list (itemDocs items) .closed
  | .object fields => .record (fieldDocs fields) .closed
def itemDocs : List Json → List Doc
  | [] => []
  | j :: js => j.toDoc :: itemDocs js
def fieldDocs : List (String × Json) → List (Option String × Doc)
  | [] => []
  | (key, j) :: fs => (some key, j.toDoc) :: fieldDocs fs
end

end Json

end ActorAudit
