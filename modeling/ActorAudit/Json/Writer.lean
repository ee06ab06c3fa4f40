import ActorAudit.Json.Value

/-!
# Writing JSON

Compact text, and indented text with two spaces a level. Quotes, backslashes and control characters
are escaped; everything else is written as it is.
-/

namespace ActorAudit.Json

def escape (c : Char) : List Char :=
  match c with
  | '"' => ['\\', '"']
  | '\\' => ['\\', '\\']
  | '\x08' => ['\\', 'b']
  | '\x0c' => ['\\', 'f']
  | '\n' => ['\\', 'n']
  | '\r' => ['\\', 'r']
  | '\t' => ['\\', 't']
  | c =>
    if c.toNat < 0x20 then
      ['\\', 'u', '0', '0', Nat.digitChar (c.toNat / 16), Nat.digitChar (c.toNat % 16)]
    else [c]

def quote (s : String) : String :=
  String.ofList ('"' :: s.toList.flatMap escape ++ ['"'])

mutual
def compact : Json → String
  | .null => "null"
  | .bool b => if b then "true" else "false"
  | .integer n => toString n
  | .string s => quote s
  | .array items => "[" ++ ",".intercalate (compactItems items) ++ "]"
  | .object fields => "\x7b" ++ ",".intercalate (compactFields fields) ++ "\x7d"
def compactItems : List Json → List String
  | [] => []
  | j :: js => j.compact :: compactItems js
def compactFields : List (String × Json) → List String
  | [] => []
  | (key, j) :: fs => (quote key ++ ":" ++ j.compact) :: compactFields fs
end

def margin (depth : Nat) : String := String.ofList (List.replicate (2 * depth) ' ')

/-- Lines between two brackets, one level deeper than the brackets. -/
def block (depth : Nat) (left right : String) (lines : List String) : String :=
  if lines.isEmpty then left ++ right
  else
    left ++ "\n" ++ ",\n".intercalate (lines.map (margin (depth + 1) ++ ·)) ++ "\n" ++
      margin depth ++ right

mutual
def indented (depth : Nat) : Json → String
  | .null => "null"
  | .bool b => if b then "true" else "false"
  | .integer n => toString n
  | .string s => quote s
  | .array items => block depth "[" "]" (indentedItems (depth + 1) items)
  | .object fields => block depth "\x7b" "\x7d" (indentedFields (depth + 1) fields)
def indentedItems (depth : Nat) : List Json → List String
  | [] => []
  | j :: js => j.indented depth :: indentedItems depth js
def indentedFields (depth : Nat) : List (String × Json) → List String
  | [] => []
  | (key, j) :: fs => (quote key ++ ": " ++ j.indented depth) :: indentedFields depth fs
end

def pretty (j : Json) : String := j.indented 0

end ActorAudit.Json
