import ActorAudit.Document.Schema
import ActorAudit.Json.Token

/-!
# Reading JSON

The tree of a JSON text, by recursive descent over its tokens. Each function gives what follows the
value it read, or nothing when the text is at fault.
-/

namespace ActorAudit.Json

def ending {α : Type} (rest : Option α) : Ending :=
  if rest.isSome then .closed else .cut

mutual
def readValue : Nat → List Token → Doc × Option (List Token)
  | 0, _ => (.broken, none)
  | fuel + 1, tokens =>
    match tokens with
    | .null :: rest => (.null, some rest)
    | .bool b :: rest => (.bool b, some rest)
    | .number n :: rest => (.number n, some rest)
    | .string s :: rest => (.text s, some rest)
    | .openBracket :: .closeBracket :: rest => (.list [] .closed, some rest)
    | .openBracket :: rest =>
      let (items, rest) := readItems fuel rest []
      (.list items.reverse (ending rest), rest)
    | .openBrace :: .closeBrace :: rest => (.record [] .closed, some rest)
    | .openBrace :: rest =>
      let (entries, rest) := readEntries fuel rest []
      (.record entries.reverse (ending rest), rest)
    | _ => (.broken, none)
/-- The items of a list from the next one on, in reverse after those already read. -/
def readItems : Nat → List Token → List Doc → List Doc × Option (List Token)
  | 0, _, items => (items, none)
  | fuel + 1, tokens, items =>
    match readValue fuel tokens with
    | (d, some (.comma :: rest)) => readItems fuel rest (d :: items)
    | (d, some (.closeBracket :: rest)) => (d :: items, some rest)
    | (d, _) => (d :: items, none)
def readEntries : Nat → List Token → List (Option String × Doc) →
    List (Option String × Doc) × Option (List Token)
  | 0, _, entries => (entries, none)
  | fuel + 1, tokens, entries =>
    match tokens with
    | .string key :: .colon :: rest =>
      match readValue fuel rest with
      | (d, some (.comma :: rest)) => readEntries fuel rest ((key, d) :: entries)
      | (d, some (.closeBrace :: rest)) => ((key, d) :: entries, some rest)
      | (d, _) => ((key, d) :: entries, none)
    | .string key :: _ => ((key, .broken) :: entries, none)
    | _ => (entries, none)
end

/-- The tree of a text, and whether the text ends after it. Every call takes a token or hands one on
to a call that does, so twice the number of tokens is enough fuel. -/
def read (s : String) : Doc × Bool :=
  let tokens := Token.ofText s
  match readValue (2 * tokens.length + 2) tokens with
  | (d, some []) => (d, true)
  | (d, _) => (d, false)

/-- Decodes a JSON text: the value first, then that nothing follows it. -/
def decode {α : Type} (decoder : Decoder α) (s : String) : Except DecodeError α :=
  let (d, complete) := read s
  match decoder d with
  | .ok a => if complete then .ok a else .error .malformed
  | .error e => .error e

end ActorAudit.Json
