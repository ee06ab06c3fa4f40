/-!
# Glob patterns

Patterns on file texts: `?` is any character, `*` any run of characters, `**` as a whole component
any run of components, and brackets a set of characters. All of them match slashes too.
-/

namespace ActorAudit.Glob

inductive Token where
  | char (c : Char)
  | anyChar
  /-- Any run of characters. -/
  | anySequence
  /-- Any run of whole components. -/
  | anyComponents
  | within (set : List (Char × Char))
  | except (set : List (Char × Char))
deriving DecidableEq, Repr

inductive Fault where
  /-- Three or more stars in a row. -/
  | wildcards
  /-- Two stars that are not a component. -/
  | recursion
  | range
deriving DecidableEq, Repr

structure Error where
  position : Nat
  fault : Fault
deriving DecidableEq, Repr

def Fault.text : Fault → String
  | wildcards => "wildcards are either regular `*` or recursive `**`"
  | recursion => "recursive wildcards must form a single path component"
  | range => "invalid range pattern"

def Error.message (e : Error) : String :=
  s!"Pattern syntax error near position {e.position}: {e.fault.text}"

/-! ## Reading patterns -/

/-- The ranges of a set: `x-y` is a range, any other character is itself. -/
def ranges : List Char → List (Char × Char)
  | a :: '-' :: b :: rest => (a, b) :: ranges rest
  | a :: rest => (a, a) :: ranges rest
  | [] => []

/-- The characters before the first closing bracket, where the first character is never the closing
one, and what follows the bracket. -/
def untilBracket : List Char → Option (List Char × List Char)
  | [] => none
  | c :: rest =>
    let body := rest.takeWhile (· != ']')
    match rest.drop body.length with
    | [] => none
    | _ :: after => some (c :: body, after)

def set? : List Char → Option (Token × List Char)
  | '!' :: rest =>
    (untilBracket rest).map fun (body, after) => (.except (ranges body), after)
  | rest => (untilBracket rest).map fun (body, after) => (.within (ranges body), after)

/-- Appends a run of components, but not twice after other tokens. -/
def pushComponents (tokens : List Token) : List Token :=
  if 1 < tokens.length ∧ tokens.head? = some .anyComponents then tokens
  else .anyComponents :: tokens

/-- Reads a pattern. `index` is the position of the next character, `before` the character before it,
and the tokens so far are in reverse. Every step takes a character, so `fuel` is the length of the
pattern. -/
def tokensFrom : Nat → Nat → Option Char → List Char → List Token → Except Error (List Token)
  | 0, _, _, _, tokens => .ok tokens.reverse
  | _ + 1, _, _, [], tokens => .ok tokens.reverse
  | fuel + 1, index, before, c :: rest, tokens =>
    match c with
    | '?' => tokensFrom fuel (index + 1) (some c) rest (.anyChar :: tokens)
    | '*' =>
      let more := (rest.takeWhile (· == '*')).length
      let rest := rest.drop more
      let after := index + more + 1
      if 1 < more then .error ⟨index + 2, .wildcards⟩
      else if more = 0 then tokensFrom fuel after (some c) rest (.anySequence :: tokens)
      else if before = none ∨ before = some '/' then
        match rest with
        | [] => .ok (pushComponents tokens).reverse
        | '/' :: rest => tokensFrom fuel (after + 1) (some '/') rest (pushComponents tokens)
        | _ => .error ⟨after, .recursion⟩
      else .error ⟨index - 1, .recursion⟩
    | '[' =>
      match set? rest with
      | some (token, after) =>
        tokensFrom fuel (index + 1 + (rest.length - after.length)) (some ']') after
          (token :: tokens)
      | none => .error ⟨index, .range⟩
    | c => tokensFrom fuel (index + 1) (some c) rest (.char c :: tokens)

def compile (pattern : String) : Except Error (List Token) :=
  let cs := pattern.toList
  tokensFrom cs.length 0 none cs []

def compileAll : List String → Except Error (List (List Token))
  | [] => .ok []
  | p :: ps => do
    let t ← compile p
    let ts ← compileAll ps
    return t :: ts

/-! ## Matching -/

/-- A text that is too short fails entirely: no shorter rest of it can match. -/
inductive Outcome where
  | matched
  | failed
  | failedEntirely
deriving DecidableEq, Repr

def inSet (set : List (Char × Char)) (c : Char) : Bool :=
  set.any fun (low, high) => low ≤ c && c ≤ high

def Token.takes : Token → Char → Bool
  | .char d, c => c = d
  | .anyChar, _ => true
  | .within set, c => inSet set c
  | .except set, c => !inSet set c
  | .anySequence, _ => false
  | .anyComponents, _ => false

/-- Tries `rest` after every character, or only after every slash, and at last on what is left. -/
def skipping (components : Bool) (rest : List Char → Outcome) : List Char → Outcome
  | [] => rest []
  | c :: cs =>
    if components && c != '/' then skipping components rest cs
    else
      match rest cs with
      | .failed => skipping components rest cs
      | outcome => outcome

def matchTokens : List Token → List Char → Outcome
  | [], [] => .matched
  | [], _ :: _ => .failed
  | .anySequence :: rest, cs =>
    match matchTokens rest cs with
    | .failed => skipping false (matchTokens rest) cs
    | outcome => outcome
  | .anyComponents :: rest, cs =>
    match matchTokens rest cs with
    | .failed => skipping true (matchTokens rest) cs
    | outcome => outcome
  | _ :: _, [] => .failedEntirely
  | token :: rest, c :: cs => if token.takes c then matchTokens rest cs else .failed

def isMatch (pattern : List Token) (text : String) : Bool :=
  matchTokens pattern text.toList = .matched

end ActorAudit.Glob
