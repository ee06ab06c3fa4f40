import ActorAudit.Document.Numeral

/-!
# JSON tokens

A JSON text as a list of tokens. A character that starts no token ends the list with `bad`.
-/

namespace ActorAudit.Json

inductive Token where
  | openBrace
  | closeBrace
  | openBracket
  | closeBracket
  | comma
  | colon
  | null
  | bool (b : Bool)
  | number (n : Numeral)
  /-- A string; `none` when it escapes half of a surrogate pair. -/
  | string (s : Option String)
  | bad

namespace Token

def isSpace (c : Char) : Bool := c == ' ' || c == '\n' || c == '\t' || c == '\r'

def hexDigit? (c : Char) : Option Nat :=
  if '0' ≤ c ∧ c ≤ '9' then some (c.toNat - '0'.toNat)
  else if 'a' ≤ c ∧ c ≤ 'f' then some (c.toNat - 'a'.toNat + 10)
  else if 'A' ≤ c ∧ c ≤ 'F' then some (c.toNat - 'A'.toNat + 10)
  else none

def hex4? (a b c d : Char) : Option Nat := do
  let a ← hexDigit? a
  let b ← hexDigit? b
  let c ← hexDigit? c
  let d ← hexDigit? d
  return ((a * 16 + b) * 16 + c) * 16 + d

/-- The code units of a string after its opening quote, and the text after its closing quote. Code
units are collected in reverse. -/
def stringUnits : List Char → List Nat → Option (List Nat × List Char)
  | '"' :: rest, units => some (units.reverse, rest)
  | '\\' :: 'u' :: a :: b :: c :: d :: rest, units =>
    match hex4? a b c d with
    | some n => stringUnits rest (n :: units)
    | none => none
  | '\\' :: c :: rest, units =>
    match c with
    | '"' => stringUnits rest ('"'.toNat :: units)
    | '\\' => stringUnits rest ('\\'.toNat :: units)
    | '/' => stringUnits rest ('/'.toNat :: units)
    | 'b' => stringUnits rest (8 :: units)
    | 'f' => stringUnits rest (12 :: units)
    | 'n' => stringUnits rest (10 :: units)
    | 'r' => stringUnits rest (13 :: units)
    | 't' => stringUnits rest (9 :: units)
    | _ => none
  | c :: rest, units =>
    if c == '\\' || c.toNat < 0x20 then none else stringUnits rest (c.toNat :: units)
  | [], _ => none

/-- Joins surrogate pairs; `none` when one stands alone. Characters are collected in reverse. -/
def joinSurrogates : List Nat → List Char → Option (List Char)
  | [], chars => some chars.reverse
  | high :: low :: rest, chars =>
    if 0xD800 ≤ high ∧ high < 0xDC00 then
      if 0xDC00 ≤ low ∧ low < 0xE000 then
        joinSurrogates rest
          (Char.ofNat (0x10000 + (high - 0xD800) * 0x400 + (low - 0xDC00)) :: chars)
      else none
    else if 0xDC00 ≤ high ∧ high < 0xE000 then none
    else joinSurrogates (low :: rest) (Char.ofNat high :: chars)
  | [n], chars =>
    if 0xD800 ≤ n ∧ n < 0xE000 then none else some (Char.ofNat n :: chars).reverse

def digits (cs : List Char) : List Nat × List Char :=
  ((cs.takeWhile Char.isDigit).map fun c => c.toNat - '0'.toNat, cs.dropWhile Char.isDigit)

def ofDigits (ds : List Nat) : Nat := ds.foldl (fun n d => n * 10 + d) 0

def fractionPart : List Char → Option (List Nat × List Char)
  | '.' :: rest =>
    match digits rest with
    | ([], _) => none
    | (ds, rest) => some (ds, rest)
  | rest => some ([], rest)

def exponentPart : List Char → Option (Option Int × List Char)
  | c :: rest =>
    if c == 'e' || c == 'E' then
      let (negative, rest) :=
        match rest with
        | '-' :: rest => (true, rest)
        | '+' :: rest => (false, rest)
        | rest => (false, rest)
      match digits rest with
      | ([], _) => none
      | (ds, rest) => some (some (if negative then -(ofDigits ds : Int) else ofDigits ds), rest)
    else some (none, c :: rest)
  | [] => some (none, [])

def numeral (negative : Bool) (cs : List Char) : Option (Numeral × List Char) := do
  let (whole, rest) := digits cs
  if whole.isEmpty || (whole.head? == some 0 && whole.length != 1) then none
  else
    let (fraction, rest) ← fractionPart rest
    let (exponent, rest) ← exponentPart rest
    match fraction, exponent with
    | [], none =>
      let n := ofDigits whole
      return (if negative then .negated n else .natural n, rest)
    | fraction, exponent => return (.real negative whole fraction (exponent.getD 0), rest)

/-- The first token of a text that starts with none of JSON's spaces. -/
def next : List Char → Option (Token × List Char)
  | '\x7b' :: rest => some (.openBrace, rest)
  | '\x7d' :: rest => some (.closeBrace, rest)
  | '[' :: rest => some (.openBracket, rest)
  | ']' :: rest => some (.closeBracket, rest)
  | ',' :: rest => some (.comma, rest)
  | ':' :: rest => some (.colon, rest)
  | 'n' :: 'u' :: 'l' :: 'l' :: rest => some (.null, rest)
  | 't' :: 'r' :: 'u' :: 'e' :: rest => some (.bool true, rest)
  | 'f' :: 'a' :: 'l' :: 's' :: 'e' :: rest => some (.bool false, rest)
  | '"' :: rest =>
    (stringUnits rest []).map fun (units, rest) =>
      (.string ((joinSurrogates units []).map String.ofList), rest)
  | '-' :: rest => (numeral true rest).map fun (n, rest) => (.number n, rest)
  | cs => (numeral false cs).map fun (n, rest) => (.number n, rest)

/-- Collects the tokens of a text in reverse. Every token takes a character, so `fuel` is the length of
the text. -/
def collect : Nat → List Char → List Token → List Token
  | 0, _, tokens => tokens
  | fuel + 1, cs, tokens =>
    match cs.dropWhile isSpace with
    | [] => tokens
    | cs =>
      match next cs with
      | some (token, rest) => collect fuel rest (token :: tokens)
      | none => .bad :: tokens

def ofText (s : String) : List Token :=
  let cs := s.toList
  (collect (cs.length + 1) cs []).reverse

end Token

end ActorAudit.Json
