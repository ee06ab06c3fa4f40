import ActorAudit.Decimal.Shortest

/-!
# Numerals

A number as it is written in a document, and what it denotes: a 64-bit natural number, a 64-bit
negative integer, or a double. Integers beyond 64 bits and minus zero are doubles.
-/

namespace ActorAudit

/-- A written number. Digits are most significant first. -/
inductive Numeral where
  | natural (n : Nat)
  | negated (n : Nat)
  | real (negative : Bool) (whole fraction : List Nat) (exponent : Int)
deriving DecidableEq, Repr

namespace Numeral

/-- What a numeral denotes; `real` carries the text of the double. -/
inductive Value where
  | natural (n : Nat)
  | negative (n : Nat)
  | real (text : String)
  | outOfRange
deriving DecidableEq, Repr

/-- Takes digits into a significand for as long as it stays below `2 ^ 64`; gives the significand and
the number of digits that were left over. -/
def absorb (significand : Nat) : List Nat → Nat × Nat
  | [] => (significand, 0)
  | d :: ds =>
    if significand * 10 + d < UInt64.size then absorb (significand * 10 + d) ds
    else (significand, (d :: ds).length)

/-- The double nearest to a power of ten up to the 308th. -/
def powerOfTen (e : Nat) : Binary64 := (Binary64.ofNat (Nat.pow 10 e)).getD .zero

/-- Divides by the largest power of ten a number of times, and last by `10 ^ e`. -/
def divideDown (e : Nat) : Nat → Binary64 → Option Binary64
  | 0, x => x.div (powerOfTen e)
  | steps + 1, x =>
    if x.significand = 0 then some x else (x.div (powerOfTen 308)).bind (divideDown e steps)

/-- The double `significand * 10 ^ exponent`, rounded after the significand and after every scaling
step. -/
def scaled (significand : Nat) (exponent : Int) : Option Binary64 :=
  match Binary64.ofNat significand with
  | some x =>
    if exponent < 0 then
      let e := (-exponent).toNat
      let steps := (e - 1) / 308
      divideDown (e - 308 * steps) steps x
    else if 308 < exponent then (if significand = 0 then some x else none)
    else x.mul (powerOfTen exponent.toNat)
  | none => none

def realValue (negative : Bool) (significand : Nat) (exponent : Int) : Value :=
  match scaled significand exponent with
  | some x => .real (if negative then "-" ++ x.text else x.text)
  | none => .outOfRange

def digitsOf (n : Nat) : List Nat :=
  (Nat.toDigits 10 n).map fun c => c.toNat - '0'.toNat

def value : Numeral → Value
  | natural n =>
    if n < UInt64.size then .natural n
    else
      let (s, left) := absorb 0 (digitsOf n)
      realValue false s left
  | negated n =>
    if n = 0 then .real "-0.0"
    else if n ≤ 0x8000000000000000 then .negative n
    else
      let (s, left) := absorb 0 (digitsOf n)
      realValue true s left
  | real negative whole fraction exponent =>
    let (s, left) := absorb 0 whole
    let (s, dropped) := absorb s fraction
    let places : Int := fraction.length - dropped
    -- an exponent beyond 32 bits is settled by its sign alone
    if 0x80000000 ≤ exponent then
      if s = 0 then realValue negative 0 0 else .outOfRange
    else if exponent ≤ -0x80000000 then realValue negative 0 0
    else realValue negative s (left - places + exponent)

end Numeral

end ActorAudit
