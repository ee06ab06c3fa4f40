import ActorAudit.Decimal.Binary64

/-!
# Shortest decimals

The fewest decimal digits that read back as a given double, and their text: positional for values of
ordinary size, with a power of ten for the very small and the very large.
-/

namespace ActorAudit.Binary64

/-- The decimal exponent `k` of a positive quotient: `10 ^ (k - 1) ≤ num / den < 10 ^ k`. -/
def decimalExponent (num den : Nat) : Int :=
  if den ≤ num then (Nat.toDigits 10 (num / den)).length
  else
    let width := (Nat.toDigits 10 (den / num)).length
    if den = num * Nat.pow 10 (width - 1) then 2 - width else 1 - width

def tenfold (c : Nat) (e : Int) : Nat × Nat :=
  if 0 ≤ e then (c * Nat.pow 10 e.toNat, 1) else (c, Nat.pow 10 (-e).toNat)

def readsBack (x : Binary64) (c : Nat) (e : Int) : Bool :=
  let (n, d) := tenfold c e
  ofRatio n d == some x

/-- The neighbour of `x` on the grid of multiples of `10 ^ e` that reads back as `x`; the nearer of
two, a tie to the even one. -/
def onGrid (x : Binary64) (e : Int) : Option Nat :=
  let (a, b) := x.ratio
  let (n, d) := if 0 ≤ e then (a, b * Nat.pow 10 e.toNat) else (a * Nat.pow 10 (-e).toNat, b)
  let low := n / d
  match x.readsBack low e, x.readsBack (low + 1) e with
  | true, true =>
    let below := 2 * (n % d)
    some (if below < d || (below == d && low % 2 == 0) then low else low + 1)
  | true, false => some low
  | false, true => some (low + 1)
  | false, false => none

/-- Digits and decimal exponent of a positive double. On the first grid the upper neighbour may be a
power of ten; it is then one digit with a larger exponent. -/
def shortest (x : Binary64) : Nat × Int :=
  let (a, b) := x.ratio
  let k := decimalExponent a b
  let attempt? := (List.range 17).findSome? fun n =>
    let e : Int := k - (n + 1 : Nat)
    (x.onGrid e).map fun c => if c = Nat.pow 10 (n + 1) then (1, k) else (c, e)
  attempt?.getD (a, 0)

/-- The positional text of `c * 10 ^ e`, with at least one digit on each side of the point. -/
def positional (c : Nat) (e : Int) : String :=
  let digits := Nat.toDigits 10 c
  if 0 ≤ e then String.ofList (digits ++ List.replicate e.toNat '0' ++ ['.', '0'])
  else
    let places := (-e).toNat
    let padded := List.replicate (places + 1 - digits.length) '0' ++ digits
    let cut := padded.length - places
    String.ofList (padded.take cut ++ '.' :: padded.drop cut)

/-- The digits of `c` with a point after the first, times a power of ten that has a sign. -/
def scientific (c : Nat) (power : Int) : String :=
  let digits := Nat.toDigits 10 c
  let rest := digits.drop 1
  String.ofList (digits.take 1 ++ if rest.isEmpty then [] else '.' :: rest) ++
    (if power < 0 then "e-" else "e+") ++ Nat.repr power.natAbs

/-- The text of a double without its sign: positional from `10 ^ -5` up to, not including,
`10 ^ 16`. -/
def text (x : Binary64) : String :=
  if x.significand = 0 then "0.0"
  else
    let (c, e) := x.shortest
    let power := e + (Nat.toDigits 10 c).length - 1
    if -5 ≤ power && power < 16 then positional c e else scientific c power

end ActorAudit.Binary64
