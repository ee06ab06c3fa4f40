import ActorAudit.Toml.Value

/-!
# TOML scalars

Booleans, numbers and points in time, each as the whole of a word without blanks.
-/

namespace ActorAudit.Toml

/-! ## Digits -/

def isDigitOf (base : Nat) (c : Char) : Bool :=
  if base = 16 then c.isDigit || ('a' ≤ c && c ≤ 'f') || ('A' ≤ c && c ≤ 'F')
  else c.isDigit && c.toNat - '0'.toNat < base

def digitValue (c : Char) : Nat :=
  if c.isDigit then c.toNat - '0'.toNat
  else if 'a' ≤ c then c.toNat - 'a'.toNat + 10
  else c.toNat - 'A'.toNat + 10

/-- The digits of a word in which single underscores may stand between digits. -/
def grouped? (base : Nat) : List Char → Option (List Nat)
  | [] => none
  | [c] => if isDigitOf base c then some [digitValue c] else none
  | c :: '_' :: rest =>
    if isDigitOf base c then (grouped? base rest).map (digitValue c :: ·) else none
  | c :: rest => if isDigitOf base c then (grouped? base rest).map (digitValue c :: ·) else none

def ofDigits (base : Nat) (ds : List Nat) : Nat := ds.foldl (fun n d => n * base + d) 0

def decimal? (cs : List Char) : Option (List Nat) :=
  match grouped? 10 cs with
  | some (0 :: _ :: _) => none
  | ds => ds

/-! ## Numbers -/

def unsigned (cs : List Char) : Bool × List Char :=
  match cs with
  | '-' :: rest => (true, rest)
  | '+' :: rest => (false, rest)
  | rest => (false, rest)

def integer? (cs : List Char) : Option Int :=
  let n? : Option Int :=
    match cs with
    | '0' :: 'x' :: rest => (grouped? 16 rest).map fun ds => (ofDigits 16 ds : Int)
    | '0' :: 'o' :: rest => (grouped? 8 rest).map fun ds => (ofDigits 8 ds : Int)
    | '0' :: 'b' :: rest => (grouped? 2 rest).map fun ds => (ofDigits 2 ds : Int)
    | cs =>
      let (negative, cs) := unsigned cs
      (decimal? cs).map fun ds =>
        if negative then -(ofDigits 10 ds : Int) else (ofDigits 10 ds : Int)
  match n? with
  | some n => if -0x8000000000000000 ≤ n ∧ n < 0x8000000000000000 then some n else none
  | none => none

/-- Whether `digits * 10 ^ exponent` is at least the largest double and a half of its last place. -/
def overflows (digits : Nat) (exponent : Int) : Bool :=
  if digits = 0 then false
  else
    let width : Int := (Nat.toDigits 10 digits).length + exponent
    if width < 309 then false
    else if 309 < width then true
    else
      let limit := Nat.pow 2 1024 - Nat.pow 2 970
      if 0 ≤ exponent then limit ≤ digits * Nat.pow 10 exponent.toNat
      else limit * Nat.pow 10 (-exponent).toNat ≤ digits

/-- Digits before, after a point and in an exponent; a float has at least one of the last two. A
positive float is not too large for a double. -/
def isFloat (cs : List Char) : Bool :=
  let (negative, cs) := unsigned cs
  if cs = ['i', 'n', 'f'] || cs = ['n', 'a', 'n'] then true
  else
    let isMark : Char → Bool := fun c => c == 'e' || c == 'E'
    let mantissa := cs.takeWhile fun c => !isMark c
    let whole := mantissa.takeWhile (· != '.')
    let fraction? := (mantissa.drop whole.length).tail?
    let exponent? := (cs.drop mantissa.length).tail?
    if fraction?.isNone && exponent?.isNone then false
    else
      let exponent := exponent?.map unsigned
      match decimal? whole, fraction?.elim (some []) (grouped? 10),
        exponent.elim (some (false, [])) fun (n, ds) => (grouped? 10 ds).map (n, ·) with
      | some w, some f, some (down, e) =>
        let e : Int := if down then -(ofDigits 10 e : Int) else (ofDigits 10 e : Int)
        negative || !overflows (ofDigits 10 (w ++ f)) (e - f.length)
      | _, _, _ => false

/-! ## Points in time -/

def twoDigits (low high : Nat) (a b : Char) : Option Nat :=
  if a.isDigit && b.isDigit then
    let n := digitValue a * 10 + digitValue b
    if low ≤ n ∧ n ≤ high then some n else none
  else none

def daysIn (year month : Nat) : Nat :=
  let leap := year % 4 = 0 && (year % 100 ≠ 0 || year % 400 = 0)
  if month = 2 then if leap then 29 else 28
  else if month = 4 || month = 6 || month = 9 || month = 11 then 30
  else 31

def date? : List Char → Option (List Char)
  | y1 :: y2 :: y3 :: y4 :: '-' :: m1 :: m2 :: '-' :: d1 :: d2 :: rest => do
    let century ← twoDigits 0 99 y1 y2
    let year ← twoDigits 0 99 y3 y4
    let month ← twoDigits 1 12 m1 m2
    let day ← twoDigits 1 31 d1 d2
    if day ≤ daysIn (century * 100 + year) month then some rest else none
  | _ => none

def time? : List Char → Option (List Char)
  | h1 :: h2 :: ':' :: m1 :: m2 :: ':' :: s1 :: s2 :: rest => do
    let _ ← twoDigits 0 23 h1 h2
    let _ ← twoDigits 0 59 m1 m2
    let _ ← twoDigits 0 60 s1 s2
    match rest with
    | '.' :: c :: rest => if c.isDigit then some (rest.dropWhile Char.isDigit) else none
    | rest => some rest
  | _ => none

def isOffset : List Char → Bool
  | [] => true
  | ['Z'] | ['z'] => true
  | [sign, h1, h2, ':', m1, m2] =>
    (sign == '+' || sign == '-') && (twoDigits 0 23 h1 h2).isSome && (twoDigits 0 59 m1 m2).isSome
  | _ => false

def isDate (cs : List Char) : Bool := date? cs == some []

def isDatetime (cs : List Char) : Bool :=
  match date? cs with
  | some [] => true
  | some (c :: rest) => (c == 'T' || c == 't' || c == ' ') && (time? rest).any isOffset
  | none => time? cs == some []

/-! ## Words -/

def scalar? (cs : List Char) : Option Toml :=
  match String.ofList cs with
  | "true" => some (.boolean true)
  | "false" => some (.boolean false)
  | _ =>
    match integer? cs with
    | some n => some (.integer n)
    | none =>
      if isFloat cs then some .float
      else if isDatetime cs then some .datetime
      else none

end ActorAudit.Toml
