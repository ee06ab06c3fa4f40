/-!
# Message templates

A template is text with numbered slots such as `{0}`. `pieces` cuts a template into literal text and
slots in one pass, for a given number of arguments; `fill` puts the arguments in. An argument is
never scanned again.

An opening brace opens a slot when the text between it and the next closing brace is a number below
the number of arguments: an optional plus sign and decimal digits that fit in 64 bits. Any other
opening brace is literal text.
-/

namespace ActorAudit.Template

inductive Piece where
  | literal (c : Char)
  | slot (index : Nat)
deriving DecidableEq, Repr

def digits? : List Char → Nat → Option Nat
  | [], n => some n
  | c :: cs, n => if c.isDigit then digits? cs (n * 10 + (c.toNat - '0'.toNat)) else none

def index? (cs : List Char) : Option Nat :=
  let ds := match cs with
    | '+' :: ds => ds
    | ds => ds
  if ds.isEmpty then none
  else
    match digits? ds 0 with
    | some n => if n < UInt64.size then some n else none
    | none => none

/-- The text up to the next closing brace, and the text after it. -/
def upToBrace : List Char → Option (List Char × List Char)
  | [] => none
  | c :: cs =>
    if c = '\x7d' then some ([], cs)
    else
      match upToBrace cs with
      | some (inside, rest) => some (c :: inside, rest)
      | none => none

/-- The slot that an opening brace before `cs` opens, and the text after the slot. -/
def slot? (arity : Nat) (cs : List Char) : Option (Nat × List Char) :=
  match upToBrace cs with
  | some (inside, rest) =>
    match index? inside with
    | some n => if n < arity then some (n, rest) else none
    | none => none
  | none => none

theorem length_upToBrace {cs inside rest : List Char} (h : upToBrace cs = some (inside, rest)) :
    rest.length < cs.length := by
  induction cs generalizing inside with
  | nil => simp [upToBrace] at h
  | cons c cs ih =>
    unfold upToBrace at h
    split at h
    · simp only [Option.some.injEq, Prod.mk.injEq] at h
      simp [← h.2]
    · split at h
      · next inside' rest' heq =>
        simp only [Option.some.injEq, Prod.mk.injEq] at h
        have := ih (h.2 ▸ heq)
        simp only [List.length_cons]
        omega
      · simp at h

theorem length_slot? {arity n : Nat} {cs rest : List Char} (h : slot? arity cs = some (n, rest)) :
    rest.length < cs.length := by
  unfold slot? at h
  split at h
  · next inside rest' heq =>
    split at h
    · split at h
      · simp only [Option.some.injEq, Prod.mk.injEq] at h
        exact h.2 ▸ length_upToBrace heq
      · simp at h
    · simp at h
  · simp at h

def pieces (arity : Nat) : List Char → List Piece
  | [] => []
  | c :: cs =>
    if c = '\x7b' then
      match _h : slot? arity cs with
      | some (n, rest) => .slot n :: pieces arity rest
      | none => .literal c :: pieces arity cs
    else .literal c :: pieces arity cs
termination_by cs => cs.length
decreasing_by
  · have := length_slot? _h
    simp only [List.length_cons]
    omega
  · simp
  · simp

def Piece.text (args : List String) : Piece → List Char
  | .literal c => [c]
  | .slot n => (args[n]?.getD "").toList

def fill (template : String) (args : List String) : String :=
  String.ofList ((pieces args.length template.toList).flatMap (Piece.text args))

end ActorAudit.Template
