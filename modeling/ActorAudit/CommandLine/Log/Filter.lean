import ActorAudit.CommandLine.Log.Basic
import ActorAudit.Text.Blank
import ActorAudit.Text.Split

/-!
# Log filters

A filter is a list of directives between commas. A directive gives a level to the lines whose origin
begins with a text and shows those at or above the level. Of the directives about a line the most
specific one decides, and of two equally specific ones the later.

A directive is a level, an origin, or both with an equals sign between them. Brackets after the origin
restrict it to a scope, braces inside them to a field. Lines are told outside all scopes, and they have
one field, the message.
-/

namespace ActorAudit.Log

/-! ## Levels -/

def number? (cs : List Char) : Option Nat :=
  let digits := match cs with
    | '+' :: rest => rest
    | cs => cs
  if !digits.isEmpty && digits.all Char.isDigit then
    some (digits.foldl (fun n d => n * 10 + (d.toNat - '0'.toNat)) 0)
  else none

/-- The least level that is shown; none when nothing is. -/
abbrev Threshold := Option Level

/-- Thresholds by number: zero shows nothing, five everything. -/
def Threshold.ofNumber? : Nat → Option Threshold
  | 0 => some none
  | 1 => some (some .error)
  | 2 => some (some .warn)
  | 3 => some (some .info)
  | 4 => some (some .debug)
  | 5 => some (some .trace)
  | _ => none

/-- A threshold by its name, in upper or lower case, or by its number. -/
def Threshold.read? (cs : List Char) : Option Threshold :=
  match number? cs with
  | some n => ofNumber? n
  | none =>
    let name := String.ofList (cs.map Char.toUpper)
    if name = "OFF" then some none else (Level.all.find? fun l => l.name = name).map some

def Threshold.shows : Threshold → Level → Bool
  | none, _ => false
  | some least, level => least.rank ≤ level.rank

/-! ## Directives -/

structure Directive where
  origin : List Char := []
  field : Option (List Char) := none
  threshold : Threshold := some .trace
deriving DecidableEq, Repr

namespace Directive

def isAbout (d : Directive) (l : Line) : Bool :=
  d.origin.isPrefixOf l.origin.name.toList && d.field.all (· == "message".toList)

/-- Whether `d` decides where both `d` and a later `e` are about a line. -/
def isFinerThan (d e : Directive) : Bool :=
  e.origin.length < d.origin.length ||
    (d.origin.length == e.origin.length && d.field.isSome && e.field.isNone)

/-- What brackets restrict a directive to. A field with a value is only met inside a scope. -/
inductive Restriction where
  | scope
  | field (name : List Char)
deriving DecidableEq, Repr

/-- Reads a restriction after the opening bracket and gives what follows the closing one. -/
def restriction? (cs : List Char) : Option (Restriction × List Char) :=
  let name := cs.takeWhile fun c => c != ']' && c != '\x7b'
  match cs.drop name.length with
  | ']' :: rest => some (.scope, rest)
  | '\x7b' :: rest =>
    let field := rest.takeWhile (· != '\x7d')
    match rest.drop field.length with
    | '\x7d' :: ']' :: rest =>
      if field.isEmpty then none
      else some (if name.isEmpty && '=' ∉ field then .field field else .scope, rest)
    | _ => none
  | _ => none

/-- Whether a directive may begin with a character. Beyond ASCII all of them are taken for letters. -/
def mayBegin (c : Char) : Bool :=
  c.isAlphanum || c == '-' || c == ':' || c == '_' || 0x80 ≤ c.toNat

structure Parts where
  origin : List Char
  restriction : Option Restriction := none
  level : Option (List Char) := none
deriving DecidableEq, Repr

/-- The parts from a restriction on. -/
def bracketed? (origin cs : List Char) : Option Parts :=
  match restriction? cs with
  | some (r, '=' :: level) => some ⟨origin, some r, some level⟩
  | some (r, rest) => if rest.all Text.isBlank then some ⟨origin, some r, none⟩ else none
  | none => none

def parts? (cs : List Char) : Option Parts :=
  let origin := cs.takeWhile fun c => c != '=' && c != '['
  if cs.head?.any fun c => c == '[' || mayBegin c then
    match cs.drop origin.length with
    | '=' :: level => some { origin, level := some level }
    | '[' :: rest => bracketed? origin rest
    | _ => some { origin }
  else none

/-- The directive with the given parts, if it can be about a line; nothing when the level is none. An
origin alone has everything shown, unless it is a level. -/
def ofParts? (p : Parts) : Option (Option Directive) :=
  match p.restriction, p.level with
  | none, none =>
    some (some (match Threshold.read? p.origin with
      | some t => { threshold := t }
      | none => { origin := p.origin }))
  | r, level => do
    let t ← match level with
      | none | some [] => some (some .trace)
      | some cs => Threshold.read? cs
    return match r with
      | none => some { origin := p.origin, threshold := t }
      | some (.field name) => some { origin := p.origin, field := some name, threshold := t }
      | some .scope => none

/-- Reads a directive. After a blank it is about no line and cannot give a level. -/
def read? (piece : List Char) : Option (Option Directive) :=
  let cs := piece.dropWhile Text.isBlank
  match parts? cs with
  | none => none
  | some p =>
    if cs.length = piece.length then ofParts? p
    else if p.level.isSome then none else some none

end Directive

/-! ## Filters -/

abbrev Filter := List Directive

namespace Filter

/-- Shows lines at or above a level, wherever they come from. -/
def atLeast (level : Level) : Filter := [{ threshold := some level }]

/-- Reads a filter; one without directives shows errors. -/
def read? (text : String) : Option Filter :=
  match (Text.splitAtChar ',' text.toList).filter fun piece => !piece.isEmpty with
  | [] => some (atLeast .error)
  | pieces => (pieces.mapM Directive.read?).map fun ds => ds.filterMap id

/-- The filter of a run. A verbose run shows debug lines whatever the environment asks for; where that
is nothing, or cannot be read, `info` lines are shown. -/
def choose (verbose : Bool) (text : Option String) : Filter :=
  if verbose then atLeast .debug else (text.bind read?).getD (atLeast .info)

def decisive? (f : Filter) (l : Line) : Option Directive :=
  (f.filter (·.isAbout l)).foldl
    (fun best d =>
      match best with
      | some b => if b.isFinerThan d then some b else some d
      | none => some d)
    none

def shows (f : Filter) (l : Line) : Bool := (f.decisive? l).any fun d => d.threshold.shows l.level

end Filter

end ActorAudit.Log
