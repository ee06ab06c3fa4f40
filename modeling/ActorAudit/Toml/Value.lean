import ActorAudit.Document.Tree

/-!
# TOML values

The values of a TOML document. A table remembers how it came about, since that decides whether it may
still be extended.
-/

namespace ActorAudit

namespace Toml

inductive Origin where
  /-- Written in braces. -/
  | inline
  /-- Opened by a header of its own. -/
  | header
  /-- Implied by the header of a table inside it. -/
  | implied
  /-- Made by a dotted key. -/
  | dotted
deriving DecidableEq, Repr

end Toml

inductive Toml where
  | string (s : String)
  | integer (n : Int)
  | float
  | boolean (b : Bool)
  | datetime
  | array (items : List Toml)
  | table (origin : Toml.Origin) (entries : List (String × Toml))
  /-- The tables under a repeated header. -/
  | tables (items : List (List (String × Toml)))
deriving Inhabited

namespace Toml

abbrev Entries := List (String × Toml)

/-! ## Tables -/

def replace (key : String) (v : Toml) : Entries → Entries
  | [] => []
  | (k, w) :: es => if k = key then (k, v) :: es else (k, w) :: replace key v es

def updateLast (f : Entries → Option Entries) : List Entries → Option (List Entries)
  | [] => none
  | [es] => (f es).map ([·])
  | es :: rest => (updateLast f rest).map (es :: ·)

/-- Puts a value under a dotted key. Tables are made on the way; a table that has a header or braces of
its own is not entered, and a value only goes into a table that dotted keys have made. -/
def insertDotted (key : String) (v : Toml) (open? : Bool) : List String → Entries → Option Entries
  | [], es => if open? && (es.lookup key).isNone then some (es ++ [(key, v)]) else none
  | k :: path, es =>
    match es.lookup k with
    | none => (insertDotted key v true path []).map fun inner => es ++ [(k, .table .dotted inner)]
    | some (.table .dotted inner) =>
      (insertDotted key v true path inner).map fun inner => replace k (.table .dotted inner) es
    | some (.table .implied inner) =>
      (insertDotted key v false path inner).map fun inner => replace k (.table .implied inner) es
    | some (.tables items) =>
      (updateLast (insertDotted key v false path) items).map fun items =>
        replace k (.tables items) es
    | some _ => none

/-- Applies `f` to the table at a path of headers; missing tables are implied. -/
def updateAt (f : Entries → Option Entries) : List String → Entries → Option Entries
  | [], es => f es
  | k :: path, es =>
    match es.lookup k with
    | none => (updateAt f path []).map fun inner => es ++ [(k, .table .implied inner)]
    | some (.table .inline _) => none
    | some (.table origin inner) =>
      (updateAt f path inner).map fun inner => replace k (.table origin inner) es
    | some (.tables items) =>
      (updateLast (updateAt f path) items).map fun items => replace k (.tables items) es
    | some _ => none

def openTable (key : String) (es : Entries) : Option Entries :=
  match es.lookup key with
  | none => some (es ++ [(key, .table .header [])])
  | some (.table .implied inner) => some (replace key (.table .header inner) es)
  | some _ => none

/-- Opens one more of the tables under a repeated header. -/
def openNext (key : String) (es : Entries) : Option Entries :=
  match es.lookup key with
  | none => some (es ++ [(key, .tables [[]])])
  | some (.tables items) => some (replace key (.tables (items ++ [[]])) es)
  | some _ => none

/-! ## Documents -/

def numeral (n : Int) : Numeral :=
  if 0 ≤ n then .natural n.toNat else .negated (-n).toNat

mutual
/-- The document tree of a value. A float is any number that is no integer, a point in time is a record
that no schema knows the fields of. -/
def toDoc : Toml → Doc
  | .string s => .text (some s)
  | .integer n => .number (numeral n)
  | .float => .number (.real false [0] [0] 0)
  | .boolean b => .bool b
  | .datetime => .record [(some "$datetime", .text (some ""))] .lenient
  | .array items => .list (itemDocs items) .lenient
  | .table _ entries => .record (entryDocs entries) .lenient
  | .tables items => .list (tableDocs items) .lenient
def itemDocs : List Toml → List Doc
  | [] => []
  | v :: vs => v.toDoc :: itemDocs vs
def entryDocs : List (String × Toml) → List (Option String × Doc)
  | [] => []
  | (key, v) :: es => (some key, v.toDoc) :: entryDocs es
def tableDocs : List (List (String × Toml)) → List Doc
  | [] => []
  | es :: rest => .record (entryDocs es) .lenient :: tableDocs rest
end

end Toml

end ActorAudit
