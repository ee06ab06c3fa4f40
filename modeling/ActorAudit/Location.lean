import ActorAudit.Text.Split

/-!
# Source locations

A location is a file, a line and a column. Files are compared as paths, component by component:
repeated slashes and inner dots do not count, `..` is not resolved. Two texts of one path are the
same file, though they are shown as they were written.
-/

namespace ActorAudit

namespace Path

inductive Component where
  | root
  | current
  | parent
  | normal (name : String)
deriving DecidableEq, Repr

namespace Component

def rank : Component → Nat
  | root => 0
  | current => 1
  | parent => 2
  | normal _ => 3

def name : Component → String
  | normal name => name
  | _ => ""

/-- The root comes first, then `.`, then `..`, then names in the order of their characters. -/
instance : Ord Component := ⟨compareLex (compareOn rank) (compareOn name)⟩

end Component

def component? (piece : List Char) : Option Component :=
  match piece with
  | [] => none
  | ['.'] => none
  | ['.', '.'] => some .parent
  | _ => some (.normal (String.ofList piece))

/-- The components of a path. A leading slash is the root; a leading dot is kept. -/
def components (file : String) : List Component :=
  match Text.splitAtChar '/' file.toList with
  | [] => []
  | first :: rest =>
    let head : List Component :=
      match first with
      | [] => if rest.isEmpty then [] else [.root]
      | ['.'] => [.current]
      | piece => (component? piece).toList
    head ++ rest.filterMap component?

end Path

structure Location where
  file : String
  line : UInt64
  column : UInt64
deriving DecidableEq, Repr

namespace Location

/-- Orders by file, line and column. -/
instance : Ord Location :=
  ⟨compareLex (compareOn fun l => Path.components l.file)
    (compareLex (compareOn Location.line) (compareOn Location.column))⟩

def same (a b : Location) : Bool :=
  Path.components a.file == Path.components b.file && a.line == b.line && a.column == b.column

def text (l : Location) : String := s!"{l.file}:{l.line}:{l.column}"

end Location

end ActorAudit
