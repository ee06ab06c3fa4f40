import ActorAudit.Document.Numeral

/-!
# Document trees

A document as far as it could be read. A text that breaks off or breaks a rule of its format still
has a tree up to that point, so a reader that walks the tree in document order meets whichever comes
first: a value of the wrong shape or the fault in the text.
-/

namespace ActorAudit

inductive Ending where
  /-- The closing bracket was read, and nothing may be left over. -/
  | closed
  /-- The text breaks off here. -/
  | cut
  /-- The end was read, and items left over do not matter. -/
  | lenient
deriving DecidableEq, Repr

inductive Doc where
  | null
  | bool (b : Bool)
  | number (n : Numeral)
  /-- A text; `none` when its escapes name no characters. -/
  | text (s : Option String)
  | list (items : List Doc) (ending : Ending)
  | record (entries : List (Option String × Doc)) (ending : Ending)
  /-- No value could be read here. -/
  | broken
deriving Inhabited

namespace Doc

mutual
def isIntact : Doc → Bool
  | .list items ending => ending != .cut && areIntact items
  | .record entries ending => ending != .cut && entriesIntact entries
  | .broken => false
  | _ => true
def areIntact : List Doc → Bool
  | [] => true
  | d :: ds => d.isIntact && areIntact ds
def entriesIntact : List (Option String × Doc) → Bool
  | [] => true
  | (_, d) :: es => d.isIntact && entriesIntact es
end

def get? (key : String) : Doc → Option Doc
  | .record entries _ => entries.lookup (some key)
  | _ => none

end Doc

end ActorAudit
