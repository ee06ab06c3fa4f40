import ActorAudit.Framework

/-!
# Roles of declarations

What a declared type is to the rules, and how types are named in messages.
-/

namespace ActorAudit

inductive Role where
  | actorClass
  | plainClass
  | interface
  | enumeration
  | other
deriving DecidableEq, Repr

namespace Role

def all : List Role := [actorClass, plainClass, interface, enumeration, other]

def name : Role → String
  | actorClass => "ActorClass"
  | plainClass => "Class"
  | interface => "Interface"
  | enumeration => "Enum"
  | other => "Other"

end Role

def Model.role (m : Model) (id : TypeId) (d : TypeSymbol) : Role :=
  match d.kind with
  | .enumType => .enumeration
  | .interfaceType => .interface
  | .classType => if m.isActor id then .actorClass else .plainClass
  | _ => .other

namespace Graph

/-- Follows at most a number of array types to their elements; gives the last type and the brackets of
the arrays on the way. -/
def elementWithin (g : Graph) : Nat → TypeId → TypeId × String
  | 0, id => (id, "")
  | steps + 1, id =>
    match g.get? id with
    | some d =>
      match d.kind, d.elementType with
      | .arrayType, some element =>
        let (last, brackets) := g.elementWithin steps element
        (last, "[]" ++ brackets)
      | _, _ => (id, "")
    | none => (id, "")

/-- The name of a type in messages: an array is the name of its element with brackets. -/
def shownName (g : Graph) (id : TypeId) : String :=
  let (last, brackets) := g.elementWithin (g.size + 1) id
  g.nameAt last ++ brackets

end Graph

end ActorAudit
