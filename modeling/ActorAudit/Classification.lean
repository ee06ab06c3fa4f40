import ActorAudit.Inheritance

/-!
# Classification

What a type is on the wire: a scalar, a collection, an asynchronous wrapper, or an object that needs a
contract. `awaited` strips wrappers.
-/

namespace ActorAudit

namespace Classification

def name : Classification → String
  | primitive => "Primitive"
  | enumeration => "Enum"
  | collection _ => "Collection"
  | asyncWrapper _ => "AsyncWrapper"
  | record => "Record"
  | complexObject => "ComplexObject"
  | interface => "Interface"
  | unknown => "Unknown"

def inner? : Classification → Option TypeId
  | collection element => some element
  | asyncWrapper inner => some inner
  | _ => none

def element? : Classification → Option TypeId
  | collection element => some element
  | _ => none

def wantsContract : Classification → Bool
  | record | complexObject => true
  | _ => false

end Classification

namespace TypeSymbol

def systemScalars : List String :=
  ["Byte", "SByte", "Int16", "Int32", "Int64", "UInt16", "UInt32", "UInt64", "Single", "Double",
    "Decimal", "Boolean", "Char", "Object", "String", "DateTime", "TimeSpan", "Guid", "Uri", "Void"]

def scalarKeywords : List String :=
  ["byte", "sbyte", "short", "int", "long", "ushort", "uint", "ulong", "float", "double", "decimal",
    "bool", "char", "object", "string", "void"]

def collectionNames : List String :=
  ["IEnumerable", "ICollection", "IList", "IDictionary", "List", "Array", "Dictionary", "HashSet",
    "Queue", "Stack"]

/-- Whether the type is a known scalar, by namespace and name. -/
def isScalar (d : TypeSymbol) : Bool :=
  match d.inNamespace with
  | none | some "" => scalarKeywords.contains d.name
  | some "System" => systemScalars.contains d.name
  | some "System.Xml" => d.name = "XmlQualifiedName"
  | some _ => false

def hasCollectionName (d : TypeSymbol) : Bool := collectionNames.contains d.name

def mayBeCollection (d : TypeSymbol) : Bool :=
  match d.kind with
  | .classType | .structType | .interfaceType | .recordType => true
  | _ => false

def plainClassification (d : TypeSymbol) : Classification :=
  match d.kind with
  | .recordType => .record
  | .classType | .structType => .complexObject
  | .interfaceType => .interface
  | _ => .unknown

end TypeSymbol

namespace Model

/-- Whether a type is a collection by its own name or by that of an interface it has. -/
def isCollection (m : Model) (id : TypeId) (d : TypeSymbol) : Query Bool := do
  if !d.mayBeCollection then return false
  if d.hasCollectionName then return true
  let all ← m.graph.interfacesOf id
  return all.any fun i => (m.graph.get? i).any TypeSymbol.hasCollectionName

def ofElement : Option TypeId → Classification
  | some element => .collection element
  | none => .unknown

def computeClass (m : Model) (id : TypeId) : Query Classification :=
  match m.graph.get? id with
  | none => pure .unknown
  | some d =>
    if d.kind = .enumType then pure .enumeration
    else if d.kind = .voidType || d.isScalar then pure .primitive
    else if d.is m.framework.asyncWrapper then
      match d.typeArguments with
      | [] => pure .primitive
      | [inner] => pure (.asyncWrapper inner)
      | _ => pure .unknown
    else if d.kind = .arrayType then pure (ofElement d.elementType)
    else do
      if ← m.isCollection id d then return ofElement d.typeArguments.head?
      return d.plainClassification

def classify (m : Model) (id : TypeId) : Query Classification := do
  match (← get).class? id with
  | some c => return c
  | none =>
    let c ← m.computeClass id
    modify (·.recordClass id c)
    return c

/-- Strips at most a number of asynchronous wrappers. -/
def awaitedWithin (m : Model) : Nat → TypeId → Query TypeId
  | 0, id => pure id
  | steps + 1, id => do
    match ← m.classify id with
    | .asyncWrapper inner => m.awaitedWithin steps inner
    | _ => return id

/-- The first type under the asynchronous wrappers of a type. A chain of wrappers that does not repeat
itself is no longer than the graph, so one step more than the graph has types is enough. -/
def awaited (m : Model) (id : TypeId) : Query TypeId :=
  m.awaitedWithin (m.graph.size + 1) id

end Model

end ActorAudit
