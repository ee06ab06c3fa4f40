import ActorAudit.Classification

/-!
# The surface of an actor

The types that callers of an actor class can see: the parameters and results of the methods that
implement its contracts. A contract is an interface of the class that derives from the marker
interface. A method that implements several contracts is on the surface once.
-/

namespace ActorAudit

/-- Where in a signature a type stands. -/
inductive Site where
  | result
  | parameter (name : String)
deriving DecidableEq, Repr

def Site.isParameter : Site → Bool
  | .parameter _ => true
  | .result => false

def Site.parameterName? : Site → Option String
  | .parameter name => some name
  | .result => none

/-- A type in the signature of a method. -/
structure Exposure where
  /-- The contract through which the method was found. -/
  interface : TypeId
  method : String
  site : Site
  declared : TypeId
  /-- The declared type without asynchronous wrappers. -/
  type : TypeId
  classification : Classification
  /-- The element type of a collection. -/
  element : Option (TypeId × Classification)
  location : Option Location
deriving DecidableEq, Repr

/-- The unwrapped type, then the element type of a collection. -/
def Exposure.reached (u : Exposure) : List (TypeId × Classification) :=
  (u.type, u.classification) :: u.element.toList

abbrev Surface := List Exposure

/-- Every type that an exposure reaches, together with the exposure. -/
def Surface.reached (s : Surface) : List (TypeId × Classification × Exposure) :=
  s.flatMap fun u => u.reached.map fun (id, c) => (id, c, u)

/-- A type in a signature before it is unwrapped. -/
structure Occurrence where
  interface : TypeId
  method : String
  site : Site
  declared : TypeId
  location : Option Location
deriving DecidableEq, Repr

namespace Graph

/-- Keeps the first of the entries for one method. -/
def firstPerSlot : List (TypeId × Implementation) → List (TypeId × Implementation)
  | [] => []
  | (interface, c) :: rest =>
    (interface, c) :: (firstPerSlot rest).filter fun (_, other) => !c.sameSlot other

/-- The methods that implement a contract of a class, each with the contract, in the order of the
contracts and of their methods. -/
def contractMethods (g : Graph) (cls : TypeId) (contracts : List TypeId) :
    List (TypeId × Implementation) :=
  contracts.flatMap fun interface =>
    match g.get? interface with
    | none => []
    | some d =>
      d.methods.filterMap fun m =>
        (g.implementationOf cls interface m).map fun c => (interface, c)

/-- Whether a result of the type is a value; a type that points nowhere is taken for one. -/
def isValueType (g : Graph) (id : TypeId) : Bool :=
  match g.get? id with
  | some d => d.kind ≠ .voidType
  | none => true

/-- The result of a method, if it has one, and its parameters. -/
def occurrences (g : Graph) (interface : TypeId) (m : Method) : List Occurrence :=
  ((m.returnType.filter g.isValueType).toList.map fun t =>
    ⟨interface, m.name, .result, t, m.location⟩) ++
  m.parameters.map fun p => ⟨interface, m.name, .parameter p.name, p.type, p.location⟩

end Graph

namespace Model

def contracts (m : Model) (cls : TypeId) : Query (List TypeId) := do
  let all ← m.graph.interfacesOf cls
  Query.filter m.isMarked all

def exposureOf (m : Model) (o : Occurrence) : Query Exposure := do
  let type ← m.awaited o.declared
  let c ← m.classify type
  let element ← match c.element? with
    | some e => do
      let ec ← m.classify e
      pure (some (e, ec))
    | none => pure none
  return ⟨o.interface, o.method, o.site, o.declared, type, c, element, o.location⟩

def surfaceOccurrences (m : Model) (cls : TypeId) (contracts : List TypeId) : List Occurrence :=
  (Graph.firstPerSlot (m.graph.contractMethods cls contracts)).flatMap fun (interface, c) =>
    m.graph.occurrences interface c.method

def surface (m : Model) (cls : TypeId) : Query Surface := do
  let contracts ← m.contracts cls
  Query.each m.exposureOf (m.surfaceOccurrences cls contracts)

end Model

end ActorAudit
