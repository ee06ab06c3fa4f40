import ActorAudit.Rule.Basic
import ActorAudit.Surface
import ActorAudit.Symbol.Concept
import ActorAudit.Template
import ActorAudit.Text.Lowercase
import ActorAudit.Violation

/-!
# Findings

What a rule finds about a declaration. A finding needs a place in the source; where the place is not
known there is no finding.
-/

namespace ActorAudit

/-- What a rule may look at. The surface is that of an actor class, and empty for any other
declaration. -/
structure Scope where
  model : Model
  id : TypeId
  definition : TypeSymbol
  role : Role
  surface : Surface
  /-- The declarations that are checked in the same pass. -/
  checked : List TypeId

/-- A finding before it has a severity. -/
structure Finding where
  location : Location
  /-- The names for the slots of the message. -/
  arguments : List String
  suggestion : String
  labels : List Label := []
deriving DecidableEq, Repr

namespace Finding

def place (location : Option Location) (arguments : List String) (suggestion : String)
    (labels : List Label) : List Finding :=
  location.toList.map fun l => ⟨l, arguments, suggestion, labels⟩

def toViolation (rule : RuleId) (severity : Severity) (f : Finding) : Violation where
  code := rule.code
  rule := rule.name
  severity := severity
  location := f.location
  message := Template.fill rule.template f.arguments
  suggestion := some f.suggestion
  labels := f.labels

end Finding

/-- A label at the use that brought a type onto the surface. -/
def Exposure.label (u : Exposure) : List Label :=
  u.location.toList.map fun l => ⟨l, s!"used by '{u.method}'"⟩

namespace TypeSymbol

def isDataContract (d : TypeSymbol) : Bool := Concept.dataContract.isIn d.attributes

def isSerializable (d : TypeSymbol) : Bool := Concept.serializationContract.isIn d.attributes

/-- Whether an object of the type can be created without arguments. A class without constructors has
one of its own. -/
def isConstructible (d : TypeSymbol) : Bool :=
  if d.constructors.isEmpty then d.kind = .classType
  else d.constructors.any Constructor.isDefault

end TypeSymbol

namespace Model

/-- Whether an interface is a contract by its name but does not derive from the marker interface. -/
def isUnmarkedContract (m : Model) (id : TypeId) : Query Bool :=
  match m.graph.get? id with
  | none => pure false
  | some d =>
    if d.kind = .interfaceType && m.framework.contractSuffix.toList.isSuffixOf d.name.toList &&
        !m.isMarker id then do
      let derived ← m.isMarked id
      return !derived
    else pure false

def uncontracted? (m : Model) (id : TypeId) : Option TypeSymbol :=
  (m.graph.get? id).filter fun d => !d.isSerializable

end Model

namespace RuleId

/-! ## Rules that look at the declaration itself -/

def markerAdvice (scope : Scope) (interface : String) : String :=
  s!"Make '{interface}' extend {scope.model.framework.marker.text}"

/-- An unmarked contract is reported where it is declared; on the class that implements it when it is
not itself checked. -/
def interfaceMarkerFindings (scope : Scope) : Query (List Finding) := do
  let d := scope.definition
  if scope.role = .interface then
    if ← scope.model.isUnmarkedContract scope.id then
      return Finding.place d.location [d.name] (markerAdvice scope d.name) []
    return []
  let unmarked ← Query.filter scope.model.isUnmarkedContract
    (d.interfaces.filter fun i => !scope.checked.contains i)
  return unmarked.flatMap fun i =>
    match scope.model.graph.get? i with
    | none => []
    | some e =>
      Finding.place d.location [e.name] (markerAdvice scope e.name)
        (e.location.toList.map fun l => ⟨l, "declared here"⟩)

def enumMemberFindings (scope : Scope) : List Finding :=
  let d := scope.definition
  (d.enumValues.filter fun v => !Concept.enumMember.isIn v.attributes).flatMap fun v =>
    Finding.place v.location [v.name, d.name]
      ("Add [EnumMember(Value = \"" ++ v.name ++ "\")] to '" ++ v.name ++ "'") []

def wireNameFindings (scope : Scope) : List Finding :=
  let d := scope.definition
  (d.properties.filter fun p => !Concept.wireName.isIn p.attributes).flatMap fun p =>
    Finding.place p.location [p.name, d.name]
      ("Add [JsonPropertyName(\"" ++ Text.uncapitalize p.name ++ "\")]") []

def actorContractFindings (scope : Scope) : Query (List Finding) := do
  let all ← scope.model.graph.interfacesOf scope.id
  if ← Query.any scope.model.isMarked all then return []
  let d := scope.definition
  return Finding.place d.location [d.name]
    s!"Declare 'I{d.name}' extending {scope.model.framework.marker.text} and implement it" []

/-! ## Rules that look at the surface -/

/-- The uses that are the first of their type among those of a classification. -/
def firstUses (c : Classification) (seen : List TypeId) : Surface → Surface
  | [] => []
  | u :: us =>
    if u.classification = c ∧ u.type ∉ seen then u :: firstUses c (u.type :: seen) us
    else firstUses c seen us

/-- The uncontracted objects of a surface, each with its first use. -/
def uncontractedObjects (scope : Scope) : List (TypeSymbol × Exposure) :=
  (firstUses .complexObject [] scope.surface).filterMap fun u =>
    (scope.model.uncontracted? u.type).map fun d => (d, u)

def complexTypeFindings (scope : Scope) : List Finding :=
  (uncontractedObjects scope).flatMap fun (d, u) =>
    Finding.place d.location [d.name]
      s!"Add [DataContract] to '{d.name}' and [DataMember] to each serialized property" u.label

def isUncontractedObject (scope : Scope) (id : TypeId) (c : Classification) : Bool :=
  c = .complexObject && (scope.model.uncontracted? id).isSome

def contractAdvice (name : String) : String := s!"Add [DataContract] to '{name}'"

def parameterTypeFindings (scope : Scope) : List Finding :=
  scope.surface.flatMap fun u =>
    match u.site with
    | .result => []
    | .parameter name =>
      if isUncontractedObject scope u.type u.classification then
        let type := scope.model.graph.shownName u.type
        Finding.place u.location [name, type, u.method] (contractAdvice type) []
      else []

def resultTypeFindings (scope : Scope) : List Finding :=
  scope.surface.flatMap fun u =>
    match u.site with
    | .parameter _ => []
    | .result =>
      if isUncontractedObject scope u.type u.classification then
        let type := scope.model.graph.shownName u.type
        Finding.place u.location [type, u.method] (contractAdvice type) []
      else []

def elementTypeFindings (scope : Scope) : List Finding :=
  scope.surface.flatMap fun u =>
    match u.element with
    | none => []
    | some (element, c) =>
      if isUncontractedObject scope element c then
        let name := scope.model.graph.shownName element
        Finding.place u.location [scope.model.graph.shownName u.type, name] (contractAdvice name) []
      else []

/-- The findings about the properties of a record, labelled with a use that reaches it. -/
def recordMemberFindings (d : TypeSymbol) (u : Exposure) : List Finding :=
  (d.publicProperties.filter fun p => !Concept.dataMember.isIn p.attributes).flatMap fun p =>
    Finding.place p.location [d.name] s!"Add [DataMember] to '{d.name}.{p.name}'" u.label

def recordUseFindings (d : TypeSymbol) (u : Exposure) : List Finding :=
  if d.isDataContract then []
  else Finding.place u.location [d.name] s!"Add [DataContract] to record '{d.name}'" []

/-- A record is reported at every use that reaches it, and its properties with the first. -/
def recordFindingsFrom (scope : Scope) (seen : List TypeId) :
    List (TypeId × Classification × Exposure) → List Finding
  | [] => []
  | (id, c, u) :: rest =>
    match c, scope.model.graph.get? id with
    | .record, some d =>
      recordUseFindings d u ++
        (if id ∈ seen then recordFindingsFrom scope seen rest
        else recordMemberFindings d u ++ recordFindingsFrom scope (id :: seen) rest)
    | _, _ => recordFindingsFrom scope seen rest

def recordContractFindings (scope : Scope) : List Finding :=
  recordFindingsFrom scope [] (Surface.reached scope.surface)

def constructionFindings (scope : Scope) : List Finding :=
  (Surface.reached scope.surface).flatMap fun (id, c, u) =>
    match c, scope.model.graph.get? id with
    | .complexObject, some d =>
      if d.isDataContract || d.isConstructible then []
      else
        Finding.place u.location [d.name]
          s!"Add a public parameterless constructor or [DataContract] to '{d.name}'" []
    | _, _ => []

/-! ## All rules -/

def findings (scope : Scope) : RuleId → Query (List Finding)
  | interfaceMarker => interfaceMarkerFindings scope
  | enumMember => pure (enumMemberFindings scope)
  | wireName => pure (wireNameFindings scope)
  | complexType => pure (complexTypeFindings scope)
  | parameterType => pure (parameterTypeFindings scope)
  | resultType => pure (resultTypeFindings scope)
  | elementType => pure (elementTypeFindings scope)
  | recordContract => pure (recordContractFindings scope)
  | actorContract => actorContractFindings scope
  | construction => pure (constructionFindings scope)

/-- What a rule has to remark on besides its findings: objects it would report if it knew where they
are declared. -/
def remarks (scope : Scope) : RuleId → List String
  | complexType =>
    (uncontractedObjects scope).filterMap fun (d, _) =>
      if d.location.isNone then some s!"No declaration site for '{d.name}'; finding suppressed"
      else none
  | _ => []

end RuleId

end ActorAudit
