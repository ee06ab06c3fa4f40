import ActorAudit.Role
import ActorAudit.Severity

/-!
# Rules

The ten rules, what they are called, which declarations they look at, and the presets.
-/

namespace ActorAudit

inductive RuleId where
  /-- A contract interface extends the marker interface. -/
  | interfaceMarker
  /-- The values of an enumeration say how they are written. -/
  | enumMember
  /-- The properties of an actor have fixed names on the wire. -/
  | wireName
  /-- The objects in a signature are annotated for serialization. -/
  | complexType
  /-- Every parameter has an annotated type. -/
  | parameterType
  /-- Every result has an annotated type. -/
  | resultType
  /-- Every collection has annotated elements. -/
  | elementType
  /-- The records in a signature have a contract, and so have their properties. -/
  | recordContract
  /-- An actor has a contract. -/
  | actorContract
  /-- The objects in a signature can be created when they are read. -/
  | construction
deriving DecidableEq, Repr

namespace RuleId

def all : List RuleId :=
  [interfaceMarker, enumMember, wireName, complexType, parameterType, resultType, elementType,
    recordContract, actorContract, construction]

def code : RuleId → String
  | interfaceMarker => "DAPR1405"
  | enumMember => "DAPR1406"
  | wireName => "DAPR1407"
  | complexType => "DAPR1408"
  | parameterType => "DAPR1409"
  | resultType => "DAPR1410"
  | elementType => "DAPR1411"
  | recordContract => "DAPR1412"
  | actorContract => "DAPR1413"
  | construction => "DAPR1414"

def name : RuleId → String
  | interfaceMarker => "interface-missing-capability"
  | enumMember => "enum-member-missing-marker"
  | wireName => "property-wire-name"
  | complexType => "complex-type-needs-attributes"
  | parameterType => "parameter-needs-validation"
  | resultType => "return-needs-validation"
  | elementType => "collection-element-needs-validation"
  | recordContract => "record-needs-contract"
  | actorContract => "actor-missing-capability"
  | construction => "type-missing-ctor-or-contract"

def description : RuleId → String
  | interfaceMarker => "Actor contract interfaces must inherit from IActor"
  | enumMember => "Enum members must be decorated with [EnumMember]"
  | wireName => "Actor class properties should pin their JSON name with [JsonPropertyName]"
  | complexType => "Complex types used in actor methods must carry [DataContract]/[DataMember]"
  | parameterType => "Actor method parameters must use types with serialization attributes"
  | resultType => "Actor method return types must use types with serialization attributes"
  | elementType => "Collection element types in actor methods must have serialization attributes"
  | recordContract => "Records used in actor methods must carry [DataContract] and [DataMember]"
  | actorContract => "Actor classes must implement an interface that inherits from IActor"
  | construction =>
    "Types used in actor methods need a public parameterless constructor or [DataContract]"

def template : RuleId → String
  | interfaceMarker => "Interface '\x7b0\x7d' used by Actor class should inherit from IActor"
  | enumMember =>
    "Enum member '\x7b0\x7d' in enum '\x7b1\x7d' should be decorated with [EnumMember] attribute " ++
      "for proper serialization"
  | wireName =>
    "Property '\x7b0\x7d' in Actor class '\x7b1\x7d' should consider using [JsonPropertyName] " ++
      "attribute for consistent naming"
  | complexType =>
    "Type '\x7b0\x7d' used in Actor method should be decorated with [DataContract] and have " ++
      "[DataMember] on serializable properties"
  | parameterType =>
    "Parameter '\x7b0\x7d' of type '\x7b1\x7d' in method '\x7b2\x7d' should have proper " ++
      "serialization attributes"
  | resultType =>
    "Return type '\x7b0\x7d' in method '\x7b1\x7d' should have proper serialization attributes"
  | elementType =>
    "Collection type '\x7b0\x7d' in Actor method contains elements of type '\x7b1\x7d' which " ++
      "needs proper serialization attributes"
  | recordContract =>
    "Record '\x7b0\x7d' should be decorated with [DataContract] and have [DataMember] attributes " ++
      "on properties for proper Actor serialization"
  | actorContract =>
    "Actor class '\x7b0\x7d' should implement an interface that inherits from IActor"
  | construction =>
    "Type '\x7b0\x7d' must either have a public parameterless constructor or be decorated with " ++
      "[DataContract] attribute for proper serialization"

def defaultSeverity : RuleId → Severity
  | interfaceMarker | actorContract | construction => .error
  | wireName => .info
  | enumMember | complexType | parameterType | resultType | elementType | recordContract => .warning

/-- The roles of the declarations that the rule looks at. -/
def appliesTo : RuleId → Role → Bool
  | interfaceMarker, role => role = .interface || role = .actorClass
  | enumMember, role => role = .enumeration
  | _, role => role = .actorClass

def ofCode? (code : String) : Option RuleId := all.find? fun r => r.code = code

/-- Whether a text mentions the rule: its exact name, or its code in any case. -/
def isNamed (r : RuleId) (text : String) : Bool :=
  r.name = text || r.code.map Char.toLower = text.map Char.toLower

end RuleId

structure Rule where
  id : RuleId
  severity : Severity
deriving DecidableEq, Repr

namespace Rule

def standard (id : RuleId) : Rule := ⟨id, id.defaultSeverity⟩

def all : List Rule := RuleId.all.map standard

end Rule

inductive Preset where
  | recommended
  | strict
  | minimal
deriving DecidableEq, Repr

namespace Preset

def rules : Preset → List Rule
  | recommended => Rule.all
  | strict =>
    [.standard .interfaceMarker, ⟨.enumMember, .error⟩, .standard .wireName, ⟨.complexType, .error⟩,
      ⟨.parameterType, .error⟩, ⟨.resultType, .error⟩, ⟨.elementType, .error⟩, ⟨.recordContract, .error⟩,
      .standard .actorContract, .standard .construction]
  | minimal =>
    [RuleId.interfaceMarker, .actorContract, .construction].map Rule.standard

def name : Preset → String
  | recommended => "Recommended"
  | strict => "Strict"
  | minimal => "Minimal"

/-- The preset with a name, whatever the case of its ASCII letters; a name that is none is given back
in lower case. -/
def ofName (s : String) : Except String Preset :=
  match s.map Char.toLower with
  | "recommended" => .ok recommended
  | "strict" => .ok strict
  | "minimal" => .ok minimal
  | other => .error other

def unknownMessage (name : String) : String :=
  s!"unknown preset `{name}` (expected recommended, strict or minimal)"

end Preset

end ActorAudit
