import ActorAudit.Symbol.Basic

/-!
# Attribute concepts

What an attribute says about serialization, whichever of its names is used.
-/

namespace ActorAudit

inductive Concept where
  | dataContract
  | serializationContract
  | dataMember
  | enumMember
  | wireName
deriving DecidableEq, Repr

namespace Concept

def all : List Concept := [dataContract, serializationContract, dataMember, enumMember, wireName]

def name : Concept → String
  | dataContract => "DataContract"
  | serializationContract => "SerializationContract"
  | dataMember => "DataMember"
  | enumMember => "EnumMember"
  | wireName => "WireName"

/-- The names an attribute of the concept goes by. -/
def spellings : Concept → List String
  | dataContract =>
    ["DataContract", "DataContractAttribute",
      "System.Runtime.Serialization.DataContractAttribute"]
  | serializationContract =>
    ["DataContract", "DataContractAttribute",
      "System.Runtime.Serialization.DataContractAttribute",
      "Serializable", "SerializableAttribute", "System.SerializableAttribute",
      "JsonObject", "JsonObjectAttribute", "Newtonsoft.Json.JsonObjectAttribute"]
  | dataMember =>
    ["DataMember", "DataMemberAttribute", "System.Runtime.Serialization.DataMemberAttribute"]
  | enumMember =>
    ["EnumMember", "EnumMemberAttribute", "System.Runtime.Serialization.EnumMemberAttribute"]
  | wireName =>
    ["JsonPropertyName", "JsonPropertyNameAttribute",
      "System.Text.Json.Serialization.JsonPropertyNameAttribute"]

def isMatch (c : Concept) (a : Attribute) : Bool :=
  c.spellings.contains a.name || a.fullName.any c.spellings.contains

def isIn (c : Concept) (attributes : List Attribute) : Bool := attributes.any c.isMatch

end Concept

end ActorAudit
