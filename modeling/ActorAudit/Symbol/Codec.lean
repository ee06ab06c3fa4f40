import ActorAudit.Report.Codec
import ActorAudit.Symbol.Graph

/-!
# Symbol graphs as JSON

The JSON form of a symbol graph, and the schemas that read it back. Absent options and empty lists are
left out; an empty list of flattened interfaces is kept, since it says something that its absence
does not.
-/

namespace ActorAudit

open FieldSpec (required optional)

namespace TypeId

def decode (d : Doc) : Except DecodeError TypeId := (Decode.word32 d).map TypeId.mk

def toJson (id : TypeId) : Json := .ofNat id.toNat

end TypeId

namespace TypeKind

def variants : List (String × TypeKind) :=
  [("class", classType), ("struct", structType), ("interface", interfaceType), ("enum", enumType),
    ("record", recordType), ("array", arrayType), ("void", voidType),
    ("type_parameter", typeParameter), ("other", other)]

def name : TypeKind → String
  | classType => "class"
  | structType => "struct"
  | interfaceType => "interface"
  | enumType => "enum"
  | recordType => "record"
  | arrayType => "array"
  | voidType => "void"
  | typeParameter => "type_parameter"
  | other => "other"

def decode : Decoder TypeKind := Decode.choice variants

end TypeKind

namespace Accessibility

def variants : List (String × Accessibility) :=
  [("public", publicAccess), ("internal", internalAccess), ("protected", protectedAccess),
    ("protected_internal", protectedInternal), ("private_protected", privateProtected),
    ("private", privateAccess)]

def name : Accessibility → String
  | publicAccess => "public"
  | internalAccess => "internal"
  | protectedAccess => "protected"
  | protectedInternal => "protected_internal"
  | privateProtected => "private_protected"
  | privateAccess => "private"

def decode : Decoder Accessibility := Decode.choice variants

end Accessibility

namespace MemberKind

def variants : List (String × MemberKind) :=
  [("property", property), ("field", field), ("enum_value", enumValue)]

def name : MemberKind → String
  | property => "property"
  | field => "field"
  | enumValue => "enum_value"

def decode : Decoder MemberKind := Decode.choice variants

end MemberKind

namespace Attribute

def schema : Schema Attribute where
  name := "AttributeRef"
  blank := ⟨"", none⟩
  fields := [
    required "name" Decode.string fun v a => { a with name := v },
    optional "full_name" (Decode.option Decode.string) fun v a => { a with fullName := v }]

def decode : Decoder Attribute := schema.decode

def toJson (a : Attribute) : Json :=
  .object ([("name", .string a.name)] ++ Json.optionalField "full_name" .string a.fullName)

end Attribute

namespace Constructor

def schema : Schema Constructor where
  name := "ConstructorRef"
  blank := ⟨.publicAccess, 0⟩
  fields := [
    optional "accessibility" Accessibility.decode fun v c => { c with accessibility := v },
    optional "parameter_count" Decode.word64 fun v c => { c with parameterCount := v }]

def decode : Decoder Constructor := schema.decode

def toJson (c : Constructor) : Json :=
  .object [
    ("accessibility", .string c.accessibility.name),
    ("parameter_count", .ofNat c.parameterCount.toNat)]

end Constructor

namespace Member

def schema : Schema Member where
  name := "MemberRef"
  blank := { name := "" }
  fields := [
    required "name" Decode.string fun v m => { m with name := v },
    optional "kind" MemberKind.decode fun v m => { m with kind := v },
    optional "accessibility" Accessibility.decode fun v m => { m with accessibility := v },
    optional "declared_type" (Decode.option TypeId.decode) fun v m => { m with declaredType := v },
    optional "attributes" (Decode.list Attribute.decode) fun v m => { m with attributes := v },
    optional "location" (Decode.option Location.decode) fun v m => { m with location := v }]

def decode : Decoder Member := schema.decode

def toJson (m : Member) : Json :=
  .object (
    [("name", .string m.name),
      ("kind", .string m.kind.name),
      ("accessibility", .string m.accessibility.name)] ++
    Json.optionalField "declared_type" TypeId.toJson m.declaredType ++
    Json.listField "attributes" Attribute.toJson m.attributes ++
    Json.optionalField "location" Location.toJson m.location)

end Member

namespace Parameter

def schema : Schema Parameter where
  name := "ParameterRef"
  blank := ⟨"", ⟨0⟩, none⟩
  fields := [
    required "name" Decode.string fun v p => { p with name := v },
    required "type" TypeId.decode fun v p => { p with type := v },
    optional "location" (Decode.option Location.decode) fun v p => { p with location := v }]

def decode : Decoder Parameter := schema.decode

def toJson (p : Parameter) : Json :=
  .object (
    [("name", .string p.name), ("type", p.type.toJson)] ++
    Json.optionalField "location" Location.toJson p.location)

end Parameter

namespace Method

def schema : Schema Method where
  name := "MethodRef"
  blank := { name := "" }
  fields := [
    required "name" Decode.string fun v m => { m with name := v },
    optional "parameters" (Decode.list Parameter.decode) fun v m => { m with parameters := v },
    optional "return_type" (Decode.option TypeId.decode) fun v m => { m with returnType := v },
    optional "defining_interface" (Decode.option TypeId.decode) fun v m =>
      { m with definingInterface := v },
    optional "location" (Decode.option Location.decode) fun v m => { m with location := v }]

def decode : Decoder Method := schema.decode

def toJson (m : Method) : Json :=
  .object (
    [("name", .string m.name), ("parameters", .array (m.parameters.map Parameter.toJson))] ++
    Json.optionalField "return_type" TypeId.toJson m.returnType ++
    Json.optionalField "defining_interface" TypeId.toJson m.definingInterface ++
    Json.optionalField "location" Location.toJson m.location)

end Method

namespace TypeSymbol

def schema : Schema TypeSymbol where
  name := "TypeDef"
  blank := { name := "", kind := .other }
  fields := [
    required "name" Decode.string fun v d => { d with name := v },
    optional "namespace" (Decode.option Decode.string) fun v d => { d with inNamespace := v },
    required "kind" TypeKind.decode fun v d => { d with kind := v },
    optional "attributes" (Decode.list Attribute.decode) fun v d => { d with attributes := v },
    optional "base_type" (Decode.option TypeId.decode) fun v d => { d with baseType := v },
    optional "interfaces" (Decode.list TypeId.decode) fun v d => { d with interfaces := v },
    optional "all_interfaces" (Decode.option (Decode.list TypeId.decode)) fun v d =>
      { d with flattened := v },
    optional "constructors" (Decode.list Constructor.decode) fun v d =>
      { d with constructors := v },
    optional "members" (Decode.list Member.decode) fun v d => { d with members := v },
    optional "methods" (Decode.list Method.decode) fun v d => { d with methods := v },
    optional "type_arguments" (Decode.list TypeId.decode) fun v d => { d with typeArguments := v },
    optional "element_type" (Decode.option TypeId.decode) fun v d => { d with elementType := v },
    optional "location" (Decode.option Location.decode) fun v d => { d with location := v },
    optional "is_generated" Decode.bool fun v d => { d with isGenerated := v }]

def decode : Decoder TypeSymbol := schema.decode

def toJson (d : TypeSymbol) : Json :=
  .object (
    [("name", .string d.name)] ++
    Json.optionalField "namespace" .string d.inNamespace ++
    [("kind", .string d.kind.name)] ++
    Json.listField "attributes" Attribute.toJson d.attributes ++
    Json.optionalField "base_type" TypeId.toJson d.baseType ++
    Json.listField "interfaces" TypeId.toJson d.interfaces ++
    Json.optionalField "all_interfaces" (fun ids => .array (ids.map TypeId.toJson))
      d.flattened ++
    Json.listField "constructors" Constructor.toJson d.constructors ++
    Json.listField "members" Member.toJson d.members ++
    Json.listField "methods" Method.toJson d.methods ++
    Json.listField "type_arguments" TypeId.toJson d.typeArguments ++
    Json.optionalField "element_type" TypeId.toJson d.elementType ++
    Json.optionalField "location" Location.toJson d.location ++
    [("is_generated", .bool d.isGenerated)])

end TypeSymbol

namespace Graph

def schema : Schema Graph where
  name := "SymbolGraph"
  blank := {}
  fields := [
    optional "types" (Decode.list TypeSymbol.decode) fun v g => { g with types := v.toArray },
    optional "declarations" (Decode.list TypeId.decode) fun v g => { g with declarations := v }]

def decode : Decoder Graph := schema.decode

def toJson (g : Graph) : Json :=
  .object [
    ("types", .array (g.types.toList.map TypeSymbol.toJson)),
    ("declarations", .array (g.declarations.map TypeId.toJson))]

end Graph

end ActorAudit
