import ActorAudit.Location

/-!
# Symbols

The declarations of a code base as a compiler front end reports them. Types refer to one another by
`TypeId`, an index into the graph that holds them; an id may point nowhere.
-/

namespace ActorAudit

structure TypeId where
  index : UInt32
deriving DecidableEq, Hashable, Repr

namespace TypeId

/-- The id of a position, the last id for a position that has none of its own. -/
def ofNat (n : Nat) : TypeId := ⟨if n < UInt32.size then UInt32.ofNat n else 0xFFFFFFFF⟩

def toNat (id : TypeId) : Nat := id.index.toNat

def text (id : TypeId) : String := s!"#{id.index}"

theorem toNat_lt (id : TypeId) : id.toNat < UInt32.size := id.index.toNat_lt

theorem ofNat_toNat (id : TypeId) : ofNat id.toNat = id := by
  have h := toNat_lt id
  simp only [ofNat, toNat, UInt32.ofNat_toNat] at *
  rw [if_pos h]

end TypeId

inductive TypeKind where
  | classType
  | structType
  | interfaceType
  | enumType
  | recordType
  | arrayType
  | voidType
  | typeParameter
  | other
deriving DecidableEq, Repr

inductive Accessibility where
  | publicAccess
  | internalAccess
  | protectedAccess
  | protectedInternal
  | privateProtected
  | privateAccess
deriving DecidableEq, Repr

inductive MemberKind where
  | property
  | field
  | enumValue
deriving DecidableEq, Repr

/-- An attribute as it is written, with its full name where the compiler resolved it. -/
structure Attribute where
  name : String
  fullName : Option String := none
deriving DecidableEq, Repr

structure Constructor where
  accessibility : Accessibility := .publicAccess
  parameterCount : UInt64 := 0
deriving DecidableEq, Repr

def Constructor.isDefault (c : Constructor) : Bool :=
  c.accessibility = .publicAccess && c.parameterCount = 0

structure Member where
  name : String
  kind : MemberKind := .property
  accessibility : Accessibility := .publicAccess
  declaredType : Option TypeId := none
  attributes : List Attribute := []
  location : Option Location := none
deriving DecidableEq, Repr

def Member.isExposedProperty (m : Member) : Bool :=
  m.kind = .property && m.accessibility = .publicAccess

structure Parameter where
  name : String
  type : TypeId
  location : Option Location := none
deriving DecidableEq, Repr

structure Method where
  name : String
  parameters : List Parameter := []
  returnType : Option TypeId := none
  /-- The interface an explicit implementation is tied to. -/
  definingInterface : Option TypeId := none
  location : Option Location := none
deriving DecidableEq, Repr

/-- Whether name, return type and parameter types agree; parameter names do not count. -/
def Method.hasSignatureOf (a b : Method) : Bool :=
  a.name = b.name && a.returnType = b.returnType &&
    a.parameters.map (·.type) = b.parameters.map (·.type)

structure TypeSymbol where
  name : String
  inNamespace : Option String := none
  kind : TypeKind
  attributes : List Attribute := []
  baseType : Option TypeId := none
  interfaces : List TypeId := []
  /-- All interfaces of the type, where the host has flattened them already. -/
  flattened : Option (List TypeId) := none
  constructors : List Constructor := []
  members : List Member := []
  methods : List Method := []
  typeArguments : List TypeId := []
  elementType : Option TypeId := none
  location : Option Location := none
  isGenerated : Bool := false
deriving DecidableEq, Repr

structure QualifiedName where
  name : String
  inNamespace : String
deriving DecidableEq, Repr

def QualifiedName.text (t : QualifiedName) : String := t.inNamespace ++ "." ++ t.name

namespace TypeSymbol

def is (d : TypeSymbol) (t : QualifiedName) : Bool :=
  d.name = t.name && d.inNamespace = some t.inNamespace

def fullName (d : TypeSymbol) : String :=
  match d.inNamespace with
  | some ns => if ns.isEmpty then d.name else ns ++ "." ++ d.name
  | none => d.name

def properties (d : TypeSymbol) : List Member := d.members.filter fun m => m.kind = .property

def publicProperties (d : TypeSymbol) : List Member := d.members.filter Member.isExposedProperty

def enumValues (d : TypeSymbol) : List Member := d.members.filter fun m => m.kind = .enumValue

def arrayOf (element : TypeId) : TypeSymbol :=
  { name := "Array", kind := .arrayType, elementType := some element }

/-- The ids that a type mentions, other than the interfaces its methods are tied to. -/
def mentions (d : TypeSymbol) : List TypeId :=
  d.baseType.toList ++ d.interfaces ++ d.flattened.getD [] ++ d.typeArguments ++
    d.elementType.toList ++ d.members.filterMap (·.declaredType) ++
    d.methods.flatMap fun m => m.returnType.toList ++ m.parameters.map (·.type)

end TypeSymbol

end ActorAudit
