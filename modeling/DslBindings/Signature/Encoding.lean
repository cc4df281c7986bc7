import DslBindings.Json.Record
import DslBindings.Signature.Class

/-!
# Signatures in JSON

How the types and descriptors of the signature model are written as JSON values, and what they are
read from.

A type is tagged: its `kind` says which fields it has. It is read as a whole, so an unreadable part
anywhere in it refuses it, even where it would be passed over. Inside another type the kind can also
be given by its number, and the name of a primitive type or of a variance can be written as an
object with that one key and nothing in it.
-/

namespace DslBindings

namespace JvmType

/-- The kinds of types, by their tags. -/
inductive Kind
  | primitive | plain | generic | typeVariable | array | wildcard
  deriving DecidableEq, Repr, Inhabited

namespace Kind

/-- All kinds, in the order in which they are numbered. -/
def all : List Kind := [primitive, plain, generic, typeVariable, array, wildcard]

def tag : Kind → String
  | primitive => "primitive"
  | plain => "plain"
  | generic => "generic"
  | typeVariable => "type_variable"
  | array => "array"
  | wildcard => "wildcard"

/-- The fields of a type of this kind, in the order of their declaration. -/
def keys : Kind → List String
  | primitive => ["primitive"]
  | plain | typeVariable => ["name"]
  | generic => ["definition", "arguments"]
  | array => ["element"]
  | wildcard => ["bound"]

/-- The kind with a number. -/
def ofIndex? (literal : String) : Option Kind :=
  if literal.toList.all Char.isDigit then
    all[literal.toList.foldl (fun n d => n * 10 + (d.toNat - '0'.toNat)) 0]?
  else none

/-- The kind that a tag names. Only inside another type can it be a number. -/
def ofJson? (inside : Bool) : Json → Option Kind
  | .string text => all.find? (·.tag = text)
  | .number literal => if inside then ofIndex? literal else none
  | _ => none

end Kind

/-- The name of a constant, written as a text or as the one key of an object with nothing in it. -/
def constantName? : Json → Option String
  | .string text => some text
  | .object [(key, .null)] | .object [(key, .object [])] => some key
  | _ => none

/-- The primitive type that a value names. -/
def primitiveOfJson? (j : Json) : Option PrimitiveType :=
  (constantName? j).bind fun name => PrimitiveType.all.find? (·.keyword = name)

/-- How a variance is written. -/
def varianceName : Variance → String
  | .out => "out"
  | .into => "in"

/-- The variance that a value names. -/
def varianceOfJson? (j : Json) : Option Variance :=
  (constantName? j).bind fun name => [Variance.out, Variance.into].find? (varianceName · = name)

/-- What a value is in each of the roles that it can have inside a type. -/
structure Roles where
  value : Json
  /-- The type that it is. -/
  type : Option JvmType
  /-- The type arguments that it lists. -/
  types : Option (List JvmType)
  /-- The wildcard whose bound it is. -/
  wildcard : Option JvmType

/-- The type of a kind with these fields. -/
def ofFields? : Kind → List (Json.Field Roles) → Option JvmType
  | .primitive, [p] => p.required fun r => (primitiveOfJson? r.value).map .primitive
  | .plain, [n] => n.required fun r => r.value.toText?.map .plain
  | .typeVariable, [n] => n.required fun r => r.value.toText?.map .typeVariable
  | .generic, [d, as] => do
    let definition ← d.required fun r => r.value.toText?
    let arguments ← as.required Roles.types
    return .generic definition arguments
  | .array, [e] => e.required fun r => r.type.map .array
  | .wildcard, [.missing] => some .unbounded
  | .wildcard, [b] => b.required Roles.wildcard
  | _, _ => none

/-- The type that an object with these members is. -/
def ofMembers? (inside : Bool) (members : List (String × Roles)) : Option JvmType := do
  let kind ← (← Json.fieldOf? members "kind").required fun r => Kind.ofJson? inside r.value
  ofFields? kind (← kind.keys.mapM (Json.fieldOf? members))

/-- The type that an array of a kind and its fields is. -/
def ofItems? (inside : Bool) : List Roles → Option JvmType
  | [] => none
  | k :: items => do
    let kind ← Kind.ofJson? inside k.value
    ofFields? kind (← Json.fieldsOfItems? kind.keys.length items)

/-- The wildcard whose bound is a pair of a variance and a type. -/
def wildcardOfItems? : List Roles → Option JvmType
  | [v, t] =>
    match varianceOfJson? v.value, t.type with
    | some variance, some bound => some (.bounded variance bound)
    | _, _ => none
  | _ => none

mutual

/-- What a value is in each role. `inside` says whether it is inside another type. -/
def roles (inside : Bool) : Json → Roles
  | .object members =>
    ⟨.object members, ofMembers? inside (rolesOfMembers members), none, none⟩
  | .array items =>
    let parts := rolesOfItems items
    ⟨.array items, ofItems? inside parts, parts.mapM Roles.type, wildcardOfItems? parts⟩
  | .null => ⟨.null, none, none, some .unbounded⟩
  | j => ⟨j, none, none, none⟩

/-- What each item of an array is inside a type. -/
def rolesOfItems : List Json → List Roles
  | [] => []
  | j :: js => roles true j :: rolesOfItems js

/-- What the value of each member of an object is inside a type. -/
def rolesOfMembers : List (String × Json) → List (String × Roles)
  | [] => []
  | (key, j) :: ms => (key, roles true j) :: rolesOfMembers ms

end

/-- The type that a value is. -/
def ofJson? (j : Json) : Option JvmType := if j.isReadable then (roles false j).type else none

/-- An object of a kind with these fields. -/
def tagged (kind : Kind) (fields : List (String × Json)) : Json :=
  .object (("kind", .string kind.tag) :: fields)

mutual

/-- A type as a value. -/
def toJson : JvmType → Json
  | .primitive p => tagged .primitive [("primitive", .string p.keyword)]
  | .plain name => tagged .plain [("name", .string name)]
  | .generic definition arguments =>
    tagged .generic [("definition", .string definition), ("arguments", .array (toJsonAll arguments))]
  | .typeVariable name => tagged .typeVariable [("name", .string name)]
  | .array element => tagged .array [("element", element.toJson)]
  | .unbounded => tagged .wildcard [("bound", .null)]
  | .bounded variance bound =>
    tagged .wildcard [("bound", .array [.string (varianceName variance), bound.toJson])]

/-- Each type of a list as a value. -/
def toJsonAll : List JvmType → List Json
  | [] => []
  | t :: ts => t.toJson :: toJsonAll ts

end

end JvmType

namespace TypeParameter

def ofJson? (j : Json) : Option TypeParameter := do
  match ← j.fields? ["name", "bound"] with
  | [name, bound] => return ⟨← name.required Json.toText?, ← bound.required JvmType.ofJson?⟩
  | _ => none

def toJson (p : TypeParameter) : Json :=
  .object [("name", .string p.name), ("bound", p.bound.toJson)]

end TypeParameter

namespace ClassSignature

def ofJson? (j : Json) : Option ClassSignature := do
  match ← j.fields? ["type_parameters", "super_class", "interfaces"] with
  | [typeParameters, superClass, interfaces] =>
    return ⟨← typeParameters.required (Json.toListOf? TypeParameter.ofJson?),
      ← superClass.optional JvmType.ofJson?,
      ← interfaces.required (Json.toListOf? JvmType.ofJson?)⟩
  | _ => none

def toJson (s : ClassSignature) : Json :=
  .object [("type_parameters", .array (s.typeParameters.map TypeParameter.toJson)),
    ("super_class", Json.ofOption JvmType.toJson s.superClass),
    ("interfaces", .array (s.interfaces.map JvmType.toJson))]

end ClassSignature

namespace MethodSignature

def ofJson? (j : Json) : Option MethodSignature := do
  match ← j.fields? ["type_parameters", "parameters", "return_type"] with
  | [typeParameters, parameters, returnType] =>
    return ⟨← typeParameters.required (Json.toListOf? TypeParameter.ofJson?),
      ← parameters.required (Json.toListOf? JvmType.ofJson?),
      ← returnType.required JvmType.ofJson?⟩
  | _ => none

def toJson (s : MethodSignature) : Json :=
  .object [("type_parameters", .array (s.typeParameters.map TypeParameter.toJson)),
    ("parameters", .array (s.parameters.map JvmType.toJson)),
    ("return_type", s.returnType.toJson)]

end MethodSignature

namespace Access

def ofJson? (j : Json) : Option Access := j.toUInt16?.map Access.mk

def toJson (a : Access) : Json := Json.ofNat a.bits.toNat

end Access

namespace MethodDescriptor

def ofJson? (j : Json) : Option MethodDescriptor := do
  match ← j.fields? ["name", "signature", "access"] with
  | [name, signature, access] =>
    return ⟨← name.required Json.toText?, ← signature.required MethodSignature.ofJson?,
      ← access.required Access.ofJson?⟩
  | _ => none

def toJson (m : MethodDescriptor) : Json :=
  .object [("name", .string m.name), ("signature", m.signature.toJson), ("access", m.access.toJson)]

end MethodDescriptor

namespace ClassDescriptor

def ofJson? (j : Json) : Option ClassDescriptor := do
  match ← j.fields? ["name", "access", "signature", "methods"] with
  | [name, access, signature, methods] =>
    return ⟨← name.required Json.toText?, ← access.required Access.ofJson?,
      ← signature.optional ClassSignature.ofJson?,
      ← methods.required (Json.toListOf? MethodDescriptor.ofJson?)⟩
  | _ => none

def toJson (c : ClassDescriptor) : Json :=
  .object [("name", .string c.name), ("access", c.access.toJson),
    ("signature", Json.ofOption ClassSignature.toJson c.signature),
    ("methods", .array (c.methods.map MethodDescriptor.toJson))]

end ClassDescriptor

end DslBindings
