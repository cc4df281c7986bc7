import Std.Data.ExtTreeMap
import DslBindings.Json.Record

/-!
# Project schemas

The named and typed extensions and conventions that are attached to a project. Both registries are
kept in the order of their names, so nothing made from a schema depends on how it was found.
-/

namespace DslBindings

/-- The extensions and conventions of a project, by name. -/
structure ProjectSchema (α : Type) where
  extensions : Std.ExtTreeMap String α
  conventions : Std.ExtTreeMap String α

namespace ProjectSchema

instance : Inhabited (ProjectSchema α) := ⟨∅, ∅⟩

/-- The schema without entries. -/
def empty : ProjectSchema α := ⟨∅, ∅⟩

def isEmpty (s : ProjectSchema α) : Bool := s.extensions.isEmpty && s.conventions.isEmpty

/-- The schema with other types for its entries. -/
def map (f : α → β) (s : ProjectSchema α) : ProjectSchema β :=
  ⟨s.extensions.map fun _ t => f t, s.conventions.map fun _ t => f t⟩

/-- The conventions whose names are not those of extensions. -/
def unshadowedConventions (s : ProjectSchema α) : List (String × α) :=
  s.conventions.toList.filter fun (name, _) => !s.extensions.contains name

/-- Registers a type for a name, unless a type that is not smaller is registered for it. -/
def register (registry : Std.ExtTreeMap String String) (entry : String × String) :
    Std.ExtTreeMap String String :=
  match registry[entry.1]? with
  | some type => if entry.2 ≤ type then registry else registry.insert entry.1 entry.2
  | none => registry.insert entry.1 entry.2

/-- The schema with these entries. Of the types listed for one name, the greatest is taken. -/
def ofEntries (extensions conventions : List (String × String)) : ProjectSchema String :=
  ⟨extensions.foldl register ∅, conventions.foldl register ∅⟩

/-- How an entry stands in a cache key. -/
def keyEntry (registry : String) (entry : String × String) : String :=
  registry ++ ":" ++ entry.1 ++ "=" ++ entry.2

/-- The entries of both registries as they stand in a cache key, in the order of their texts. -/
def keyEntries (s : ProjectSchema String) : List String :=
  (s.extensions.toList.map (keyEntry "e") ++ s.conventions.toList.map (keyEntry "c")).mergeSort
    fun a b => a ≤ b

/-- The entries of both registries as one text, which names a schema in a cache key. -/
def cacheKey (s : ProjectSchema String) : String := ":".intercalate s.keyEntries

/-- A registry that a value is, with its types decoded. -/
def registryOfJson? (decode : Json → Option α) (j : Json) : Option (Std.ExtTreeMap String α) :=
  (j.toMembersOf? decode).map (Std.ExtTreeMap.ofList ·)

/-- A registry as a value. -/
def registryToJson (encode : α → Json) (registry : Std.ExtTreeMap String α) : Json :=
  .object (registry.toList.map fun (name, type) => (name, encode type))

/-- The schema that a value is. Either registry can be left out. -/
def ofJson? (decode : Json → Option α) (j : Json) : Option (ProjectSchema α) := do
  match ← j.fields? ["extensions", "conventions"] with
  | [extensions, conventions] =>
    return ⟨← extensions.withDefault ∅ (registryOfJson? decode),
      ← conventions.withDefault ∅ (registryOfJson? decode)⟩
  | _ => none

def toJson (encode : α → Json) (s : ProjectSchema α) : Json :=
  .object [("extensions", registryToJson encode s.extensions),
    ("conventions", registryToJson encode s.conventions)]

end ProjectSchema

/-- The schemas of all projects of a build, by project path. -/
abbrev BuildSchema := Std.ExtTreeMap String (ProjectSchema String)

namespace BuildSchema

def ofJson? (j : Json) : Option BuildSchema :=
  ProjectSchema.registryOfJson? (ProjectSchema.ofJson? Json.toText?) j

def toJson (schemas : BuildSchema) : Json :=
  ProjectSchema.registryToJson (ProjectSchema.toJson .string) schemas

end BuildSchema

end DslBindings
