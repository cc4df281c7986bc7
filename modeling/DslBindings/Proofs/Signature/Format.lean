import DslBindings.Signature.Reader

/-!
# The signatures of the class file format

Signatures as the class file format describes them: the trees that its grammar derives, the text of each
tree, and what it means. An identifier has none of the characters that have a meaning of their own, and a
type parameter may have no bound at all.
-/

namespace DslBindings.Signature.Format

/-- The characters that cannot stand in an identifier. -/
def reserved : List Char := ['.', ';', '[', '/', '<', '>', ':']

/-- A name without qualification. -/
structure Identifier where
  text : List Char
  ne_nil : text ≠ []
  notMem_reserved : ∀ c ∈ text, c ∉ reserved
  deriving DecidableEq

/-- The identifier that these characters make, where a look at them tells that they make one. -/
def Identifier.of (text : List Char)
    (h : (!text.isEmpty && text.all fun c => !reserved.contains c) = true) : Identifier where
  text
  ne_nil := by
    rintro rfl
    cases h
  notMem_reserved := by
    rw [Bool.and_eq_true, List.all_eq_true] at h
    intro c hc
    simpa using h.2 c hc

/-- The name of a class with the classes that are nested in it. -/
def Identifier.nesting (outer : Identifier) (inner : List Identifier) : Identifier where
  text := outer.text ++ inner.flatMap fun i => '$' :: i.text
  ne_nil := by simp [outer.ne_nil]
  notMem_reserved := by
    intro c hc
    rcases List.mem_append.mp hc with hc | hc
    · exact outer.notMem_reserved c hc
    · obtain ⟨i, -, hc⟩ := List.mem_flatMap.mp hc
      rcases List.mem_cons.mp hc with rfl | hc
      · decide
      · exact i.notMem_reserved c hc

mutual

/-- A class with the packages that it is in, and the classes nested in it, from the outermost one on. -/
inductive ClassType
  | mk (packages : List Identifier) (outer : Part) (nested : List Part)

/-- A class without its surroundings, and its type arguments. -/
inductive Part
  | mk (name : Identifier) (arguments : List Argument)

inductive Argument
  | unbounded
  | out (bound : Reference)
  | into (bound : Reference)
  | exactly (type : Reference)

/-- Types of values on the heap. -/
inductive Reference
  | ofClass (type : ClassType)
  | typeVariable (name : Identifier)
  | array (element : Value)

/-- Types of values. -/
inductive Value
  | base (type : PrimitiveType) (isValue : type ≠ .void)
  | reference (type : Reference)

end

def Part.name : Part → Identifier
  | .mk name _ => name

/-- A type parameter, with a class bound if it has one. -/
structure Declaration where
  name : Identifier
  classBound : Option Reference
  interfaceBounds : List Reference

def Declaration.bounds (d : Declaration) : List Reference := d.classBound.toList ++ d.interfaceBounds

/-- What a method can throw: a class or a type variable. -/
inductive Thrown
  | ofClass (type : ClassType)
  | typeVariable (name : Identifier)

def Thrown.reference : Thrown → Reference
  | .ofClass type => .ofClass type
  | .typeVariable name => .typeVariable name

/-- Method signatures. A method without a result returns `void`. -/
structure Method where
  typeParameters : List Declaration
  parameters : List Value
  result : Option Value
  thrown : List Thrown

/-- Class signatures. -/
structure Class where
  typeParameters : List Declaration
  superClass : ClassType
  interfaces : List ClassType

/-! ### Texts -/

mutual

def ClassType.text : ClassType → List Char
  | .mk packages outer nested =>
    'L' :: (packages.flatMap (·.text ++ ['/']) ++ (outer.text ++ (textOfNested nested ++ [';'])))

def Part.text : Part → List Char
  | .mk name [] => name.text
  | .mk name arguments => name.text ++ '<' :: (textOfArguments arguments ++ ['>'])

def textOfNested : List Part → List Char
  | [] => []
  | part :: parts => '.' :: (part.text ++ textOfNested parts)

def Argument.text : Argument → List Char
  | .unbounded => ['*']
  | .out bound => '+' :: bound.text
  | .into bound => '-' :: bound.text
  | .exactly type => type.text

def textOfArguments : List Argument → List Char
  | [] => []
  | a :: as => a.text ++ textOfArguments as

def Reference.text : Reference → List Char
  | .ofClass type => type.text
  | .typeVariable name => 'T' :: (name.text ++ [';'])
  | .array element => '[' :: element.text

def Value.text : Value → List Char
  | .base type _ => [type.descriptor]
  | .reference type => type.text

end

def Declaration.text (d : Declaration) : List Char :=
  d.name.text ++ ':' :: (d.classBound.toList.flatMap Reference.text
    ++ d.interfaceBounds.flatMap fun bound => ':' :: bound.text)

/-- The list of type parameters of a class or of a method, if it declares any. -/
def textOfTypeParameters : List Declaration → List Char
  | [] => []
  | ds => '<' :: (ds.flatMap Declaration.text ++ ['>'])

def Thrown.text (t : Thrown) : List Char := '^' :: t.reference.text

def Method.text (m : Method) : List Char :=
  textOfTypeParameters m.typeParameters ++ '(' :: (m.parameters.flatMap Value.text
    ++ ')' :: ((m.result.map Value.text).getD ['V'] ++ m.thrown.flatMap Thrown.text))

def Class.text (c : Class) : List Char :=
  textOfTypeParameters c.typeParameters ++ (c.superClass.text ++ c.interfaces.flatMap ClassType.text)

/-! ### Meanings -/

/-- The dotted binary name of a class. -/
def binaryName (packages : List Identifier) (name : Identifier) : String :=
  String.ofList (packages.flatMap (·.text ++ ['.']) ++ name.text)

mutual

/-- A class type has the type arguments of its innermost part. -/
def ClassType.type : ClassType → JvmType
  | .mk packages outer nested =>
    classType (binaryName packages (outer.name.nesting (nested.map Part.name)))
      (typesOfInnermost outer.types nested)

def Part.types : Part → List JvmType
  | .mk _ arguments => typesOfArguments arguments

/-- The type arguments of the innermost part, where `types` are those of the outermost one. -/
def typesOfInnermost (types : List JvmType) : List Part → List JvmType
  | [] => types
  | part :: parts => typesOfInnermost part.types parts

def Argument.type : Argument → JvmType
  | .unbounded => .unbounded
  | .out bound => .bounded .out bound.type
  | .into bound => .bounded .into bound.type
  | .exactly type => type.type

def typesOfArguments : List Argument → List JvmType
  | [] => []
  | a :: as => a.type :: typesOfArguments as

def Reference.type : Reference → JvmType
  | .ofClass type => type.type
  | .typeVariable name => .typeVariable (String.ofList name.text)
  | .array element => .array element.type

def Value.type : Value → JvmType
  | .base type _ => .primitive type
  | .reference type => type.type

end

/-- A type parameter is bounded by its first bound, or else by the top type. -/
def Declaration.parameter (d : Declaration) : TypeParameter :=
  ⟨String.ofList d.name.text, (d.bounds.map Reference.type).headD .object⟩

def Method.signature (m : Method) : MethodSignature where
  typeParameters := m.typeParameters.map Declaration.parameter
  parameters := m.parameters.map Value.type
  returnType := (m.result.map Value.type).getD (.primitive .void)

def Class.signature (c : Class) : ClassSignature where
  typeParameters := c.typeParameters.map Declaration.parameter
  superClass := some c.superClass.type
  interfaces := c.interfaces.map ClassType.type

end DslBindings.Signature.Format
