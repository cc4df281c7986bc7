import DslBindings.Documentation
import DslBindings.Extension.Eligible
import DslBindings.Rendering
import DslBindings.Text.Fresh

/-!
# Extension functions

An extension function has the parameters of a method with a lambda with a receiver in place of its
callback, and calls the method with a callback that calls the lambda. `ExtensionFunction.of?` makes
it from the method, `ExtensionFunction.render` writes it.
-/

namespace DslBindings

/-- A method whose documentation does not fit it. -/
structure ExtensionError where
  className : String
  methodName : String
  parameterTypes : List String
  /-- The parameter names that the documentation lists. -/
  documented : List String
  deriving DecidableEq, Repr, Inhabited

namespace ExtensionError

def reason (e : ExtensionError) : String :=
  "documentation lists " ++ toString e.documented.length ++ " parameters ("
    ++ ", ".intercalate e.documented ++ ") but the method declares "
    ++ toString e.parameterTypes.length

/-- The method with its parameter types. -/
def methodText (e : ExtensionError) : String :=
  e.methodName ++ "(" ++ ", ".intercalate e.parameterTypes ++ ")"

def message (e : ExtensionError) : String :=
  "Failed to generate extension for " ++ e.className ++ "." ++ e.methodText ++ ": " ++ e.reason

end ExtensionError

namespace ExtensionFunction

/-- The name of the lambda parameter. -/
def closureName : String := "configuration"

/-- The name that a parameter gets if it is not documented well. -/
def fallbackName (index : Nat) : String := "arg" ++ toString index

/-- The documented name of a parameter if it is legal and not used yet, else a name of its own. -/
def parameterName (used : List String) (index : Nat) (documented : Option String) : String :=
  match documented with
  | some name =>
    if Naming.isLegal name && !used.contains name then name else Text.freshName used (fallbackName index)
  | none => Text.freshName used (fallbackName index)

/-- The names of `count` parameters from an index on, none of them in `used`. -/
def parameterNamesFrom (used : List String) (index : Nat) :
    (count : Nat) → (documented : List String) → List String
  | 0, _ => []
  | count + 1, documented =>
    let name := parameterName used index documented.head?
    name :: parameterNamesFrom (name :: used) (index + 1) count documented.tail

/-- The names of the parameters in front of the lambda. -/
def parameterNames (count : Nat) (documented : List String) : List String :=
  parameterNamesFrom [closureName] 0 count documented

/-- A parameter in front of the lambda. -/
structure Parameter where
  name : String
  type : JvmType
  /-- Whether the type is a class without the argument that it has to have. -/
  isRaw : Bool
  deriving DecidableEq, Repr, Inhabited

end ExtensionFunction

/-- An extension function. -/
structure ExtensionFunction where
  documentation : Option Documentation
  typeParameters : List TypeParameter
  /-- The class of the method, as source text spells it. -/
  owner : String
  /-- The name of the method and of the function. -/
  name : String
  parameters : List ExtensionFunction.Parameter
  /-- The callback interface. -/
  callback : String
  /-- The receiver of the lambda. -/
  receiver : JvmType
  returnType : JvmType
  deriving DecidableEq, Repr, Inhabited

namespace ExtensionFunction

/-- A parameter type that a method declares without the type argument that it has to have. -/
structure RawParameter where
  owner : String
  method : String
  type : String
  deriving DecidableEq, Repr, Inhabited

/-- The known parameter types without their type argument. -/
def rawParameters : List RawParameter :=
  [⟨"org.gradle.api.Project", "configure", "java.lang.Iterable"⟩]

/-- Whether a parameter of a method lacks the type argument that it has to have. -/
def isRawParameter (owner method : String) : JvmType → Bool
  | .plain type => rawParameters.contains ⟨owner, method, type⟩
  | _ => false

/-- The extension function of a method of a class with this callback and this documentation. -/
def of? (c : ClassDescriptor) (m : MethodDescriptor) (callback : Callback)
    (documentation : Option Documentation) : Except ExtensionError ExtensionFunction :=
  let documented := (documentation.map Documentation.parameterNames).getD []
  if documentation.isSome && documented.length ≠ m.signature.parameters.length then
    .error ⟨c.name, m.name, m.erasedParameters, documented⟩
  else
    let names := parameterNames m.leading.length documented
    .ok
      { documentation
        typeParameters := m.signature.typeParameters
        owner := c.sourceName
        name := m.name
        parameters :=
          m.leading.zipWith (fun type name => ⟨name, type, isRawParameter c.name m.name type⟩) names
        callback := callback.className
        receiver := callback.receiver
        returnType := m.signature.returnType }

/-- The spelling of a parameter's type. -/
def Parameter.typeText (p : Parameter) : String :=
  if p.isRaw then Rendering.type p.type ++ "<*>" else Rendering.type p.type

def Parameter.render (p : Parameter) : String := Naming.quote p.name ++ ": " ++ p.typeText

/-- The method that the function belongs to. -/
def member (f : ExtensionFunction) : String := f.owner ++ "." ++ f.name

/-- What the comment says of every extension function. -/
def notice (f : ExtensionFunction) : String :=
  "Kotlin extension function taking [kotlin.Function1] for [" ++ f.member ++ "].\n\n@see " ++ f.member

/-- The comment in front of the function. -/
def comment (f : ExtensionFunction) : String :=
  match f.documentation with
  | some d => d.format (f.parameters.map Parameter.name ++ [closureName]) f.notice
  | none => Documentation.block "" f.notice

/-- The lambda parameter. -/
def closureParameter (f : ExtensionFunction) : String :=
  Naming.quote closureName ++ ": " ++ Rendering.type f.receiver ++ ".() -> Unit"

/-- The callback that calls the lambda. -/
def callbackArgument (f : ExtensionFunction) : String :=
  Rendering.className f.callback ++ "<" ++ Rendering.type f.receiver ++ "> \x7b it."
    ++ Naming.quote closureName ++ "() \x7d"

/-- The keyword of the declaration with its type parameters. -/
def keyword (f : ExtensionFunction) : String :=
  match f.typeParameters with
  | [] => "fun"
  | ps => "fun " ++ Rendering.typeParameters ps

/-- The function as source text. -/
def render (f : ExtensionFunction) : String :=
  let parameters := f.parameters.map Parameter.render ++ [f.closureParameter]
  let arguments := f.parameters.map (Naming.quote ·.name) ++ [f.callbackArgument]
  f.comment ++ f.keyword ++ " " ++ f.owner ++ "." ++ Naming.quote f.name
    ++ "(" ++ ", ".intercalate parameters ++ "): " ++ Rendering.type f.returnType ++ " =\n    "
    ++ Naming.quote f.name ++ "(" ++ ", ".intercalate arguments ++ ")"

/-- The function as it stands in a generated file. -/
def block (f : ExtensionFunction) : String := "\n" ++ f.render ++ "\n"

end ExtensionFunction

end DslBindings
