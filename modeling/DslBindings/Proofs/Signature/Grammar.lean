import DslBindings.Signature.Reader

/-!
# The grammar of signatures

Which texts are signatures, and what they mean. Each nonterminal is a relation between the texts that
it derives and their meanings; nothing is said of how a text is read. The only rule that looks at what
stands behind its text is that of a type parameter without any bound.
-/

namespace DslBindings.Signature.Grammar

/-- Any number of texts of one kind, one after the other. -/
inductive Many {α : Type} (R : List Char → α → Prop) : List Char → List α → Prop
  | nil : Many R [] []
  | cons {first rest : List Char} {x : α} {xs : List α} (head : R first x) (tail : Many R rest xs) :
      Many R (first ++ rest) (x :: xs)

/-- A name that ends in front of one of `stops`. -/
structure IsIdentifier (stops name : List Char) : Prop where
  ne_nil : name ≠ []
  notMem_stops : ∀ c ∈ name, c ∉ stops

/-- An identifier of a class type with the type arguments behind it. -/
structure ClassPart where
  name : String
  arguments : List JvmType

/-- The outermost part of a class type, in whose identifier slashes stand between packages. -/
def ClassPart.dotted (part : ClassPart) : ClassPart :=
  { part with name := Text.replaceChar '/' '.' part.name }

/-- The class type that a part amounts to with the parts that are nested in it. -/
def classOf (outer : ClassPart) (inner : List ClassPart) : JvmType :=
  classType ("$".intercalate (outer.name :: inner.map ClassPart.name)) (inner.getLastD outer).arguments

mutual

/-- Types of values on the heap. -/
inductive Reference : List Char → JvmType → Prop
  | ofClass {s : List Char} {t : JvmType} (type : ClassType s t) : Reference s t
  | typeVariable {name : List Char} (isName : IsIdentifier [';'] name) :
      Reference ('T' :: (name ++ [';'])) (.typeVariable (String.ofList name))
  | array {s : List Char} {t : JvmType} (element : AnyType s t) : Reference ('[' :: s) (.array t)

/-- Types of values. -/
inductive AnyType : List Char → JvmType → Prop
  | base {p : PrimitiveType} (isValue : p ≠ .void) : AnyType [p.descriptor] (.primitive p)
  | reference {s : List Char} {t : JvmType} (type : Reference s t) : AnyType s t

/-- Class types: a part, and the parts of classes nested in it. -/
inductive ClassType : List Char → JvmType → Prop
  | intro {s w : List Char} {outer : ClassPart} {inner : List ClassPart} (first : Part s outer)
      (others : Many InnerPart w inner) :
      ClassType ('L' :: (s ++ (w ++ [';']))) (classOf outer.dotted inner)

/-- An identifier of a class type with its arguments. -/
inductive Part : List Char → ClassPart → Prop
  | intro {name a : List Char} {ts : List JvmType} (isName : IsIdentifier classStops name)
      (arguments : Arguments a ts) : Part (name ++ a) ⟨String.ofList name, ts⟩

/-- A part behind another one. -/
inductive InnerPart : List Char → ClassPart → Prop
  | intro {s : List Char} {part : ClassPart} (nested : Part s part) : InnerPart ('.' :: s) part

/-- Type arguments, if there are any. -/
inductive Arguments : List Char → List JvmType → Prop
  | none : Arguments [] []
  | some {w : List Char} {ts : List JvmType} (arguments : Many Argument w ts) (ne_nil : ts ≠ []) :
      Arguments ('<' :: (w ++ ['>'])) ts

/-- A type argument. -/
inductive Argument : List Char → JvmType → Prop
  | unbounded : Argument ['*'] .unbounded
  | out {s : List Char} {t : JvmType} (bound : Reference s t) : Argument ('+' :: s) (.bounded .out t)
  | into {s : List Char} {t : JvmType} (bound : Reference s t) : Argument ('-' :: s) (.bounded .into t)
  | exactly {s : List Char} {t : JvmType} (type : Reference s t) : Argument s t

end

/-- A bound of a type parameter with the colon in front of it. -/
inductive InterfaceBound : List Char → JvmType → Prop
  | intro {s : List Char} {t : JvmType} (bound : Reference s t) : InterfaceBound (':' :: s) t

/--
The declaration of a type parameter, in front of some text. Its class bound can be left out, but then
the next character is that of an interface bound or of the end of the list.
-/
inductive Declaration : (declaration : List Char) → TypeParameter → (behind : List Char) → Prop
  | classBound {name s w behind : List Char} {t : JvmType} {ts : List JvmType}
      (isName : IsIdentifier [':', '>'] name) (bound : Reference s t)
      (bounds : Many InterfaceBound w ts) :
      Declaration (name ++ ':' :: (s ++ w)) ⟨String.ofList name, t⟩ behind
  | noClassBound {name w behind : List Char} {ts : List JvmType}
      (isName : IsIdentifier [':', '>'] name) (bounds : Many InterfaceBound w ts)
      (isNext : (w ++ behind).head? ∈ [some ':', some '>']) :
      Declaration (name ++ ':' :: w) ⟨String.ofList name, ts.headD .object⟩ behind

/-- Declarations up to the end of their list. -/
inductive Declarations : List Char → List TypeParameter → Prop
  | close : Declarations ['>'] []
  | cons {w behind : List Char} {p : TypeParameter} {ps : List TypeParameter}
      (head : Declaration w p behind) (tail : Declarations behind ps) :
      Declarations (w ++ behind) (p :: ps)

/-- The type parameters of a class or of a method, if it declares any. -/
inductive TypeParameters : List Char → List TypeParameter → Prop
  | none : TypeParameters [] []
  | some {w : List Char} {ps : List TypeParameter} (declarations : Declarations w ps)
      (ne_nil : ps ≠ []) : TypeParameters ('<' :: w) ps

/-- What a method returns. -/
inductive Returned : List Char → JvmType → Prop
  | void : Returned ['V'] (.primitive .void)
  | value {s : List Char} {t : JvmType} (type : AnyType s t) : Returned s t

/-- A thrown type. -/
inductive Thrown : List Char → JvmType → Prop
  | intro {s : List Char} {t : JvmType} (type : Reference s t) : Thrown ('^' :: s) t

/-- Method signatures. The thrown types are no part of the meaning. -/
inductive Method : List Char → MethodSignature → Prop
  | intro {a b c d : List Char} {ps : List TypeParameter} {ts thrown : List JvmType} {t : JvmType}
      (typeParameters : TypeParameters a ps) (parameters : Many AnyType b ts) (returned : Returned c t)
      (throws : Many Thrown d thrown) :
      Method (a ++ '(' :: (b ++ ')' :: (c ++ d))) ⟨ps, ts, t⟩

/-- Class signatures. -/
inductive Class : List Char → ClassSignature → Prop
  | intro {a b c : List Char} {ps : List TypeParameter} {t : JvmType} {ts : List JvmType}
      (typeParameters : TypeParameters a ps) (superClass : ClassType b t)
      (interfaces : Many ClassType c ts) : Class (a ++ (b ++ c)) ⟨ps, some t, ts⟩

/-- Field signatures. -/
abbrev Field : List Char → JvmType → Prop := AnyType

end DslBindings.Signature.Grammar
