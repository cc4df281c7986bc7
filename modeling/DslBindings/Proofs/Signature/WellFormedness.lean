import DslBindings.Proofs.Signature.Decision

/-!
# Types that signatures spell

Not every type of the model makes sense: a wildcard is no type of a value, nor is `void`. What the grammar
derives does, as its nonterminals keep type arguments, reference types and types of values apart.
-/

namespace DslBindings

namespace JvmType

mutual

/-- Types of values on the heap. -/
inductive IsReference : JvmType → Prop
  | plain {name : String} (name_ne : name ≠ "") : IsReference (.plain name)
  | generic {definition : String} {arguments : List JvmType} (name_ne : definition ≠ "")
      (arguments_ne : arguments ≠ []) (areArguments : ∀ t ∈ arguments, IsArgument t) :
      IsReference (.generic definition arguments)
  | typeVariable {name : String} (name_ne : name ≠ "") : IsReference (.typeVariable name)
  | array {element : JvmType} (isValue : IsValue element) : IsReference (.array element)

/-- Types of values. -/
inductive IsValue : JvmType → Prop
  | primitive {p : PrimitiveType} (ne_void : p ≠ .void) : IsValue (.primitive p)
  | reference {t : JvmType} (isReference : IsReference t) : IsValue t

/-- Type arguments. Only these can be wildcards, and none of them is primitive. -/
inductive IsArgument : JvmType → Prop
  | unbounded : IsArgument .unbounded
  | bounded {variance : Variance} {bound : JvmType} (isReference : IsReference bound) :
      IsArgument (.bounded variance bound)
  | exactly {t : JvmType} (isReference : IsReference t) : IsArgument t

end

/-- What a method can return. -/
def IsReturned (t : JvmType) : Prop := t.IsValue ∨ t = .primitive .void

def IsWildcard : JvmType → Prop
  | .unbounded | .bounded _ _ => True
  | _ => False

def IsPrimitive : JvmType → Prop
  | .primitive _ => True
  | _ => False

theorem IsReference.not_isWildcard {t : JvmType} (h : t.IsReference) : ¬ t.IsWildcard := by
  cases h <;> exact id

theorem IsReference.not_isPrimitive {t : JvmType} (h : t.IsReference) : ¬ t.IsPrimitive := by
  cases h <;> exact id

end JvmType

/-- A type parameter has a name and a reference type as its bound. -/
structure TypeParameter.IsWellFormed (p : TypeParameter) : Prop where
  name_ne : p.name ≠ ""
  bound : p.bound.IsReference

structure MethodSignature.IsWellFormed (s : MethodSignature) : Prop where
  typeParameters : ∀ p ∈ s.typeParameters, p.IsWellFormed
  parameters : ∀ t ∈ s.parameters, t.IsValue
  returnType : s.returnType.IsReturned

structure ClassSignature.IsWellFormed (s : ClassSignature) : Prop where
  typeParameters : ∀ p ∈ s.typeParameters, p.IsWellFormed
  superClass : ∀ t ∈ s.superClass, t.IsReference
  interfaces : ∀ t ∈ s.interfaces, t.IsReference

namespace Signature

open Grammar JvmType

theorem Grammar.Many.exists_of_mem {α : Type} {R : List Char → α → Prop} {w : List Char} {xs : List α}
    (h : Many R w xs) {x : α} (hx : x ∈ xs) : ∃ u, R u x ∧ u.length ≤ w.length := by
  induction h with
  | nil => cases hx
  | @cons first rest y ys head tail ih =>
    rw [List.length_append]
    rcases List.mem_cons.mp hx with rfl | hx
    · exact ⟨first, head, Nat.le_add_right _ _⟩
    · obtain ⟨u, hu, hle⟩ := ih hx
      exact ⟨u, hu, by omega⟩

theorem Grammar.IsIdentifier.ofList_ne {stops name : List Char} (h : IsIdentifier stops name) :
    String.ofList name ≠ "" := by
  intro heq
  have htoList := congrArg String.toList heq
  rw [String.toList_ofList] at htoList
  exact h.ne_nil htoList

theorem intercalate_ne_empty {name : String} (h : name ≠ "") (separator : String) (names : List String) :
    separator.intercalate (name :: names) ≠ "" := by
  intro heq
  have htoList := congrArg String.toList heq
  rw [String.toList_intercalate] at htoList
  have hname : name.toList ≠ [] := fun h' => h (String.toList_eq_nil_iff.mp h')
  cases names <;> simp_all

theorem replaceChar_ne_empty {c d : Char} {name : String} (h : name ≠ "") :
    Text.replaceChar c d name ≠ "" := by
  intro heq
  have htoList := congrArg String.toList heq
  rw [Text.replaceChar, String.toList_ofList] at htoList
  exact h (String.toList_eq_nil_iff.mp (List.map_eq_nil_iff.mp htoList))

/-- A part of a class type that makes sense. -/
structure Grammar.ClassPart.IsWellFormed (part : ClassPart) : Prop where
  name_ne : part.name ≠ ""
  areArguments : ∀ t ∈ part.arguments, t.IsArgument

theorem isReference_classOf {outer : ClassPart} {inner : List ClassPart} (hname : outer.name ≠ "")
    (hlast : ∀ t ∈ (inner.getLastD outer).arguments, t.IsArgument) :
    (classOf outer inner).IsReference := by
  have hne := intercalate_ne_empty hname "$" (inner.map ClassPart.name)
  rw [classOf]
  cases harguments : (inner.getLastD outer).arguments with
  | nil => exact .plain hne
  | cons t ts =>
    rw [harguments] at hlast
    exact .generic hne (List.cons_ne_nil t ts) hlast

theorem Grammar.ClassType.exists_parts {w : List Char} {t : JvmType} (h : ClassType w t) :
    ∃ outer inner, t = classOf (ClassPart.dotted outer) inner
      ∧ ∀ part ∈ outer :: inner, ∃ u, Grammar.Part u part ∧ u.length < w.length := by
  obtain @⟨s, v, outer, inner, first, others⟩ := h
  refine ⟨outer, inner, rfl, fun part hpart => ?_⟩
  rcases List.mem_cons.mp hpart with rfl | hpart
  · exact ⟨s, first, by simp only [List.length_cons, List.length_append]; omega⟩
  · obtain ⟨_, @⟨u, _, hu⟩, hle⟩ := others.exists_of_mem hpart
    rw [List.length_cons] at hle
    exact ⟨u, hu, by simp only [List.length_cons, List.length_append]; omega⟩

theorem Grammar.Arguments.exists_of_mem {w : List Char} {ts : List JvmType} (h : Arguments w ts)
    {t : JvmType} (ht : t ∈ ts) : ∃ u, Argument u t ∧ u.length < w.length := by
  cases h with
  | none => cases ht
  | some arguments ne_nil =>
    obtain ⟨u, hu, hle⟩ := arguments.exists_of_mem ht
    exact ⟨u, hu, by simp only [List.length_cons, List.length_append]; omega⟩

theorem Grammar.Reference.cases {w : List Char} {t : JvmType} (h : Reference w t) :
    ClassType w t
      ∨ (∃ name, IsIdentifier [';'] name ∧ t = .typeVariable (String.ofList name))
      ∨ ∃ s e, w = '[' :: s ∧ AnyType s e ∧ t = .array e := by
  cases h with
  | ofClass type => exact .inl type
  | typeVariable isName => exact .inr (.inl ⟨_, isName, rfl⟩)
  | array element => exact .inr (.inr ⟨_, _, rfl, element, rfl⟩)

-- The parts and the arguments of a class type are shorter texts, and so is the element of an array; only
-- where a type is of another kind too is the text the same.
mutual

theorem Grammar.Reference.isReference {w : List Char} {t : JvmType} (h : Reference w t) :
    t.IsReference := by
  obtain type | ⟨name, isName, ht⟩ | ⟨s, e, hw, element, ht⟩ := h.cases
  · obtain ⟨outer, inner, ht, hparts⟩ := type.exists_parts
    have hpart (part : ClassPart) (hmem : part ∈ outer :: inner) : part.IsWellFormed := by
      obtain ⟨u, hu, hlt⟩ := hparts part hmem
      exact hu.isWellFormed
    rw [ht]
    refine isReference_classOf (replaceChar_ne_empty (hpart outer List.mem_cons_self).name_ne) ?_
    rw [List.getLastD_eq_getLast?]
    cases hlast : inner.getLast? with
    | none => exact (hpart outer List.mem_cons_self).areArguments
    | some part =>
      exact (hpart part (List.mem_cons_of_mem outer (List.mem_of_getLast? hlast))).areArguments
  · rw [ht]
    exact .typeVariable isName.ofList_ne
  · have hlt : s.length < w.length := by simp [hw]
    rw [ht]
    exact .array element.isValue
termination_by 2 * w.length

theorem Grammar.AnyType.isValue {w : List Char} {t : JvmType} (h : AnyType w t) : t.IsValue := by
  cases h with
  | base isValue => exact .primitive isValue
  | reference type => exact .reference type.isReference
termination_by 2 * w.length + 1

theorem Grammar.Part.isWellFormed {w : List Char} {part : ClassPart} (h : Grammar.Part w part) :
    part.IsWellFormed := by
  obtain @⟨name, a, ts, isName, arguments⟩ := h
  refine ⟨isName.ofList_ne, fun t ht => ?_⟩
  obtain ⟨u, hu, hlt⟩ := arguments.exists_of_mem ht
  exact hu.isArgument
termination_by 2 * w.length
decreasing_by
  rw [List.length_append]
  omega

theorem Grammar.Argument.isArgument {w : List Char} {t : JvmType} (h : Argument w t) :
    t.IsArgument := by
  cases h with
  | unbounded => exact .unbounded
  | out bound => exact .bounded bound.isReference
  | into bound => exact .bounded bound.isReference
  | exactly type => exact .exactly type.isReference
termination_by 2 * w.length + 1

end

theorem isReference_object : JvmType.object.IsReference := .plain (by decide)

theorem Grammar.Declaration.isWellFormed {w b : List Char} {p : TypeParameter}
    (h : Declaration w p b) : p.IsWellFormed := by
  cases h with
  | classBound isName bound bounds => exact ⟨isName.ofList_ne, bound.isReference⟩
  | @noClassBound name v b ts isName bounds isNext =>
    refine ⟨isName.ofList_ne, ?_⟩
    cases bounds with
    | nil => exact isReference_object
    | cons head tail =>
      cases head with
      | intro bound => exact bound.isReference

theorem Grammar.Declarations.isWellFormed {w : List Char} {ps : List TypeParameter}
    (h : Declarations w ps) : ∀ p ∈ ps, p.IsWellFormed := by
  induction h with
  | close => exact fun p hp => nomatch hp
  | cons head tail ih =>
    intro p hp
    rcases List.mem_cons.mp hp with rfl | hp
    · exact head.isWellFormed
    · exact ih p hp

theorem Grammar.TypeParameters.isWellFormed {w : List Char} {ps : List TypeParameter}
    (h : TypeParameters w ps) : ∀ p ∈ ps, p.IsWellFormed := by
  cases h with
  | none => exact fun p hp => nomatch hp
  | some declarations ne_nil => exact declarations.isWellFormed

theorem Grammar.ClassType.isReference {w : List Char} {t : JvmType} (h : ClassType w t) :
    t.IsReference :=
  Reference.isReference (.ofClass h)

theorem Grammar.Method.isWellFormed {w : List Char} {signature : MethodSignature}
    (h : Method w signature) : signature.IsWellFormed := by
  obtain @⟨a, b, c, d, ps, ts, thrown, t, typeParameters, parameters, returned, throws⟩ := h
  refine ⟨typeParameters.isWellFormed, fun t ht => ?_, ?_⟩
  · obtain ⟨u, hu, -⟩ := parameters.exists_of_mem ht
    exact hu.isValue
  · cases returned with
    | void => exact .inr rfl
    | value type => exact .inl type.isValue

theorem Grammar.Class.isWellFormed {w : List Char} {signature : ClassSignature}
    (h : Class w signature) : signature.IsWellFormed := by
  obtain @⟨a, b, c, ps, t, ts, typeParameters, superClass, interfaces⟩ := h
  refine ⟨typeParameters.isWellFormed, fun t ht => ?_, fun t ht => ?_⟩
  · cases ht
    exact superClass.isReference
  · obtain ⟨u, hu, -⟩ := interfaces.exists_of_mem ht
    exact hu.isReference

end Signature

end DslBindings
