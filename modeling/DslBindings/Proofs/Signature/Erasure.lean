import Mathlib.Data.List.Forall2
import DslBindings.Proofs.Signature.Format

/-!
# Erasure of signatures

The descriptor of a method is the erasure of its signature: a type variable is replaced by the erasure of
its first bound, and type arguments are left out. The names that a method is documented under are read
off the types of its signature, where the bounds are not at hand, so they are those of the descriptor
except where a parameter is a type variable.
-/

namespace DslBindings.Signature.Format

/-! ### Erasure -/

/-- The type parameters that can be mentioned somewhere, those of the innermost declaration first. -/
abbrev TypeScope := List (List Declaration)

/-- The type parameter of a name, with the scope that it is declared in. -/
def TypeScope.find? : TypeScope → Identifier → Option (Declaration × TypeScope)
  | [], _ => none
  | level :: outer, name =>
    match level.find? (·.name = name) with
    | some d => some (d, level :: outer)
    | none => TypeScope.find? outer name

/-- The type `java.lang.Object`. -/
def top : Reference :=
  .ofClass (.mk [.of "java".toList rfl, .of "lang".toList rfl]
    (.mk (.of "Object".toList rfl) []) [])

/-- The bound that a type parameter is erased to. -/
def Declaration.firstBound (d : Declaration) : Reference := d.bounds.headD top

/-- What a class is without type arguments. -/
def ClassType.raw : ClassType → ClassType
  | .mk packages outer nested =>
    .mk packages (.mk (outer.name.nesting (nested.map Part.name)) []) []

/-- A type erases to another one, or to none if the bounds run in a circle. -/
inductive Erases : TypeScope → Value → Value → Prop
  | base {scope : TypeScope} {p : PrimitiveType} (isValue : p ≠ .void) :
      Erases scope (.base p isValue) (.base p isValue)
  | ofClass {scope : TypeScope} (t : ClassType) :
      Erases scope (.reference (.ofClass t)) (.reference (.ofClass t.raw))
  | array {scope : TypeScope} {e e' : Value} (element : Erases scope e e') :
      Erases scope (.reference (.array e)) (.reference (.array e'))
  | typeVariable {scope declaring : TypeScope} {name : Identifier} {d : Declaration} {t : Value}
      (declared : scope.find? name = some (d, declaring))
      (bound : Erases declaring (.reference d.firstBound) t) :
      Erases scope (.reference (.typeVariable name)) t

/-- The signature of a method, in a scope, erases to another one. That has the text of a descriptor. -/
structure Method.Erases (scope : TypeScope) (m d : Method) : Prop where
  typeParameters_eq : d.typeParameters = []
  thrown_eq : d.thrown = []
  parameters : List.Forall₂ (Format.Erases (m.typeParameters :: scope)) m.parameters d.parameters
  result : Option.Rel (Format.Erases (m.typeParameters :: scope)) m.result d.result

theorem Erases.unique {scope : TypeScope} {t u u' : Value} (h : Erases scope t u)
    (h' : Erases scope t u') : u = u' := by
  induction h generalizing u' with
  | base => cases h'; rfl
  | ofClass => cases h'; rfl
  | array element ih =>
    cases h' with
    | array element' => rw [ih element']
  | typeVariable declared bound ih =>
    cases h' with
    | typeVariable declared' bound' =>
      rw [declared] at declared'
      cases declared'
      exact ih bound'

/-! ### Names -/

mutual

/-- The type variable that a type is, or that it is an array of. -/
def Reference.variable? : Reference → Option Identifier
  | .typeVariable name => some name
  | .array element => element.variable?
  | .ofClass _ => none

def Value.variable? : Value → Option Identifier
  | .reference type => type.variable?
  | .base _ _ => none

end

mutual

/-- A type with the top type in place of the type variable that it is, or that it is an array of. -/
def Reference.withTop : Reference → Reference
  | .typeVariable _ => top
  | .array element => .array element.withTop
  | .ofClass type => .ofClass type

def Value.withTop : Value → Value
  | .reference type => .reference type.withTop
  | .base type isValue => .base type isValue

end

mutual

theorem Reference.erasedName_withTop :
    (t : Reference) → t.withTop.type.erasedName = t.type.erasedName
  | .typeVariable name => by
    have htop : top.type.erasedName = objectName := by decide
    simpa [Reference.withTop, Reference.type, JvmType.erasedName] using htop
  | .array element => by
    simp [Reference.withTop, Reference.type, JvmType.erasedName, Value.erasedName_withTop element]
  | .ofClass type => rfl

theorem Value.erasedName_withTop : (t : Value) → t.withTop.type.erasedName = t.type.erasedName
  | .reference type => Reference.erasedName_withTop type
  | .base _ _ => rfl

end

theorem erasedName_classType (name : String) (types : List JvmType) :
    (classType name types).erasedName = JvmType.sourceName name := by
  cases types <;> rfl

theorem ClassType.erasedName_raw (t : ClassType) : t.raw.type.erasedName = t.type.erasedName := by
  obtain ⟨packages, outer, nested⟩ := t
  have hname : ∀ i : Identifier, binaryName packages (i.nesting []) = binaryName packages i := by
    intro i
    simp [binaryName, Identifier.nesting]
  rw [ClassType.raw, ClassType.type, ClassType.type, erasedName_classType, erasedName_classType]
  exact congrArg JvmType.sourceName (hname _)

/-- A type has the name of its erasure if it is neither a type variable nor an array of one. -/
theorem Erases.erasedName_eq {scope : TypeScope} {t u : Value} (h : Erases scope t u)
    (ht : t.variable? = none) : t.type.erasedName = u.type.erasedName := by
  induction h with
  | base => rfl
  | ofClass t => exact (ClassType.erasedName_raw t).symm
  | array element ih =>
    have hname := ih ht
    simp only [Value.type, Reference.type, JvmType.erasedName, hname]
  | typeVariable => cases ht

/-- The name of a type variable, or of an array of it, is that of its erasure if the type variable
erases to the top type. -/
theorem Erases.erasedName_eq_iff {scope : TypeScope} {t u : Value} {name : Identifier}
    (h : Erases scope t u) (ht : t.variable? = some name) :
    ∃ bound, Erases scope (.reference (.typeVariable name)) bound
      ∧ (t.type.erasedName = u.type.erasedName ↔ bound.type.erasedName = objectName) := by
  induction h with
  | base => cases ht
  | ofClass => cases ht
  | array element ih =>
    obtain ⟨bound, hbound, hiff⟩ := ih ht
    refine ⟨bound, hbound, ?_⟩
    rw [← hiff]
    simp [Value.type, Reference.type, JvmType.erasedName]
  | @typeVariable scope declaring x d t declared bound =>
    -- The type variable itself has the name of the top type, whatever it erases to.
    obtain rfl := Option.some.inj ht
    refine ⟨t, .typeVariable declared bound, ?_⟩
    rw [@eq_comm _ t.type.erasedName]
    rfl

/-- The names of types, where those of the types that they erase to are known. -/
theorem erasedNames_eq_zipWith {scope : TypeScope} {ts us : List Value}
    (h : List.Forall₂ (Erases scope) ts us) :
    ts.map (·.type.erasedName)
      = List.zipWith (fun t name => if t.variable?.isSome then t.withTop.type.erasedName else name) ts
        (us.map (·.type.erasedName)) := by
  induction h with
  | nil => rfl
  | @cons t u ts us head _ ih =>
    rw [List.map_cons, List.map_cons, List.zipWith_cons_cons, ih]
    split
    · rw [t.erasedName_withTop]
    · rename_i hvariable
      rw [head.erasedName_eq (by simpa using hvariable)]

theorem erasedNames_eq_iff {scope : TypeScope} {ts us : List Value}
    (h : List.Forall₂ (Erases scope) ts us) :
    ts.map (·.type.erasedName) = us.map (·.type.erasedName) ↔
      ∀ t ∈ ts, ∀ name, t.variable? = some name →
        ∃ bound, Erases scope (.reference (.typeVariable name)) bound
          ∧ bound.type.erasedName = objectName := by
  induction h with
  | nil => simp
  | @cons t u ts us head _ ih =>
    rw [List.map_cons, List.map_cons, List.cons.injEq, ih, List.forall_mem_cons]
    refine and_congr_left fun _ => ?_
    constructor
    · intro hname name hvariable
      obtain ⟨bound, hbound, hiff⟩ := head.erasedName_eq_iff hvariable
      exact ⟨bound, hbound, hiff.mp hname⟩
    · intro hbounds
      cases hvariable : t.variable? with
      | none => exact head.erasedName_eq hvariable
      | some name =>
        obtain ⟨bound, hbound, hiff⟩ := head.erasedName_eq_iff hvariable
        obtain ⟨bound', hbound', htop⟩ := hbounds name hvariable
        rw [hbound.unique hbound'] at hiff
        exact hiff.mpr htop

end DslBindings.Signature.Format
