import Mathlib.Data.Set.Card
import DslBindings.Extension.Callback

/-!
# Discovery of callback interfaces

A callback interface takes a value of its own type parameter. A class is recognized by the name of the
type variable that its method takes, and a method that declares a type parameter of that name takes a
value of that one instead. So an interface with such a method is taken for a callback interface and is
none; `callbacks_known_iff` says that nothing else is.
-/

namespace DslBindings

/-- A method that has to be implemented. -/
def MethodDescriptor.IsLeft (m : MethodDescriptor) : Prop :=
  m.access.isAbstract = true ∧ m.access.isStatic = false

namespace ClassDescriptor

/-- The method is the only one of the class that has to be implemented. -/
def LeavesOnly (c : ClassDescriptor) (m : MethodDescriptor) : Prop :=
  m.IsLeft ∧ ∃ front rest, c.methods = front ++ m :: rest ∧ ∀ o ∈ front ++ rest, ¬ o.IsLeft

/-- An interface with one type parameter `p`, whose one method `m` takes a value of a type variable
with the name of `p` and returns nothing. -/
structure LooksLikeCallback (c : ClassDescriptor) (p : TypeParameter) (m : MethodDescriptor) :
    Prop where
  isInterface : c.access.isInterface = true
  declares : ∃ signature, c.signature = some signature ∧ signature.typeParameters = [p]
  leavesOnly : c.LeavesOnly m
  parameters : m.signature.parameters = [.typeVariable p.name]
  returnType : m.signature.returnType = .primitive .void

/-- An interface whose one method takes a value of its one type parameter and returns nothing. The type
variable is that of the interface if the method declares none of its name. -/
def IsCallbackInterface (c : ClassDescriptor) : Prop :=
  ∃ p m, c.LooksLikeCallback p m ∧ p.name ∉ m.signature.typeParameters.map TypeParameter.name

variable {c : ClassDescriptor} {p : TypeParameter} {m : MethodDescriptor}

theorem typeParameters_eq_singleton :
    c.typeParameters = [p] ↔
      ∃ signature, c.signature = some signature ∧ signature.typeParameters = [p] := by
  rw [typeParameters]
  cases c.signature with
  | none => simp
  | some signature => simp

theorem isLeft_iff : (m.access.isAbstract && !m.access.isStatic) = true ↔ m.IsLeft := by
  rw [Bool.and_eq_true, Bool.not_eq_true']
  rfl

theorem abstractMethods_eq_singleton : c.abstractMethods = [m] ↔ c.LeavesOnly m := by
  simp only [abstractMethods, List.filter_eq_cons_iff, List.filter_eq_nil_iff, isLeft_iff]
  constructor
  · rintro ⟨front, rest, hmethods, hfront, hm, hrest⟩
    exact ⟨hm, front, rest, hmethods, fun o ho => (List.mem_append.mp ho).elim (hfront o) (hrest o)⟩
  · rintro ⟨hm, front, rest, hmethods, hnone⟩
    exact ⟨front, rest, hmethods, fun o ho => hnone o (List.mem_append_left rest ho), hm,
      fun o ho => hnone o (List.mem_append_right front ho)⟩

theorem consumes_iff {name : String} :
    m.consumes name = true ↔
      m.signature.parameters = [.typeVariable name] ∧ m.signature.returnType = .primitive .void := by
  rw [MethodDescriptor.consumes, JvmType.isVoid, Bool.and_eq_true, decide_eq_true_eq,
    decide_eq_true_eq]

theorem isCallback_iff : c.isCallback = true ↔ ∃ p m, c.LooksLikeCallback p m := by
  rw [isCallback, Bool.and_eq_true]
  constructor
  · rintro ⟨hinterface, hshape⟩
    split at hshape
    · next p m hp hm =>
      obtain ⟨hparameters, hreturn⟩ := consumes_iff.mp hshape
      exact ⟨p, m, hinterface, typeParameters_eq_singleton.mp hp, abstractMethods_eq_singleton.mp hm,
        hparameters, hreturn⟩
    · cases hshape
  · rintro ⟨p, m, h⟩
    rw [typeParameters_eq_singleton.mpr h.declares, abstractMethods_eq_singleton.mpr h.leavesOnly]
    exact ⟨h.isInterface, consumes_iff.mpr ⟨h.parameters, h.returnType⟩⟩

end ClassDescriptor

namespace Callbacks

theorem mem_foldl_insert {classes : List ClassDescriptor} {names : Callbacks} {n : String} :
    n ∈ classes.foldl (fun names c => names.insert c.name) names ↔
      n ∈ names ∨ ∃ c ∈ classes, c.name = n := by
  induction classes generalizing names with
  | nil => simp
  | cons c classes ih =>
    rw [List.foldl_cons, ih, Std.ExtTreeSet.mem_insert, Std.LawfulEqCmp.compare_eq_iff_eq,
      List.exists_mem_cons_iff, or_comm (a := c.name = n), or_assoc]

theorem mem_ofClasses {classes : List ClassDescriptor} {n : String} :
    n ∈ ofClasses classes ↔
      n = actionName ∨ ∃ c ∈ classes, c.name = n ∧ ∃ p m, c.LooksLikeCallback p m := by
  have hdefault : n ∈ default ↔ n = actionName := by
    rw [default, Std.ExtTreeSet.mem_ofList, List.contains_iff_mem, List.mem_singleton]
  rw [ofClasses, mem_foldl_insert, hdefault]
  simp only [List.mem_filter, ClassDescriptor.isCallback_iff]
  refine or_congr_right ⟨?_, ?_⟩
  · rintro ⟨c, ⟨hc, hshape⟩, hname⟩
    exact ⟨c, hc, hname, hshape⟩
  · rintro ⟨c, hc, hname, hshape⟩
    exact ⟨c, ⟨hc, hshape⟩, hname⟩

theorem size_eq_ncard (names : Callbacks) : names.size = {n | n ∈ names}.ncard := by
  have hnodup : names.toList.Nodup :=
    Std.ExtTreeSet.distinct_toList.imp fun h heq => h (Std.LawfulEqCmp.compare_eq_iff_eq.mpr heq)
  have hset : {n | n ∈ names} = (names.toList.toFinset : Set String) := by
    apply Set.ext
    intro n
    rw [Finset.mem_coe, List.mem_toFinset, Std.ExtTreeSet.mem_toList]
    rfl
  rw [hset, Set.ncard_coe_finset, List.toFinset_card_of_nodup hnodup, Std.ExtTreeSet.length_toList]

/-- The name is that of a callback interface among these classes, or of the one that is always known. -/
def IsKnown (classes : List ClassDescriptor) (n : String) : Prop :=
  n = actionName ∨ ∃ c ∈ classes, c.name = n ∧ c.IsCallbackInterface

/-- What looks like a callback interface is one, or its method declares a type parameter of the name. -/
theorem mem_ofClasses_iff_isKnown_or {classes : List ClassDescriptor} {n : String} :
    n ∈ ofClasses classes ↔
      IsKnown classes n ∨ ∃ c ∈ classes, c.name = n ∧ ∃ p m, c.LooksLikeCallback p m
        ∧ p.name ∈ m.signature.typeParameters.map TypeParameter.name := by
  rw [mem_ofClasses, IsKnown, or_assoc]
  refine or_congr_right ⟨?_, ?_⟩
  · rintro ⟨c, hc, hname, p, m, hshape⟩
    by_cases hown : p.name ∈ m.signature.typeParameters.map TypeParameter.name
    · exact .inr ⟨c, hc, hname, p, m, hshape, hown⟩
    · exact .inl ⟨c, hc, hname, p, m, hshape, hown⟩
  · rintro (⟨c, hc, hname, p, m, hshape, -⟩ | ⟨c, hc, hname, p, m, hshape, -⟩)
    · exact ⟨c, hc, hname, p, m, hshape⟩
    · exact ⟨c, hc, hname, p, m, hshape⟩

/--
A name is recognized just if it is the one that is always known or a class of that name looks like a
callback interface. Neither the order of the classes nor repetitions matter. The names are those of the
callback interfaces, and as many, just if no class whose method declares the type parameter that it
takes adds a name to them.
-/
theorem callbacks_known_iff (classes : List ClassDescriptor) :
    (∀ n, (ofClasses classes).contains n = true ↔
        n = actionName ∨ ∃ c ∈ classes, c.name = n ∧ ∃ p m, c.LooksLikeCallback p m)
      ∧ (∀ others : List ClassDescriptor, (∀ c, c ∈ others ↔ c ∈ classes) →
        ofClasses others = ofClasses classes)
      ∧ (((∀ n, (ofClasses classes).contains n = true ↔ IsKnown classes n)
          ∧ (ofClasses classes).size = {n | IsKnown classes n}.ncard) ↔
        ∀ c ∈ classes, ∀ p m, c.LooksLikeCallback p m →
          p.name ∈ m.signature.typeParameters.map TypeParameter.name → IsKnown classes c.name) := by
  simp only [Std.ExtTreeSet.contains_iff_mem]
  refine ⟨fun n => mem_ofClasses, ?_, ?_⟩
  · intro others hothers
    apply Std.ExtTreeSet.ext_mem
    intro n
    simp only [mem_ofClasses, hothers]
  · constructor
    · rintro ⟨hknown, -⟩ c hc p m hshape -
      exact (hknown c.name).mp (mem_ofClasses.mpr (.inr ⟨c, hc, rfl, p, m, hshape⟩))
    · intro hnone
      have hknown : ∀ n, n ∈ ofClasses classes ↔ IsKnown classes n := by
        intro n
        rw [mem_ofClasses_iff_isKnown_or]
        refine or_iff_left_of_imp ?_
        rintro ⟨c, hc, rfl, p, m, hshape, hown⟩
        exact hnone c hc p m hshape hown
      refine ⟨hknown, ?_⟩
      rw [size_eq_ncard]
      simp only [hknown]

/-- An interface whose method declares a type parameter of the same name. -/
def shadowing : ClassDescriptor where
  name := "a.I"
  access := ⟨0x0601⟩
  signature := some ⟨[⟨"T", .object⟩], some .object, []⟩
  methods := [⟨"m", ⟨[⟨"T", .object⟩], [.typeVariable "T"], .primitive .void⟩, ⟨0x0401⟩⟩]

theorem shadowing_recognized :
    (ofClasses [shadowing]).contains "a.I" = true ∧ ¬ IsKnown [shadowing] "a.I"
      ∧ (ofClasses [shadowing]).size = 2 := by
  refine ⟨by decide +kernel, ?_, by decide +kernel⟩
  rintro (hname | ⟨c, hc, -, p, m, hshape, hown⟩)
  · exact absurd hname (by decide)
  · obtain rfl := List.mem_singleton.mp hc
    have hp : shadowing.typeParameters = [p] :=
      ClassDescriptor.typeParameters_eq_singleton.mpr hshape.declares
    have hm : shadowing.abstractMethods = [m] :=
      ClassDescriptor.abstractMethods_eq_singleton.mpr hshape.leavesOnly
    obtain rfl := (List.cons.inj hp).1
    have hmethods : shadowing.abstractMethods = shadowing.methods := by decide +kernel
    obtain rfl := (List.cons.inj (hmethods.symm.trans hm)).1
    exact hown List.mem_cons_self

end Callbacks

end DslBindings
