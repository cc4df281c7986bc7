import DslBindings.Proofs.Extension.Closedness
import DslBindings.Proofs.Signature.WellFormedness

/-!
# Types of functions

The types of a function are those that the signature of its method spells, but for the receiver of its
lambda. That is what a type argument stands for, so it is a reference type and never a projection.
-/

namespace DslBindings

open JvmType

theorem JvmType.IsValue.arguments {t : JvmType} (h : t.IsValue) : ∀ a ∈ t.arguments, a.IsArgument := by
  cases h with
  | primitive => exact fun a ha => nomatch ha
  | reference isReference =>
    cases isReference with
    | generic name_ne arguments_ne areArguments => exact areArguments
    | _ => exact fun a ha => nomatch ha

theorem Callback.isReference_receiver {callback : Callback} (h : callback.argument.IsArgument) :
    callback.receiver.IsReference := by
  obtain ⟨className, argument⟩ := callback
  cases h with
  | unbounded => exact Signature.isReference_object
  | bounded isReference => exact isReference
  | exactly isReference =>
    have hsame : (Callback.mk className argument).receiver = argument := by cases isReference <;> rfl
    rw [hsame]
    exact isReference

namespace ExtensionFunction

/-- The types of a function make sense where they are written. None of them is a projection: those stand
only between angle brackets. -/
structure IsWellTyped (f : ExtensionFunction) : Prop where
  parameters : ∀ p ∈ f.parameters, p.type.IsValue
  receiver : f.receiver.IsReference
  returnType : f.returnType.IsReturned
  typeParameters : ∀ p ∈ f.typeParameters, p.IsWellFormed

theorem isWellTyped_of?_eq_ok {c : ClassDescriptor} {m : MethodDescriptor} {callback : Callback}
    {callbacks : Callbacks} {documentation : Option Documentation} {f : ExtensionFunction}
    (hm : m.signature.IsWellFormed) (hcallback : m.callback? callbacks c = some callback)
    (h : of? c m callback documentation = .ok f) : f.IsWellTyped := by
  obtain ⟨htypeParameters, hreturn, hreceiver, hparameters⟩ := types_of?_eq_ok h
  obtain ⟨last, hlast, -, harguments⟩ := MethodDescriptor.exists_last_of_callback? hcallback
  have hargument : callback.argument.IsArgument :=
    (hm.parameters last (List.mem_of_getLast? hlast)).arguments _ (harguments ▸ List.mem_cons_self)
  constructor
  · intro p hp
    exact hm.parameters _ (hparameters _ (List.mem_map_of_mem hp))
  · rw [hreceiver]
    exact Callback.isReference_receiver hargument
  · rw [hreturn]
    exact hm.returnType
  · rw [htypeParameters]
    exact hm.typeParameters

end ExtensionFunction

namespace Generator

open Signature

/--
What is read as a signature makes sense, and so does the receiver of a lambda that stands for a parameter
with one type argument. Of a class whose methods have signatures that were read, only functions are
written whose types make sense where they stand.
-/
theorem parsed_types_make_sense :
    (∀ text t, JvmType.parse text = .ok t → t.IsValue)
    ∧ (∀ text signature, MethodSignature.parse text = .ok signature → signature.IsWellFormed)
    ∧ (∀ text signature, ClassSignature.parse text = .ok signature → signature.IsWellFormed)
    ∧ (∀ text signature, MethodSignature.parse text = .ok signature →
        ∀ t ∈ signature.parameters, ∀ className argument, t.arguments = [argument] →
          (Callback.receiver ⟨className, argument⟩).IsReference
            ∧ ¬ (Callback.receiver ⟨className, argument⟩).IsWildcard
            ∧ ¬ (Callback.receiver ⟨className, argument⟩).IsPrimitive)
    ∧ ∀ (g : Generator) (sink : Sink) (c : ClassDescriptor),
        (∀ m ∈ c.methods, ∃ text, MethodSignature.parse text = .ok m.signature) →
          ∃ written : List ExtensionFunction,
            (g.writeClass sink c).2.taken = sink.taken ++ written.map ExtensionFunction.block
              ∧ ∀ f ∈ written, f.IsWellTyped := by
  have hmethod (text : String) (signature : MethodSignature)
      (h : MethodSignature.parse text = .ok signature) : signature.IsWellFormed :=
    (readMethod_decides.mp (parse_eq_ok_iff.mp h)).isWellFormed
  refine ⟨fun text t h => ?_, hmethod, fun text signature h => ?_, ?_, ?_⟩
  · exact (readField_decides.mp (parse_eq_ok_iff.mp h)).isValue
  · exact (readClass_decides.mp (parse_eq_ok_iff.mp h)).isWellFormed
  · intro text signature h t ht className argument hone
    have hargument := ((hmethod text signature h).parameters t ht).arguments argument (by simp [hone])
    have hreceiver : (Callback.receiver ⟨className, argument⟩).IsReference :=
      Callback.isReference_receiver hargument
    exact ⟨hreceiver, hreceiver.not_isWildcard, hreceiver.not_isPrimitive⟩
  · intro g sink c hparsed
    obtain ⟨written, htaken, hwritten⟩ := g.exists_taken_writeClass sink c
    refine ⟨written, htaken, fun f hf => ?_⟩
    obtain ⟨m, hmem, callback, hcallback, -, hmade⟩ := exists_method_of_mem_functions (hwritten f hf)
    obtain ⟨text, htext⟩ := hparsed m hmem
    exact ExtensionFunction.isWellTyped_of?_eq_ok (hmethod text _ htext) hcallback hmade

/-- A class with a method that takes an action. -/
def actionClass : ClassDescriptor where
  name := "a.C"
  access := ⟨1⟩
  signature := none
  methods :=
    [⟨"foo", ⟨[], [.generic actionName [.bounded .into (.plain "a.B")]], .primitive .void⟩, ⟨1⟩⟩]

theorem parsed_types_make_sense_actionClass :
    (Callback.receiver ⟨actionName, .bounded .into (.plain "a.B")⟩).IsReference
      ∧ ∃ written : List ExtensionFunction,
        (undocumented.writeClass .unlimited actionClass).2.taken = written.map ExtensionFunction.block
          ∧ written.length = 1 ∧ ∀ f ∈ written, f.IsWellTyped := by
  have hparsed : MethodSignature.parse "(Lorg/gradle/api/Action<-La/B;>;)V"
      = .ok ⟨[], [.generic actionName [.bounded .into (.plain "a.B")]], .primitive .void⟩ := by cbv
  have hlength : (undocumented.writeClass .unlimited actionClass).2.taken.length = 1 := by
    decide +kernel
  obtain ⟨-, -, -, hreceiver, hwritten⟩ := parsed_types_make_sense
  refine ⟨(hreceiver _ _ hparsed _ List.mem_cons_self actionName _ rfl).1, ?_⟩
  have hmethods : ∀ m ∈ actionClass.methods, ∃ text, MethodSignature.parse text = .ok m.signature := by
    intro m hm
    obtain rfl := List.mem_singleton.mp hm
    exact ⟨_, hparsed⟩
  obtain ⟨written, htaken, htypes⟩ := hwritten undocumented .unlimited actionClass hmethods
  refine ⟨written, htaken, ?_, htypes⟩
  rw [htaken] at hlength
  simpa [Sink.unlimited] using hlength

end Generator

end DslBindings
