import DslBindings.ClassFile.Conversion
import DslBindings.Proofs.Signature.Erasure
import DslBindings.Proofs.Signature.Parameters

/-!
# Erased names of methods

A class file has the types of a method twice: in the descriptor, and, where the method is generic, in a
signature that erases to the descriptor. The erased names of the parameters are those of the descriptor
whichever of the two is read, but for parameters that are type variables or arrays of them. Such a
parameter has the name that it would have without a bound.
-/

namespace DslBindings.ClassFile

open Signature (bind_eq_ok_iff)
open Signature.Format

variable {file : ClassFile} {entry : String} {member : Member}

/-- A method of a class file has a signature that erases to the descriptor of the method. -/
structure RecordsErasure (file : ClassFile) (entry : String) (member : Member) (scope : TypeScope)
    (signature descriptor : Method) : Prop where
  signatureText_eq :
    file.signatureText entry member.attributes = .ok (some (String.ofList signature.text))
  text_eq : file.text entry member.descriptorIndex = .ok (String.ofList descriptor.text)
  erases : signature.Erases scope descriptor

/-! ### Steps of the conversion -/

theorem getElem?_of_mapM {ε α β : Type} {f : α → Except ε β} {as : List α} {bs : List β}
    (h : as.mapM f = .ok bs) {i : Nat} {a : α} (ha : as[i]? = some a) :
    ∃ b, bs[i]? = some b ∧ f a = .ok b := by
  induction as generalizing bs i with
  | nil => cases ha
  | cons a' as ih =>
    simp only [List.mapM_cons, bind_eq_ok_iff] at h
    obtain ⟨b, hb, bs', hbs, hcons⟩ := h
    cases hcons
    cases i with
    | zero =>
      cases ha
      exact ⟨b, rfl, hb⟩
    | succ i => exact ih hbs ha

theorem parsed_eq_ok_iff {α : Type} {result : Except SignatureError α} {value : α} :
    parsed entry result = .ok value ↔ result = .ok value := by
  cases result <;> simp [parsed, Except.mapError]

/-- Every method of a class file is converted. -/
theorem exists_method_of_ofBytes {bytes : List UInt8} {c : ClassDescriptor} {i : Nat}
    (hfile : ofBytes? bytes = some file) (hread : ClassDescriptor.ofBytes entry bytes = .ok c)
    (hmember : file.methods[i]? = some member) :
    ∃ m, c.methods[i]? = some m ∧ file.method entry member = .ok m := by
  simp only [ClassDescriptor.ofBytes, hfile, descriptor, bind_eq_ok_iff] at hread
  obtain ⟨name, -, signature, -, methods, hmethods, hc⟩ := hread
  cases hc
  exact getElem?_of_mapM hmethods hmember

theorem exists_methodSignature_of_method {m : MethodDescriptor}
    (h : file.method entry member = .ok m) :
    ∃ name, file.methodSignature entry name member = .ok m.signature := by
  simp only [method, bind_eq_ok_iff] at h
  obtain ⟨name, -, signature, hsignature, hm⟩ := h
  cases hm
  exact ⟨name, hsignature⟩

/-- A method that has a generic signature has the types of that one or of the descriptor. -/
theorem methodSignature_eq_ok_iff {name generic text : String} {signature : MethodSignature}
    (htext : file.text entry member.descriptorIndex = .ok text)
    (hgeneric : file.signatureText entry member.attributes = .ok (some generic)) :
    file.methodSignature entry name member = .ok signature ↔
      ∃ descriptor g, MethodSignature.parse text = .ok descriptor ∧ MethodSignature.parse generic = .ok g
        ∧ trusted g descriptor = signature := by
  simp only [methodSignature, htext, hgeneric, bind_eq_ok_iff, parsed_eq_ok_iff, pure, Except.pure,
    Except.ok.injEq, exists_eq_left', exists_and_left]

/-! ### Names -/

theorem RecordsErasure.parameters_eq {scope : TypeScope} {s d : Method} {name : String}
    {signature : MethodSignature} (h : file.RecordsErasure entry member scope s d)
    (hread : file.methodSignature entry name member = .ok signature) :
    signature.parameters = s.parameters.map Value.type
      ∧ ∃ erased, MethodSignature.parse (String.ofList d.text) = .ok erased
        ∧ erased.parameters = d.parameters.map Value.type := by
  obtain ⟨erased, generic, herased, hgeneric, rfl⟩ :=
    (methodSignature_eq_ok_iff h.text_eq h.signatureText_eq).mp hread
  have hparameters := s.parameters_of_parse hgeneric
  have herasedParameters := d.parameters_of_parse herased
  have hlength : generic.parameters.length = erased.parameters.length := by
    rw [hparameters, herasedParameters, List.length_map, List.length_map]
    exact h.erases.parameters.length_eq
  refine ⟨?_, erased, herased, herasedParameters⟩
  rw [trusted, if_pos hlength, hparameters]

/--
The erased names of the parameters of a method, where its signature erases to its descriptor: they are
those of the descriptor, but a type variable, or an array of it, has the name of the top type in place of
its erasure. So all of them are those of the descriptor just if these type variables erase to a type with
that name.
-/
theorem erasedParameters_of_erases {bytes : List UInt8} {c : ClassDescriptor} {i : Nat}
    {scope : TypeScope} {s d : Method} (hfile : ofBytes? bytes = some file)
    (hread : ClassDescriptor.ofBytes entry bytes = .ok c) (hmember : file.methods[i]? = some member)
    (h : file.RecordsErasure entry member scope s d) :
    ∃ m erased, c.methods[i]? = some m
      ∧ MethodSignature.parse (String.ofList d.text) = .ok erased
      ∧ m.erasedParameters = List.zipWith
        (fun t name => if t.variable?.isSome then t.withTop.type.erasedName else name) s.parameters
        (erased.parameters.map JvmType.erasedName)
      ∧ (m.erasedParameters = erased.parameters.map JvmType.erasedName ↔
        ∀ t ∈ s.parameters, ∀ name, t.variable? = some name →
          ∃ bound, Erases (s.typeParameters :: scope) (.reference (.typeVariable name)) bound
            ∧ bound.type.erasedName = objectName) := by
  obtain ⟨m, hm, hmethod⟩ := exists_method_of_ofBytes hfile hread hmember
  obtain ⟨name, hsignature⟩ := exists_methodSignature_of_method hmethod
  obtain ⟨hparameters, erased, herased, herasedParameters⟩ := h.parameters_eq hsignature
  have hnames : m.erasedParameters = s.parameters.map (·.type.erasedName) := by
    rw [MethodDescriptor.erasedParameters, hparameters, List.map_map]
    rfl
  have herasedNames :
      erased.parameters.map JvmType.erasedName = d.parameters.map (·.type.erasedName) := by
    rw [herasedParameters, List.map_map]
    rfl
  refine ⟨m, erased, hm, herased, ?_, ?_⟩
  · rw [hnames, herasedNames]
    exact erasedNames_eq_zipWith h.erases.parameters
  · rw [hnames, herasedNames]
    exact erasedNames_eq_iff h.erases.parameters

/-! ### A method with an array of a bounded type variable -/

/-- The type variable of the method. -/
def boundedVariable : Identifier := .of ['T'] rfl

theorem isIdentifier_java :
    (!"java".toList.isEmpty && "java".toList.all fun c => !reserved.contains c) = true := rfl

theorem isIdentifier_lang :
    (!"lang".toList.isEmpty && "lang".toList.all fun c => !reserved.contains c) = true := rfl

/-- The class that bounds the type variable. -/
def boundingClass : ClassType :=
  .mk [.of "java".toList isIdentifier_java, .of "lang".toList isIdentifier_lang]
    (.mk (.of "Number".toList rfl) []) []

/-- A class nested in another one, both with type arguments. -/
def nestedClass : ClassType :=
  .mk [.of "java".toList isIdentifier_java, .of "util".toList rfl]
    (.mk (.of "Map".toList rfl) [.exactly (.typeVariable boundedVariable), .unbounded])
    [.mk (.of "Entry".toList rfl) [.exactly (.typeVariable boundedVariable)]]

def boundedSignature : Method where
  typeParameters := [⟨boundedVariable, some (.ofClass boundingClass), []⟩]
  parameters := [.reference (.array (.reference (.typeVariable boundedVariable))),
    .reference (.ofClass nestedClass)]
  result := none
  thrown := []

def boundedDescriptor : Method where
  typeParameters := []
  parameters := [.reference (.array (.reference (.ofClass boundingClass.raw))),
    .reference (.ofClass nestedClass.raw)]
  result := none
  thrown := []

theorem boundedSignature_erases : boundedSignature.Erases [] boundedDescriptor where
  typeParameters_eq := rfl
  thrown_eq := rfl
  parameters := by
    have hdeclared : TypeScope.find? [boundedSignature.typeParameters] boundedVariable
        = some (⟨boundedVariable, some (.ofClass boundingClass), []⟩,
          [boundedSignature.typeParameters]) := rfl
    exact .cons (.array (.typeVariable hdeclared (.ofClass boundingClass)))
      (.cons (.ofClass nestedClass) .nil)
  result := .none

/-- A constant with a short text. -/
def textConstant (text : String) : List UInt8 :=
  [1, 0, UInt8.ofNat text.toList.length] ++ text.toList.map fun c => UInt8.ofNat c.toNat

/-- The bytes of a class file with the method. -/
def boundedBytes : List UInt8 :=
  [0xCA, 0xFE, 0xBA, 0xBE, 0, 0, 0, 52, 0, 7] ++ textConstant "a/C" ++ [7, 0, 1] ++ textConstant "m"
    ++ textConstant "Signature" ++ textConstant (String.ofList boundedSignature.text)
    ++ textConstant (String.ofList boundedDescriptor.text)
    ++ [4, 1, 0, 2, 0, 0, 0, 0, 0, 0]
    ++ [0, 1, 4, 1, 0, 3, 0, 6, 0, 1, 0, 4, 0, 0, 0, 2, 0, 5]
    ++ [0, 0]

def boundedMember : Member := ⟨0x0401, 3, 6, [.signature 5]⟩

def boundedFile : ClassFile where
  pool := ⟨[.text "a/C", .classNamed 1, .text "m", .text "Signature",
    .text (String.ofList boundedSignature.text), .text (String.ofList boundedDescriptor.text)]⟩
  access := 0x0401
  thisClass := 2
  fields := []
  methods := [boundedMember]
  attributes := []

theorem ofBytes?_boundedBytes : ofBytes? boundedBytes = some boundedFile := by decide +kernel

theorem boundedFile_recordsErasure :
    boundedFile.RecordsErasure "a/C.class" boundedMember [] boundedSignature boundedDescriptor where
  signatureText_eq := rfl
  text_eq := rfl
  erases := boundedSignature_erases

def boundedClass : ClassDescriptor where
  name := "a.C"
  access := ⟨0x0401⟩
  signature := none
  methods := [{
    name := "m"
    signature := {
      typeParameters := [⟨"T", .plain "java.lang.Number"⟩]
      parameters := [.array (.typeVariable "T"), .generic "java.util.Map$Entry" [.typeVariable "T"]]
      returnType := .primitive .void }
    access := ⟨0x0401⟩ }]

theorem ofBytes_boundedBytes :
    ClassDescriptor.ofBytes "a/C.class" boundedBytes = .ok boundedClass := by
  rw [ClassDescriptor.ofBytes, ofBytes?_boundedBytes]
  cbv

theorem erasedParameters_of_erases_bounded :
    ofBytes? boundedBytes = some boundedFile
      ∧ ClassDescriptor.ofBytes "a/C.class" boundedBytes = .ok boundedClass
      ∧ boundedFile.methods[0]? = some boundedMember
      ∧ boundedFile.RecordsErasure "a/C.class" boundedMember [] boundedSignature boundedDescriptor
      ∧ ∃ m erased, boundedClass.methods[0]? = some m
        ∧ MethodSignature.parse (String.ofList boundedDescriptor.text) = .ok erased
        ∧ m.erasedParameters = List.zipWith
          (fun t name => if t.variable?.isSome then t.withTop.type.erasedName else name)
          boundedSignature.parameters (erased.parameters.map JvmType.erasedName)
        ∧ (m.erasedParameters = erased.parameters.map JvmType.erasedName ↔
          ∀ t ∈ boundedSignature.parameters, ∀ name, t.variable? = some name →
            ∃ bound, Erases [boundedSignature.typeParameters] (.reference (.typeVariable name)) bound
              ∧ bound.type.erasedName = objectName) :=
  ⟨ofBytes?_boundedBytes, ofBytes_boundedBytes, rfl, boundedFile_recordsErasure,
    erasedParameters_of_erases ofBytes?_boundedBytes ofBytes_boundedBytes rfl boundedFile_recordsErasure⟩

/-- The name of the array is not that of its erasure, because the type variable is bounded. -/
theorem erasedParameters_ne_of_bounded :
    String.ofList boundedSignature.text
        = "<T:Ljava/lang/Number;>([TT;Ljava/util/Map<TT;*>.Entry<TT;>;)V"
      ∧ String.ofList boundedDescriptor.text = "([Ljava/lang/Number;Ljava/util/Map$Entry;)V"
      ∧ ofBytes? boundedBytes = some boundedFile
      ∧ ClassDescriptor.ofBytes "a/C.class" boundedBytes = .ok boundedClass
      ∧ boundedFile.methods[0]? = some boundedMember
      ∧ boundedFile.RecordsErasure "a/C.class" boundedMember [] boundedSignature boundedDescriptor
      ∧ ∃ m erased, boundedClass.methods[0]? = some m
        ∧ MethodSignature.parse "([Ljava/lang/Number;Ljava/util/Map$Entry;)V" = .ok erased
        ∧ m.erasedParameters = ["java.lang.Object[]", "java.util.Map.Entry"]
        ∧ erased.parameters.map JvmType.erasedName = ["java.lang.Number[]", "java.util.Map.Entry"] := by
  refine ⟨by decide, by decide, ofBytes?_boundedBytes, ofBytes_boundedBytes, rfl,
    boundedFile_recordsErasure, ?_⟩
  exact ⟨_, ⟨[], [.array (.plain "java.lang.Number"), .plain "java.util.Map$Entry"], .primitive .void⟩,
    rfl, by cbv, by decide, by decide⟩

end DslBindings.ClassFile
