import Mathlib.Data.List.Infix
import DslBindings.Rendering

/-!
# Types that are spelled alike

A spelling says less than a type: a primitive type and its wrapper class are written with the same name.
For types as they stand in signatures, with qualified classes and with type variables that are not called
like a type, that is all: types that are spelled alike have the same erasure, or one is the wrapper of
the other (`erasedName_eq_or_areBoxed`). The first angle bracket of a spelling is what the proof goes by.
-/

namespace DslBindings

/-- The class of the objects that hold values of a primitive type. -/
def PrimitiveType.wrapper : PrimitiveType → String
  | .boolean => "java.lang.Boolean"
  | .byte => "java.lang.Byte"
  | .char => "java.lang.Character"
  | .short => "java.lang.Short"
  | .int => "java.lang.Integer"
  | .long => "java.lang.Long"
  | .float => "java.lang.Float"
  | .double => "java.lang.Double"
  | .void => "java.lang.Void"

namespace Rendering

/-- One of two types is primitive and the other one its wrapper. -/
def AreBoxed (s t : JvmType) : Prop :=
  ∃ p : PrimitiveType, s = .primitive p ∧ t = .plain p.wrapper ∨ t = .primitive p ∧ s = .plain p.wrapper

/-- The names of the classes of arrays. -/
def arrayNames : List String := "Array" :: PrimitiveType.all.map (primitive · ++ "Array")

/-- The names that are known to spellings. -/
def builtinNames : List String :=
  mappedClasses.map Prod.snd ++ PrimitiveType.all.map primitive ++ arrayNames

/-- The name of a class as compiled sources with packages have it. -/
structure IsOrdinaryClass (name : String) : Prop where
  isQualified : '.' ∈ (JvmType.sourceName name).toList
  hasNoArguments : '<' ∉ name.toList
  isNotBuiltin : JvmType.sourceName name ∉ builtinNames

instance (name : String) : Decidable (IsOrdinaryClass name) :=
  decidable_of_iff ('.' ∈ (JvmType.sourceName name).toList ∧ '<' ∉ name.toList
      ∧ JvmType.sourceName name ∉ builtinNames)
    ⟨fun ⟨hdot, hopen, hname⟩ => ⟨hdot, hopen, hname⟩, fun ⟨hdot, hopen, hname⟩ => ⟨hdot, hopen, hname⟩⟩

/-- The name of a type variable that cannot be taken for anything else. -/
structure IsOrdinaryVariable (name : String) : Prop where
  isNotQualified : '.' ∉ name.toList
  hasNoArguments : '<' ∉ name.toList
  isNotBuiltin : name ∉ builtinNames

instance (name : String) : Decidable (IsOrdinaryVariable name) :=
  decidable_of_iff ('.' ∉ name.toList ∧ '<' ∉ name.toList ∧ name ∉ builtinNames)
    ⟨fun ⟨hdot, hopen, hname⟩ => ⟨hdot, hopen, hname⟩, fun ⟨hdot, hopen, hname⟩ => ⟨hdot, hopen, hname⟩⟩

/-- A type as it can be that of a parameter. -/
def IsOrdinary : JvmType → Prop
  | .primitive p => p ≠ .void
  | .plain name | .generic name _ => IsOrdinaryClass name
  | .typeVariable name => IsOrdinaryVariable name
  | .array element => IsOrdinary element
  | .unbounded | .bounded _ _ => False

/-- Whether a type is an ordinary one. -/
def isOrdinary : (t : JvmType) → Decidable (IsOrdinary t)
  | .primitive p => inferInstanceAs (Decidable (p ≠ .void))
  | .plain name | .generic name _ => inferInstanceAs (Decidable (IsOrdinaryClass name))
  | .typeVariable name => inferInstanceAs (Decidable (IsOrdinaryVariable name))
  | .array element => isOrdinary element
  | .unbounded | .bounded _ _ => inferInstanceAs (Decidable False)

instance : DecidablePred IsOrdinary := isOrdinary

/-- Whether a type has arrays of a class of their own. -/
def hasOwnArray : JvmType → Bool
  | .primitive p => p ≠ .void
  | _ => false

theorem type_array (element : JvmType) :
    type (.array element) =
      if hasOwnArray element then type element ++ "Array" else "Array<" ++ type element ++ ">" := by
  cases element with
  | primitive p => cases p <;> rfl
  | _ => rfl

/-- The spelling of a type up to the first angle bracket. -/
def head : JvmType → String
  | .plain name | .generic name _ => className name
  | .array element => if hasOwnArray element then type element ++ "Array" else "Array"
  | t => type t

/-- The spelling of a type from the first angle bracket on. -/
def tail : JvmType → String
  | .generic _ arguments => "<" ++ ", ".intercalate (types arguments) ++ ">"
  | .array element => if hasOwnArray element then "" else "<" ++ type element ++ ">"
  | _ => ""

theorem type_eq (t : JvmType) : type t = head t ++ tail t := by
  cases t with
  | array element =>
    rw [type_array, head, tail]
    split
    · simp
    · simp only [String.append_assoc]
      rfl
  | generic name arguments => simp [type, head, tail, String.append_assoc]
  | _ => simp [type, head, tail]

/-- A text from the first angle bracket on, if it has one. -/
def IsTail (text : String) : Prop := text = "" ∨ ∃ rest, text.toList = '<' :: rest

theorem isTail_tail (t : JvmType) : IsTail (tail t) := by
  have hopen (inside : String) : IsTail ("<" ++ inside ++ ">") :=
    .inr ⟨inside.toList ++ ['>'], by simp⟩
  cases t with
  | generic name arguments => exact hopen _
  | array element =>
    rw [tail]
    split
    · exact .inl rfl
    · exact hopen _
  | _ => exact .inl rfl

/-- A text has one way to be cut at the first angle bracket. -/
theorem append_tail_inj {a b x y : String} (ha : '<' ∉ a.toList) (hb : '<' ∉ b.toList)
    (hx : IsTail x) (hy : IsTail y) (h : a ++ x = b ++ y) : a = b ∧ x = y := by
  have hcut {c z : String} (hc : '<' ∉ c.toList) (hz : IsTail z) :
      (c ++ z).toList.takeWhile (· ≠ '<') = c.toList := by
    have hall : ∀ d ∈ c.toList, decide (d ≠ '<') = true := by
      intro d hd
      rw [decide_eq_true_eq]
      rintro rfl
      exact hc hd
    rw [String.toList_append, List.takeWhile_append_of_pos hall]
    rcases hz with rfl | ⟨rest, hrest⟩
    · simp
    · simp [hrest]
  have hab : a = b := by
    apply String.toList_injective
    rw [← hcut ha hx, ← hcut hb hy, h]
  subst hab
  exact ⟨rfl, String.append_right_inj _ |>.mp h⟩

/-! ### Heads -/

theorem className_wrapper (p : PrimitiveType) : className p.wrapper = primitive p := by
  cases p <;> decide

theorem className_cases (name : String) :
    (∃ entry ∈ mappedClasses, name = entry.1 ∧ className name = entry.2)
      ∨ className name = JvmType.sourceName name := by
  rw [className]
  cases h : mappedClasses.lookup name with
  | none => exact .inr rfl
  | some spelling =>
    obtain ⟨front, back, hmapped, -⟩ := List.lookup_eq_some_iff.mp h
    have hmem : (name, spelling) ∈ mappedClasses := by
      rw [hmapped]
      exact List.mem_append_right front List.mem_cons_self
    exact .inl ⟨_, hmem, rfl, rfl⟩

theorem primitive_mem_builtinNames (p : PrimitiveType) : primitive p ∈ builtinNames :=
  List.mem_append_left _ (List.mem_append_right _ (List.mem_map.mpr ⟨p, p.mem_all, rfl⟩))

theorem mem_builtinNames_of_mem_arrayNames {name : String} (h : name ∈ arrayNames) :
    name ∈ builtinNames := List.mem_append_right _ h

theorem mem_builtinNames_of_mem_mappedClasses {entry : String × String}
    (h : entry ∈ mappedClasses) : entry.2 ∈ builtinNames :=
  List.mem_append_left _ (List.mem_append_left _ (List.mem_map.mpr ⟨entry, h, rfl⟩))

theorem head_array_mem (element : JvmType) : head (.array element) ∈ arrayNames := by
  cases element with
  | primitive p => cases p <;> decide
  | _ => exact List.mem_cons_self

/-- The spellings of known classes tell the classes apart, and from arrays. -/
theorem mappedClasses_inj : ∀ a ∈ mappedClasses, ∀ b ∈ mappedClasses, a.2 = b.2 → a.1 = b.1 := by
  decide

theorem mappedClasses_primitive :
    ∀ a ∈ mappedClasses, ∀ p ∈ PrimitiveType.all, a.2 = primitive p → a.1 = p.wrapper := by
  decide

theorem mappedClasses_not_mem_arrayNames : ∀ a ∈ mappedClasses, a.2 ∉ arrayNames := by
  decide

theorem primitive_not_mem_arrayNames : ∀ p ∈ PrimitiveType.all, primitive p ∉ arrayNames := by
  decide

namespace IsOrdinaryClass

variable {m n : String}

theorem sourceName_eq (hm : IsOrdinaryClass m) (hn : IsOrdinaryClass n)
    (h : className m = className n) : JvmType.sourceName m = JvmType.sourceName n := by
  rcases className_cases m with ⟨a, ha, rfl, hma⟩ | hms
  · rcases className_cases n with ⟨b, hb, rfl, hnb⟩ | hns
    · rw [mappedClasses_inj a ha b hb (by rw [← hma, ← hnb, h])]
    · rw [hma, hns] at h
      exact absurd (h ▸ mem_builtinNames_of_mem_mappedClasses ha) hn.isNotBuiltin
  · rcases className_cases n with ⟨b, hb, rfl, hnb⟩ | hns
    · rw [hms, hnb] at h
      exact absurd (h ▸ mem_builtinNames_of_mem_mappedClasses hb) hm.isNotBuiltin
    · rw [← hms, ← hns, h]

theorem eq_wrapper (hm : IsOrdinaryClass m) {p : PrimitiveType} (h : className m = primitive p) :
    m = p.wrapper := by
  rcases className_cases m with ⟨a, ha, rfl, hma⟩ | hms
  · exact mappedClasses_primitive a ha p p.mem_all (hma.symm.trans h)
  · rw [hms] at h
    exact absurd (h ▸ primitive_mem_builtinNames p) hm.isNotBuiltin

theorem className_not_mem_arrayNames (hm : IsOrdinaryClass m) : className m ∉ arrayNames := by
  rcases className_cases m with ⟨a, ha, rfl, hma⟩ | hms
  · rw [hma]
    exact mappedClasses_not_mem_arrayNames a ha
  · rw [hms]
    exact fun h => hm.isNotBuiltin (mem_builtinNames_of_mem_arrayNames h)

theorem className_ne_variable (hm : IsOrdinaryClass m) {v : String} (hv : IsOrdinaryVariable v) :
    className m ≠ v := by
  rintro rfl
  rcases className_cases m with ⟨a, ha, rfl, hma⟩ | hms
  · exact hv.isNotBuiltin (hma ▸ mem_builtinNames_of_mem_mappedClasses ha)
  · exact hv.isNotQualified (hms ▸ hm.isQualified)

theorem not_mem_className (hm : IsOrdinaryClass m) : '<' ∉ (className m).toList := by
  rcases className_cases m with ⟨a, ha, rfl, hma⟩ | hms
  · have hmapped : ∀ a ∈ mappedClasses, '<' ∉ a.2.toList := by decide
    rw [hma]
    exact hmapped a ha
  · rw [hms, JvmType.sourceName, Text.replaceChar, String.toList_ofList]
    intro hmem
    obtain ⟨d, hd, heq⟩ := List.mem_map.mp hmem
    split at heq
    · cases heq
    · exact hm.hasNoArguments (heq ▸ hd)

end IsOrdinaryClass

/-- The four kinds of types of parameters, with the head of each. -/
inductive Kind (t : JvmType) : Prop
  | primitive (p : PrimitiveType) (h : t = .primitive p) (hhead : head t = primitive p)
  | ofClass (name : String) (h : t.className? = some name) (hname : IsOrdinaryClass name)
      (hhead : head t = className name) (herased : t.erasedName = JvmType.sourceName name)
  | variable (name : String) (h : t = .typeVariable name) (hname : IsOrdinaryVariable name)
      (hhead : head t = name)
  | array (element : JvmType) (h : t = .array element) (hhead : head t ∈ arrayNames)

theorem IsOrdinary.kind {t : JvmType} (h : IsOrdinary t) : Kind t := by
  cases t with
  | primitive p => exact .primitive p rfl rfl
  | plain name => exact .ofClass name rfl h rfl rfl
  | generic name arguments => exact .ofClass name rfl h rfl rfl
  | typeVariable name => exact .variable name rfl h rfl
  | array element => exact .array element rfl (head_array_mem element)
  | unbounded => exact h.elim
  | bounded variance bound => exact h.elim

theorem IsOrdinary.not_mem_head {t : JvmType} (h : IsOrdinary t) : '<' ∉ (head t).toList := by
  rcases h.kind with ⟨p, -, hhead⟩ | ⟨name, -, hname, hhead, -⟩ | ⟨name, -, hname, hhead⟩ | ⟨_, -, hhead⟩
  · rw [hhead]
    cases p <;> decide
  · rw [hhead]
    exact hname.not_mem_className
  · rw [hhead]
    exact hname.hasNoArguments
  · have harrays : ∀ name ∈ arrayNames, '<' ∉ name.toList := by decide
    exact harrays _ hhead

/-- One of two types is primitive, and the other one is of its wrapper class. -/
def AreBoxedHeads (s t : JvmType) : Prop :=
  ∃ p : PrimitiveType, s = .primitive p ∧ t.className? = some p.wrapper
    ∨ t = .primitive p ∧ s.className? = some p.wrapper

/-- What types have in common whose spellings have the same head. -/
theorem cases_of_head_eq {s t : JvmType} (hs : IsOrdinary s) (ht : IsOrdinary t)
    (h : head s = head t) :
    s.erasedName = t.erasedName ∨ AreBoxedHeads s t ∨ ∃ e f, s = .array e ∧ t = .array f := by
  rcases hs.kind with ⟨p, rfl, hsh⟩ | ⟨m, hm, hmo, hsh, hse⟩ | ⟨v, rfl, hvo, hsh⟩ | ⟨e, rfl, hsh⟩
  · rcases ht.kind with ⟨q, rfl, hth⟩ | ⟨n, hn, hno, hth, hte⟩ | ⟨w, rfl, hwo, hth⟩ | ⟨f, rfl, hth⟩
    · left
      have hpq : primitive p = primitive q := hsh.symm.trans (h.trans hth)
      cases p <;> cases q <;> first | rfl | exact absurd hpq (by decide)
    · right
      left
      have hclass : className n = primitive p := hth.symm.trans (h.symm.trans hsh)
      exact ⟨p, .inl ⟨rfl, hno.eq_wrapper hclass ▸ hn⟩⟩
    · have hw : w = primitive p := hth.symm.trans (h.symm.trans hsh)
      exact absurd (hw ▸ primitive_mem_builtinNames p) hwo.isNotBuiltin
    · rw [← h, hsh] at hth
      exact absurd hth (primitive_not_mem_arrayNames p p.mem_all)
  · rcases ht.kind with ⟨q, rfl, hth⟩ | ⟨n, hn, hno, hth, hte⟩ | ⟨w, rfl, hwo, hth⟩ | ⟨f, rfl, hth⟩
    · right
      left
      have hclass : className m = primitive q := hsh.symm.trans (h.trans hth)
      exact ⟨q, .inr ⟨rfl, hmo.eq_wrapper hclass ▸ hm⟩⟩
    · left
      rw [hse, hte, hmo.sourceName_eq hno (hsh.symm.trans (h.trans hth))]
    · exact absurd (hsh.symm.trans (h.trans hth)) (hmo.className_ne_variable hwo)
    · rw [← h, hsh] at hth
      exact absurd hth hmo.className_not_mem_arrayNames
  · rcases ht.kind with ⟨q, rfl, hth⟩ | ⟨n, hn, hno, hth, hte⟩ | ⟨w, rfl, hwo, hth⟩ | ⟨f, rfl, hth⟩
    · have hv : v = primitive q := hsh.symm.trans (h.trans hth)
      exact absurd (hv ▸ primitive_mem_builtinNames q) hvo.isNotBuiltin
    · exact absurd (hth.symm.trans (h.symm.trans hsh)) (hno.className_ne_variable hvo)
    · exact .inl rfl
    · rw [← h, hsh] at hth
      exact absurd (mem_builtinNames_of_mem_arrayNames hth) hvo.isNotBuiltin
  · rcases ht.kind with ⟨q, rfl, hth⟩ | ⟨n, hn, hno, hth, hte⟩ | ⟨w, rfl, hwo, hth⟩ | ⟨f, rfl, hth⟩
    · rw [h, hth] at hsh
      exact absurd hsh (primitive_not_mem_arrayNames q q.mem_all)
    · rw [h, hth] at hsh
      exact absurd hsh hno.className_not_mem_arrayNames
    · rw [h, hth] at hsh
      exact absurd (mem_builtinNames_of_mem_arrayNames hsh) hwo.isNotBuiltin
    · exact .inr (.inr ⟨e, f, rfl, rfl⟩)

/-! ### Whole spellings -/

theorem AreBoxed.symm {s t : JvmType} (h : AreBoxed s t) : AreBoxed t s := by
  obtain ⟨p, h | h⟩ := h
  · exact ⟨p, .inr h⟩
  · exact ⟨p, .inl h⟩

theorem AreBoxed.type_eq {s t : JvmType} (h : AreBoxed s t) : type s = type t := by
  obtain ⟨p, ⟨rfl, rfl⟩ | ⟨rfl, rfl⟩⟩ := h
  · exact (className_wrapper p).symm
  · exact className_wrapper p

theorem head_and_tail_eq {s t : JvmType} (hs : IsOrdinary s) (ht : IsOrdinary t)
    (h : type s = type t) : head s = head t ∧ tail s = tail t := by
  rw [type_eq, type_eq] at h
  exact append_tail_inj hs.not_mem_head ht.not_mem_head (isTail_tail s) (isTail_tail t) h

/-- A class type with nothing behind its name is a plain one. -/
theorem eq_plain_of_tail_eq_empty {t : JvmType} {name : String} (h : t.className? = some name)
    (htail : tail t = "") : t = .plain name := by
  cases t with
  | plain n => rw [Option.some.inj h]
  | generic n arguments =>
    have hlist := congrArg String.toList htail
    simp [tail] at hlist
  | _ => cases h

theorem bracketed_inj {a b : String} (h : "<" ++ a ++ ">" = "<" ++ b ++ ">") : a = b := by
  apply String.toList_injective
  simpa using congrArg String.toList h

theorem ne_bracketed (a : String) : "" ≠ "<" ++ a ++ ">" := by
  intro h
  simpa using congrArg String.toList h

/-- Arrays that are spelled alike have elements that are spelled alike. -/
theorem element_of_array_eq {e f : JvmType} (hhead : head (.array e) = head (.array f))
    (htail : tail (.array e) = tail (.array f)) :
    type e = type f ∧ hasOwnArray e = hasOwnArray f := by
  rw [head, head] at hhead
  rw [tail, tail] at htail
  cases he : hasOwnArray e <;> cases hf : hasOwnArray f <;> simp only [he, hf] at hhead htail
  · exact ⟨bracketed_inj htail, rfl⟩
  · exact absurd htail.symm (ne_bracketed _)
  · exact absurd htail (ne_bracketed _)
  · exact ⟨String.append_left_inj _ |>.mp hhead, rfl⟩

/-- Arrays of primitive types are never spelled like those of wrappers. -/
theorem not_areBoxed_of_hasOwnArray_eq {e f : JvmType} (he : IsOrdinary e) (hf : IsOrdinary f)
    (h : hasOwnArray e = hasOwnArray f) : ¬ AreBoxed e f := by
  rintro ⟨p, ⟨rfl, rfl⟩ | ⟨rfl, rfl⟩⟩
  · exact he (by simpa [hasOwnArray] using h)
  · exact hf (by simpa [hasOwnArray] using h)

/-- Types that are spelled alike have the same erasure, or one is the wrapper of the other. -/
theorem erasedName_eq_or_areBoxed {s t : JvmType} (hs : IsOrdinary s) (ht : IsOrdinary t)
    (h : type s = type t) : s.erasedName = t.erasedName ∨ AreBoxed s t := by
  obtain ⟨hhead, htail⟩ := head_and_tail_eq hs ht h
  rcases cases_of_head_eq hs ht hhead with
    herased | ⟨p, ⟨rfl, hclass⟩ | ⟨rfl, hclass⟩⟩ | ⟨e, f, hse, htf⟩
  · exact .inl herased
  · exact .inr ⟨p, .inl ⟨rfl, eq_plain_of_tail_eq_empty hclass htail.symm⟩⟩
  · exact .inr ⟨p, .inr ⟨rfl, eq_plain_of_tail_eq_empty hclass htail⟩⟩
  · have hless : sizeOf e < sizeOf s := by
      rw [hse]
      simp
    rw [hse, htf] at hhead htail ⊢
    have he : IsOrdinary e := by
      rw [hse] at hs
      exact hs
    have hf : IsOrdinary f := by
      rw [htf] at ht
      exact ht
    obtain ⟨helement, hown⟩ := element_of_array_eq hhead htail
    rcases erasedName_eq_or_areBoxed he hf helement with herased | hboxed
    · left
      rw [JvmType.erasedName, JvmType.erasedName, herased]
    · exact absurd hboxed (not_areBoxed_of_hasOwnArray_eq he hf hown)
termination_by s

end Rendering

end DslBindings
