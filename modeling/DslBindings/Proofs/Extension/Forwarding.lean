import DslBindings.Proofs.Extension.Closedness
import DslBindings.Proofs.Text.Fresh

/-!
# Parameters of functions

A function passes its parameters on to its method by name, so no two may be of one name. Documented names
may be anything: they repeat each other, they are the name of the lambda, or they are what another
parameter falls back to. The names are therefore chosen one after the other, and each is legal and none
of those in front of it, whatever was documented.
-/

namespace DslBindings

open Text

namespace ExtensionFunction

/-! ### Fallback names -/

theorem toList_fallbackName (index : Nat) :
    (fallbackName index).toList = 'a' :: 'r' :: 'g' :: Nat.toDigits 10 index := by
  rw [fallbackName, String.toList_append, Nat.toString_eq_repr, Nat.toList_repr]
  rfl

/-- The characters that fallback names are made of. -/
def fallbackChars : List Char := "arg_0123456789".toList

theorem mem_fallbackChars_of_isDigit {c : Char} (h : c.isDigit = true) : c ∈ fallbackChars := by
  have hdigits : ∀ n < 58, 48 ≤ n → Char.ofNat n ∈ fallbackChars := by decide
  rw [Char.isDigit, Bool.and_eq_true, decide_eq_true_eq, decide_eq_true_eq] at h
  rw [← Char.ofNat_toNat c]
  exact hdigits _ (Nat.lt_succ_of_le h.2) h.1

theorem mem_fallbackChars {index k : Nat} {c : Char}
    (h : c ∈ (lengthened (fallbackName index) k).toList) : c ∈ fallbackChars := by
  rw [toList_lengthened, toList_fallbackName, List.mem_append, List.mem_replicate] at h
  rcases h with h | ⟨-, rfl⟩
  · simp only [List.mem_cons] at h
    rcases h with rfl | rfl | rfl | h
    · decide
    · decide
    · decide
    · exact mem_fallbackChars_of_isDigit (Nat.isDigit_of_mem_toDigits (by decide) (by decide) h)
  · decide

/-- A fallback name is legal, and stays so. -/
theorem isLegal_lengthened_fallbackName (index k : Nat) :
    Naming.isLegal (lengthened (fallbackName index) k) = true := by
  have hstart : (lengthened (fallbackName index) k).toList
      = 'a' :: 'r' :: 'g' :: (Nat.toDigits 10 index ++ List.replicate k '_') := by
    rw [toList_lengthened, toList_fallbackName]
    rfl
  rw [Naming.isLegal, Bool.and_eq_true, Bool.and_eq_true]
  refine ⟨⟨?_, ?_⟩, ?_⟩
  · rw [isAllBlank, hstart]
    rfl
  · have hreserved : ∀ word ∈ Naming.reservedWords, ¬ ['a', 'r', 'g'] <+: word.toList := by decide
    rw [Bool.not_eq_true', List.contains_eq_mem, decide_eq_false_iff_not]
    intro hmem
    exact hreserved _ hmem ⟨_, hstart.symm⟩
  · have hplain : fallbackChars.all fun c =>
        !Naming.structuralChars.contains c && Naming.isQuotable c := by decide
    rw [List.all_eq_true] at hplain ⊢
    intro c hc
    exact hplain c (mem_fallbackChars hc)

/-! ### The choice of names -/

/-- A name is what is chosen for a parameter if those in `used` are taken. -/
structure IsChosen (used : List String) (index : Nat) (documented : Option String) (name : String) :
    Prop where
  isLegal : Naming.isLegal name = true
  not_mem : name ∉ used
  documented_iff : ∀ d ∈ documented, name = d ↔ Naming.isLegal d = true ∧ d ∉ used
  fallback : documented ≠ some name →
    ∃ k, IsFirstFree used (fallbackName index) k ∧ name = lengthened (fallbackName index) k

theorem IsChosen.of_perm {used used' : List String} {index : Nat} {documented : Option String}
    {name : String} (h : IsChosen used index documented name) (hperm : used.Perm used') :
    IsChosen used' index documented name where
  isLegal := h.isLegal
  not_mem := by
    rw [← hperm.mem_iff]
    exact h.not_mem
  documented_iff d hd := by
    rw [← hperm.mem_iff]
    exact h.documented_iff d hd
  fallback hne := by
    obtain ⟨k, hfree, heq⟩ := h.fallback hne
    exact ⟨k, hfree.of_perm hperm, heq⟩

theorem isChosen_freshName {used : List String} {index : Nat} {documented : Option String}
    (h : ∀ d ∈ documented, ¬ (Naming.isLegal d = true ∧ d ∉ used)) :
    IsChosen used index documented (freshName used (fallbackName index)) := by
  obtain ⟨k, hfree, heq⟩ := exists_freshName_eq used (fallbackName index)
  rw [heq]
  have hlegal := isLegal_lengthened_fallbackName index k
  refine ⟨hlegal, hfree.not_mem, ?_, fun _ => ⟨k, hfree, rfl⟩⟩
  intro d hd
  constructor
  · rintro rfl
    exact ⟨hlegal, hfree.not_mem⟩
  · intro hd'
    exact absurd hd' (h d hd)

theorem isChosen_parameterName (used : List String) (index : Nat) (documented : Option String) :
    IsChosen used index documented (parameterName used index documented) := by
  cases documented with
  | none => exact isChosen_freshName (fun d hd => nomatch hd)
  | some d =>
    rw [parameterName]
    split
    · next h =>
      rw [Bool.and_eq_true, Bool.not_eq_true', List.contains_eq_mem, decide_eq_false_iff_not] at h
      refine ⟨h.1, h.2, ?_, fun hne => absurd rfl hne⟩
      intro d' hd'
      obtain rfl := Option.some.inj hd'
      exact iff_of_true rfl h
    · next h =>
      rw [Bool.and_eq_true, Bool.not_eq_true', List.contains_eq_mem, decide_eq_false_iff_not] at h
      apply isChosen_freshName
      intro d' hd'
      rwa [← Option.some.inj hd']

/-- Each of the names is chosen with those in front of it taken. -/
theorem isChosen_of_getElem?_parameterNamesFrom {used : List String} {index count : Nat}
    {documented : List String} {i : Nat} {name : String}
    (h : (parameterNamesFrom used index count documented)[i]? = some name) :
    IsChosen (used ++ (parameterNamesFrom used index count documented).take i) (index + i)
      documented[i]? name := by
  induction count generalizing used index documented i with
  | zero => cases h
  | succ count ih =>
    rw [parameterNamesFrom] at h ⊢
    cases i with
    | zero =>
      obtain rfl := Option.some.inj h
      rw [List.take_zero, List.append_nil, ← List.head?_eq_getElem?]
      exact isChosen_parameterName used index documented.head?
    | succ i =>
      -- The first name is in `used` from here on, and stays in front of the others.
      have hchosen := ih h
      rw [List.getElem?_tail, Nat.add_right_comm] at hchosen
      exact hchosen.of_perm List.perm_middle.symm

/-- A documented name may be what the parameter behind it falls back to. -/
example : parameterNames 2 ["arg1"] = ["arg1", "arg1_"] := by cbv

theorem nodup_of_isChosen {used names documented : List String}
    (h : ∀ i name, names[i]? = some name →
      IsChosen (used ++ names.take i) i documented[i]? name) : names.Nodup := by
  rw [List.Nodup, List.pairwise_iff_getElem]
  intro i j hi hj hlt heq
  have hnot := (h j names[j] (List.getElem?_eq_getElem hj)).not_mem
  apply hnot
  rw [← heq, List.mem_append, List.mem_take_iff_getElem]
  exact .inr ⟨i, by omega, rfl⟩

/-! ### What is declared and what is passed on -/

/-- A method of a class takes a type without the argument that it has to have. -/
def LacksArgument (owner method : String) (t : JvmType) : Prop :=
  ∃ entry ∈ rawParameters, entry.owner = owner ∧ entry.method = method ∧ t = .plain entry.type

theorem isRawParameter_iff {owner method : String} {t : JvmType} :
    isRawParameter owner method t = true ↔ LacksArgument owner method t := by
  constructor
  · intro h
    cases t with
    | plain type =>
      rw [isRawParameter, List.contains_eq_mem, decide_eq_true_eq] at h
      exact ⟨_, h, rfl, rfl, rfl⟩
    | _ => cases h
  · rintro ⟨entry, hmem, howner, hmethod, htype⟩
    rw [htype, isRawParameter, List.contains_eq_mem, decide_eq_true_eq, ← howner, ← hmethod]
    exact hmem

instance (owner method : String) (t : JvmType) : Decidable (LacksArgument owner method t) :=
  decidable_of_iff _ isRawParameter_iff

/-- What is declared for a parameter that a method of a class takes. -/
def declaration (owner method : String) (t : JvmType) (name : String) : String :=
  Naming.quote name ++ ": "
    ++ if LacksArgument owner method t then Rendering.type t ++ "<*>" else Rendering.type t

/-- The names of the parameters in front of the lambda. -/
def leadingNames (f : ExtensionFunction) : List String := f.parameters.map Parameter.name

/-- A function declares the parameters of a method of a class, with a lambda for the last one, under names
that are all different, and passes them on in place. -/
structure Forwards (f : ExtensionFunction) (c : ClassDescriptor) (m : MethodDescriptor)
    (documented : List String) : Prop where
  length : f.leadingNames.length + 1 = m.signature.parameters.length
  nodup : (f.leadingNames ++ [closureName]).Nodup
  areLegal : ∀ name ∈ f.leadingNames ++ [closureName], Naming.isLegal name = true
  areChosen : ∀ i name, f.leadingNames[i]? = some name →
    IsChosen (closureName :: f.leadingNames.take i) i documented[i]? name
  last : ∃ last argument, m.signature.parameters.getLast? = some last
    ∧ last.className? = some f.callback ∧ last.arguments = [argument]
    ∧ f.receiver = (Callback.mk f.callback argument).receiver
  render : f.render = f.comment ++ f.keyword ++ " " ++ c.sourceName ++ "." ++ Naming.quote m.name
    ++ "(" ++ ", ".intercalate
      (m.leading.zipWith (declaration c.name m.name) f.leadingNames ++ [f.closureParameter])
    ++ "): " ++ Rendering.type m.signature.returnType ++ " =\n    " ++ Naming.quote m.name
    ++ "(" ++ ", ".intercalate (f.leadingNames.map Naming.quote ++ [f.callbackArgument]) ++ ")"

variable {c : ClassDescriptor} {m : MethodDescriptor} {callback : Callback}
  {documentation : Option Documentation} {f : ExtensionFunction}

/-- What a function is made of besides the types that its method has. -/
theorem parameters_of?_eq_ok (h : of? c m callback documentation = .ok f) :
    f.owner = c.sourceName ∧ f.name = m.name ∧ f.callback = callback.className
      ∧ f.parameters = m.leading.zipWith (fun t name => ⟨name, t, isRawParameter c.name m.name t⟩)
        (parameterNames m.leading.length
          ((documentation.map Documentation.parameterNames).getD [])) := by
  rw [of?] at h
  split at h
  · cases h
  · cases h
    exact ⟨rfl, rfl, rfl, rfl⟩

theorem leadingNames_of?_eq_ok (h : of? c m callback documentation = .ok f) :
    f.leadingNames
      = parameterNames m.leading.length ((documentation.map Documentation.parameterNames).getD []) := by
  obtain ⟨-, -, -, hparameters⟩ := parameters_of?_eq_ok h
  rw [leadingNames, hparameters]
  apply List.ext_getElem
  · simp [parameterNames, length_parameterNamesFrom]
  · intro i _ _
    rw [List.getElem_map, List.getElem_zipWith]

theorem map_render_of?_eq_ok (h : of? c m callback documentation = .ok f) :
    f.parameters.map Parameter.render
      = m.leading.zipWith (declaration c.name m.name) f.leadingNames := by
  obtain ⟨-, -, -, hparameters⟩ := parameters_of?_eq_ok h
  rw [leadingNames_of?_eq_ok h, hparameters, List.map_zipWith]
  congr 1
  funext t name
  simp only [Parameter.render, Parameter.typeText, declaration, isRawParameter_iff]

theorem forwards_of?_eq_ok {callbacks : Callbacks} (hcallback : m.callback? callbacks c = some callback)
    (h : of? c m callback documentation = .ok f) :
    f.Forwards c m ((documentation.map Documentation.parameterNames).getD []) := by
  obtain ⟨last, hlast, hclass, harguments⟩ := MethodDescriptor.exists_last_of_callback? hcallback
  obtain ⟨-, hreturn, hreceiver, -⟩ := types_of?_eq_ok h
  obtain ⟨howner, hname, hcallbackName, -⟩ := parameters_of?_eq_ok h
  have hnames := leadingNames_of?_eq_ok h
  have hchosen : ∀ i name, f.leadingNames[i]? = some name →
      IsChosen ([closureName] ++ f.leadingNames.take i) i
        ((documentation.map Documentation.parameterNames).getD [])[i]? name := by
    rw [hnames]
    intro i name hi
    have hi' := isChosen_of_getElem?_parameterNamesFrom hi
    rwa [Nat.zero_add] at hi'
  have hmem : ∀ name ∈ f.leadingNames, Naming.isLegal name = true ∧ name ≠ closureName := by
    intro name hmem
    obtain ⟨i, hi⟩ := List.mem_iff_getElem?.mp hmem
    obtain ⟨hlegal, hnot, -, -⟩ := hchosen i name hi
    exact ⟨hlegal, List.ne_of_not_mem_cons hnot⟩
  constructor
  · have hpos := List.length_pos_of_mem (List.mem_of_getLast? hlast)
    rw [hnames, parameterNames, length_parameterNamesFrom, MethodDescriptor.leading,
      List.length_dropLast]
    omega
  · refine List.nodup_append.mpr ⟨nodup_of_isChosen hchosen, List.pairwise_singleton _ _, ?_⟩
    intro name hname' closure hclosure
    rw [List.mem_singleton.mp hclosure]
    exact (hmem name hname').2
  · intro name hname'
    rcases List.mem_append.mp hname' with hname' | hname'
    · exact (hmem name hname').1
    · rw [List.mem_singleton.mp hname']
      decide
  · exact hchosen
  · refine ⟨last, callback.argument, hlast, ?_, harguments, ?_⟩
    · rw [hcallbackName]
      exact hclass
    · rw [hreceiver, hcallbackName]
  · have hpassed : f.parameters.map (Naming.quote ·.name) = f.leadingNames.map Naming.quote := by
      rw [leadingNames, List.map_map]
      rfl
    rw [render, map_render_of?_eq_ok h, hpassed, howner, hname, hreturn]

end ExtensionFunction

namespace Generator

end Generator

end DslBindings
