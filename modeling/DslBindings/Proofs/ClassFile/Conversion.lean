import DslBindings.Proofs.ClassFile.ErasedNames

/-!
# Conversion in steps

The conversion of a class file is a list of steps: the name of the class, its signature, and for each of
its methods the name, the descriptor and the signature. Whether a step passes or how it fails is a matter
of the file alone. What carries the proof is that a computation which does some steps, followed by one
which does some others, does all of them in that order; so the conversion succeeds if and only if every
step passes, and otherwise it fails as the first one that does not.
-/

namespace DslBindings.ClassFile

open Signature (bind_eq_ok_iff)

/-- A step of the conversion of a class file. -/
inductive Step
  | className
  | classSignature
  | methodName (member : Member)
  | methodDescriptor (member : Member)
  | methodSignature (member : Member)
  deriving DecidableEq, Repr

def methodSteps (member : Member) : List Step :=
  [.methodName member, .methodDescriptor member, .methodSignature member]

/-- The steps of a conversion, in their order. -/
def steps (file : ClassFile) : List Step :=
  [.className] ++ ([.classSignature] ++ file.methods.flatMap methodSteps)

/-- The index is that of the first signature among attributes. -/
inductive IsFirstSignature (index : Nat) : List Attribute → Prop
  | here {attributes : List Attribute} : IsFirstSignature index (.signature index :: attributes)
  | behind {name : String} {attributes : List Attribute} (h : IsFirstSignature index attributes) :
      IsFirstSignature index (.other name :: attributes)

section

variable {α β : Type} (file : ClassFile) (entry place : String)
  (parse : String → Except SignatureError α)

/-- The text at an index is that of a value. -/
def Spells (index : Nat) (value : α) : Prop :=
  ∃ text, file.pool.text? index = some text ∧ parse text = .ok value

/-- Why no value can be read at an index, where `place` is the name of the text in errors. -/
inductive Refuses (index : Nat) : ClassFileError → Prop
  | unresolved (h : file.pool.text? index = none) : Refuses index (.format entry)
  | malformed {text : String} {e : SignatureError} (htext : file.pool.text? index = some text)
      (h : parse text = .error e) : Refuses index (.signature place e)

def Step.Passes : Step → Prop
  | .className => ∃ name, file.pool.className? file.thisClass = some name
  | .classSignature => ∀ index, IsFirstSignature index file.attributes →
      ∃ value, file.Spells ClassSignature.parse index value
  | .methodName member => ∃ name, file.pool.text? member.nameIndex = some name
  | .methodDescriptor member =>
      ∃ value, file.Spells MethodSignature.parse member.descriptorIndex value
  | .methodSignature member => ∀ index, IsFirstSignature index member.attributes →
      ∃ value, file.Spells MethodSignature.parse index value

/-- How a step fails. Errors in the types of a method have the name of the method, which is then known. -/
inductive Step.Fails : Step → ClassFileError → Prop
  | className (h : file.pool.className? file.thisClass = none) : Fails .className (.format entry)
  | classSignature {index : Nat} {e : ClassFileError}
      (hindex : IsFirstSignature index file.attributes)
      (h : file.Refuses entry entry ClassSignature.parse index e) : Fails .classSignature e
  | methodName {member : Member} (h : file.pool.text? member.nameIndex = none) :
      Fails (.methodName member) (.format entry)
  | methodDescriptor {member : Member} {name : String} {e : ClassFileError}
      (hname : file.pool.text? member.nameIndex = some name)
      (h : file.Refuses entry (entry ++ "#" ++ name) MethodSignature.parse member.descriptorIndex e) :
      Fails (.methodDescriptor member) e
  | methodSignature {member : Member} {name : String} {index : Nat} {e : ClassFileError}
      (hname : file.pool.text? member.nameIndex = some name)
      (hindex : IsFirstSignature index member.attributes)
      (h : file.Refuses entry (entry ++ "#" ++ name) MethodSignature.parse index e) :
      Fails (.methodSignature member) e

/-- The error of the first step that fails. -/
inductive FailsFirst : List Step → ClassFileError → Prop
  | here {step : Step} {others : List Step} {e : ClassFileError} (h : step.Fails file entry e) :
      FailsFirst (step :: others) e
  | behind {step : Step} {others : List Step} {e : ClassFileError} (hstep : step.Passes file)
      (h : FailsFirst others e) : FailsFirst (step :: others) e

/-- A method has a signature with as many parameters as its descriptor. -/
def Trusts (member : Member) (generic descriptor : MethodSignature) : Prop :=
  ∃ index, IsFirstSignature index member.attributes
    ∧ file.Spells MethodSignature.parse index generic
    ∧ generic.parameters.length = descriptor.parameters.length

/-- What is known of the method that a member is converted to. -/
structure IsMethodOf (member : Member) (m : MethodDescriptor) : Prop where
  name_eq : file.pool.text? member.nameIndex = some m.name
  access_eq : m.access = ⟨UInt16.ofNat (member.access &&& methodFlags)⟩
  types : ∃ descriptor, file.Spells MethodSignature.parse member.descriptorIndex descriptor
    ∧ m.signature.parameters.length = descriptor.parameters.length
    ∧ (∀ generic, file.Trusts member generic descriptor → m.signature = generic)
    ∧ ((¬ ∃ generic, file.Trusts member generic descriptor) → m.signature = descriptor)

/-- What is known of the class that a class file is converted to. -/
structure IsClassOf (c : ClassDescriptor) : Prop where
  name_eq : ∃ name, file.pool.className? file.thisClass = some name
    ∧ c.name = Text.replaceChar '/' '.' name
  access_eq : c.access = ⟨UInt16.ofNat (file.access &&& classFlags)⟩
  signature_of_first : ∀ index, IsFirstSignature index file.attributes →
    ∃ signature, file.Spells ClassSignature.parse index signature ∧ c.signature = some signature
  signature_of_none : (¬ ∃ index, IsFirstSignature index file.attributes) → c.signature = none
  /-- There is one method for each member, in the order of the file. -/
  methods : List.Forall₂ file.IsMethodOf file.methods c.methods

/-- A computation does some steps: it succeeds only if all of them pass, and fails only as the first one
that does not. -/
structure Does (steps : List Step) (result : Except ClassFileError β) : Prop where
  passes : ∀ value, result = .ok value → ∀ step ∈ steps, step.Passes file
  fails : ∀ e, result = .error e → file.FailsFirst entry steps e

end

variable {α β : Type} {file : ClassFile} {entry place : String} {member : Member}
  {parse : String → Except SignatureError α} {index : Nat}

/-! ### What a step does is determined -/

theorem signatureIndex?_eq_some_iff {attributes : List Attribute} :
    Attribute.signatureIndex? attributes = some index ↔ IsFirstSignature index attributes := by
  constructor
  · intro h
    induction attributes with
    | nil => cases h
    | cons a attributes ih =>
      cases a with
      | signature first =>
        cases h
        exact .here
      | other name => exact .behind (ih h)
  · intro h
    induction h with
    | here => rfl
    | behind _ ih => exact ih

theorem IsFirstSignature.unique {attributes : List Attribute} {index' : Nat}
    (h : IsFirstSignature index attributes) (h' : IsFirstSignature index' attributes) :
    index = index' := by
  rw [← signatureIndex?_eq_some_iff] at h h'
  exact Option.some.inj (h.symm.trans h')

theorem Spells.unique {value value' : α} (h : file.Spells parse index value)
    (h' : file.Spells parse index value') : value = value' := by
  obtain ⟨text, htext, hvalue⟩ := h
  obtain ⟨text', htext', hvalue'⟩ := h'
  cases htext.symm.trans htext'
  exact Except.ok.inj (hvalue.symm.trans hvalue')

theorem Refuses.not_spells {e : ClassFileError} {value : α}
    (h : file.Refuses entry place parse index e) : ¬ file.Spells parse index value := by
  rintro ⟨text, htext, hvalue⟩
  cases h with
  | unresolved hnone =>
    rw [hnone] at htext
    cases htext
  | malformed htext' hparse =>
    cases htext.symm.trans htext'
    rw [hparse] at hvalue
    cases hvalue

theorem Refuses.unique {e e' : ClassFileError} (h : file.Refuses entry place parse index e)
    (h' : file.Refuses entry place parse index e') : e = e' := by
  cases h with
  | unresolved hnone =>
    cases h' with
    | unresolved => rfl
    | malformed htext =>
      rw [hnone] at htext
      cases htext
  | malformed htext hparse =>
    cases h' with
    | unresolved hnone =>
      rw [hnone] at htext
      cases htext
    | malformed htext' hparse' =>
      cases htext.symm.trans htext'
      rw [Except.error.inj (hparse.symm.trans hparse')]

theorem Step.Fails.not_passes {step : Step} {e : ClassFileError} (h : step.Fails file entry e) :
    ¬ step.Passes file := by
  intro hpasses
  cases h with
  | className hnone =>
    obtain ⟨name, hname⟩ := hpasses
    rw [hnone] at hname
    cases hname
  | classSignature hindex hrefuses =>
    obtain ⟨value, hvalue⟩ := hpasses _ hindex
    exact hrefuses.not_spells hvalue
  | methodName hnone =>
    obtain ⟨name, hname⟩ := hpasses
    rw [hnone] at hname
    cases hname
  | methodDescriptor hname hrefuses =>
    obtain ⟨value, hvalue⟩ := hpasses
    exact hrefuses.not_spells hvalue
  | methodSignature hname hindex hrefuses =>
    obtain ⟨value, hvalue⟩ := hpasses _ hindex
    exact hrefuses.not_spells hvalue

theorem Step.Fails.unique {step : Step} {e e' : ClassFileError} (h : step.Fails file entry e)
    (h' : step.Fails file entry e') : e = e' := by
  cases h with
  | className =>
    cases h'
    rfl
  | classSignature hindex hrefuses =>
    cases h' with
    | classSignature hindex' hrefuses' =>
      cases hindex.unique hindex'
      exact hrefuses.unique hrefuses'
  | methodName =>
    cases h'
    rfl
  | methodDescriptor hname hrefuses =>
    cases h' with
    | methodDescriptor hname' hrefuses' =>
      cases hname.symm.trans hname'
      exact hrefuses.unique hrefuses'
  | methodSignature hname hindex hrefuses =>
    cases h' with
    | methodSignature hname' hindex' hrefuses' =>
      cases hname.symm.trans hname'
      cases hindex.unique hindex'
      exact hrefuses.unique hrefuses'

theorem FailsFirst.exists_not_passes {steps : List Step} {e : ClassFileError}
    (h : file.FailsFirst entry steps e) : ∃ step ∈ steps, ¬ step.Passes file := by
  induction h with
  | here h => exact ⟨_, List.mem_cons_self, h.not_passes⟩
  | behind hstep h ih =>
    obtain ⟨step, hmem, hnot⟩ := ih
    exact ⟨step, List.mem_cons_of_mem _ hmem, hnot⟩

theorem FailsFirst.unique {steps : List Step} {e e' : ClassFileError}
    (h : file.FailsFirst entry steps e) (h' : file.FailsFirst entry steps e') : e = e' := by
  induction h with
  | here h =>
    cases h' with
    | here h' => exact h.unique h'
    | behind hstep => exact absurd hstep h.not_passes
  | behind hstep h ih =>
    cases h' with
    | here h' => exact absurd hstep h'.not_passes
    | behind _ h' => exact ih h'

theorem FailsFirst.append_left {steps others : List Step} {e : ClassFileError}
    (h : file.FailsFirst entry steps e) : file.FailsFirst entry (steps ++ others) e := by
  induction h with
  | here h => exact .here h
  | behind hstep _ ih => exact .behind hstep ih

theorem FailsFirst.append_right {steps others : List Step} {e : ClassFileError}
    (hsteps : ∀ step ∈ steps, step.Passes file) (h : file.FailsFirst entry others e) :
    file.FailsFirst entry (steps ++ others) e := by
  induction steps with
  | nil => exact h
  | cons step steps ih =>
    exact .behind (hsteps step List.mem_cons_self)
      (ih fun other hmem => hsteps other (List.mem_cons_of_mem step hmem))

/-! ### Computations that do steps -/

theorem does_nil (value : β) : file.Does entry [] (.ok value) where
  passes _ _ _ hstep := absurd hstep List.not_mem_nil
  fails _ h := by cases h

theorem does_singleton {step : Step} {result : Except ClassFileError β}
    (hpasses : ∀ value, result = .ok value → step.Passes file)
    (hfails : ∀ e, result = .error e → step.Fails file entry e) : file.Does entry [step] result where
  passes value h other hother := by
    rw [List.mem_singleton.mp hother]
    exact hpasses value h
  fails e h := .here (hfails e h)

theorem Does.bind {steps others : List Step} {result : Except ClassFileError α}
    {next : α → Except ClassFileError β} (h : file.Does entry steps result)
    (hnext : ∀ value, result = .ok value → file.Does entry others (next value)) :
    file.Does entry (steps ++ others) (result >>= next) := by
  cases result with
  | error e =>
    refine ⟨fun value hvalue => ?_, fun e' he => ?_⟩
    · cases hvalue
    · cases he
      exact (h.fails e rfl).append_left
  | ok value =>
    have hothers := hnext value rfl
    have hsteps := h.passes value rfl
    refine ⟨fun last hlast step hstep => ?_, fun e he => ?_⟩
    · rcases List.mem_append.mp hstep with hstep | hstep
      · exact hsteps step hstep
      · exact hothers.passes last hlast step hstep
    · exact (hothers.fails e he).append_right hsteps

theorem Does.map {steps : List Step} {result : Except ClassFileError α} (h : file.Does entry steps result)
    (f : α → β) : file.Does entry steps (result >>= fun value => pure (f value)) := by
  have hend : ∀ value, result = .ok value → file.Does entry [] (pure (f value)) :=
    fun value _ => does_nil (f value)
  have hbind := h.bind hend
  rwa [List.append_nil] at hbind

theorem does_mapM {f : Member → Except ClassFileError β} {stepsOf : Member → List Step}
    (members : List Member) (h : ∀ member, file.Does entry (stepsOf member) (f member)) :
    file.Does entry (members.flatMap stepsOf) (members.mapM f) := by
  induction members with
  | nil => exact does_nil []
  | cons member members ih =>
    rw [List.mapM_cons, List.flatMap_cons]
    exact (h member).bind fun value _ => ih.map (value :: ·)

theorem Does.exists_ok_iff {steps : List Step} {result : Except ClassFileError β}
    (h : file.Does entry steps result) :
    (∃ value, result = .ok value) ↔ ∀ step ∈ steps, step.Passes file := by
  constructor
  · rintro ⟨value, hvalue⟩
    exact h.passes value hvalue
  · intro hpasses
    cases result with
    | ok value => exact ⟨value, rfl⟩
    | error e =>
      obtain ⟨step, hstep, hnot⟩ := (h.fails e rfl).exists_not_passes
      exact absurd (hpasses step hstep) hnot

theorem Does.eq_error_iff {steps : List Step} {result : Except ClassFileError β} {e : ClassFileError}
    (h : file.Does entry steps result) :
    result = .error e ↔ file.FailsFirst entry steps e := by
  constructor
  · exact h.fails e
  · intro hfails
    cases result with
    | ok value =>
      obtain ⟨step, hstep, hnot⟩ := hfails.exists_not_passes
      exact absurd (h.passes value rfl step hstep) hnot
    | error e' => rw [(h.fails e' rfl).unique hfails]

/-! ### Reading one text -/

/-- What the text at an index spells. -/
def spelled (file : ClassFile) (entry place : String) (parse : String → Except SignatureError α)
    (index : Nat) : Except ClassFileError α := do
  parsed place (parse (← file.text entry index))

/-- What the first signature among attributes spells. -/
def spelledFirst (file : ClassFile) (entry place : String) (parse : String → Except SignatureError α)
    (attributes : List Attribute) : Except ClassFileError (Option α) :=
  match Attribute.signatureIndex? attributes with
  | some index => some <$> file.spelled entry place parse index
  | none => .ok none

theorem bind_eq_error_iff {x : Except ClassFileError α} {f : α → Except ClassFileError β}
    {e : ClassFileError} : x >>= f = .error e ↔ x = .error e ∨ ∃ a, x = .ok a ∧ f a = .error e := by
  cases x with
  | error e' => simp [Bind.bind, Except.bind]
  | ok a => simp [Bind.bind, Except.bind]

theorem text_eq_ok_iff {text : String} :
    file.text entry index = .ok text ↔ file.pool.text? index = some text := by
  unfold ClassFile.text
  cases file.pool.text? index <;> simp

theorem text_eq_error_iff {e : ClassFileError} :
    file.text entry index = .error e ↔ file.pool.text? index = none ∧ e = .format entry := by
  unfold ClassFile.text
  cases file.pool.text? index <;> simp [eq_comm]

theorem parsed_eq_error_iff {result : Except SignatureError α} {e : ClassFileError} :
    parsed place result = .error e ↔ ∃ e', result = .error e' ∧ e = .signature place e' := by
  cases result <;> simp [parsed, Except.mapError, eq_comm]

theorem spelled_eq_ok_iff {value : α} :
    file.spelled entry place parse index = .ok value ↔ file.Spells parse index value := by
  simp only [spelled, bind_eq_ok_iff, parsed_eq_ok_iff, text_eq_ok_iff, Spells]

theorem refuses_of_spelled {e : ClassFileError} (h : file.spelled entry place parse index = .error e) :
    file.Refuses entry place parse index e := by
  rw [spelled, bind_eq_error_iff] at h
  obtain h | ⟨text, htext, h⟩ := h
  · obtain ⟨hnone, rfl⟩ := text_eq_error_iff.mp h
    exact .unresolved hnone
  · obtain ⟨e', he', rfl⟩ := parsed_eq_error_iff.mp h
    exact .malformed (text_eq_ok_iff.mp htext) he'

theorem spelledFirst_of_isFirst {attributes : List Attribute}
    (h : IsFirstSignature index attributes) :
    file.spelledFirst entry place parse attributes = some <$> file.spelled entry place parse index := by
  rw [spelledFirst, signatureIndex?_eq_some_iff.mpr h]

theorem spelledFirst_of_none {attributes : List Attribute}
    (h : ¬ ∃ index, IsFirstSignature index attributes) :
    file.spelledFirst entry place parse attributes = .ok none := by
  have hnone : Attribute.signatureIndex? attributes = none := by
    rw [Option.eq_none_iff_forall_ne_some]
    intro index hindex
    exact h ⟨index, signatureIndex?_eq_some_iff.mp hindex⟩
  rw [spelledFirst, hnone]

theorem spells_of_spelledFirst {attributes : List Attribute} {value : Option α}
    (h : file.spelledFirst entry place parse attributes = .ok value)
    (hindex : IsFirstSignature index attributes) :
    ∃ v, file.Spells parse index v ∧ value = some v := by
  rw [spelledFirst_of_isFirst hindex, map_eq_pure_bind, bind_eq_ok_iff] at h
  obtain ⟨v, hv, hvalue⟩ := h
  exact ⟨v, spelled_eq_ok_iff.mp hv, (Except.ok.inj hvalue).symm⟩

theorem refuses_of_spelledFirst {attributes : List Attribute} {e : ClassFileError}
    (h : file.spelledFirst entry place parse attributes = .error e) :
    ∃ index, IsFirstSignature index attributes ∧ file.Refuses entry place parse index e := by
  by_cases hfirst : ∃ index, IsFirstSignature index attributes
  · obtain ⟨index, hindex⟩ := hfirst
    rw [spelledFirst_of_isFirst hindex, map_eq_pure_bind, bind_eq_error_iff] at h
    obtain h | ⟨v, -, h⟩ := h
    · exact ⟨index, hindex, refuses_of_spelled h⟩
    · cases h
  · rw [spelledFirst_of_none hfirst] at h
    cases h

theorem classSignature_eq :
    file.classSignature entry = file.spelledFirst entry entry ClassSignature.parse file.attributes := by
  rw [classSignature, signatureText, spelledFirst]
  cases Attribute.signatureIndex? file.attributes with
  | none => rfl
  | some index =>
    dsimp only
    rw [spelled]
    cases file.text entry index with
    | error e => rfl
    | ok text =>
      change (parsed entry (ClassSignature.parse text) >>= fun signature => pure (some signature))
        = some <$> parsed entry (ClassSignature.parse text)
      rw [map_eq_pure_bind]

theorem methodSignature_eq (name : String) :
    file.methodSignature entry name member = (do
      let descriptor ← file.spelled entry (methodEntry entry name) MethodSignature.parse
        member.descriptorIndex
      let generic ← file.spelledFirst entry (methodEntry entry name) MethodSignature.parse
        member.attributes
      return generic.elim descriptor fun generic => trusted generic descriptor) := by
  rw [methodSignature, spelled, bind_assoc]
  congr 1
  funext text
  congr 1
  funext descriptor
  rw [signatureText, spelledFirst]
  cases Attribute.signatureIndex? member.attributes with
  | none => rfl
  | some index =>
    dsimp only
    rw [spelled]
    cases file.text entry index with
    | error e => rfl
    | ok text =>
      -- Only the place where the signature is put into an option differs.
      change (parsed _ (MethodSignature.parse text) >>= fun generic => pure (trusted generic descriptor))
        = (some <$> parsed _ (MethodSignature.parse text)) >>= _
      rw [map_eq_pure_bind, bind_assoc]
      rfl

/-! ### The steps of a class file -/

theorem does_className : file.Does entry [.className] (file.className entry) := by
  unfold className
  cases hname : file.pool.className? file.thisClass with
  | none =>
    refine does_singleton (fun value h => ?_) fun e h => ?_
    · cases h
    · cases h
      exact .className hname
  | some name =>
    refine does_singleton (fun value h => ⟨name, hname⟩) fun e h => ?_
    cases h

theorem does_classSignature : file.Does entry [.classSignature] (file.classSignature entry) := by
  rw [classSignature_eq]
  refine does_singleton (fun value h index hindex => ?_) fun e h => ?_
  · obtain ⟨v, hv, -⟩ := spells_of_spelledFirst h hindex
    exact ⟨v, hv⟩
  · obtain ⟨index, hindex, hrefuses⟩ := refuses_of_spelledFirst h
    exact .classSignature hindex hrefuses

theorem does_methodName : file.Does entry [.methodName member] (file.text entry member.nameIndex) := by
  refine does_singleton (fun name h => ⟨name, text_eq_ok_iff.mp h⟩) fun e h => ?_
  obtain ⟨hnone, rfl⟩ := text_eq_error_iff.mp h
  exact .methodName hnone

theorem does_methodSignature {name : String} (hname : file.pool.text? member.nameIndex = some name) :
    file.Does entry [.methodDescriptor member, .methodSignature member]
      (file.methodSignature entry name member) := by
  rw [methodSignature_eq]
  have hdescriptor : file.Does entry [.methodDescriptor member]
      (file.spelled entry (methodEntry entry name) MethodSignature.parse member.descriptorIndex) :=
    does_singleton (fun descriptor h => ⟨descriptor, spelled_eq_ok_iff.mp h⟩)
      fun e h => .methodDescriptor hname (refuses_of_spelled h)
  have hgeneric : file.Does entry [.methodSignature member]
      (file.spelledFirst entry (methodEntry entry name) MethodSignature.parse member.attributes) := by
    refine does_singleton (fun value h index hindex => ?_) fun e h => ?_
    · obtain ⟨v, hv, -⟩ := spells_of_spelledFirst h hindex
      exact ⟨v, hv⟩
    · obtain ⟨index, hindex, hrefuses⟩ := refuses_of_spelledFirst h
      exact .methodSignature hname hindex hrefuses
  exact hdescriptor.bind fun descriptor _ => hgeneric.map _

theorem does_method (member : Member) :
    file.Does entry (methodSteps member) (file.method entry member) :=
  does_methodName.bind fun _ hname => (does_methodSignature (text_eq_ok_iff.mp hname)).map _

theorem does_descriptor : file.Does entry file.steps (file.descriptor entry) :=
  does_className.bind fun _ _ => does_classSignature.bind fun _ _ =>
    (does_mapM file.methods does_method).map _

/-! ### What a class file is converted to -/

theorem forall₂_of_mapM {f : α → Except ClassFileError β} {as : List α} {bs : List β}
    (h : as.mapM f = .ok bs) : List.Forall₂ (fun a b => f a = .ok b) as bs := by
  induction as generalizing bs with
  | nil =>
    cases h
    exact .nil
  | cons a as ih =>
    simp only [List.mapM_cons, bind_eq_ok_iff] at h
    obtain ⟨b, hb, bs', hbs, hcons⟩ := h
    cases hcons
    exact .cons hb (ih hbs)

theorem trusts_iff {generic descriptor : MethodSignature} (hindex : IsFirstSignature index member.attributes)
    (hgeneric : file.Spells MethodSignature.parse index generic) {other : MethodSignature} :
    file.Trusts member other descriptor ↔
      other = generic ∧ generic.parameters.length = descriptor.parameters.length := by
  constructor
  · rintro ⟨index', hindex', hother, hlength⟩
    cases hindex.unique hindex'
    cases hother.unique hgeneric
    exact ⟨rfl, hlength⟩
  · rintro ⟨rfl, hlength⟩
    exact ⟨index, hindex, hgeneric, hlength⟩

theorem isMethodOf_of_method {m : MethodDescriptor} (h : file.method entry member = .ok m) :
    file.IsMethodOf member m := by
  simp only [method, bind_eq_ok_iff, text_eq_ok_iff, methodSignature_eq, spelled_eq_ok_iff] at h
  obtain ⟨name, hname, signature, ⟨descriptor, hdescriptor, value, hvalue, hsignature⟩, hm⟩ := h
  cases hm
  refine ⟨hname, rfl, descriptor, hdescriptor, ?_⟩
  by_cases hfirst : ∃ index, IsFirstSignature index member.attributes
  · obtain ⟨index, hindex⟩ := hfirst
    obtain ⟨generic, hgeneric, rfl⟩ := spells_of_spelledFirst hvalue hindex
    have hsignature : trusted generic descriptor = signature := Except.ok.inj hsignature
    rw [← hsignature, trusted]
    simp only [trusts_iff hindex hgeneric]
    split
    · next hlength =>
      refine ⟨hlength, fun other hother => hother.1.symm, fun hnone => ?_⟩
      exact absurd ⟨generic, rfl, hlength⟩ hnone
    · next hlength => exact ⟨rfl, fun other hother => absurd hother.2 hlength, fun _ => rfl⟩
  · rw [spelledFirst_of_none hfirst] at hvalue
    cases hvalue
    have hsignature : descriptor = signature := Except.ok.inj hsignature
    subst signature
    refine ⟨rfl, ?_, fun _ => rfl⟩
    rintro generic ⟨index, hindex, -⟩
    exact absurd ⟨index, hindex⟩ hfirst

theorem className_eq_ok {name : String} (h : file.className entry = .ok name) :
    ∃ binary, file.pool.className? file.thisClass = some binary
      ∧ name = Text.replaceChar '/' '.' binary := by
  unfold className at h
  cases hbinary : file.pool.className? file.thisClass with
  | none =>
    rw [hbinary] at h
    cases h
  | some binary =>
    rw [hbinary] at h
    exact ⟨binary, rfl, (Except.ok.inj h).symm⟩

theorem isClassOf_of_descriptor {c : ClassDescriptor} (h : file.descriptor entry = .ok c) :
    file.IsClassOf c := by
  simp only [descriptor, bind_eq_ok_iff, classSignature_eq] at h
  obtain ⟨name, hname, signature, hsignature, methods, hmethods, hc⟩ := h
  cases hc
  refine ⟨className_eq_ok hname, rfl, fun index hindex => spells_of_spelledFirst hsignature hindex,
    fun hnone => ?_, (forall₂_of_mapM hmethods).imp fun _ _ => isMethodOf_of_method⟩
  rw [spelledFirst_of_none hnone] at hsignature
  exact (Except.ok.inj hsignature).symm

/--
A class file is converted if and only if every step of its conversion passes, and then to a class with one
method for each member, whose types are those of its signature where they are as many as those of the
descriptor, and those of the descriptor otherwise. Failing that, the error is that of the first step that
fails.
-/
theorem converts_or_fails_first {bytes : List UInt8} (entry : String)
    (hfile : ofBytes? bytes = some file) :
    ((∃ c, ClassDescriptor.ofBytes entry bytes = .ok c) ↔ ∀ step ∈ file.steps, step.Passes file)
      ∧ (∀ c, ClassDescriptor.ofBytes entry bytes = .ok c → file.IsClassOf c)
      ∧ ∀ e, ClassDescriptor.ofBytes entry bytes = .error e ↔ file.FailsFirst entry file.steps e := by
  have hresult : ClassDescriptor.ofBytes entry bytes = file.descriptor entry := by
    rw [ClassDescriptor.ofBytes, hfile]
  rw [hresult]
  exact ⟨does_descriptor.exists_ok_iff, fun c => isClassOf_of_descriptor,
    fun e => does_descriptor.eq_error_iff⟩

/-! ### A class file with a malformed signature -/

/-- The bytes of a class file with three methods. The signature of the first leaves out a parameter, that of
the second lacks a semicolon, and the third has no name. -/
def malformedBytes : List UInt8 :=
  [0xCA, 0xFE, 0xBA, 0xBE, 0, 0, 0, 52, 0, 10] ++ textConstant "a/O$I" ++ [7, 0, 1]
    ++ textConstant "<init>" ++ textConstant "(La/O;Ljava/util/List;)V" ++ textConstant "Signature"
    ++ textConstant "(Ljava/util/List<La/E;>;)V" ++ textConstant "run" ++ textConstant "(La/F;)V"
    ++ textConstant "(La/F<*>)V"
    ++ [0, 1, 0, 2, 0, 0, 0, 0, 0, 0]
    ++ [0, 3]
    ++ [0, 1, 0, 3, 0, 4, 0, 1, 0, 5, 0, 0, 0, 2, 0, 6]
    ++ [0, 1, 0, 7, 0, 8, 0, 1, 0, 5, 0, 0, 0, 2, 0, 9]
    ++ [0, 1, 0, 99, 0, 8, 0, 0]
    ++ [0, 0]

def malformedFile : ClassFile where
  pool := ⟨[.text "a/O$I", .classNamed 1, .text "<init>", .text "(La/O;Ljava/util/List;)V",
    .text "Signature", .text "(Ljava/util/List<La/E;>;)V", .text "run", .text "(La/F;)V",
    .text "(La/F<*>)V"]⟩
  access := 1
  thisClass := 2
  fields := []
  methods := [⟨1, 3, 4, [.signature 6]⟩, ⟨1, 7, 8, [.signature 9]⟩, ⟨1, 99, 8, []⟩]
  attributes := []

theorem ofBytes?_malformedBytes : ofBytes? malformedBytes = some malformedFile := by decide +kernel

theorem parse_initDescriptor : MethodSignature.parse "(La/O;Ljava/util/List;)V"
    = .ok ⟨[], [.plain "a.O", .plain "java.util.List"], .primitive .void⟩ := by cbv

theorem parse_initSignature : MethodSignature.parse "(Ljava/util/List<La/E;>;)V"
    = .ok ⟨[], [.generic "java.util.List" [.plain "a.E"]], .primitive .void⟩ := by cbv

theorem parse_runDescriptor :
    MethodSignature.parse "(La/F;)V" = .ok ⟨[], [.plain "a.F"], .primitive .void⟩ := by cbv

theorem parse_runSignature : MethodSignature.parse "(La/F<*>)V"
    = .error ⟨"(La/F<*>)V", 8, .expected ';' (some 0x29)⟩ := by cbv

/-- The third method is never reached. -/
theorem malformedFile_failsFirst : malformedFile.FailsFirst "a/O$I.class" malformedFile.steps
    (.signature "a/O$I.class#run" ⟨"(La/F<*>)V", 8, .expected ';' (some 0x29)⟩) := by
  refine .behind ⟨"a/O$I", rfl⟩ (.behind (fun index h => nomatch h) ?_)
  refine .behind ⟨"<init>", rfl⟩ (.behind ⟨_, _, rfl, parse_initDescriptor⟩ (.behind ?_ ?_))
  · intro index h
    cases h
    exact ⟨_, _, rfl, parse_initSignature⟩
  · have hname : malformedFile.pool.text? 7 = some "run" := rfl
    refine .behind ⟨"run", hname⟩ (.behind ⟨_, _, rfl, parse_runDescriptor⟩ (.here ?_))
    exact .methodSignature hname .here (.malformed rfl parse_runSignature)

theorem converts_or_fails_first_malformed :
    ofBytes? malformedBytes = some malformedFile
      ∧ ((∃ c, ClassDescriptor.ofBytes "a/O$I.class" malformedBytes = .ok c)
        ↔ ∀ step ∈ malformedFile.steps, step.Passes malformedFile)
      ∧ (∀ c, ClassDescriptor.ofBytes "a/O$I.class" malformedBytes = .ok c →
        malformedFile.IsClassOf c)
      ∧ ClassDescriptor.ofBytes "a/O$I.class" malformedBytes
        = .error (.signature "a/O$I.class#run" ⟨"(La/F<*>)V", 8, .expected ';' (some 0x29)⟩) := by
  have hconverts := converts_or_fails_first "a/O$I.class" ofBytes?_malformedBytes
  exact ⟨ofBytes?_malformedBytes, hconverts.1, hconverts.2.1,
    (hconverts.2.2 _).mpr malformedFile_failsFirst⟩

end DslBindings.ClassFile
