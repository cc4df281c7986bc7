import Mathlib.Data.List.Forall2
import DslBindings.Extension.Sweep
import DslBindings.Proofs.Rendering.Spellings

/-!
# Overloads that conflict

No two functions that are generated for a class have the same name and the same erased leading
parameters, since the second one is passed over. But what is written are spellings, so functions
conflict if these are the same. They are so just for functions that differ in nothing but whether values
of primitive types are boxed.
-/

namespace DslBindings

open Rendering

namespace ExtensionFunction

/-- Two functions that cannot be declared in one file. -/
def Conflicts (f f' : ExtensionFunction) : Prop :=
  f.name = f'.name ∧ f.parameters.map Parameter.typeText = f'.parameters.map Parameter.typeText

instance (f f' : ExtensionFunction) : Decidable (f.Conflicts f') := instDecidableAnd

/-- Two functions of one name that differ in that some values are boxed, and in nothing else that is
written of their parameters. -/
structure DiffersInBoxing (f f' : ExtensionFunction) : Prop where
  name : f.name = f'.name
  parameters : List.Forall₂
    (fun p q => AreBoxed p.type q.type ∨ p.type.erasedName = q.type.erasedName ∧ p.typeText = q.typeText)
    f.parameters f'.parameters
  boxed : ∃ pair ∈ f.parameters.zip f'.parameters, AreBoxed pair.1.type pair.2.type

/-- A function with parameters of ordinary types. -/
def IsOrdinary (f : ExtensionFunction) : Prop := ∀ p ∈ f.parameters, Rendering.IsOrdinary p.type

instance (f : ExtensionFunction) : Decidable f.IsOrdinary :=
  inferInstanceAs (Decidable (∀ p ∈ f.parameters, Rendering.IsOrdinary p.type))

/-- What no two functions of a class have in common. -/
def erasedKey (f : ExtensionFunction) : LeadingKey :=
  (f.name, f.parameters.map (·.type.erasedName))

/-! ### Parameters -/

namespace Parameter

/-- A parameter that lacks its type argument only if its type can. -/
def IsSound (p : Parameter) : Prop := p.isRaw = true → p.type = .plain "java.lang.Iterable"

/-- The spelling of a parameter's type from the first angle bracket on. -/
def tail (p : Parameter) : String := if p.isRaw then "<*>" else Rendering.tail p.type

variable {p q : Parameter}

theorem wrapper_ne_iterable (k : PrimitiveType) : k.wrapper ≠ "java.lang.Iterable" := by
  cases k <;> decide

theorem typeText_eq (hp : p.IsSound) : p.typeText = head p.type ++ p.tail := by
  rw [typeText, tail]
  cases hraw : p.isRaw with
  | false => exact type_eq p.type
  | true =>
    rw [hp hraw]
    rfl

theorem isTail_tail (p : Parameter) : IsTail p.tail := by
  rw [tail]
  split
  · exact .inr ⟨['*', '>'], by decide⟩
  · exact Rendering.isTail_tail p.type

theorem isRaw_eq_false (hp : p.IsSound) (h : AreBoxed p.type q.type) : p.isRaw = false := by
  rw [Bool.eq_false_iff]
  intro hraw
  rw [hp hraw] at h
  obtain ⟨k, ⟨hk, -⟩ | ⟨-, hk⟩⟩ := h
  · cases hk
  · exact wrapper_ne_iterable k (JvmType.plain.inj hk).symm

/-- A parameter without its type argument is told apart by the head of its type. -/
theorem erasedName_eq_of_isRaw (hp : p.IsSound) (hraw : p.isRaw = true)
    (hpo : Rendering.IsOrdinary p.type) (hqo : Rendering.IsOrdinary q.type)
    (h : head p.type = head q.type) : p.type.erasedName = q.type.erasedName := by
  have hplain := hp hraw
  rcases cases_of_head_eq hpo hqo h with herased | ⟨k, ⟨hk, -⟩ | ⟨-, hclass⟩⟩ | ⟨e, f, he, -⟩
  · exact herased
  · rw [hplain] at hk
    cases hk
  · rw [hplain] at hclass
    exact absurd (Option.some.inj hclass).symm (wrapper_ne_iterable k)
  · rw [hplain] at he
    cases he

/-- Parameters that are spelled alike have the same erasure, or one is boxed. -/
theorem areBoxed_or_erasedName_eq (hp : p.IsSound) (hq : q.IsSound)
    (hpo : Rendering.IsOrdinary p.type) (hqo : Rendering.IsOrdinary q.type)
    (h : p.typeText = q.typeText) :
    AreBoxed p.type q.type ∨ p.type.erasedName = q.type.erasedName := by
  obtain ⟨hhead, htail⟩ : head p.type = head q.type ∧ p.tail = q.tail := by
    rw [typeText_eq hp, typeText_eq hq] at h
    exact append_tail_inj hpo.not_mem_head hqo.not_mem_head p.isTail_tail q.isTail_tail h
  cases hpr : p.isRaw with
  | true => exact .inr (erasedName_eq_of_isRaw hp hpr hpo hqo hhead)
  | false =>
    cases hqr : q.isRaw with
    | true => exact .inr (erasedName_eq_of_isRaw hq hqr hqo hpo hhead.symm).symm
    | false =>
      have htext : Rendering.type p.type = Rendering.type q.type := by
        rw [typeText, typeText, hpr, hqr] at h
        exact h
      exact (erasedName_eq_or_areBoxed hpo hqo htext).symm

theorem typeText_eq_of_areBoxed (hp : p.IsSound) (hq : q.IsSound)
    (h : AreBoxed p.type q.type) : p.typeText = q.typeText := by
  rw [typeText, typeText, isRaw_eq_false hp h, isRaw_eq_false hq h.symm]
  exact h.type_eq

end Parameter

/-! ### Two functions -/

/-- A function each of whose parameters is sound. -/
def IsSound (f : ExtensionFunction) : Prop := ∀ p ∈ f.parameters, p.IsSound

theorem map_eq_map_iff {α β : Type} {g : α → β} {xs ys : List α} :
    xs.map g = ys.map g ↔ List.Forall₂ (fun x y => g x = g y) xs ys := by
  rw [← List.forall₂_eq_eq_eq, List.forall₂_map_left_iff, List.forall₂_map_right_iff]

/-- Functions that are not of one erasure conflict if and only if they differ in boxing. -/
theorem conflicts_iff_differsInBoxing {f f' : ExtensionFunction} (hf : f.IsSound) (hf' : f'.IsSound)
    (ho : f.IsOrdinary) (ho' : f'.IsOrdinary) (hne : f.erasedKey ≠ f'.erasedKey) :
    f.Conflicts f' ↔ f.DiffersInBoxing f' := by
  constructor
  · rintro ⟨hname, htexts⟩
    obtain ⟨hlength, hzip⟩ := List.forall₂_iff_zip.mp (map_eq_map_iff.mp htexts)
    have hpair : ∀ {p q}, (p, q) ∈ f.parameters.zip f'.parameters →
        AreBoxed p.type q.type ∨ p.type.erasedName = q.type.erasedName := by
      intro p q hmem
      obtain ⟨hp, hq⟩ := List.of_mem_zip hmem
      exact Parameter.areBoxed_or_erasedName_eq (hf p hp) (hf' q hq) (ho p hp) (ho' q hq) (hzip hmem)
    refine ⟨hname, List.forall₂_iff_zip.mpr ⟨hlength, ?_⟩, ?_⟩
    · intro p q hmem
      exact (hpair hmem).imp_right fun herased => ⟨herased, hzip hmem⟩
    · by_contra hnone
      apply hne
      have herased : f.parameters.map (·.type.erasedName) = f'.parameters.map (·.type.erasedName) := by
        refine map_eq_map_iff.mpr (List.forall₂_iff_zip.mpr ⟨hlength, ?_⟩)
        intro p q hmem
        exact (hpair hmem).resolve_left fun hboxed => hnone ⟨(p, q), hmem, hboxed⟩
      rw [erasedKey, erasedKey, hname, herased]
  · rintro ⟨hname, hparameters, -⟩
    obtain ⟨hlength, hzip⟩ := List.forall₂_iff_zip.mp hparameters
    refine ⟨hname, map_eq_map_iff.mpr (List.forall₂_iff_zip.mpr ⟨hlength, ?_⟩)⟩
    intro p q hmem
    obtain ⟨hp, hq⟩ := List.of_mem_zip hmem
    rcases hzip hmem with hboxed | ⟨-, htext⟩
    · exact Parameter.typeText_eq_of_areBoxed (hf p hp) (hf' q hq) hboxed
    · exact htext

/-! ### The function of a method -/

theorem isRawParameter_eq_true {owner method : String} {t : JvmType}
    (h : isRawParameter owner method t = true) : t = .plain "java.lang.Iterable" := by
  cases t with
  | plain name =>
    simp only [isRawParameter, rawParameters, List.contains_eq_mem, decide_eq_true_eq,
      List.mem_singleton, RawParameter.mk.injEq] at h
    rw [h.2.2]
  | _ => cases h

theorem length_parameterNamesFrom (used : List String) (index count : Nat)
    (documented : List String) :
    (parameterNamesFrom used index count documented).length = count := by
  induction count generalizing used index documented with
  | zero => rfl
  | succ count ih => simp [parameterNamesFrom, ih]

variable {c : ClassDescriptor} {m : MethodDescriptor} {callback : Callback}
  {documentation : Option Documentation} {f : ExtensionFunction}

/-- What a function has of its method. -/
theorem of?_eq_ok (h : of? c m callback documentation = .ok f) :
    f.erasedKey = m.leadingKey ∧ f.IsSound := by
  rw [of?] at h
  split at h
  · cases h
  · cases h
    constructor
    · refine Prod.ext rfl (List.ext_getElem ?_ ?_)
      · simp [erasedKey, MethodDescriptor.leadingKey, MethodDescriptor.erasedLeading, parameterNames,
          length_parameterNamesFrom]
      · intro i _ _
        simp [erasedKey, MethodDescriptor.leadingKey, MethodDescriptor.erasedLeading]
    · intro p hp hraw
      rw [List.mem_iff_getElem] at hp
      obtain ⟨i, hi, rfl⟩ := hp
      rw [List.getElem_zipWith] at hraw ⊢
      exact isRawParameter_eq_true hraw

end ExtensionFunction

/-! ### The functions of a class -/

/-- The function that is written of a method. -/
def MethodOutcome.function? : MethodOutcome → Option ExtensionFunction
  | .generated f => some f
  | _ => none

namespace Generator

/-- The functions that are written of methods of a class, given the keys of the earlier ones. -/
def functionsFrom (g : Generator) (c : ClassDescriptor) (taken : List LeadingKey)
    (ms : List MethodDescriptor) : List ExtensionFunction :=
  (g.outcomesFrom c taken ms).filterMap MethodOutcome.function?

/-- The functions that are written of a class. -/
def functions (g : Generator) (c : ClassDescriptor) : List ExtensionFunction :=
  (g.outcomes c).filterMap MethodOutcome.function?

variable {g : Generator} {c : ClassDescriptor} {taken : List LeadingKey}

theorem blocks_eq : g.blocks c = (g.functions c).map ExtensionFunction.block := by
  have hblock : MethodOutcome.block? = fun o => o.function?.map ExtensionFunction.block := by
    funext o
    cases o <;> rfl
  rw [blocks, functions, List.map_filterMap, hblock]

/-- A method adds no function, or one with a key that is not taken, which it then is. -/
theorem functionsFrom_cons (g : Generator) (c : ClassDescriptor) (taken : List LeadingKey)
    (m : MethodDescriptor) (ms : List MethodDescriptor) :
    (∃ taken', taken ⊆ taken' ∧ g.functionsFrom c taken (m :: ms) = g.functionsFrom c taken' ms)
      ∨ ∃ f : ExtensionFunction, f.erasedKey ∉ taken ∧ f.IsSound ∧
        g.functionsFrom c taken (m :: ms) = f :: g.functionsFrom c (f.erasedKey :: taken) ms := by
  simp only [functionsFrom, outcomesFrom]
  cases m.callback? g.callbacks c with
  | none => exact .inl ⟨taken, List.Subset.refl _, rfl⟩
  | some callback =>
    dsimp only
    split
    · exact .inl ⟨taken, List.Subset.refl _, rfl⟩
    · split
      · exact .inl ⟨taken, List.Subset.refl _, rfl⟩
      · rename_i htaken
        rw [generate]
        cases hmade : ExtensionFunction.of? c m callback (g.documentationOf c m) with
        | error e => exact .inl ⟨m.leadingKey :: taken, List.subset_cons_self _ _, rfl⟩
        | ok f =>
          obtain ⟨hkey, hsound⟩ := ExtensionFunction.of?_eq_ok hmade
          refine .inr ⟨f, ?_, hsound, ?_⟩
          · rw [hkey]
            simpa using htaken
          · rw [hkey]
            rfl

theorem of_mem_functionsFrom {ms : List MethodDescriptor} {f : ExtensionFunction}
    (h : f ∈ g.functionsFrom c taken ms) : f.IsSound ∧ f.erasedKey ∉ taken := by
  induction ms generalizing taken with
  | nil => cases h
  | cons m ms ih =>
    rcases g.functionsFrom_cons c taken m ms with ⟨taken', hsub, heq⟩ | ⟨f', hnew, hsound, heq⟩
    · rw [heq] at h
      exact ⟨(ih h).1, fun hmem => (ih h).2 (hsub hmem)⟩
    · rw [heq] at h
      rcases List.mem_cons.mp h with rfl | h
      · exact ⟨hsound, hnew⟩
      · exact ⟨(ih h).1, fun hmem => (ih h).2 (List.mem_cons_of_mem _ hmem)⟩

theorem functionsFrom_pairwise (ms : List MethodDescriptor) :
    (g.functionsFrom c taken ms).Pairwise (fun f f' => f.erasedKey ≠ f'.erasedKey) := by
  induction ms generalizing taken with
  | nil => exact .nil
  | cons m ms ih =>
    rcases g.functionsFrom_cons c taken m ms with ⟨taken', -, heq⟩ | ⟨f, -, -, heq⟩
    · rw [heq]
      exact ih
    · rw [heq]
      refine .cons ?_ ih
      intro f' hf' hkey
      exact (of_mem_functionsFrom hf').2 (hkey ▸ List.mem_cons_self)

/-- The functions of a class are made soundly, and no two are of one erasure. -/
theorem functions_spec (g : Generator) (c : ClassDescriptor) :
    (∀ f ∈ g.functions c, f.IsSound)
      ∧ (g.functions c).Pairwise (fun f f' => f.erasedKey ≠ f'.erasedKey) := by
  rw [functions, outcomes]
  split
  · exact ⟨List.forall_mem_nil _, .nil⟩
  · exact ⟨fun f hf => (of_mem_functionsFrom hf).1, functionsFrom_pairwise c.methods⟩

/-- The functions that are written of a class conflict just where they differ in boxing, so that none do
if and only if no two differ so. -/
theorem functions_conflict_iff (g : Generator) (c : ClassDescriptor)
    (h : ∀ f ∈ g.functions c, f.IsOrdinary) :
    g.blocks c = (g.functions c).map ExtensionFunction.block
      ∧ (g.functions c).Pairwise (fun f f' => f.Conflicts f' ↔ f.DiffersInBoxing f')
      ∧ ((g.functions c).Pairwise (fun f f' => ¬ f.Conflicts f')
        ↔ (g.functions c).Pairwise (fun f f' => ¬ f.DiffersInBoxing f')) := by
  obtain ⟨hsound, hdistinct⟩ := functions_spec g c
  have hiff : (g.functions c).Pairwise (fun f f' => f.Conflicts f' ↔ f.DiffersInBoxing f') := by
    refine hdistinct.imp_of_mem ?_
    intro f f' hf hf' hne
    exact ExtensionFunction.conflicts_iff_differsInBoxing (hsound f hf) (hsound f' hf') (h f hf)
      (h f' hf') hne
  refine ⟨blocks_eq, hiff, ?_, ?_⟩
  · intro hnone
    exact (hiff.and hnone).imp fun ⟨hpair, hno⟩ hboxed => hno (hpair.mpr hboxed)
  · intro hnone
    exact (hiff.and hnone).imp fun ⟨hpair, hno⟩ hconflict => hno (hpair.mp hconflict)

/-- A class with methods of one name, each of which takes one of these types and an action. -/
def overloads (types : List JvmType) : ClassDescriptor where
  name := "a.C"
  access := ⟨1⟩
  signature := none
  methods := types.map fun t =>
    { name := "foo"
      signature :=
        { typeParameters := t.typeVariables.map (⟨·, .object⟩)
          parameters := [t, .generic actionName [.plain "a.T"]]
          returnType := .primitive .void }
      access := ⟨1⟩ }

/-- A generator without documentation. -/
def undocumented : Generator := ⟨∅, .default⟩

theorem functions_conflict_iff_overloads :
    let c := overloads [.primitive .int, .plain "java.lang.Integer", .typeVariable "T", .array (.plain "a.T")]
    (∀ f ∈ undocumented.functions c, f.IsOrdinary)
      ∧ (undocumented.functions c).length = 4
      ∧ undocumented.blocks c = (undocumented.functions c).map ExtensionFunction.block
      ∧ (undocumented.functions c).Pairwise (fun f f' => f.Conflicts f' ↔ f.DiffersInBoxing f')
      ∧ ((undocumented.functions c).Pairwise (fun f f' => ¬ f.Conflicts f')
        ↔ (undocumented.functions c).Pairwise (fun f f' => ¬ f.DiffersInBoxing f')) :=
  ⟨by decide +kernel, by decide +kernel, functions_conflict_iff _ _ (by decide +kernel)⟩

/-- An overload with the wrapper class conflicts, and so do a class and a type variable that are called
like the spelling of a primitive type. -/
theorem overloads_conflict :
    let conflictFree (types : List JvmType) : Prop :=
      (undocumented.functions (overloads types)).Pairwise (fun f f' => ¬ f.Conflicts f')
    ¬ conflictFree [.primitive .int, .plain "java.lang.Integer"]
      ∧ ¬ conflictFree [.primitive .int, .plain "Int"]
      ∧ ¬ conflictFree [.primitive .int, .typeVariable "Int"] := by
  decide +kernel

end Generator

end DslBindings
