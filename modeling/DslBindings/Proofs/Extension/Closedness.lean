import DslBindings.Proofs.Extension.Accounting

/-!
# Type variables of functions

A function declares the type parameters of its method and no others, so a type variable that it mentions
has to be one of them. Methods for which this does not hold are passed over and counted, except those of
a generic class: such a class is passed over as a whole.
-/

namespace DslBindings

namespace JvmType

/-- A type mentions a type variable, at any depth. -/
inductive Mentions (name : String) : JvmType → Prop
  | typeVariable : Mentions name (.typeVariable name)
  | argument {definition : String} {arguments : List JvmType} {t : JvmType} (mem : t ∈ arguments)
      (mentions : Mentions name t) : Mentions name (.generic definition arguments)
  | element {t : JvmType} (mentions : Mentions name t) : Mentions name (.array t)
  | bound {variance : Variance} {t : JvmType} (mentions : Mentions name t) :
      Mentions name (.bounded variance t)

variable {name : String}

mutual

theorem mem_typeVariables_iff : (t : JvmType) → (name ∈ t.typeVariables ↔ t.Mentions name)
  | .typeVariable x => by
    rw [typeVariables, List.mem_singleton]
    constructor
    · rintro rfl
      exact .typeVariable
    · intro h
      cases h
      rfl
  | .generic definition arguments => by
    rw [typeVariables, mem_typeVariablesOfAll_iff arguments]
    constructor
    · rintro ⟨t, hmem, ht⟩
      exact .argument hmem ht
    · intro h
      cases h with
      | argument hmem ht => exact ⟨_, hmem, ht⟩
  | .array element => by
    rw [typeVariables, mem_typeVariables_iff element]
    exact ⟨.element, fun | .element h => h⟩
  | .bounded variance bound => by
    rw [typeVariables, mem_typeVariables_iff bound]
    exact ⟨.bound, fun | .bound h => h⟩
  | .primitive p => ⟨fun h => absurd h List.not_mem_nil, fun h => (nomatch h)⟩
  | .plain x => ⟨fun h => absurd h List.not_mem_nil, fun h => (nomatch h)⟩
  | .unbounded => ⟨fun h => absurd h List.not_mem_nil, fun h => (nomatch h)⟩

theorem mem_typeVariablesOfAll_iff :
    (ts : List JvmType) → (name ∈ typeVariablesOfAll ts ↔ ∃ t ∈ ts, t.Mentions name)
  | [] => by simp [typeVariablesOfAll]
  | t :: ts => by
    simp only [typeVariablesOfAll, List.mem_append, mem_typeVariables_iff t,
      mem_typeVariablesOfAll_iff ts, List.exists_mem_cons_iff]

end

end JvmType

/-- A method signature mentions, in a parameter type, the return type or a bound, a type variable that
it does not declare. -/
def MethodSignature.MentionsUndeclared (s : MethodSignature) : Prop :=
  ∃ t ∈ s.parameters ++ s.returnType :: s.typeParameters.map TypeParameter.bound,
    ∃ name, t.Mentions name ∧ name ∉ s.typeParameters.map TypeParameter.name

theorem MethodSignature.hasUndeclaredVariable_iff {s : MethodSignature} :
    s.hasUndeclaredVariable = true ↔ s.MentionsUndeclared := by
  simp only [hasUndeclaredVariable, List.any_eq_true, JvmType.mem_typeVariablesOfAll_iff,
    List.contains_eq_mem, Bool.not_eq_true', decide_eq_false_iff_not, MentionsUndeclared, types]
  constructor
  · rintro ⟨name, ⟨t, hmem, ht⟩, hnew⟩
    exact ⟨t, hmem, name, ht, hnew⟩
  · rintro ⟨t, hmem, name, ht, hnew⟩
    exact ⟨name, ⟨t, hmem, ht⟩, hnew⟩

instance (s : MethodSignature) : Decidable s.MentionsUndeclared :=
  decidable_of_iff _ MethodSignature.hasUndeclaredVariable_iff

namespace ExtensionFunction

/-- The types that are written of a function: those of its parameters, the receiver of its lambda,
which is also the type argument of its callback, the type that it returns, and the bounds of its type
parameters. -/
def types (f : ExtensionFunction) : List JvmType :=
  f.parameters.map Parameter.type
    ++ f.receiver :: f.returnType :: f.typeParameters.map TypeParameter.bound

/-- A function mentions only type variables that it declares. -/
def IsClosed (f : ExtensionFunction) : Prop :=
  ∀ t ∈ f.types, ∀ name, t.Mentions name → name ∈ f.typeParameters.map TypeParameter.name

variable {c : ClassDescriptor} {m : MethodDescriptor} {callback : Callback}
  {documentation : Option Documentation} {f : ExtensionFunction}

/-- The types of a function are those of its method, but for the receiver. -/
theorem types_of?_eq_ok (h : of? c m callback documentation = .ok f) :
    f.typeParameters = m.signature.typeParameters ∧ f.returnType = m.signature.returnType
      ∧ f.receiver = callback.receiver
      ∧ ∀ t ∈ f.parameters.map Parameter.type, t ∈ m.signature.parameters := by
  rw [of?] at h
  split at h
  · cases h
  · cases h
    refine ⟨rfl, rfl, rfl, ?_⟩
    intro t ht
    obtain ⟨p, hp, rfl⟩ := List.mem_map.mp ht
    obtain ⟨i, hi, rfl⟩ := List.mem_iff_getElem.mp hp
    rw [List.getElem_zipWith]
    exact List.mem_of_mem_dropLast (List.getElem_mem _)

end ExtensionFunction

theorem Callback.mentions_argument {callback : Callback} {name : String}
    (h : callback.receiver.Mentions name) : callback.argument.Mentions name := by
  rw [receiver] at h
  split at h
  · cases h
  · rename_i hbound
    rw [hbound]
    exact .bound h
  · exact h

/-- The callback of a method is its last parameter. -/
theorem MethodDescriptor.exists_last_of_callback? {callbacks : Callbacks} {c : ClassDescriptor}
    {m : MethodDescriptor} {callback : Callback} (h : m.callback? callbacks c = some callback) :
    ∃ last, m.signature.parameters.getLast? = some last
      ∧ last.className? = some callback.className ∧ last.arguments = [callback.argument] := by
  have hlast : m.lastCallback? callbacks = some callback := by
    rw [callback?] at h
    split at h
    · exact h
    · cases h
  simp only [lastCallback?, bind, Option.bind_eq_some_iff] at hlast
  obtain ⟨last, hmem, className, hclass, hlast⟩ := hlast
  split at hlast
  · rename_i argument hone
    split at hlast
    · cases hlast
      exact ⟨last, hmem, hclass, hone⟩
    · cases hlast
  · cases hlast

/-- What the receiver of a lambda mentions, the callback parameter mentions. -/
theorem MethodDescriptor.mentions_of_callback? {callbacks : Callbacks} {c : ClassDescriptor}
    {m : MethodDescriptor} {callback : Callback} (h : m.callback? callbacks c = some callback)
    {name : String} (hname : callback.receiver.Mentions name) :
    ∃ t ∈ m.signature.parameters, t.Mentions name := by
  obtain ⟨last, hmem, -, harguments⟩ := exists_last_of_callback? h
  refine ⟨last, List.mem_of_getLast? hmem, ?_⟩
  cases last with
  | generic definition arguments =>
    cases harguments
    exact .argument List.mem_cons_self (Callback.mentions_argument hname)
  | _ => cases harguments

namespace Generator

variable {g : Generator} {c : ClassDescriptor}

theorem isCandidate_eq_true {m : MethodDescriptor} :
    g.isCandidate c m = true ↔
      (m.callback? g.callbacks c).isSome = true ∧ m.signature.hasUndeclaredVariable = false := by
  simp [isCandidate]

/-- Where a function comes from. -/
theorem exists_method_of_mem_functions {f : ExtensionFunction} (h : f ∈ g.functions c) :
    ∃ m ∈ c.methods, ∃ callback, m.callback? g.callbacks c = some callback
      ∧ m.signature.hasUndeclaredVariable = false
      ∧ ExtensionFunction.of? c m callback (g.documentationOf c m) = .ok f := by
  obtain ⟨o, hmem, ho⟩ := List.mem_filterMap.mp h
  cases hc : c.isGeneric with
  | true =>
    rw [outcomes, hc] at hmem
    cases hmem
  | false =>
    rw [← (g.map_accounts hc).2] at hmem
    obtain ⟨⟨m, o'⟩, haccount, rfl⟩ := List.mem_map.mp hmem
    have hm : m ∈ c.methods := (g.map_accounts hc).1 ▸ List.mem_map_of_mem haccount
    obtain ⟨earlier, later, hsplit⟩ := List.append_of_mem haccount
    cases g.areAccounted_accounts hc earlier m o' later hsplit with
    | generated isCandidate free takes makes =>
      cases ho
      exact ⟨m, hm, _, takes, (isCandidate_eq_true.mp isCandidate).2, makes⟩
    | notEligible => cases ho
    | unbound => cases ho
    | clash => cases ho
    | failed => cases ho

theorem isClosed_of_mem_functions {f : ExtensionFunction} (h : f ∈ g.functions c) : f.IsClosed := by
  obtain ⟨m, -, callback, hcallback, hdeclared, hmade⟩ := exists_method_of_mem_functions h
  obtain ⟨htypeParameters, hreturn, hreceiver, hparameters⟩ := ExtensionFunction.types_of?_eq_ok hmade
  have hclosed : ∀ t ∈ m.signature.types, ∀ name, t.Mentions name →
      name ∈ m.signature.typeParameters.map TypeParameter.name := by
    intro t ht name hname
    by_contra hnew
    have hundeclared := MethodSignature.hasUndeclaredVariable_iff.mpr ⟨t, ht, name, hname, hnew⟩
    rw [hdeclared] at hundeclared
    cases hundeclared
  intro t ht name hname
  rw [htypeParameters]
  rw [ExtensionFunction.types, hreturn, hreceiver, htypeParameters] at ht
  rcases List.mem_append.mp ht with ht | ht
  · exact hclosed t (List.mem_append_left _ (hparameters t ht)) name hname
  · rcases List.mem_cons.mp ht with rfl | ht
    · obtain ⟨u, hu, hmentions⟩ := MethodDescriptor.mentions_of_callback? hcallback hname
      exact hclosed u (List.mem_append_left _ hu) name hmentions
    · exact hclosed t (List.mem_append_right _ ht) name hname

theorem count_unbound (hc : c.isGeneric = false) :
    (g.outcomes c).count .unbound = c.methods.countP fun m =>
      (m.callback? g.callbacks c).isSome && m.signature.MentionsUndeclared := by
  obtain ⟨hmethods, houtcomes⟩ := g.map_accounts hc
  rw [← houtcomes, ← hmethods, List.count_eq_countP, List.countP_map, List.countP_map]
  refine List.countP_congr ?_
  rintro ⟨m, o⟩ hmem
  obtain ⟨earlier, later, hsplit⟩ := List.append_of_mem hmem
  simp only [Function.comp_apply, beq_iff_eq, Bool.and_eq_true, decide_eq_true_eq,
    ← MethodSignature.hasUndeclaredVariable_iff]
  cases g.areAccounted_accounts hc earlier m o later hsplit with
  | notEligible none => simp [none]
  | unbound isSome undeclared => simp [isSome, undeclared]
  | clash isCandidate => simp [(isCandidate_eq_true.mp isCandidate).2]
  | failed isCandidate => simp [(isCandidate_eq_true.mp isCandidate).2]
  | generated isCandidate => simp [(isCandidate_eq_true.mp isCandidate).2]

theorem taken_writeClass {sink : Sink} :
    (g.writeClass sink c).2.taken = (sink.writeAll (g.blocks c)).2.taken := by
  rw [writeClass]
  split <;> simp_all

/-- All that is written of a class are functions of it. -/
theorem exists_taken_writeClass (g : Generator) (sink : Sink) (c : ClassDescriptor) :
    ∃ written : List ExtensionFunction,
      (g.writeClass sink c).2.taken = sink.taken ++ written.map ExtensionFunction.block
        ∧ ∀ f ∈ written, f ∈ g.functions c := by
  obtain ⟨n, htaken⟩ := sink.exists_taken_writeAll (g.blocks c)
  refine ⟨(g.functions c).take n, ?_, fun f hf => List.mem_of_mem_take hf⟩
  rw [taken_writeClass, htaken, blocks_eq, List.map_take]

theorem eq_classReport_of_mem {sink : Sink} {report : ClassReport}
    (h : report ∈ (g.writeClass sink c).1) : report = g.classReport c := by
  rw [writeClass] at h
  split at h
  · exact (Option.mem_some.mp h).symm
  · cases h

/--
Every piece that is written of a class, whatever the sink takes of it, is a function that mentions only
type variables that it declares. The report counts the methods that mention another one, unless the
class is generic.
-/
theorem written_functions_closed (g : Generator) (sink : Sink) (c : ClassDescriptor) :
    (∃ written : List ExtensionFunction,
      (g.writeClass sink c).2.taken = sink.taken ++ written.map ExtensionFunction.block
        ∧ ∀ f ∈ written, f.IsClosed)
      ∧ ∀ report ∈ (g.writeClass sink c).1, report.unbound =
        if c.isGeneric then 0
        else c.methods.countP fun m =>
          (m.callback? g.callbacks c).isSome && m.signature.MentionsUndeclared := by
  constructor
  · obtain ⟨n, htaken⟩ := sink.exists_taken_writeAll (g.blocks c)
    refine ⟨(g.functions c).take n, ?_, ?_⟩
    · rw [taken_writeClass, htaken, blocks_eq, List.map_take]
    · intro f hf
      exact isClosed_of_mem_functions (List.mem_of_mem_take hf)
  · intro report hreport
    rw [eq_classReport_of_mem hreport, classReport]
    split
    · rename_i hc
      rw [outcomes, if_pos hc]
      rfl
    · rename_i hc
      exact count_unbound (Bool.eq_false_iff.mpr hc)

/-- A generic class with a method whose callback takes a value of the type parameter of the class. -/
def genericClass : ClassDescriptor where
  name := "a.C"
  access := ⟨1⟩
  signature := some ⟨[⟨"T", .object⟩], some .object, []⟩
  methods :=
    [⟨"foo", ⟨[], [.generic actionName [.bounded .into (.typeVariable "T")]], .primitive .void⟩, ⟨1⟩⟩]

/-- The methods of a generic class are not counted. -/
theorem unbound_genericClass :
    (undocumented.writeClass .unlimited genericClass).1.map ClassReport.unbound = some 0
      ∧ (genericClass.methods.countP fun m =>
        (m.callback? undocumented.callbacks genericClass).isSome
          && m.signature.MentionsUndeclared) = 1 := by
  decide +kernel

end Generator

end DslBindings
