import Mathlib
import DslBindings.Proofs.Signature.Decision
import DslBindings.Proofs.Signature.Format

/-!
# Reading the signatures of the class file format

The grammar of the readers derives the text of each tree of the format with the meaning of the tree, with
one exception: the class bound of a type parameter is left out there only in front of an interface bound
or of the end of the list, while in the format another type parameter can follow at once. Then the name
of that one is taken for a bound, so nothing is read, or something else.
-/

namespace DslBindings.Signature

open Grammar (IsIdentifier Many ClassPart)

namespace Format

theorem Identifier.isIdentifier (i : Identifier) {stops : List Char} (hstops : stops ⊆ reserved) :
    IsIdentifier stops i.text :=
  ⟨i.ne_nil, fun c hc hstop => i.notMem_reserved c hc (hstops hstop)⟩

/-! ### Names of classes -/

/-- The packages of a class with the class itself, as they stand in a signature. -/
def pathText (packages : List Identifier) (name : Identifier) : List Char :=
  packages.flatMap (·.text ++ ['/']) ++ name.text

theorem isIdentifier_pathText (packages : List Identifier) (name : Identifier) :
    IsIdentifier classStops (pathText packages name) := by
  refine ⟨by simp [pathText, name.ne_nil], ?_⟩
  intro c hc hstop
  rcases List.mem_append.mp hc with hc | hc
  · obtain ⟨i, -, hc⟩ := List.mem_flatMap.mp hc
    rcases List.mem_append.mp hc with hc | hc
    · exact (i.isIdentifier (by decide)).notMem_stops c hc hstop
    · rw [List.mem_singleton.mp hc] at hstop
      exact absurd hstop (by decide)
  · exact (name.isIdentifier (by decide)).notMem_stops c hc hstop

theorem map_text_of_slash (i : Identifier) :
    i.text.map (fun d => if d = '/' then '.' else d) = i.text := by
  refine (List.map_congr_left ?_).trans (List.map_id _)
  intro c hc
  refine if_neg ?_
  rintro rfl
  exact i.notMem_reserved _ hc (by decide)

theorem replaceChar_pathText (packages : List Identifier) (name : Identifier) :
    Text.replaceChar '/' '.' (String.ofList (pathText packages name)) = binaryName packages name := by
  simp [Text.replaceChar, pathText, binaryName, List.map_flatMap, map_text_of_slash]

/-- A part of a class type as the grammar of the readers has it. -/
def Part.classPart (p : Part) : ClassPart := ⟨String.ofList p.name.text, p.types⟩

theorem classOf_eq (name : List Char) (types : List JvmType) (parts : List Part) :
    Grammar.classOf ⟨String.ofList name, types⟩ (parts.map Part.classPart)
      = classType (String.ofList (name ++ (parts.map Part.name).flatMap fun i => '$' :: i.text))
        (typesOfInnermost types parts) := by
  induction parts generalizing name types with
  | nil => simp [Grammar.classOf, typesOfInnermost]
  | cons p parts ih =>
    have hname : String.ofList name ++ "$" ++ p.classPart.name
        = String.ofList (name ++ '$' :: p.name.text) := by
      apply String.toList_injective
      simp [Part.classPart]
    rw [List.map_cons, classOf_cons, hname, Part.classPart, ih, typesOfInnermost]
    simp

theorem type_mk (packages : List Identifier) (outer : Part) (nested : List Part) :
    (ClassType.mk packages outer nested).type
      = Grammar.classOf
        (ClassPart.dotted ⟨String.ofList (pathText packages outer.name), outer.types⟩)
        (nested.map Part.classPart) := by
  rw [ClassPart.dotted, replaceChar_pathText, binaryName, classOf_eq, ClassType.type, binaryName,
    Identifier.nesting, List.append_assoc]

/-! ### The grammar derives the texts -/

/-- The type arguments of a class, if it has any. -/
def Part.textOfArguments : Part → List Char
  | .mk _ [] => []
  | .mk _ arguments => '<' :: (Format.textOfArguments arguments ++ ['>'])

theorem Part.text_eq (p : Part) : p.text = p.name.text ++ p.textOfArguments := by
  obtain ⟨name, _ | ⟨a, as⟩⟩ := p
  · exact (List.append_nil _).symm
  · rfl

mutual

theorem ClassType.derives : (t : ClassType) → Grammar.ClassType t.text t.type
  | .mk packages outer nested => by
    have hfirst : Grammar.Part (pathText packages outer.name ++ outer.textOfArguments)
        ⟨String.ofList (pathText packages outer.name), outer.types⟩ :=
      .intro (isIdentifier_pathText packages outer.name) outer.derivesArguments
    have h := Grammar.ClassType.intro hfirst (derivesNested nested)
    rw [← type_mk] at h
    rw [ClassType.text, Part.text_eq]
    simpa [pathText] using h

theorem Part.derivesArguments : (p : Part) → Grammar.Arguments p.textOfArguments p.types
  | .mk _ [] => .none
  | .mk _ (a :: as) => .some (derivesArguments (a :: as)) (List.cons_ne_nil _ _)

theorem derivesNested :
    (parts : List Part) → Many Grammar.InnerPart (textOfNested parts) (parts.map Part.classPart)
  | [] => .nil
  | part :: parts => by
    have h : Grammar.Part (part.name.text ++ part.textOfArguments) part.classPart :=
      .intro (part.name.isIdentifier (by decide)) part.derivesArguments
    rw [← Part.text_eq] at h
    exact .cons (.intro h) (derivesNested parts)

theorem Argument.derives : (a : Argument) → Grammar.Argument a.text a.type
  | .unbounded => .unbounded
  | .out bound => .out bound.derives
  | .into bound => .into bound.derives
  | .exactly type => .exactly type.derives

theorem derivesArguments :
    (as : List Argument) → Many Grammar.Argument (textOfArguments as) (typesOfArguments as)
  | [] => .nil
  | a :: as => .cons a.derives (derivesArguments as)

theorem Reference.derives : (t : Reference) → Grammar.Reference t.text t.type
  | .ofClass type => .ofClass type.derives
  | .typeVariable name => .typeVariable (name.isIdentifier (by decide))
  | .array element => .array element.derives

theorem Value.derives : (t : Value) → Grammar.AnyType t.text t.type
  | .base _ isValue => .base isValue
  | .reference type => .reference type.derives

end

/-! ### Type parameters -/

/-- Each type parameter but the last one has a bound. -/
def BoundedButLast (ds : List Declaration) : Prop := ∀ d ∈ ds.dropLast, d.bounds ≠ []

theorem boundedButLast_cons {d : Declaration} {ds : List Declaration} :
    BoundedButLast (d :: ds) ↔ (d.bounds = [] → ds = []) ∧ BoundedButLast ds := by
  cases ds with
  | nil => simp [BoundedButLast]
  | cons d' ds => simp [BoundedButLast]

theorem many_flatMap {α β : Type} {R : List Char → β → Prop} {text : α → List Char} {value : α → β}
    (h : ∀ a, R (text a) (value a)) (l : List α) : Many R (l.flatMap text) (l.map value) := by
  induction l with
  | nil => exact .nil
  | cons a l ih => exact .cons (h a) ih

theorem Declaration.derives (d : Declaration) {behind : List Char}
    (hbehind : d.bounds = [] → behind.head? = some '>') :
    Grammar.Declaration d.text d.parameter behind := by
  obtain ⟨name, classBound, interfaceBounds⟩ := d
  have hname : IsIdentifier [':', '>'] name.text := name.isIdentifier (by decide)
  have hbounds := many_flatMap (R := Grammar.InterfaceBound) (fun t : Reference => .intro t.derives)
    interfaceBounds
  cases classBound with
  | some t =>
    have h : Grammar.Declaration _ _ behind := .classBound hname t.derives hbounds
    simpa [text, parameter, bounds] using h
  | none =>
    refine .noClassBound hname hbounds ?_
    cases interfaceBounds with
    | nil => simp [hbehind rfl]
    | cons t ts => simp

theorem derivesDeclarations {ds : List Declaration} (h : BoundedButLast ds) :
    Grammar.Declarations (ds.flatMap Declaration.text ++ ['>']) (ds.map Declaration.parameter) := by
  induction ds with
  | nil => exact .close
  | cons d ds ih =>
    obtain ⟨hlast, hds⟩ := boundedButLast_cons.mp h
    rw [List.flatMap_cons, List.append_assoc]
    refine .cons (d.derives ?_) (ih hds)
    intro hbounds
    rw [hlast hbounds]
    rfl

theorem derivesTypeParameters {ds : List Declaration} (h : BoundedButLast ds) :
    Grammar.TypeParameters (textOfTypeParameters ds) (ds.map Declaration.parameter) := by
  cases ds with
  | nil => exact .none
  | cons d ds => exact .some (derivesDeclarations h) (List.cons_ne_nil _ _)

theorem Method.derives {m : Method} (h : BoundedButLast m.typeParameters) :
    Grammar.Method m.text m.signature := by
  have hresult : Grammar.Returned ((m.result.map Value.text).getD ['V'])
      ((m.result.map Value.type).getD (.primitive .void)) := by
    cases m.result with
    | none => exact .void
    | some t => exact .value t.derives
  exact .intro (derivesTypeParameters h) (many_flatMap Value.derives m.parameters) hresult
    (many_flatMap (fun t : Thrown => .intro t.reference.derives) m.thrown)

theorem Class.derives {c : Class} (h : BoundedButLast c.typeParameters) :
    Grammar.Class c.text c.signature :=
  .intro (derivesTypeParameters h) c.superClass.derives (many_flatMap ClassType.derives c.interfaces)

/-! ### A type parameter without a bound in front of another one -/

theorem exists_className_classOf {c : Char} {outer : ClassPart} (inner : List ClassPart)
    (hc : c ∈ outer.name.toList) :
    ∃ name, (Grammar.classOf outer inner).className? = some name ∧ c ∈ name.toList := by
  induction inner generalizing outer with
  | nil =>
    refine ⟨outer.name, ?_, hc⟩
    cases h : outer.arguments <;> simp [Grammar.classOf, classType, JvmType.className?, h]
  | cons part inner ih =>
    rw [classOf_cons]
    exact ih (by simp [hc])

/-- An identifier with a colon behind it is read beyond the colon, or not at all. -/
theorem colon_mem_of_identifier {tail s r : List Char} {name : String}
    (htail : ∀ c ∈ tail, c ∉ reserved)
    (h : (identifier classStops (tail ++ ':' :: s)).Gives name r) : ':' ∈ name.toList := by
  -- The identifier ends in front of a stop, and neither `tail` nor the colon has one.
  obtain ⟨w, hw, -, rfl, hstop⟩ := identifier_gives_iff.mp h
  rw [String.toList_ofList]
  obtain ⟨u, rfl, hu⟩ | ⟨u, rfl, rfl⟩ := List.append_eq_append_iff.mp hw
  · cases u with
    | nil =>
      rw [List.nil_append] at hu
      subst hu
      exact absurd (hstop ':' rfl) (by decide)
    | cons c u =>
      obtain ⟨rfl, -⟩ := List.cons.inj hu
      simp
  · cases u with
    | nil => exact absurd (hstop ':' rfl) (by decide)
    | cons c u =>
      have hc : c ∈ reserved := (by decide : classStops ⊆ reserved) (hstop c rfl)
      exact absurd hc (htail c (by simp))

/-- The top type is not read off a type parameter. -/
theorem not_reference_gives_object (i : Identifier) (s : List Char) {r : List Char} :
    ¬ (reference (i.text ++ ':' :: s)).Gives .object r := by
  intro h
  obtain ⟨s', name, r', hs, hname, hsuffix⟩ | ⟨_, _, _, _, ht⟩ | ⟨_, _, _, _, ht⟩ :=
    reference_gives_iff.mp h
  · obtain ⟨c, tail, hi⟩ := List.exists_cons_of_ne_nil i.ne_nil
    rw [hi, List.cons_append] at hs
    obtain ⟨-, rfl⟩ := List.cons.inj hs
    have htail : ∀ c ∈ tail, c ∉ reserved := by
      intro c hc
      exact i.notMem_reserved c (hi ▸ List.mem_cons_of_mem _ hc)
    have hcolon : ':' ∈ (Text.replaceChar '/' '.' name).toList := by
      rw [Text.replaceChar, String.toList_ofList]
      exact List.mem_map.mpr ⟨':', colon_mem_of_identifier htail hname, rfl⟩
    obtain ⟨a, ts, w, parts, -, -, -, hobject⟩ := (suffix_decides r').mp hsuffix
    have hname : ':' ∈ (ClassPart.mk (Text.replaceChar '/' '.' name) ts).name.toList := hcolon
    obtain ⟨n, hn, hmem⟩ := exists_className_classOf parts hname
    rw [← hobject] at hn
    cases hn
    exact absurd hmem (by decide)
  · cases ht
  · cases ht

theorem eq_of_gives {α : Type} {s r r' : List Char} {o : Outcome α s} {v v' : α} (h : o.Gives v r)
    (h' : o.Gives v' r') : v = v' ∧ r = r' := by
  obtain ⟨_, rfl⟩ := h
  exact Outcome.gives_ok.mp h'

theorem Identifier.lacksClassBound_eq_false (i : Identifier) (s : List Char) :
    lacksClassBound (i.text ++ s) = false := by
  obtain ⟨c, tail, hi⟩ := List.exists_cons_of_ne_nil i.ne_nil
  have hc : c ∉ reserved := i.notMem_reserved c (by simp [hi])
  rw [Bool.eq_false_iff, ne_eq, lacksClassBound_iff, hi]
  intro hmem
  have hcases : c = ':' ∨ c = '>' := by simpa using hmem
  rcases hcases with rfl | rfl <;> exact hc (by decide)

/-- A type parameter without a bound is not read in front of another one. -/
theorem not_typeParameter_gives_bare (name next : Identifier) (s : List Char) {r : List Char} :
    ¬ (typeParameter (name.text ++ ':' :: (next.text ++ ':' :: s))).Gives
      ⟨String.ofList name.text, .object⟩ r := by
  intro h
  obtain ⟨_, s', ts, hname, hbounds, hparameter⟩ := typeParameter_gives_iff.mp h
  have hidentifier : IsIdentifier [':', '>'] name.text := name.isIdentifier (by decide)
  have hread := identifier_gives (r := next.text ++ ':' :: s) hidentifier (by decide : ':' ∈ [':', '>']) rfl
  obtain ⟨-, hs⟩ := eq_of_gives hname hread
  obtain rfl := (List.cons.inj hs).2
  obtain ⟨hlacks, -⟩ | ⟨t, _, _, rfl, ht, -⟩ := bounds_gives_iff.mp hbounds
  · rw [next.lacksClassBound_eq_false] at hlacks
    cases hlacks
  · have hobject : JvmType.object = t := (TypeParameter.mk.inj hparameter).2
    rw [← hobject] at ht
    exact not_reference_gives_object next s ht

theorem Declaration.exists_text_eq (d : Declaration) : ∃ s, d.text = d.name.text ++ ':' :: s :=
  ⟨_, rfl⟩

theorem Declaration.text_of_bounds_eq_nil {d : Declaration} (h : d.bounds = []) :
    d.text = d.name.text ++ [':'] := by
  obtain ⟨hclass, hinterfaces⟩ := List.append_eq_nil_iff.mp h
  simp [text, hclass, hinterfaces]

theorem ne_colon_of_declarations (ds : List Declaration) (rest s : List Char) :
    ds.flatMap Declaration.text ++ '>' :: rest ≠ ':' :: s := by
  cases ds with
  | nil => simp
  | cons d ds =>
    obtain ⟨c, tail, hname⟩ := List.exists_cons_of_ne_nil d.name.ne_nil
    have hc : c ≠ ':' := by
      rintro rfl
      exact d.name.notMem_reserved ':' (by simp [hname]) (by decide)
    simp [Declaration.text, hname, hc]

/-- If type parameters are read as what they mean, each but the last one has a bound. -/
theorem boundedButLast_of_gives {ds : List Declaration} {rest r : List Char}
    (h : (typeParametersToEnd (ds.flatMap Declaration.text ++ '>' :: rest)).Gives
      (ds.map Declaration.parameter) r) : BoundedButLast ds := by
  induction ds with
  | nil => simp [BoundedButLast]
  | cons d ds ih =>
    obtain ⟨-, hnil⟩ | ⟨p, r', ps, hcons, hp, hps⟩ := typeParametersToEnd_gives_iff.mp h
    · cases hnil
    · obtain ⟨rfl, rfl⟩ := List.cons.inj hcons
      by_cases hbare : d.bounds = [] → ds = []
      · have hread : (typeParameter (d.text ++ (ds.flatMap Declaration.text ++ '>' :: rest))).Gives
            d.parameter (ds.flatMap Declaration.text ++ '>' :: rest) := by
          refine typeParameter_decides.mpr ⟨ne_colon_of_declarations ds rest, d.text, rfl, d.derives ?_⟩
          intro hbounds
          rw [hbare hbounds]
          rfl
        rw [List.flatMap_cons, List.append_assoc] at hp
        obtain ⟨-, rfl⟩ := eq_of_gives hp hread
        exact boundedButLast_cons.mpr ⟨hbare, ih hps⟩
      · -- A type parameter without a bound has the name of the next one for a bound.
        rw [Classical.not_imp] at hbare
        obtain ⟨hbounds, hne⟩ := hbare
        obtain ⟨next, ds, rfl⟩ := List.exists_cons_of_ne_nil hne
        obtain ⟨s, hnext⟩ := next.exists_text_eq
        have htext : (d :: next :: ds).flatMap Declaration.text ++ '>' :: rest = d.name.text
            ++ ':' :: (next.name.text ++ ':' :: (s ++ (ds.flatMap Declaration.text ++ '>' :: rest))) := by
          simp [Declaration.text_of_bounds_eq_nil hbounds, hnext]
        rw [htext, Declaration.parameter, hbounds] at hp
        exact absurd hp (not_typeParameter_gives_bare d.name next.name _)

theorem boundedButLast_of_typeParameters {ds : List Declaration} {rest r : List Char}
    (h : typeParameters (textOfTypeParameters ds ++ rest) = .ok (ds.map Declaration.parameter, r)) :
    BoundedButLast ds := by
  cases ds with
  | nil => simp [BoundedButLast]
  | cons d ds =>
    rw [textOfTypeParameters, List.cons_append, List.append_assoc] at h
    obtain ⟨s, hs, hds, -⟩ | ⟨hopen, -⟩ := typeParameters_eq_ok_iff.mp h
    · obtain ⟨-, rfl⟩ := List.cons.inj hs
      exact boundedButLast_of_gives hds
    · exact absurd rfl (hopen _)
    · exact List.cons_ne_nil _ _

/-! ### Signatures -/

theorem readMethod_text_iff {m : Method} :
    readMethod m.text = .ok m.signature ↔ BoundedButLast m.typeParameters := by
  constructor
  · intro h
    obtain ⟨ps, s, ts, r, t, r', hps, -, -, -, hsignature⟩ := readMethod_eq_ok_iff.mp h
    obtain rfl := (MethodSignature.mk.inj hsignature).1
    exact boundedButLast_of_typeParameters hps
  · intro h
    exact readMethod_decides.mpr (Method.derives h)

theorem readClass_text_iff {c : Class} :
    readClass c.text = .ok c.signature ↔ BoundedButLast c.typeParameters := by
  constructor
  · intro h
    obtain ⟨ps, r, t, r', ts, hps, -, -, hsignature⟩ := readClass_eq_ok_iff.mp h
    obtain rfl := (ClassSignature.mk.inj hsignature).1
    exact boundedButLast_of_typeParameters hps
  · intro h
    exact readClass_decides.mpr (Class.derives h)

/--
The readers of signatures read each field signature of the class file format as what it means, and a
signature of a method or of a class just if no type parameter without a bound stands in front of another
one.
-/
theorem signatures_read_iff_bounded (t : Reference) (m : Method) (c : Class) :
    JvmType.parse (String.ofList t.text) = .ok t.type
      ∧ (MethodSignature.parse (String.ofList m.text) = .ok m.signature
        ↔ BoundedButLast m.typeParameters)
      ∧ (ClassSignature.parse (String.ofList c.text) = .ok c.signature
        ↔ BoundedButLast c.typeParameters) := by
  refine ⟨parse_eq_ok_iff.mpr ?_, parse_eq_ok_iff.trans ?_, parse_eq_ok_iff.trans ?_⟩
  · rw [String.toList_ofList]
    exact readField_decides.mpr (.reference t.derives)
  · rw [String.toList_ofList]
    exact readMethod_text_iff
  · rw [String.toList_ofList]
    exact readClass_text_iff

/-- A method with a type parameter without a bound in front of another one. -/
def adjoining (first second : Identifier) (bound : Option Reference) : Method where
  typeParameters := [⟨first, none, []⟩, ⟨second, bound, []⟩]
  parameters := []
  result := none
  thrown := []

/-- One such signature is refused, and another one is read as something else. -/
theorem adjoining_misread :
    let refused := adjoining (.of ['T'] rfl) (.of ['U'] rfl) none
    let swallowed := adjoining (.of ['A'] rfl) (.of ['L', 'B'] rfl)
      (some (.typeVariable (.of ['C'] rfl)))
    String.ofList refused.text = "<T:U:>()V"
      ∧ refused.signature = ⟨[⟨"T", .object⟩, ⟨"U", .object⟩], [], .primitive .void⟩
      ∧ MethodSignature.parse "<T:U:>()V" = .error ⟨"<T:U:>()V", 3, .unexpected (some 85)⟩
      ∧ String.ofList swallowed.text = "<A:LB:TC;>()V"
      ∧ swallowed.signature = ⟨[⟨"A", .object⟩, ⟨"LB", .typeVariable "C"⟩], [], .primitive .void⟩
      ∧ MethodSignature.parse "<A:LB:TC;>()V" = .ok ⟨[⟨"A", .plain "B:TC"⟩], [], .primitive .void⟩ :=
  ⟨by decide, by decide, by cbv, by decide, by decide, by cbv⟩

end Format

end DslBindings.Signature
