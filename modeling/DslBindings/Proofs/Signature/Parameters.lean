import Mathlib.Data.List.Chain
import DslBindings.Proofs.Signature.Completeness

/-!
# The parameters of a method

A parenthesis right behind a closing angle bracket, a gate, stands in the signature of a method only
where the type parameters end. So the parameters of a method are read from the right place on, whatever
its type parameters are taken for: a signature that is read at all has its own parameters.
-/

namespace DslBindings.Signature.Format

/-! ### Gates -/

/-- No angle bracket is closed right in front of a parenthesis. -/
abbrev NoGate (s : List Char) : Prop := s.IsChain fun c d => c = '>' → d ≠ '('

/-- A text that makes no gate, be it by itself or with what stands behind it. -/
def IsQuiet (s : List Char) : Prop := ∀ t, NoGate t → NoGate (s ++ t)

namespace IsQuiet

variable {s t : List Char} {c : Char}

theorem noGate (hs : IsQuiet s) : NoGate s := by
  simpa using hs [] .nil

theorem nil : IsQuiet [] := fun _ ht => ht

theorem append (hs : IsQuiet s) (ht : IsQuiet t) : IsQuiet (s ++ t) := by
  intro u hu
  rw [List.append_assoc]
  exact hs _ (ht u hu)

theorem cons (hc : c ≠ '>') (hs : IsQuiet s) : IsQuiet (c :: s) := by
  intro t ht
  exact List.isChain_cons.mpr ⟨fun _ _ hclose => absurd hclose hc, hs t ht⟩

/-- A closing bracket is no gate if it stands in front of something else than a parenthesis. -/
theorem close (hc : c ≠ '(') (hs : IsQuiet (c :: s)) : IsQuiet ('>' :: c :: s) := by
  intro t ht
  exact List.isChain_cons_cons.mpr ⟨fun _ => hc, hs t ht⟩

theorem of_notMem (hs : '>' ∉ s) : IsQuiet s := by
  induction s with
  | nil => exact nil
  | cons c s ih =>
    rw [List.mem_cons, not_or] at hs
    exact cons (Ne.symm hs.1) (ih hs.2)

theorem flatMap {α : Type} {text : α → List Char} {l : List α} (h : ∀ a ∈ l, IsQuiet (text a)) :
    IsQuiet (l.flatMap text) := by
  induction l with
  | nil => exact nil
  | cons a l ih =>
    obtain ⟨ha, hl⟩ := List.forall_mem_cons.mp h
    exact ha.append (ih hl)

end IsQuiet

theorem not_noGate (s t : List Char) : ¬ NoGate (s ++ '>' :: '(' :: t) := by
  intro h
  exact (List.isChain_append_cons_cons.mp h).2.1 rfl rfl

/-- Of a text that begins with a gate, another gate is either the same or comes behind it. -/
theorem gate_cases {s t u : List Char} (h : '>' :: '(' :: t = s ++ '>' :: '(' :: u) :
    t = u ∨ ∃ s', s = '>' :: '(' :: s' ∧ t = s' ++ '>' :: '(' :: u := by
  match s with
  | [] => exact .inl (by simpa using h)
  | [c] => simp at h
  | c :: d :: s' =>
    simp only [List.cons_append, List.cons.injEq] at h
    obtain ⟨rfl, rfl, ht⟩ := h
    exact .inr ⟨s', rfl, ht⟩

/-- A text with a single gate is parted there. -/
theorem eq_of_gate {u v u' v' : List Char} (h : u ++ '>' :: '(' :: v = u' ++ '>' :: '(' :: v')
    (hu : NoGate u) (hv : NoGate ('(' :: v)) : v' = v := by
  obtain ⟨w, rfl, hw⟩ | ⟨w, rfl, hw⟩ := List.append_eq_append_iff.mp h
  · obtain rfl | ⟨w', -, rfl⟩ := gate_cases hw
    · rfl
    · exact absurd hv (not_noGate ('(' :: w') v')
  · obtain rfl | ⟨w', rfl, -⟩ := gate_cases hw
    · rfl
    · exact absurd hu (not_noGate u' w')

/-! ### Types have no gates -/

theorem Identifier.isQuiet (i : Identifier) : IsQuiet i.text :=
  .of_notMem fun hclose => i.notMem_reserved _ hclose (by decide)

mutual

theorem ClassType.isQuiet : (t : ClassType) → IsQuiet t.text
  | .mk packages outer nested => by
    obtain ⟨c, s, hs, hc, hquiet⟩ := exists_cons_of_textOfNested nested
    have hpackages : IsQuiet (packages.flatMap (·.text ++ ['/'])) :=
      .flatMap fun i _ => i.isQuiet.append (.of_notMem (by decide))
    rw [ClassType.text, hs]
    exact (hpackages.append (outer.isQuiet_append hc hquiet)).cons (by decide)

theorem Part.isQuiet_append : (p : Part) → {c : Char} → {s : List Char} → c ≠ '(' →
    IsQuiet (c :: s) → IsQuiet (p.text ++ c :: s)
  | .mk name [], _, _, _, hs => name.isQuiet.append hs
  | .mk name (a :: as), c, s, hc, hs => by
    have harguments := (isQuiet_textOfArguments (a :: as)).append (hs.close hc)
    have h := name.isQuiet.append (harguments.cons (by decide : '<' ≠ '>'))
    simpa [Part.text] using h

/-- What stands behind the outermost part of a class type. -/
theorem exists_cons_of_textOfNested : (parts : List Part) →
    ∃ c s, textOfNested parts ++ [';'] = c :: s ∧ c ≠ '(' ∧ IsQuiet (c :: s)
  | [] => ⟨';', [], rfl, by decide, .of_notMem (by decide)⟩
  | part :: parts => by
    obtain ⟨c, s, hs, hc, hquiet⟩ := exists_cons_of_textOfNested parts
    refine ⟨'.', part.text ++ c :: s, ?_, by decide, (part.isQuiet_append hc hquiet).cons (by decide)⟩
    rw [← hs]
    simp [textOfNested]

theorem Argument.isQuiet : (a : Argument) → IsQuiet a.text
  | .unbounded => .of_notMem (by decide)
  | .out bound => bound.isQuiet.cons (by decide)
  | .into bound => bound.isQuiet.cons (by decide)
  | .exactly type => type.isQuiet

theorem isQuiet_textOfArguments : (as : List Argument) → IsQuiet (textOfArguments as)
  | [] => .nil
  | a :: as => a.isQuiet.append (isQuiet_textOfArguments as)

theorem Reference.isQuiet : (t : Reference) → IsQuiet t.text
  | .ofClass type => type.isQuiet
  | .typeVariable name => (name.isQuiet.append (.of_notMem (by decide))).cons (by decide)
  | .array element => element.isQuiet.cons (by decide)

theorem Value.isQuiet : (t : Value) → IsQuiet t.text
  | .base p _ => .of_notMem (by cases p <;> simp [Value.text, PrimitiveType.descriptor])
  | .reference type => type.isQuiet

end

theorem Declaration.isQuiet (d : Declaration) : IsQuiet d.text := by
  refine d.name.isQuiet.append (.cons (by decide) (.append ?_ ?_))
  · exact .flatMap fun t _ => t.isQuiet
  · exact .flatMap fun t _ => t.isQuiet.cons (by decide)

/-! ### Methods -/

/-- The text of a method behind the parenthesis that opens its parameters. -/
def Method.textOfParameters (m : Method) : List Char :=
  m.parameters.flatMap Value.text
    ++ ')' :: ((m.result.map Value.text).getD ['V'] ++ m.thrown.flatMap Thrown.text)

theorem Method.text_eq (m : Method) :
    m.text = textOfTypeParameters m.typeParameters ++ '(' :: m.textOfParameters := rfl

theorem Method.isQuiet_textOfParameters (m : Method) : IsQuiet m.textOfParameters := by
  refine .append (.flatMap fun t _ => t.isQuiet) (.cons (by decide) (.append ?_ ?_))
  · cases m.result with
    | none => exact .of_notMem (by decide)
    | some t => exact t.isQuiet
  · exact .flatMap fun t _ => t.reference.isQuiet.cons (by decide)

theorem exists_append_of_declarations {w : List Char} {ps : List TypeParameter}
    (h : Grammar.Declarations w ps) : ∃ u, w = u ++ ['>'] := by
  induction h with
  | close => exact ⟨[], rfl⟩
  | @cons w _ _ _ _ _ ih =>
    obtain ⟨u, rfl⟩ := ih
    exact ⟨w ++ u, (List.append_assoc ..).symm⟩

/-- Whatever the type parameters of a method are taken for, the parameters begin behind them. -/
theorem Method.eq_textOfParameters {m : Method} {w s : List Char} {ps : List TypeParameter}
    (h : m.text = w ++ '(' :: s) (hw : Grammar.TypeParameters w ps) : s = m.textOfParameters := by
  rw [m.text_eq] at h
  cases htypes : m.typeParameters with
  | nil =>
    rw [htypes] at h
    cases hw with
    | none => exact (List.cons.inj h).2.symm
    | some => cases (List.cons.inj h).1
  | cons d ds =>
    rw [htypes] at h
    cases hw with
    | none => cases (List.cons.inj h).1
    | some declarations =>
      -- `u` need not be the text of the declarations, but it ends at a gate like it.
      obtain ⟨u, rfl⟩ := exists_append_of_declarations declarations
      have hparted : (d :: ds).flatMap Declaration.text ++ '>' :: '(' :: m.textOfParameters
          = u ++ '>' :: '(' :: s := by
        simpa [textOfTypeParameters] using h
      have hfront : IsQuiet ((d :: ds).flatMap Declaration.text) := .flatMap fun d _ => d.isQuiet
      exact eq_of_gate hparted hfront.noGate (m.isQuiet_textOfParameters.cons (by decide)).noGate

theorem Method.textOfParameters_gives (m : Method) :
    (parametersToEnd m.textOfParameters).Gives (m.parameters.map Value.type)
      ((m.result.map Value.text).getD ['V'] ++ m.thrown.flatMap Thrown.text) :=
  parametersToEnd_decides.mpr
    ⟨m.parameters.flatMap Value.text, rfl, many_flatMap Value.derives m.parameters⟩

/-- A method that is read has the parameters that its signature spells. -/
theorem Method.parameters_of_readMethod (m : Method) {signature : MethodSignature}
    (h : readMethod m.text = .ok signature) :
    signature.parameters = m.parameters.map Value.type := by
  obtain ⟨ps, s, ts, r, t, r', hps, hts, -, -, rfl⟩ := readMethod_eq_ok_iff.mp h
  obtain ⟨w, hw, hderived⟩ := (typeParameters_decides (by simp)).mp hps
  rw [Method.eq_textOfParameters hw hderived] at hts
  exact (eq_of_gives hts m.textOfParameters_gives).1

theorem Method.parameters_of_parse (m : Method) {signature : MethodSignature}
    (h : MethodSignature.parse (String.ofList m.text) = .ok signature) :
    signature.parameters = m.parameters.map Value.type := by
  have hread := parse_eq_ok_iff.mp h
  rw [String.toList_ofList] at hread
  exact m.parameters_of_readMethod hread

end DslBindings.Signature.Format
