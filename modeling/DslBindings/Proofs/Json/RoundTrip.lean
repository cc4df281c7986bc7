import DslBindings.Build.Project
import DslBindings.Documentation
import DslBindings.Proofs.Signature.Encoding

/-!
# Model values in JSON

Every value of the model that is written as JSON has a coding. So it comes back from its text, or is
refused because that is too deep, and whatever it was read from in the first place, however that was
spelled, it can be written and read again.
-/

namespace DslBindings

open Json (IsCoding IsCodingBy IsFieldCoding IsFieldsCoding RoundTrips RoundTripsBy)

namespace Documentation

/-- The fields of a documentation. -/
def fields : Documentation ≃ String × List String × Unit where
  toFun d := (d.text, d.parameterNames, ())
  invFun f := ⟨f.1, f.2.1⟩
  left_inv _ := rfl
  right_inv _ := rfl

theorem isCoding : IsCoding toJson ofJson? 2 := by
  refine IsFieldsCoding.record ["text", "parameter_names"]
    (.cons (.required .text) (.cons (.required IsCoding.text.list) .nil)) (by decide) fields
    (fun d => rfl) fun j => ?_
  rw [ofJson?]
  rcases j.fields? ["text", "parameter_names"] with _ | _ | ⟨_, _ | ⟨_, _ | _⟩⟩ <;>
    simp [Json.consFields, Json.noFields, fields, Option.map_bind, Option.bind_assoc,
      Function.comp_def]

end Documentation

/-- A value with the entries of an index, which stand there in any order. -/
def DocumentationIndex.Encodes (index : DocumentationIndex) (j : Json) : Prop :=
  ∃ entries : List (String × Documentation), entries.Perm index.toList ∧ j = .object (entries.map fun e => (e.1, e.2.toJson))

theorem DocumentationIndex.isCodingBy : IsCodingBy Encodes ofJson? 3 := Documentation.isCoding.mapBy

namespace ProjectSchema

variable {α : Type} {encode : α → Json} {decode : Json → Option α} {slack : Nat}

/-- The fields of a schema. -/
def fields : ProjectSchema α ≃ Std.ExtTreeMap String α × Std.ExtTreeMap String α × Unit where
  toFun s := (s.extensions, s.conventions, ())
  invFun f := ⟨f.1, f.2.1⟩
  left_inv _ := rfl
  right_inv _ := rfl

theorem isCoding_registry (h : IsCoding encode decode slack) :
    IsCoding (registryToJson encode) (registryOfJson? decode) (slack + 1) := h.map

theorem isCoding (h : IsCoding encode decode slack) :
    IsCoding (toJson encode) (ofJson? decode) (slack + 2) := by
  have hempty : (registryToJson encode ∅).depth ≤ slack + 1 := by
    have htoList : (∅ : Std.ExtTreeMap String α).toList = [] := Std.ExtTreeMap.toList_eq_nil_iff.mpr rfl
    rw [registryToJson, htoList]
    exact Nat.le_add_left _ _
  have hfields := IsFieldsCoding.cons (.withDefault (isCoding_registry h) hempty)
    (.cons (.withDefault (isCoding_registry h) hempty) .nil)
  rw [Nat.max_zero, Nat.max_self] at hfields
  refine IsFieldsCoding.record ["extensions", "conventions"] hfields (by decide) fields
    (fun s => rfl) fun j => ?_
  rw [ofJson?]
  rcases j.fields? ["extensions", "conventions"] with _ | _ | ⟨_, _ | ⟨_, _ | _⟩⟩ <;>
    simp [Json.consFields, Json.noFields, fields, Option.map_bind, Option.bind_assoc,
      Function.comp_def]

end ProjectSchema

theorem BuildSchema.isCoding : IsCoding toJson ofJson? 3 :=
  ProjectSchema.isCoding_registry (ProjectSchema.isCoding .text)

namespace AccessorsClassPath

/-- A value with the texts of the paths of a class path, which are paths of texts. -/
def Encodes (c : AccessorsClassPath) (j : Json) : Prop :=
  (∀ p ∈ c.bin ++ c.src, Path.ofText p.text = p) ∧ j = c.toJson

/-- The texts of the paths of a class path as a value. -/
def textsToJson (c : List String × List String × Unit) : Json :=
  .object (["bin", "src"].zip [Json.ofTexts c.1, Json.ofTexts c.2.1])

/-- The texts of paths that a value has. -/
def textsOfJson? (j : Json) : Option (List String × List String × Unit) :=
  (j.fields? ["bin", "src"]).bind
    (Json.consFields (Json.Field.required (Json.toListOf? Json.toText?))
      (Json.consFields (Json.Field.required (Json.toListOf? Json.toText?)) Json.noFields))

theorem isCoding_texts : IsCoding textsToJson textsOfJson? 2 := by
  refine IsFieldsCoding.record ["bin", "src"]
    (.cons (.required IsCoding.text.list) (.cons (.required IsCoding.text.list) .nil)) (by decide)
    (Equiv.refl _) (fun c => rfl) fun j => ?_
  rw [textsOfJson?, Equiv.refl_symm, Equiv.coe_refl, Option.map_id]
  rfl

/-- The class path with the paths of these texts. -/
def ofTexts (c : List String × List String × Unit) : AccessorsClassPath :=
  ⟨c.1.map Path.ofText, c.2.1.map Path.ofText⟩

/-- The texts of the paths of a class path. -/
def texts (c : AccessorsClassPath) : List String × List String × Unit :=
  (c.bin.map Path.text, c.src.map Path.text, ())

theorem texts_ofTexts (c : List String × List String × Unit) : (ofTexts c).texts = c := by
  simp [ofTexts, texts, Function.comp_def]

theorem ofTexts_texts {c : AccessorsClassPath} (h : ∀ p ∈ c.bin ++ c.src, Path.ofText p.text = p) :
    ofTexts c.texts = c := by
  have hmap (ps : List Path) (hps : ∀ p ∈ ps, Path.ofText p.text = p) :
      (ps.map Path.text).map Path.ofText = ps := by
    rw [List.map_map]
    exact (List.map_congr_left hps).trans (List.map_id' ps)
  rw [ofTexts, texts, hmap _ fun p hp => h p (List.mem_append_left _ hp),
    hmap _ fun p hp => h p (List.mem_append_right _ hp)]

theorem paths?_eq (j : Json) :
    paths? j = (j.toListOf? Json.toText?).map (List.map Path.ofText) := by
  cases j with
  | array items =>
    rw [paths?, Json.toListOf?, Json.toListOf?]
    induction items with
    | nil => rfl
    | cons j js ih =>
      rw [List.mapM_cons, List.mapM_cons, ih]
      cases j.toText? <;> cases js.mapM Json.toText? <;> rfl
  | _ => rfl

theorem ofJson?_eq (j : Json) : ofJson? j = (textsOfJson? j).map ofTexts := by
  have hrequired (f : Json.Field Json) :
      f.required paths? = (f.required (Json.toListOf? Json.toText?)).map (List.map Path.ofText) := by
    cases f with
    | given j => exact paths?_eq j
    | _ => rfl
  rw [ofJson?, textsOfJson?]
  rcases j.fields? ["bin", "src"] with _ | _ | ⟨_, _ | ⟨_, _ | _⟩⟩ <;>
    simp [Json.consFields, Json.noFields, hrequired, ofTexts, Option.map_bind, Option.bind_assoc,
      Option.bind_map, Function.comp_def]

theorem isCodingBy : IsCodingBy Encodes ofJson? 2 where
  isPrintable := by
    rintro c _ ⟨-, rfl⟩
    exact isCoding_texts.isPrintable c.texts
  decode_within := by
    rintro c _ ⟨hc, rfl⟩
    have htexts := isCoding_texts.decode_within Json.maxDepth c.texts
    have hjson : c.toJson = textsToJson c.texts := rfl
    rw [ofJson?_eq, hjson, htexts]
    split
    · rw [Option.map_some, ofTexts_texts hc]
    · rfl
  exists_encoding {j c} h := by
    rw [ofJson?_eq] at h
    obtain ⟨ts, -, rfl⟩ := Option.map_eq_some_iff.mp h
    refine ⟨_, fun p hp => ?_, rfl⟩
    rw [ofTexts, ← List.map_append] at hp
    obtain ⟨text, -, rfl⟩ := List.mem_map.mp hp
    rw [Path.text_ofText]
  depth_le := by
    rintro j _ c h ⟨-, rfl⟩
    rw [ofJson?_eq] at h
    obtain ⟨ts, hts, rfl⟩ := Option.map_eq_some_iff.mp h
    have hjson : (ofTexts ts).toJson = textsToJson (ofTexts ts).texts := rfl
    rw [hjson, texts_ofTexts]
    exact isCoding_texts.depth_le hts

end AccessorsClassPath

/--
Every value of the model that has a JSON form survives it: each comes back from any text of it, or nothing
does if it is too deep for the decoder, and all that was decoded from some text, in any accepted spelling,
is decoded from its own.
-/
theorem values_survive_json :
    RoundTrips JvmType.toJson JvmType.ofJson?
    ∧ RoundTrips TypeParameter.toJson TypeParameter.ofJson?
    ∧ RoundTrips ClassSignature.toJson ClassSignature.ofJson?
    ∧ RoundTrips MethodSignature.toJson MethodSignature.ofJson?
    ∧ RoundTrips MethodDescriptor.toJson MethodDescriptor.ofJson?
    ∧ RoundTrips ClassDescriptor.toJson ClassDescriptor.ofJson?
    ∧ RoundTrips Documentation.toJson Documentation.ofJson?
    ∧ RoundTripsBy DocumentationIndex.Encodes DocumentationIndex.ofJson?
    ∧ RoundTrips (ProjectSchema.toJson .string) (ProjectSchema.ofJson? Json.toText?)
    ∧ RoundTrips (ProjectSchema.toJson JvmType.toJson) (ProjectSchema.ofJson? JvmType.ofJson?)
    ∧ RoundTrips BuildSchema.toJson BuildSchema.ofJson?
    ∧ RoundTripsBy AccessorsClassPath.Encodes AccessorsClassPath.ofJson? :=
  ⟨JvmType.isCoding.roundTrips (by decide), TypeParameter.isCoding.roundTrips (by decide),
    ClassSignature.isCoding.roundTrips (by decide), MethodSignature.isCoding.roundTrips (by decide),
    MethodDescriptor.isCoding.roundTrips (by decide), ClassDescriptor.isCoding.roundTrips (by decide),
    Documentation.isCoding.roundTrips (by decide),
    DocumentationIndex.isCodingBy.roundTripsBy (by decide),
    (ProjectSchema.isCoding .text).roundTrips (by decide),
    (ProjectSchema.isCoding JvmType.isCoding).roundTrips (by decide),
    BuildSchema.isCoding.roundTrips (by decide), AccessorsClassPath.isCodingBy.roundTripsBy (by decide)⟩

end DslBindings
