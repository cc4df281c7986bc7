import DslBindings.Proofs.Json.Coding
import DslBindings.Signature.Encoding

/-!
# Types and descriptors in JSON

A type is decoded from its encoding, and whatever a type was decoded from, its encoding is no deeper.
Both follow the roles that a value can have inside a type: as a type, as a list of types, and as the
bound of a wildcard. The descriptors are records of types.
-/

namespace DslBindings

open Json (IsCoding IsFieldCoding IsFieldsCoding IsPrintable depthOfAll)

namespace JvmType

theorem toJson_ne_null (t : JvmType) : t.toJson ≠ .null := by
  cases t <;> simp [toJson, tagged]

/-! ### What is encoded -/

theorem primitiveOfJson?_keyword (p : PrimitiveType) :
    primitiveOfJson? (.string p.keyword) = some p := by
  cases p <;> decide

theorem varianceOfJson?_varianceName (v : Variance) :
    varianceOfJson? (.string (varianceName v)) = some v := by
  cases v <;> decide

theorem kindOfJson?_tag (inside : Bool) (kind : Kind) :
    Kind.ofJson? inside (.string kind.tag) = some kind := by
  cases kind <;> rfl

theorem rolesOfMembers_eq_map (ms : List (String × Json)) :
    rolesOfMembers ms = ms.map fun m => (m.1, roles true m.2) := by
  induction ms with
  | nil => rfl
  | cons m ms ih => rw [rolesOfMembers, ih, List.map_cons]

/-- The type that an object of a kind is, if it has the fields of this kind. -/
theorem type_roles_tagged (inside : Bool) {kind : Kind} {fields : List (String × Json)}
    (hfields : fields.map Prod.fst = kind.keys) :
    (roles inside (tagged kind fields)).type
      = ofFields? kind (fields.map fun m => .given (roles true m.2)) := by
  have hkeys : ((rolesOfMembers (("kind", .string kind.tag) :: fields)).map Prod.fst).Nodup := by
    have : (rolesOfMembers (("kind", .string kind.tag) :: fields)).map Prod.fst
        = "kind" :: kind.keys := by
      rw [rolesOfMembers_eq_map, ← hfields]
      simp
    rw [this]
    cases kind <;> decide
  have hkind : Json.fieldOf? (rolesOfMembers (("kind", .string kind.tag) :: fields)) "kind"
      = some (.given (roles true (.string kind.tag))) :=
    Json.fieldOf?_of_mem hkeys List.mem_cons_self
  have hmapM : (fields.map Prod.fst).mapM
      (Json.fieldOf? (rolesOfMembers (("kind", .string kind.tag) :: fields)))
      = some (fields.map fun m => .given (roles true m.2)) := by
    refine Json.mapM_eq_some_map fun m hm => ?_
    refine Json.fieldOf?_of_mem (m := (m.1, roles true m.2)) hkeys ?_
    rw [rolesOfMembers_eq_map]
    exact List.mem_map_of_mem (List.mem_cons_of_mem _ hm)
  rw [hfields] at hmapM
  have hvalue : (roles true (.string kind.tag)).value = .string kind.tag := rfl
  rw [tagged, roles, ofMembers?, hkind]
  simp [Json.Field.required, hvalue, kindOfJson?_tag, hmapM]

mutual

theorem type_roles_toJson (inside : Bool) : ∀ t : JvmType, (roles inside t.toJson).type = some t
  | .primitive p => by
    rw [toJson, type_roles_tagged inside rfl]
    simp [ofFields?, Json.Field.required, roles, primitiveOfJson?_keyword]
  | .plain name => by
    rw [toJson, type_roles_tagged inside rfl]
    simp [ofFields?, Json.Field.required, roles, Json.toText?]
  | .generic definition arguments => by
    rw [toJson, type_roles_tagged inside rfl]
    simp [ofFields?, Json.Field.required, roles, Json.toText?, types_roles_toJsonAll arguments]
  | .typeVariable name => by
    rw [toJson, type_roles_tagged inside rfl]
    simp [ofFields?, Json.Field.required, roles, Json.toText?]
  | .array element => by
    rw [toJson, type_roles_tagged inside rfl]
    simp [ofFields?, Json.Field.required, type_roles_toJson true element]
  | .unbounded => by
    rw [toJson, type_roles_tagged inside rfl]
    simp [ofFields?, Json.Field.required, roles]
  | .bounded variance bound => by
    rw [toJson, type_roles_tagged inside rfl]
    simp [ofFields?, Json.Field.required, roles, rolesOfItems, wildcardOfItems?,
      varianceOfJson?_varianceName, type_roles_toJson true bound]

theorem types_roles_toJsonAll : ∀ ts : List JvmType,
    (rolesOfItems (toJsonAll ts)).mapM Roles.type = some ts
  | [] => rfl
  | t :: ts => by
    rw [toJsonAll, rolesOfItems, List.mapM_cons, type_roles_toJson true t, types_roles_toJsonAll ts]
    rfl

end

mutual

theorem isPrintable_toJson : ∀ t : JvmType, IsPrintable t.toJson
  | .primitive _ | .plain _ | .typeVariable _ =>
    .object _ (by simp [IsPrintable.string])
  | .generic definition arguments =>
    .object _ (by simp [IsPrintable.string, IsPrintable.array _ (isPrintable_toJsonAll arguments)])
  | .array element => .object _ (by simp [IsPrintable.string, isPrintable_toJson element])
  | .unbounded => .object _ (by simp [IsPrintable.string, IsPrintable.null])
  | .bounded variance bound =>
    .object _ (by
      have hpair : IsPrintable (.array [.string (varianceName variance), bound.toJson]) :=
        .array _ (by simp [IsPrintable.string, isPrintable_toJson bound])
      simp [IsPrintable.string, hpair])

theorem isPrintable_toJsonAll : ∀ ts : List JvmType, ∀ j ∈ toJsonAll ts, IsPrintable j
  | [] => List.forall_mem_nil _
  | t :: ts => List.forall_mem_cons.mpr ⟨isPrintable_toJson t, isPrintable_toJsonAll ts⟩

end

/-! ### What is decoded -/

/-- How deep encodings are of what a value is in its roles, if it is so deep itself. -/
structure Roles.Fits (r : Roles) (d : Nat) : Prop where
  type (t : JvmType) (h : r.type = some t) : t.toJson.depth ≤ d
  types (ts : List JvmType) (h : r.types = some ts) : depthOfAll (toJsonAll ts) + 1 ≤ d
  wildcard (t : JvmType) (h : r.wildcard = some t) : t.toJson.depth ≤ d + 1

theorem depth_tagged (kind : Kind) (fields : List (String × Json)) :
    (tagged kind fields).depth = Json.depthOfMembers fields + 1 := by
  simp [tagged, Json.depth, Json.depthOfMembers]

theorem given_of_required {α β : Type} {decode : α → Option β} {f : Json.Field α} {b : β}
    (h : f.required decode = some b) : ∃ a, f = .given a ∧ decode a = some b := by
  cases f with
  | given a => exact ⟨a, rfl, h⟩
  | _ => cases h

theorem depth_ofFields?_le {kind : Kind} {fs : List (Json.Field Roles)} {d : Nat}
    (hfs : ∀ r, .given r ∈ fs → r.Fits d) {t : JvmType} (h : ofFields? kind fs = some t) :
    t.toJson.depth ≤ d + 1 := by
  rw [ofFields?.eq_def] at h
  split at h
  · obtain ⟨r, -, h⟩ := given_of_required h
    obtain ⟨p, -, rfl⟩ := Option.map_eq_some_iff.mp h
    simp [toJson, depth_tagged, Json.depthOfMembers, Json.depth]
  · obtain ⟨r, -, h⟩ := given_of_required h
    obtain ⟨name, -, rfl⟩ := Option.map_eq_some_iff.mp h
    simp [toJson, depth_tagged, Json.depthOfMembers, Json.depth]
  · obtain ⟨r, -, h⟩ := given_of_required h
    obtain ⟨name, -, rfl⟩ := Option.map_eq_some_iff.mp h
    simp [toJson, depth_tagged, Json.depthOfMembers, Json.depth]
  · simp only [Option.bind_eq_bind, Option.bind_eq_some_iff] at h
    obtain ⟨definition, -, arguments, harguments, h⟩ := h
    cases h
    obtain ⟨r, rfl, harguments⟩ := given_of_required harguments
    have hdepth := (hfs r (by simp)).types arguments harguments
    simp [toJson, depth_tagged, Json.depthOfMembers, Json.depth]
    omega
  · obtain ⟨r, rfl, h⟩ := given_of_required h
    obtain ⟨element, helement, rfl⟩ := Option.map_eq_some_iff.mp h
    have hdepth := (hfs r (by simp)).type element helement
    simp [toJson, depth_tagged, Json.depthOfMembers]
    omega
  · cases h
    simp [toJson, depth_tagged, Json.depthOfMembers, Json.depth]
  · obtain ⟨r, rfl, h⟩ := given_of_required h
    exact (hfs r (by simp)).wildcard t h
  · cases h

theorem Roles.Fits.mono {r : Roles} {d d' : Nat} (h : r.Fits d) (hd : d ≤ d') : r.Fits d' where
  type t ht := (h.type t ht).trans hd
  types ts hts := (h.types ts hts).trans hd
  wildcard t ht := (h.wildcard t ht).trans (Nat.succ_le_succ hd)

theorem depth_ofMembers?_le {inside : Bool} {members : List (String × Roles)} {d : Nat}
    (hmembers : ∀ m ∈ members, m.2.Fits d) {t : JvmType} (h : ofMembers? inside members = some t) :
    t.toJson.depth ≤ d + 1 := by
  simp only [ofMembers?, Option.bind_eq_bind, Option.bind_eq_some_iff] at h
  obtain ⟨-, -, kind, -, fs, hfs, h⟩ := h
  refine depth_ofFields?_le (fun r hr => ?_) h
  obtain ⟨m, hm, rfl⟩ := Json.mem_of_mapM_fieldOf? hfs hr
  exact hmembers m hm

theorem depth_ofItems?_le {inside : Bool} {parts : List Roles} {d : Nat}
    (hparts : ∀ r ∈ parts, r.Fits d) {t : JvmType} (h : ofItems? inside parts = some t) :
    t.toJson.depth ≤ d + 1 := by
  cases parts with
  | nil => cases h
  | cons k items =>
    simp only [ofItems?, Option.bind_eq_bind, Option.bind_eq_some_iff] at h
    obtain ⟨kind, -, fs, hfs, h⟩ := h
    refine depth_ofFields?_le (fun r hr => ?_) h
    exact hparts r (List.mem_cons_of_mem _ (Json.mem_of_fieldsOfItems? hfs hr))

theorem depth_wildcardOfItems?_le {parts : List Roles} {d : Nat} (hparts : ∀ r ∈ parts, r.Fits d)
    {t : JvmType} (h : wildcardOfItems? parts = some t) : t.toJson.depth ≤ d + 2 := by
  rw [wildcardOfItems?.eq_def] at h
  split at h
  · next v b =>
    split at h
    · next variance bound _ hbound =>
      cases h
      have hdepth := (hparts b (by simp)).type bound hbound
      simp [toJson, depth_tagged, Json.depthOfMembers, Json.depth, depthOfAll]
      omega
    · cases h
  · cases h

theorem depthOfAll_types_le {parts : List Roles} {d : Nat} (hparts : ∀ r ∈ parts, r.Fits d)
    {ts : List JvmType} (h : parts.mapM Roles.type = some ts) : depthOfAll (toJsonAll ts) ≤ d := by
  induction parts generalizing ts with
  | nil =>
    cases h
    exact Nat.zero_le _
  | cons r parts ih =>
    obtain ⟨hr, hparts⟩ := List.forall_mem_cons.mp hparts
    simp only [List.mapM_cons, Option.bind_eq_bind, Option.bind_eq_some_iff] at h
    obtain ⟨t, ht, ts, hts, hcons⟩ := h
    cases hcons
    exact Nat.max_le.mpr ⟨hr.type t ht, ih hparts hts⟩

mutual

/-- What a value is in any role has an encoding that is not deeper. -/
theorem fits_roles (inside : Bool) : ∀ j : Json, (roles inside j).Fits j.depth
  | .object members => by
    have hmembers := fits_rolesOfMembers members
    rw [roles, Json.depth]
    exact ⟨fun t ht => depth_ofMembers?_le hmembers ht, nofun, nofun⟩
  | .array items => by
    have hitems := fits_rolesOfItems items
    rw [roles, Json.depth]
    exact ⟨fun t ht => depth_ofItems?_le hitems ht,
      fun ts hts => Nat.succ_le_succ (depthOfAll_types_le hitems hts),
      fun t ht => depth_wildcardOfItems?_le hitems ht⟩
  | .null => by
    rw [roles]
    refine ⟨nofun, nofun, fun t ht => ?_⟩
    cases ht
    simp [toJson, depth_tagged, Json.depthOfMembers, Json.depth]
  | .bool _ | .number _ | .string _ | .unreadable => ⟨nofun, nofun, nofun⟩

theorem fits_rolesOfItems : ∀ js : List Json, ∀ r ∈ rolesOfItems js, r.Fits (depthOfAll js)
  | [] => List.forall_mem_nil _
  | j :: js => by
    rw [rolesOfItems, depthOfAll]
    exact List.forall_mem_cons.mpr ⟨(fits_roles true j).mono (Nat.le_max_left _ _),
      fun r hr => (fits_rolesOfItems js r hr).mono (Nat.le_max_right _ _)⟩

theorem fits_rolesOfMembers : ∀ ms : List (String × Json),
    ∀ m ∈ rolesOfMembers ms, m.2.Fits (Json.depthOfMembers ms)
  | [] => List.forall_mem_nil _
  | (key, j) :: ms => by
    rw [rolesOfMembers, Json.depthOfMembers]
    exact List.forall_mem_cons.mpr ⟨(fits_roles true j).mono (Nat.le_max_left _ _),
      fun m hm => (fits_rolesOfMembers ms m hm).mono (Nat.le_max_right _ _)⟩

end

theorem isCoding : IsCoding toJson ofJson? 0 where
  isPrintable := isPrintable_toJson
  decode_within room t := by
    have hreadable : t.toJson.isReadable = true := (isPrintable_toJson t).isReadable
    rw [ofJson?, Json.isReadable_within, hreadable, Bool.true_and]
    by_cases hdepth : t.toJson.depth ≤ room
    · rw [Json.within_of_depth_le hdepth, if_pos (by simpa using hdepth), if_pos hdepth,
        type_roles_toJson]
    · rw [if_neg (by simpa using hdepth), if_neg hdepth]
  depth_le {j t} h := by
    rw [ofJson?] at h
    split at h
    · exact ((fits_roles false j).type t h).trans (Nat.le_max_left _ _)
    · cases h

end JvmType

/-! ### Descriptors -/

namespace TypeParameter

/-- The fields of a type parameter. -/
def fields : TypeParameter ≃ String × JvmType × Unit where
  toFun p := (p.name, p.bound, ())
  invFun f := ⟨f.1, f.2.1⟩
  left_inv _ := rfl
  right_inv _ := rfl

theorem isCoding : IsCoding toJson ofJson? 1 := by
  refine IsFieldsCoding.record ["name", "bound"]
    (.cons (.required .text) (.cons (.required JvmType.isCoding) .nil)) (by decide) fields
    (fun p => rfl) fun j => ?_
  rw [ofJson?]
  rcases j.fields? ["name", "bound"] with _ | _ | ⟨_, _ | ⟨_, _ | _⟩⟩ <;>
    simp [Json.consFields, Json.noFields, fields, Option.map_bind, Option.bind_assoc,
      Function.comp_def]

end TypeParameter

namespace ClassSignature

/-- The fields of a class signature. -/
def fields : ClassSignature ≃ List TypeParameter × Option JvmType × List JvmType × Unit where
  toFun s := (s.typeParameters, s.superClass, s.interfaces, ())
  invFun f := ⟨f.1, f.2.1, f.2.2.1⟩
  left_inv _ := rfl
  right_inv _ := rfl

theorem isCoding : IsCoding toJson ofJson? 3 := by
  refine IsFieldsCoding.record ["type_parameters", "super_class", "interfaces"]
    (.cons (.required TypeParameter.isCoding.list)
      (.cons (.optional JvmType.isCoding JvmType.toJson_ne_null)
        (.cons (.required JvmType.isCoding.list) .nil)))
    (by decide) fields (fun s => rfl) fun j => ?_
  rw [ofJson?]
  rcases j.fields? ["type_parameters", "super_class", "interfaces"] with
    _ | _ | ⟨_, _ | ⟨_, _ | ⟨_, _ | _⟩⟩⟩ <;>
    simp [Json.consFields, Json.noFields, fields, Option.map_bind, Option.bind_assoc,
      Function.comp_def]

theorem toJson_ne_null (s : ClassSignature) : s.toJson ≠ .null := by
  rw [toJson]
  exact Json.noConfusion

end ClassSignature

namespace MethodSignature

/-- The fields of a method signature. -/
def fields : MethodSignature ≃ List TypeParameter × List JvmType × JvmType × Unit where
  toFun s := (s.typeParameters, s.parameters, s.returnType, ())
  invFun f := ⟨f.1, f.2.1, f.2.2.1⟩
  left_inv _ := rfl
  right_inv _ := rfl

theorem isCoding : IsCoding toJson ofJson? 3 := by
  refine IsFieldsCoding.record ["type_parameters", "parameters", "return_type"]
    (.cons (.required TypeParameter.isCoding.list)
      (.cons (.required JvmType.isCoding.list) (.cons (.required JvmType.isCoding) .nil)))
    (by decide) fields (fun s => rfl) fun j => ?_
  rw [ofJson?]
  rcases j.fields? ["type_parameters", "parameters", "return_type"] with
    _ | _ | ⟨_, _ | ⟨_, _ | ⟨_, _ | _⟩⟩⟩ <;>
    simp [Json.consFields, Json.noFields, fields, Option.map_bind, Option.bind_assoc,
      Function.comp_def]

end MethodSignature

theorem Access.isCoding : IsCoding toJson ofJson? 0 where
  isPrintable a := .number _ a.bits.toNat_lt
  decode_within room a := by
    have hdepth : a.toJson.depth ≤ room := Nat.zero_le room
    rw [Json.within_of_depth_le hdepth, if_pos hdepth, ofJson?, toJson, Json.toUInt16?_ofNat]
    rfl
  depth_le _ := Nat.zero_le _

namespace MethodDescriptor

/-- The fields of a method. -/
def fields : MethodDescriptor ≃ String × MethodSignature × Access × Unit where
  toFun m := (m.name, m.signature, m.access, ())
  invFun f := ⟨f.1, f.2.1, f.2.2.1⟩
  left_inv _ := rfl
  right_inv _ := rfl

theorem isCoding : IsCoding toJson ofJson? 4 := by
  refine IsFieldsCoding.record ["name", "signature", "access"]
    (.cons (.required .text)
      (.cons (.required MethodSignature.isCoding) (.cons (.required Access.isCoding) .nil)))
    (by decide) fields (fun m => rfl) fun j => ?_
  rw [ofJson?]
  rcases j.fields? ["name", "signature", "access"] with _ | _ | ⟨_, _ | ⟨_, _ | ⟨_, _ | _⟩⟩⟩ <;>
    simp [Json.consFields, Json.noFields, fields, Option.map_bind, Option.bind_assoc,
      Function.comp_def]

end MethodDescriptor

namespace ClassDescriptor

/-- The fields of a class. -/
def fields : ClassDescriptor ≃
    String × Access × Option ClassSignature × List MethodDescriptor × Unit where
  toFun c := (c.name, c.access, c.signature, c.methods, ())
  invFun f := ⟨f.1, f.2.1, f.2.2.1, f.2.2.2.1⟩
  left_inv _ := rfl
  right_inv _ := rfl

theorem isCoding : IsCoding toJson ofJson? 6 := by
  refine IsFieldsCoding.record ["name", "access", "signature", "methods"]
    (.cons (.required .text) (.cons (.required Access.isCoding)
      (.cons (.optional ClassSignature.isCoding ClassSignature.toJson_ne_null)
        (.cons (.required MethodDescriptor.isCoding.list) .nil))))
    (by decide) fields (fun c => rfl) fun j => ?_
  rw [ofJson?]
  rcases j.fields? ["name", "access", "signature", "methods"] with
    _ | _ | ⟨_, _ | ⟨_, _ | ⟨_, _ | ⟨_, _ | _⟩⟩⟩⟩ <;>
    simp [Json.consFields, Json.noFields, fields, Option.map_bind, Option.bind_assoc,
      Function.comp_def]

end ClassDescriptor

end DslBindings
