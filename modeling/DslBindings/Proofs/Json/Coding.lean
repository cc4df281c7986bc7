import Mathlib.Data.List.Basic
import Mathlib.Logic.Equiv.Defs
import Std.Data.ExtTreeMap
import DslBindings.Json.Record
import DslBindings.Proofs.Json.Printing
import DslBindings.Proofs.Text.Utf8

/-!
# Encodings that can be decoded

An encoding and a decoder belong together when what is encoded comes back as long as there is room for
it, and not at all otherwise. `IsCoding` says so of JSON values, with two facts more by which codings are
put together and by which what was decoded can be encoded again: the numbers in an encoding can be
written, and an encoding is not much deeper than a value that is decoded to the same. Lists, maps and
records of what has a coding have one, so a coding of a record is a list of its fields.
-/

namespace DslBindings.Json

variable {α β : Type}

/-- Values are decoded from their encodings, in as much room as these need. -/
structure IsCoding (encode : α → Json) (decode : Json → Option α) (slack : Nat) : Prop where
  isPrintable (a : α) : IsPrintable (encode a)
  decode_within (room : Nat) (a : α) :
    decode ((encode a).within room) = if (encode a).depth ≤ room then some a else none
  /-- What is decoded from a value is encoded no deeper than that is, or than the slack. -/
  depth_le {j : Json} {a : α} (h : decode j = some a) : (encode a).depth ≤ max j.depth slack

/-! ### From values to texts -/

/-- A text that a value can be written as. -/
def Spells (text : String) (j : Json) : Prop := text = j.render ∨ text = j.renderPretty

/--
Values survive to be written, in any of the ways to encode them. Each comes back from any text of it, or
nothing does if it is too deep for the decoder. What was decoded from a text or from bytes, however it was
spelled there, can be encoded, and is decoded from that.
-/
structure RoundTripsBy (encodes : α → Json → Prop) (decode : Json → Option α) : Prop where
  comesBack {a : α} {j : Json} (h : encodes a j) {text : String} (htext : Spells text j) :
    (parse text).bind decode = if j.depth ≤ maxDepth then some a else none
  exists_encoding {a : α}
    (h : (∃ text, (parse text).bind decode = some a) ∨ ∃ bytes, (parseBytes bytes).bind decode = some a) :
    ∃ j, encodes a j
  isStable {a : α}
    (h : (∃ text, (parse text).bind decode = some a) ∨ ∃ bytes, (parseBytes bytes).bind decode = some a)
    {j : Json} (hj : encodes a j) {text : String} (htext : Spells text j) :
    (parse text).bind decode = some a

/-- The same, with one way to encode each value. -/
def RoundTrips (encode : α → Json) (decode : Json → Option α) : Prop :=
  RoundTripsBy (fun a j => j = encode a) decode

/-- Ways to encode values from which they are decoded. -/
structure IsCodingBy (encodes : α → Json → Prop) (decode : Json → Option α) (slack : Nat) : Prop where
  isPrintable {a : α} {j : Json} (h : encodes a j) : IsPrintable j
  decode_within {a : α} {j : Json} (h : encodes a j) :
    decode (j.within maxDepth) = if j.depth ≤ maxDepth then some a else none
  exists_encoding {j : Json} {a : α} (h : decode j = some a) : ∃ j', encodes a j'
  depth_le {j j' : Json} {a : α} (h : decode j = some a) (h' : encodes a j') :
    j'.depth ≤ max j.depth slack

theorem parseBytes_utf8 (text : String) : parseBytes (Text.utf8 text) = parse text := by
  rw [parseBytes, Text.repair_utf8, Text.ofUtf8?_utf8, Option.bind_some]

theorem exists_parse_of_decodes {decode : Json → Option α} {a : α}
    (h : (∃ text, (parse text).bind decode = some a) ∨ ∃ bytes, (parseBytes bytes).bind decode = some a) :
    ∃ j, j.depth ≤ maxDepth ∧ decode j = some a := by
  obtain ⟨text, htext⟩ : ∃ text, (parse text).bind decode = some a := by
    rcases h with h | ⟨bytes, h⟩
    · exact h
    · rw [parseBytes, Option.bind_assoc] at h
      obtain ⟨text, -, htext⟩ := Option.bind_eq_some_iff.mp h
      exact ⟨text, htext⟩
  obtain ⟨j, hj, hdecode⟩ := Option.bind_eq_some_iff.mp htext
  exact ⟨j, depth_parse_le hj, hdecode⟩

theorem IsCodingBy.roundTripsBy {encodes : α → Json → Prop} {decode : Json → Option α} {slack : Nat}
    (h : IsCodingBy encodes decode slack) (hslack : slack ≤ maxDepth) : RoundTripsBy encodes decode := by
  have hback {a : α} {j : Json} (hj : encodes a j) {text : String} (htext : Spells text j) :
      (parse text).bind decode = if j.depth ≤ maxDepth then some a else none := by
    rw [parse_of_mem_renderings (h.isPrintable hj) htext]
    exact h.decode_within hj
  refine ⟨hback, ?_, ?_⟩
  · intro a ha
    obtain ⟨j, -, hdecode⟩ := exists_parse_of_decodes ha
    exact h.exists_encoding hdecode
  · intro a ha j hj text htext
    obtain ⟨source, hdepth, hdecode⟩ := exists_parse_of_decodes ha
    rw [hback hj htext, if_pos ((h.depth_le hdecode hj).trans (max_le hdepth hslack))]

namespace IsCoding

variable {encode : α → Json} {decode : Json → Option α} {slack : Nat}

theorem roundTrips (h : IsCoding encode decode slack) (hslack : slack ≤ maxDepth) :
    RoundTrips encode decode := by
  have hby : IsCodingBy (fun a j => j = encode a) decode slack := by
    refine ⟨?_, ?_, ?_, ?_⟩
    · rintro a _ rfl
      exact h.isPrintable a
    · rintro a _ rfl
      exact h.decode_within maxDepth a
    · exact fun {_ a} _ => ⟨encode a, rfl⟩
    · rintro j _ a hdecode rfl
      exact h.depth_le hdecode
  exact hby.roundTripsBy hslack

/-! ### Texts, lists and maps -/

theorem text : IsCoding .string toText? 0 where
  isPrintable := .string
  decode_within room a := by simp [within, toText?, depth]
  depth_le _ := Nat.zero_le _

theorem mapM_withinAll (h : IsCoding encode decode slack) (room : Nat) (as : List α) :
    (withinAll room (as.map encode)).mapM decode
      = if depthOfAll (as.map encode) ≤ room then some as else none := by
  induction as with
  | nil => simp [withinAll, depthOfAll]
  | cons a as ih =>
    rw [List.map_cons, withinAll, List.mapM_cons, ih, h.decode_within, depthOfAll]
    by_cases ha : (encode a).depth ≤ room <;> by_cases has : depthOfAll (as.map encode) ≤ room <;>
      simp [ha, has, Nat.max_le]

theorem depthOfAll_le (h : IsCoding encode decode slack) {js : List Json} {as : List α}
    (hdecode : js.mapM decode = some as) :
    depthOfAll (as.map encode) ≤ max (depthOfAll js) slack := by
  induction js generalizing as with
  | nil =>
    cases hdecode
    exact Nat.zero_le _
  | cons j js ih =>
    simp only [List.mapM_cons, Option.bind_eq_bind, Option.bind_eq_some_iff] at hdecode
    obtain ⟨a, ha, as, has, hcons⟩ := hdecode
    cases hcons
    have hhead := h.depth_le ha
    have htail := ih has
    rw [List.map_cons, depthOfAll, depthOfAll]
    omega

theorem list (h : IsCoding encode decode slack) :
    IsCoding (fun as => .array (as.map encode)) (toListOf? decode) (slack + 1) where
  isPrintable as := .array _ (List.forall_mem_map.mpr fun a _ => h.isPrintable a)
  decode_within room as := by
    rw [within, inRoom, depth]
    split
    · next hroom =>
      rw [if_neg (by omega)]
      rfl
    · next hroom =>
      have hdepth : depthOfAll (as.map encode) + 1 ≤ room ↔ depthOfAll (as.map encode) ≤ room - 1 := by
        omega
      rw [toListOf?, h.mapM_withinAll]
      simp only [hdepth]
  depth_le {j as} hdecode := by
    cases j with
    | array js =>
      have := h.depthOfAll_le hdecode
      rw [depth, depth]
      omega
    | _ => cases hdecode

end IsCoding

/-! ### Fields of records -/

/-- How deep the value of a field is. -/
def Field.depth : Field Json → Nat
  | .given j => j.depth
  | .missing | .cutOff => 0

/-- The same as of a coding, of the value of a field. -/
structure IsFieldCoding (encode : α → Json) (decode : Field Json → Option α) (slack : Nat) : Prop where
  isPrintable (a : α) : IsPrintable (encode a)
  decode_within (room : Nat) (a : α) :
    decode (.given ((encode a).within room)) = if (encode a).depth ≤ room then some a else none
  depth_le {f : Field Json} {a : α} (h : decode f = some a) : (encode a).depth ≤ max f.depth slack

theorem within_ne_null {j : Json} (h : j ≠ .null) (room : Nat) : j.within room ≠ .null := by
  cases j with
  | null => exact absurd rfl h
  | array items =>
    rw [within, inRoom]
    split <;> simp
  | object members =>
    rw [within, inRoom]
    split <;> simp
  | _ => simp [within]

namespace IsFieldCoding

variable {encode : α → Json} {decode : Json → Option α} {slack : Nat}

theorem required (h : IsCoding encode decode slack) :
    IsFieldCoding encode (Field.required decode) slack where
  isPrintable := h.isPrintable
  decode_within := h.decode_within
  depth_le {f a} hdecode := by
    cases f with
    | given j => exact h.depth_le hdecode
    | _ => cases hdecode

theorem withDefault {value : α} (h : IsCoding encode decode slack)
    (hvalue : (encode value).depth ≤ slack) :
    IsFieldCoding encode (Field.withDefault value decode) slack where
  isPrintable := h.isPrintable
  decode_within := h.decode_within
  depth_le {f a} hdecode := by
    cases f with
    | given j => exact h.depth_le hdecode
    | _ =>
      cases hdecode
      exact hvalue.trans (le_max_right _ _)

theorem optional (h : IsCoding encode decode slack) (hnull : ∀ a, encode a ≠ .null) :
    IsFieldCoding (ofOption encode) (Field.optional decode) slack where
  isPrintable
    | none => .null
    | some a => h.isPrintable a
  decode_within room
    | none => rfl
    | some a => by
      have hdecode : Field.optional decode (.given ((encode a).within room))
          = (decode ((encode a).within room)).map some := by
        rw [Field.optional]
        exact within_ne_null (hnull a) room
      rw [ofOption, hdecode, h.decode_within]
      split <;> rfl
  depth_le {f a} hdecode := by
    rw [Field.optional.eq_def] at hdecode
    split at hdecode
    · cases hdecode
      exact Nat.zero_le _
    · cases hdecode
      exact Nat.zero_le _
    · obtain ⟨a, ha, rfl⟩ := Option.map_eq_some_iff.mp hdecode
      exact h.depth_le ha
    · cases hdecode

end IsFieldCoding

/-! ### Records -/

/-- The same as of a coding, of the values of fields in their order. -/
structure IsFieldsCoding (encode : α → List Json) (decode : List (Field Json) → Option α)
    (count slack : Nat) : Prop where
  isPrintable (a : α) : ∀ j ∈ encode a, IsPrintable j
  length_eq (a : α) : (encode a).length = count
  decode_within (room : Nat) (a : α) :
    decode ((withinAll room (encode a)).map .given)
      = if depthOfAll (encode a) ≤ room then some a else none
  depth_le {fs : List (Field Json)} {a : α} {d : Nat} (h : decode fs = some a)
    (hd : ∀ f ∈ fs, f.depth ≤ d) : depthOfAll (encode a) ≤ max d slack

/-- Decodes a field, and then the others. -/
def consFields (decode : Field Json → Option α) (decodeRest : List (Field Json) → Option β) :
    List (Field Json) → Option (α × β)
  | f :: fs => do return (← decode f, ← decodeRest fs)
  | [] => none

/-- Decodes no field. -/
def noFields : List (Field Json) → Option Unit
  | [] => some ()
  | _ :: _ => none

namespace IsFieldsCoding

theorem nil : IsFieldsCoding (fun _ => []) noFields 0 0 where
  isPrintable _ := List.forall_mem_nil _
  length_eq _ := rfl
  decode_within _ _ := rfl
  depth_le _ _ := Nat.zero_le _

theorem cons {encode : α → Json} {decode : Field Json → Option α} {encodeRest : β → List Json}
    {decodeRest : List (Field Json) → Option β} {slack slack' count : Nat}
    (h : IsFieldCoding encode decode slack)
    (hrest : IsFieldsCoding encodeRest decodeRest count slack') :
    IsFieldsCoding (fun a => encode a.1 :: encodeRest a.2) (consFields decode decodeRest) (count + 1)
      (max slack slack') where
  isPrintable a := List.forall_mem_cons.mpr ⟨h.isPrintable a.1, hrest.isPrintable a.2⟩
  length_eq a := congrArg (· + 1) (hrest.length_eq a.2)
  decode_within room a := by
    rw [withinAll, List.map_cons, consFields, h.decode_within, hrest.decode_within, depthOfAll]
    by_cases ha : (encode a.1).depth ≤ room <;> by_cases hb : depthOfAll (encodeRest a.2) ≤ room <;>
      simp [ha, hb, Nat.max_le]
  depth_le {fs a d} hdecode hd := by
    cases fs with
    | nil => cases hdecode
    | cons f fs =>
      obtain ⟨hf, hfs⟩ := List.forall_mem_cons.mp hd
      simp only [consFields, Option.bind_eq_bind, Option.bind_eq_some_iff] at hdecode
      obtain ⟨v, hv, vs, hvs, hcons⟩ := hdecode
      cases hcons
      have hhead := h.depth_le hv
      have htail := hrest.depth_le hvs hfs
      change max (encode v).depth (depthOfAll (encodeRest vs)) ≤ max d (max slack slack')
      omega

end IsFieldsCoding

theorem mapM_eq_some_map {γ : Type} {f : α → Option β} {g : γ → α} {g' : γ → β} {cs : List γ}
    (h : ∀ c ∈ cs, f (g c) = some (g' c)) : (cs.map g).mapM f = some (cs.map g') := by
  induction cs with
  | nil => rfl
  | cons c cs ih =>
    obtain ⟨hc, hcs⟩ := List.forall_mem_cons.mp h
    simp [List.mapM_cons, hc, ih hcs]

theorem valuesOf_eq {members : List (String × α)} (hkeys : (members.map Prod.fst).Nodup)
    {m : String × α} (h : m ∈ members) : valuesOf m.1 members = [m.2] := by
  induction members with
  | nil => cases h
  | cons m' members ih =>
    rw [List.map_cons, List.nodup_cons] at hkeys
    rcases List.mem_cons.mp h with rfl | h
    · have hnone : members.filter (·.1 = m.1) = [] := by
        rw [List.filter_eq_nil_iff]
        intro m' hm' heq
        exact hkeys.1 (List.mem_map.mpr ⟨m', hm', by simpa using heq⟩)
      simp [valuesOf, hnone]
    · have hne : m'.1 ≠ m.1 := by
        intro heq
        exact hkeys.1 (heq ▸ List.mem_map_of_mem h)
      have ih := ih hkeys.2 h
      rw [valuesOf] at ih ⊢
      rw [List.filter_cons_of_neg (by simpa using hne), ih]

theorem fieldOf?_of_mem {members : List (String × α)} (hkeys : (members.map Prod.fst).Nodup)
    {m : String × α} (h : m ∈ members) : fieldOf? members m.1 = some (.given m.2) := by
  rw [fieldOf?, valuesOf_eq hkeys h]

/-- An object with all fields and no others says what they are. -/
theorem fields?_object {keys : List String} (hkeys : keys.Nodup) {js : List Json}
    (hlength : js.length = keys.length) :
    fields? keys (.object (keys.zip js)) = some (js.map .given) := by
  have hfst : (keys.zip js).map Prod.fst = keys := List.map_fst_zip hlength.ge
  have hsnd : (keys.zip js).map Prod.snd = js := List.map_snd_zip hlength.le
  have hfields : ((keys.zip js).map Prod.fst).mapM (fieldOf? (keys.zip js))
      = some ((keys.zip js).map fun m => .given m.2) := by
    exact mapM_eq_some_map fun m hm => fieldOf?_of_mem (hfst.symm ▸ hkeys) hm
  rw [hfst] at hfields
  rw [fields?, hfields, ← Function.comp_def, ← List.map_map, hsnd]

theorem depth_le_depthOfMembers {members : List (String × Json)} {m : String × Json}
    (h : m ∈ members) : m.2.depth ≤ depthOfMembers members := by
  induction members with
  | nil => cases h
  | cons m' members ih =>
    rw [depthOfMembers]
    rcases List.mem_cons.mp h with rfl | h
    · exact Nat.le_max_left _ _
    · exact Nat.le_trans (ih h) (Nat.le_max_right _ _)

theorem mem_of_fieldOf? {members : List (String × α)} {key : String} {v : α}
    (h : fieldOf? members key = some (.given v)) : ∃ m ∈ members, m.2 = v := by
  rw [fieldOf?] at h
  split at h
  · cases h
  · next v' hvalues =>
    cases h
    have hv : v ∈ valuesOf key members := hvalues ▸ List.mem_singleton_self v
    obtain ⟨m, hm, rfl⟩ := List.mem_map.mp hv
    exact ⟨m, List.mem_of_mem_filter hm, rfl⟩
  · cases h

theorem mem_of_mapM_fieldOf? {keys : List String} {members : List (String × α)} {fs : List (Field α)}
    (h : keys.mapM (fieldOf? members) = some fs) {v : α} (hv : .given v ∈ fs) :
    ∃ m ∈ members, m.2 = v := by
  induction keys generalizing fs with
  | nil =>
    cases h
    cases hv
  | cons key keys ih =>
    simp only [List.mapM_cons, Option.bind_eq_bind, Option.bind_eq_some_iff] at h
    obtain ⟨f, hf, fs, hfs, hcons⟩ := h
    cases hcons
    rcases List.mem_cons.mp hv with rfl | hv
    · exact mem_of_fieldOf? hf
    · exact ih hfs hv

theorem mem_of_fieldsOfItems? {n : Nat} {items : List α} {fs : List (Field α)}
    (h : fieldsOfItems? n items = some fs) {v : α} (hv : .given v ∈ fs) : v ∈ items := by
  rw [fieldsOfItems?] at h
  split at h
  · cases h
    clear * - hv
    induction n generalizing items with
    | zero => cases hv
    | succ n ih =>
      cases items with
      | nil =>
        rcases List.mem_cons.mp hv with hv | hv
        · cases hv
        · exact ih hv
      | cons v' items =>
        rcases List.mem_cons.mp hv with hv | hv
        · cases hv
          exact List.mem_cons_self
        · exact List.mem_cons_of_mem _ (ih hv)
  · cases h

/-- The fields of a record are not as deep as the record. -/
theorem depth_of_fields? {keys : List String} {j : Json} {fs : List (Field Json)}
    (h : fields? keys j = some fs) : ∃ d, d + 1 = j.depth ∧ ∀ f ∈ fs, f.depth ≤ d := by
  have hgiven {d : Nat} (hd : ∀ v, .given v ∈ fs → v.depth ≤ d) : ∀ f ∈ fs, f.depth ≤ d := by
    intro f hf
    cases f with
    | given v => exact hd v hf
    | _ => exact Nat.zero_le _
  cases j with
  | object members =>
    refine ⟨depthOfMembers members, by rw [depth], hgiven fun v hv => ?_⟩
    obtain ⟨m, hm, rfl⟩ := mem_of_mapM_fieldOf? h hv
    exact depth_le_depthOfMembers hm
  | array items =>
    refine ⟨depthOfAll items, by rw [depth], hgiven fun v hv => ?_⟩
    exact depth_le_depthOfAll (mem_of_fieldsOfItems? h hv)
  | _ => cases h

theorem withinMembers_zip (room : Nat) (keys : List String) (js : List Json) :
    withinMembers room (keys.zip js) = keys.zip (withinAll room js) := by
  rw [withinMembers_eq_map, withinAll_eq_map, List.zip_map_right]
  rfl

theorem depthOfMembers_zip {keys : List String} {js : List Json} (h : js.length = keys.length) :
    depthOfMembers (keys.zip js) = depthOfAll js := by
  induction js generalizing keys with
  | nil => simp [depthOfMembers, depthOfAll]
  | cons j js ih =>
    cases keys with
    | nil => cases h
    | cons key keys => rw [List.zip_cons_cons, depthOfMembers, depthOfAll, ih (Nat.succ.inj h)]

/-- A record has a coding that is made up of those of its fields. -/
theorem IsFieldsCoding.record {γ : Type} (keys : List String) {encodeFields : β → List Json}
    {decodeFields : List (Field Json) → Option β} {slack : Nat} {encode : γ → Json}
    {decode : Json → Option γ} (h : IsFieldsCoding encodeFields decodeFields keys.length slack)
    (hkeys : keys.Nodup) (fields : γ ≃ β)
    (hencode : ∀ c, encode c = .object (keys.zip (encodeFields (fields c))))
    (hdecode : ∀ j, decode j = ((fields? keys j).bind decodeFields).map fields.symm) :
    IsCoding encode decode (slack + 1) where
  isPrintable c := by
    rw [hencode]
    exact .object _ fun m hm => h.isPrintable _ m.2 (List.of_mem_zip hm).2
  decode_within room c := by
    rw [hencode, hdecode, within, inRoom, depth, depthOfMembers_zip (h.length_eq _)]
    split
    · next hroom =>
      rw [if_neg (by omega)]
      rfl
    · next hroom =>
      have hdepth : depthOfAll (encodeFields (fields c)) ≤ room - 1
          ↔ depthOfAll (encodeFields (fields c)) + 1 ≤ room := by omega
      have hlength : (withinAll (room - 1) (encodeFields (fields c))).length = keys.length := by
        rw [withinAll_eq_map, List.length_map, h.length_eq]
      rw [withinMembers_zip, fields?_object hkeys hlength, Option.bind_some, h.decode_within]
      simp only [hdepth]
      split <;> simp
  depth_le {j c} hc := by
    rw [hdecode] at hc
    obtain ⟨b, hb, rfl⟩ := Option.map_eq_some_iff.mp hc
    obtain ⟨fs, hfs, hb⟩ := Option.bind_eq_some_iff.mp hb
    obtain ⟨d, hd, hfields⟩ := depth_of_fields? hfs
    have := h.depth_le hb hfields
    rw [hencode, depth, depthOfMembers_zip (h.length_eq _), Equiv.apply_symm_apply]
    omega

/-! ### Maps -/

theorem getElem?_insertMany_cases {l : List (String × α)} {m : Std.ExtTreeMap String α} {key : String}
    {a : α} (h : (m.insertMany l)[key]? = some a) : (key, a) ∈ l ∨ m[key]? = some a := by
  induction l generalizing m with
  | nil => exact .inr (by rwa [Std.ExtTreeMap.insertMany_nil] at h)
  | cons entry l ih =>
    rw [Std.ExtTreeMap.insertMany_cons] at h
    rcases ih h with hmem | h
    · exact .inl (List.mem_cons_of_mem _ hmem)
    · rw [Std.ExtTreeMap.getElem?_insert] at h
      split at h
      · next heq =>
        rw [Std.compare_eq_iff_eq] at heq
        left
        rw [← heq, ← Option.some.inj h]
        exact List.mem_cons_self
      · exact .inr h

theorem mem_of_mem_toList_ofList {l : List (String × α)} {entry : String × α}
    (h : entry ∈ (Std.ExtTreeMap.ofList l).toList) : entry ∈ l := by
  obtain ⟨key, a⟩ := entry
  rw [Std.ExtTreeMap.mem_toList_iff_getElem?_eq_some, Std.ExtTreeMap.ofList_eq_insertMany_empty] at h
  rcases getElem?_insertMany_cases h with hmem | h
  · exact hmem
  · rw [Std.ExtTreeMap.getElem?_empty] at h
    cases h

/-- The entries of a map make up the same map in any order. -/
theorem ofList_of_perm {entries : List (String × α)} {m : Std.ExtTreeMap String α}
    (h : entries.Perm m.toList) : Std.ExtTreeMap.ofList entries = m := by
  have hdistinct : entries.Pairwise fun a b => ¬ compare a.1 b.1 = .eq := by
    refine (h.pairwise_iff fun {a b} hab heq => hab ?_).mpr Std.ExtTreeMap.distinct_keys_toList
    rw [Std.compare_eq_iff_eq] at heq ⊢
    exact heq.symm
  refine Std.ExtTreeMap.ext_getElem? fun key => ?_
  cases hkey : m[key]? with
  | some a =>
    have hmem := Std.ExtTreeMap.mem_toList_iff_getElem?_eq_some.mpr hkey
    exact Std.ExtTreeMap.getElem?_ofList_of_mem Std.compare_self hdistinct (h.mem_iff.mpr hmem)
  | none =>
    rw [Option.eq_none_iff_forall_ne_some]
    intro a ha
    have hmem := mem_of_mem_toList_ofList (Std.ExtTreeMap.mem_toList_iff_getElem?_eq_some.mpr ha)
    rw [h.mem_iff, Std.ExtTreeMap.mem_toList_iff_getElem?_eq_some, hkey] at hmem
    cases hmem

namespace IsCoding

variable {encode : α → Json} {decode : Json → Option α} {slack : Nat}

/-- Entries of a map as members of an object. -/
def entryMembers (encode : α → Json) (entries : List (String × α)) : List (String × Json) :=
  entries.map fun e => (e.1, encode e.2)

theorem mapM_withinMembers (h : IsCoding encode decode slack) (room : Nat)
    (entries : List (String × α)) :
    (withinMembers room (entryMembers encode entries)).mapM (fun m => (decode m.2).map (m.1, ·))
      = if depthOfMembers (entryMembers encode entries) ≤ room then some entries else none := by
  induction entries with
  | nil => simp [entryMembers, withinMembers, depthOfMembers]
  | cons e es ih =>
    rw [entryMembers] at ih ⊢
    rw [List.map_cons, withinMembers, List.mapM_cons, ih, h.decode_within, depthOfMembers]
    by_cases he : (encode e.2).depth ≤ room <;>
      by_cases hes : depthOfMembers (es.map fun e => (e.1, encode e.2)) ≤ room <;>
      simp [he, hes, Nat.max_le]

theorem depth_le_of_mem (h : IsCoding encode decode slack) {ms : List (String × Json)}
    {entries : List (String × α)} (hdecode : ms.mapM (fun m => (decode m.2).map (m.1, ·)) = some entries)
    {e : String × α} (he : e ∈ entries) : (encode e.2).depth ≤ max (depthOfMembers ms) slack := by
  induction ms generalizing entries with
  | nil =>
    cases hdecode
    cases he
  | cons m ms ih =>
    simp only [List.mapM_cons, Option.bind_eq_bind, Option.bind_eq_some_iff,
      Option.map_eq_some_iff] at hdecode
    obtain ⟨_, ⟨a, ha, rfl⟩, es, hes, hcons⟩ := hdecode
    cases hcons
    rw [depthOfMembers]
    rcases List.mem_cons.mp he with rfl | he
    · have ha := h.depth_le ha
      simp only
      omega
    · have he := ih hes he
      omega

theorem depthOfMembers_le {entries : List (String × α)} {d : Nat}
    (h : ∀ e ∈ entries, (encode e.2).depth ≤ d) : depthOfMembers (entryMembers encode entries) ≤ d := by
  induction entries with
  | nil => exact Nat.zero_le _
  | cons e es ih =>
    obtain ⟨he, hes⟩ := List.forall_mem_cons.mp h
    exact Nat.max_le.mpr ⟨he, ih hes⟩

/-- A map is decoded from its entries in any order. -/
theorem decode_within_of_perm (h : IsCoding encode decode slack) {entries : List (String × α)}
    {m : Std.ExtTreeMap String α} (hperm : entries.Perm m.toList) (room : Nat) :
    (((Json.object (entryMembers encode entries)).within room).toMembersOf? decode).map
        (Std.ExtTreeMap.ofList ·)
      = if (Json.object (entryMembers encode entries)).depth ≤ room then some m else none := by
  rw [within, inRoom, depth]
  split
  · next hroom =>
    rw [if_neg (by omega)]
    rfl
  · next hroom =>
    have hdepth : depthOfMembers (entryMembers encode entries) ≤ room - 1
        ↔ depthOfMembers (entryMembers encode entries) + 1 ≤ room := by omega
    rw [toMembersOf?, h.mapM_withinMembers]
    simp only [hdepth]
    split
    · rw [Option.map_some, ofList_of_perm hperm]
    · rfl

theorem depth_le_of_perm (h : IsCoding encode decode slack) {j : Json} {m : Std.ExtTreeMap String α}
    (hdecode : (j.toMembersOf? decode).map (Std.ExtTreeMap.ofList ·) = some m)
    {entries : List (String × α)} (hperm : entries.Perm m.toList) :
    (Json.object (entryMembers encode entries)).depth ≤ max j.depth (slack + 1) := by
  obtain ⟨decoded, hdecoded, rfl⟩ := Option.map_eq_some_iff.mp hdecode
  cases j with
  | object ms =>
    have hmembers : depthOfMembers (entryMembers encode entries) ≤ max (depthOfMembers ms) slack :=
      depthOfMembers_le fun e he =>
        h.depth_le_of_mem hdecoded (mem_of_mem_toList_ofList (hperm.mem_iff.mp he))
    rw [depth, depth]
    omega
  | _ => cases hdecoded

theorem isPrintable_entryMembers (h : IsCoding encode decode slack) (entries : List (String × α)) :
    IsPrintable (.object (entryMembers encode entries)) :=
  .object _ (List.forall_mem_map.mpr fun e _ => h.isPrintable e.2)

theorem map (h : IsCoding encode decode slack) :
    IsCoding (fun m : Std.ExtTreeMap String α => .object (entryMembers encode m.toList))
      (fun j => (j.toMembersOf? decode).map (Std.ExtTreeMap.ofList ·)) (slack + 1) where
  isPrintable m := h.isPrintable_entryMembers m.toList
  decode_within room _ := h.decode_within_of_perm (.refl _) room
  depth_le hdecode := h.depth_le_of_perm hdecode (.refl _)

theorem mapBy (h : IsCoding encode decode slack) :
    IsCodingBy (fun (m : Std.ExtTreeMap String α) j =>
        ∃ entries, entries.Perm m.toList ∧ j = .object (entryMembers encode entries))
      (fun j => (j.toMembersOf? decode).map (Std.ExtTreeMap.ofList ·)) (slack + 1) where
  isPrintable := by
    rintro _ _ ⟨entries, -, rfl⟩
    exact h.isPrintable_entryMembers entries
  decode_within := by
    rintro _ _ ⟨entries, hperm, rfl⟩
    exact h.decode_within_of_perm hperm maxDepth
  exists_encoding _ := ⟨_, _, .refl _, rfl⟩
  depth_le := by
    rintro j _ _ hdecode ⟨entries, hperm, rfl⟩
    exact h.depth_le_of_perm hdecode hperm

end IsCoding

end DslBindings.Json
