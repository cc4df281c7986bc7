import DslBindings.Json.Reader

/-!
# How deep a value can be

Arrays and objects inside too many others are read as unreadable parts. So what was read is never too
deep, and of a value that was written just that is unreadable which there was no room for.
-/

namespace DslBindings.Json

/-! ### What there is room for -/

mutual

/-- A value as it is read back in a place where `room` containers may be inside one another. -/
def within (room : Nat) : Json → Json
  | .array items => inRoom room (.array (withinAll (room - 1) items))
  | .object members => inRoom room (.object (withinMembers (room - 1) members))
  | j => j

/-- Each of these values in a place with this room. -/
def withinAll (room : Nat) : List Json → List Json
  | [] => []
  | j :: js => within room j :: withinAll room js

/-- These members, with each value in a place with this room. -/
def withinMembers (room : Nat) : List (String × Json) → List (String × Json)
  | [] => []
  | (k, j) :: ms => (k, within room j) :: withinMembers room ms

end

theorem withinAll_eq_map (room : Nat) (js : List Json) : withinAll room js = js.map (within room) := by
  induction js with
  | nil => rfl
  | cons j js ih => rw [withinAll, ih, List.map_cons]

theorem withinMembers_eq_map (room : Nat) (ms : List (String × Json)) :
    withinMembers room ms = ms.map fun m => (m.1, within room m.2) := by
  induction ms with
  | nil => rfl
  | cons m ms ih => rw [withinMembers, ih, List.map_cons]

theorem depth_le_depthOfAll {j : Json} {js : List Json} (h : j ∈ js) : j.depth ≤ depthOfAll js := by
  induction h with
  | head js => exact Nat.le_max_left _ _
  | tail i _ ih => exact Nat.le_trans ih (Nat.le_max_right _ _)

mutual

/-- In enough room all of a value is read back. -/
theorem within_of_depth_le {room : Nat} : ∀ {j : Json}, j.depth ≤ room → j.within room = j
  | .array items, h => by
    rw [depth] at h
    rw [within, inRoom, if_neg (by omega), withinAll_of_depth_le (by omega)]
  | .object members, h => by
    rw [depth] at h
    rw [within, inRoom, if_neg (by omega), withinMembers_of_depth_le (by omega)]
  | .null, _ | .bool _, _ | .number _, _ | .string _, _ | .unreadable, _ => rfl

theorem withinAll_of_depth_le {room : Nat} :
    ∀ {js : List Json}, depthOfAll js ≤ room → withinAll room js = js
  | [], _ => rfl
  | j :: js, h => by
    rw [depthOfAll] at h
    rw [withinAll, within_of_depth_le (by omega), withinAll_of_depth_le (by omega)]

theorem withinMembers_of_depth_le {room : Nat} :
    ∀ {ms : List (String × Json)}, depthOfMembers ms ≤ room → withinMembers room ms = ms
  | [], _ => rfl
  | (k, j) :: ms, h => by
    rw [depthOfMembers] at h
    rw [withinMembers, within_of_depth_le (by omega), withinMembers_of_depth_le (by omega)]

end

mutual

/-- A value that there is no room for is unreadable somewhere. -/
theorem isReadable_within (room : Nat) :
    ∀ j : Json, (j.within room).isReadable = (j.isReadable && decide (j.depth ≤ room))
  | .array items => by
    rw [within, inRoom, depth]
    split
    · next h => simp [h, isReadable]
    · next h =>
      have hroom : depthOfAll items ≤ room - 1 ↔ depthOfAll items + 1 ≤ room := by omega
      rw [isReadable, isReadable, allReadable_withinAll]
      simp only [hroom]
  | .object members => by
    rw [within, inRoom, depth]
    split
    · next h => simp [h, isReadable]
    · next h =>
      have hroom : depthOfMembers members ≤ room - 1 ↔ depthOfMembers members + 1 ≤ room := by omega
      rw [isReadable, isReadable, membersReadable_withinMembers]
      simp only [hroom]
  | .null | .bool _ | .number _ | .string _ | .unreadable => by simp [within, depth]

theorem allReadable_withinAll (room : Nat) :
    ∀ js : List Json, allReadable (withinAll room js)
      = (allReadable js && decide (depthOfAll js ≤ room))
  | [] => by simp [withinAll, allReadable, depthOfAll]
  | j :: js => by
    rw [withinAll, allReadable, isReadable_within, allReadable_withinAll, allReadable, depthOfAll]
    grind

theorem membersReadable_withinMembers (room : Nat) :
    ∀ ms : List (String × Json), membersReadable (withinMembers room ms)
      = (membersReadable ms && decide (depthOfMembers ms ≤ room))
  | [] => by simp [withinMembers, membersReadable, depthOfMembers]
  | (k, j) :: ms => by
    rw [withinMembers, membersReadable, isReadable_within, membersReadable_withinMembers,
      membersReadable, depthOfMembers]
    grind

end

/-! ### What is read -/

theorem depth_inRoom {room : Nat} {j : Json} (h : room ≠ 0 → j.depth ≤ room) :
    (inRoom room j).depth ≤ room := by
  rw [inRoom]
  split
  · exact Nat.zero_le _
  · next hroom => exact h hroom

theorem depth_ofMembers_le {room : Nat} (hroom : room ≠ 0) {members : Option (List (String × Json))}
    (h : ∀ ms ∈ members, depthOfMembers ms ≤ room - 1) : (ofMembers members).depth ≤ room := by
  cases members with
  | none => exact Nat.zero_le _
  | some ms =>
    have := h ms rfl
    rw [ofMembers, depth]
    omega

theorem depthOfMembers_consMember_le {room : Nat} {k v : Json} (hv : v.depth ≤ room)
    {members : Option (List (String × Json))} (h : ∀ ms ∈ members, depthOfMembers ms ≤ room) :
    ∀ ms ∈ consMember k v members, depthOfMembers ms ≤ room := by
  intro ms hms
  cases members with
  | none => cases hms
  | some rest =>
    cases k with
    | string k =>
      cases hms
      rw [depthOfMembers]
      exact Nat.max_le.mpr ⟨hv, h rest rfl⟩
    | _ => cases hms

theorem depth_stringValue {s : List Char} {x : Text.Reading Json s} (h : stringValue s = some x) :
    x.value.depth = 0 := by
  rw [stringValue, Option.map_eq_some_iff] at h
  obtain ⟨⟨pieces, r, hlength⟩, -, rfl⟩ := h
  simp only
  split <;> rfl

theorem depth_numberValue {s : List Char} {x : Text.Reading Json s} (h : numberValue s = some x) :
    x.value.depth = 0 := by
  rw [numberValue] at h
  split at h
  · cases h
  · split at h
    · cases h
      simp only
      split <;> rfl
    · cases h

theorem value_wordValue {word s : List Char} {j : Json} {x : Text.Reading Json s}
    (h : wordValue word j s = some x) : x.value = j := by
  rw [wordValue] at h
  split at h
  · split at h
    · cases h
      rfl
    · cases h
  · cases h

theorem length_behind_lt {s r r' : List Char} {c : Char} (h : r.length < s.length)
    (hr : skipBlanks r = c :: r') : (skipBlanks r').length < s.length := by
  have hskip := length_skipBlanks_le r
  have hskip' := length_skipBlanks_le r'
  rw [hr, List.length_cons] at hskip
  omega

/-- Of texts that are shorter than a bound nothing is read that is deeper than there was room for. -/
structure ReadsShallow (n : Nat) : Prop where
  value {room : Nat} {s : List Char} {x : Text.Reading Json s} (hs : s.length < n)
    (h : value room s = some x) : x.value.depth ≤ room
  items {room : Nat} {canEnd : Bool} {s : List Char} {x : Text.Reading (List Json) s}
    (hs : s.length < n) (h : items room canEnd s = some x) : depthOfAll x.value ≤ room
  members {room : Nat} {canEnd : Bool} {s : List Char}
    {x : Text.Reading (Option (List (String × Json))) s} (hs : s.length < n)
    (h : members room canEnd s = some x) : ∀ ms ∈ x.value, depthOfMembers ms ≤ room

namespace ReadsShallow

variable {n room : Nat} {canEnd : Bool} {s : List Char}

theorem depth_value_le (hn : ReadsShallow n) {x : Text.Reading Json s} (hs : s.length < n + 1)
    (h : Json.value room s = some x) : x.value.depth ≤ room := by
  match s with
  | [] =>
    rw [Json.value] at h
    cases h
  | c :: r =>
    have hr : (skipBlanks r).length < n :=
      Nat.lt_of_le_of_lt (length_skipBlanks_le r) (Nat.lt_of_succ_lt_succ hs)
    rw [Json.value] at h
    split at h
    · obtain ⟨⟨v, r', hlength⟩, hy, rfl⟩ := Option.map_eq_some_iff.mp h
      have hv : v.depth = 0 := depth_stringValue hy
      simp only [hv, Nat.zero_le]
    split at h
    · split at h
      · next vs _ _ hitems =>
        cases h
        have hvs : depthOfAll vs ≤ room - 1 := hn.items hr hitems
        refine depth_inRoom fun hroom => ?_
        rw [depth]
        omega
      · cases h
    split at h
    · split at h
      · next ms _ _ hmembers =>
        cases h
        have hms : ∀ l ∈ ms, depthOfMembers l ≤ room - 1 := hn.members hr hmembers
        exact depth_inRoom fun hroom => depth_ofMembers_le hroom hms
      · cases h
    split at h
    · rw [value_wordValue h]
      exact Nat.zero_le _
    split at h
    · rw [value_wordValue h]
      exact Nat.zero_le _
    split at h
    · rw [value_wordValue h]
      exact Nat.zero_le _
    simp only [depth_numberValue h, Nat.zero_le]

theorem depthOfAll_items_le (hn : ReadsShallow n) {x : Text.Reading (List Json) s}
    (hs : s.length < n + 1) (h : Json.items room canEnd s = some x) :
    depthOfAll x.value ≤ room := by
  rw [Json.items] at h
  split at h
  · split at h
    · cases h
      exact Nat.zero_le _
    · cases h
  split at h
  · cases h
  next v r hlength hvalue =>
  have hv : v.depth ≤ room := hn.depth_value_le hs hvalue
  split at h
  · cases h
    rw [depthOfAll, depthOfAll]
    omega
  · next r' hr =>
    have hshorter := length_behind_lt hlength hr
    split at h
    · next vs _ _ hitems =>
      cases h
      have hvs : depthOfAll vs ≤ room := hn.items (by omega) hitems
      rw [depthOfAll]
      omega
    · cases h
  · cases h

theorem depthOfMembers_members_le (hn : ReadsShallow n)
    {x : Text.Reading (Option (List (String × Json))) s} (hs : s.length < n + 1)
    (h : Json.members room canEnd s = some x) : ∀ ms ∈ x.value, depthOfMembers ms ≤ room := by
  have hnone : ∀ ms ∈ some [], depthOfMembers ms ≤ room := by
    rintro ms ⟨⟩
    exact Nat.zero_le _
  rw [Json.members.eq_def] at h
  split at h
  · split at h
    · cases h
      exact hnone
    · cases h
  · next r =>
    rw [List.length_cons] at hs
    split at h
    · cases h
    next key r₁ h₁ _ =>
    split at h
    · next r₂ hr₂ =>
      have hshorter := length_behind_lt h₁ hr₂
      split at h
      · cases h
      next v r₃ h₃ hvalue =>
      have hv : v.depth ≤ room := hn.value (by omega) hvalue
      split at h
      · cases h
        exact depthOfMembers_consMember_le hv hnone
      · next r₄ hr₄ =>
        have hshorter' := length_behind_lt h₃ hr₄
        split at h
        · next ms _ _ hmembers =>
          cases h
          have hms : ∀ l ∈ ms, depthOfMembers l ≤ room := hn.members (by omega) hmembers
          exact depthOfMembers_consMember_le hv hms
        · cases h
      · cases h
    · cases h
  · cases h

end ReadsShallow

theorem readsShallow (n : Nat) : ReadsShallow n := by
  induction n with
  | zero =>
    exact ⟨fun hs => absurd hs (Nat.not_lt_zero _), fun hs => absurd hs (Nat.not_lt_zero _),
      fun hs => absurd hs (Nat.not_lt_zero _)⟩
  | succ n ih => exact ⟨ih.depth_value_le, ih.depthOfAll_items_le, ih.depthOfMembers_members_le⟩

/-- No text is read as a value that is too deep. -/
theorem depth_parse_le {text : String} {j : Json} (h : parse text = some j) : j.depth ≤ maxDepth := by
  rw [parse] at h
  split at h
  · next v r hlength hvalue =>
    split at h
    · cases h
      exact (readsShallow _).value (Nat.lt_succ_self _) hvalue
    · cases h
  · cases h

end DslBindings.Json
