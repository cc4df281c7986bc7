/-!
# Paths

A path is kept as it is written. Two paths can differ as texts and still have the same components;
whether they lead to the same place is for a file system to say.
-/

namespace DslBindings

/-- A path: the pieces of its text between slashes. -/
structure Path where
  segments : List String
  deriving DecidableEq, Repr, Inhabited

namespace Path

/-- The path that a text is. -/
def ofText (text : String) : Path := ⟨(text.toList.splitOn '/').map String.ofList⟩

/-- The text of a path. -/
def text (p : Path) : String := "/".intercalate p.segments

@[simp] theorem text_ofText (text : String) : (ofText text).text = text := by
  apply String.toList_injective
  have hpieces : String.toList ∘ String.ofList = id := String.toList_comp_ofList
  simp [Path.text, ofText, String.toList_intercalate, hpieces, List.intercalate_splitOn]

/-- The path without a text. -/
def empty : Path := ⟨[""]⟩

def isEmpty (p : Path) : Bool := p.segments.all (· = "") && p.segments.length ≤ 1

/-- Whether a text holds the character with the number zero, at which systems take it to end. -/
def textHoldsNul (text : String) : Bool := text.toList.contains '\x00'

/-- Whether a path would end too early. -/
def holdsNul (p : Path) : Bool := p.segments.any textHoldsNul

/-- Whether a path starts at the root. -/
def isAbsolute : Path → Bool
  | ⟨"" :: _ :: _⟩ => true
  | _ => false

/-- The path without slashes at its end. The root stays as it is. -/
def withoutTrailingSlashes (p : Path) : Path :=
  match (p.segments.reverse.dropWhile (· = "")).reverse with
  | [] => p
  | segments => ⟨segments⟩

/-- The segments that others can be put behind. A slash at the end need not be written again. -/
def stem (p : Path) : List String :=
  if p.segments.getLast? = some "" then p.segments.dropLast else p.segments

/-- The path that a path is as seen from a base. An absolute one stays as it is. -/
def join (base p : Path) : Path :=
  if p.isAbsolute || base.isEmpty then p else ⟨base.stem ++ p.segments⟩

/-- The path of this text as seen from a base. -/
def joinText (base : Path) (text : String) : Path := base.join (ofText text)

/-- Whether a segment leads to where it stands. -/
def isIdle (segment : String) : Bool := segment = "" || segment = "."

/-- Segments without the idle ones at the end. -/
def trimEnd (segments : List String) : List String := (segments.reverse.dropWhile isIdle).reverse

theorem length_trimEnd_le (segments : List String) :
    (trimEnd segments).length ≤ segments.length := by
  have h := (List.dropWhile_sublist isIdle (l := segments.reverse)).length_le
  simpa [trimEnd] using h

/-- The segments up to the last one that is a name. A dot at the start of a relative path is one. -/
def names (p : Path) : List String :=
  match p.segments with
  | "" :: rest => trimEnd rest
  | "." :: rest => "." :: trimEnd rest
  | segments => trimEnd segments

/-- The path of these names. -/
def ofNames (isAbsolute : Bool) (names : List String) : Path :=
  match isAbsolute, names with
  | true, [] => ⟨["", ""]⟩
  | false, [] => empty
  | true, names => ⟨"" :: names⟩
  | false, names => ⟨names⟩

theorem length_names_le (segments : List String) :
    (names ⟨segments⟩).length ≤ segments.length := by
  have h := length_trimEnd_le
  unfold names
  split
  · next rest heq =>
    have := h rest
    simp only at heq
    simp [heq]
    omega
  · next rest heq =>
    have := h rest
    simp only at heq
    simp [heq]
    omega
  · exact h _

theorem length_names_ofNames_le (isAbsolute : Bool) (segments : List String) :
    (ofNames isAbsolute segments).names.length ≤ segments.length := by
  cases isAbsolute <;> cases segments with
  | nil => decide
  | cons s ss =>
    first
    | exact length_names_le (s :: ss)
    | exact length_trimEnd_le (s :: ss)

/-- The path without its last name, if it has a name. -/
def parent? (p : Path) : Option Path :=
  if p.names = [] then none
  else some (ofNames p.isAbsolute (ofNames p.isAbsolute p.names.dropLast).names)

theorem length_names_parent {p q : Path} (h : p.parent? = some q) :
    q.names.length < p.names.length := by
  unfold parent? at h
  split at h
  · cases h
  · next hne =>
    have hpos : 0 < p.names.length := List.length_pos_iff.mpr hne
    cases h
    have h1 := length_names_ofNames_le p.isAbsolute (ofNames p.isAbsolute p.names.dropLast).names
    have h2 := length_names_ofNames_le p.isAbsolute p.names.dropLast
    simp only [List.length_dropLast] at h2
    omega

/-- What two paths have in common that are the same name by name. -/
def components (p : Path) : List String :=
  match p.segments with
  | "" :: rest => "/" :: rest.filter (!isIdle ·)
  | "." :: rest => "." :: rest.filter (!isIdle ·)
  | segments => segments.filter (!isIdle ·)

end Path

end DslBindings
