/-!
# Text

Searching and replacing in lists of characters. A `String` is taken apart with `toList` and put
together with `String.ofList`, so that every rule about a text is a recursion on its characters.
-/

namespace DslBindings.Text

/-- The text behind `pattern`, if `text` starts with it. -/
def afterPrefix? : (pattern text : List Char) → Option (List Char)
  | [], text => some text
  | _ :: _, [] => none
  | p :: ps, c :: cs => if p = c then afterPrefix? ps cs else none

@[simp] theorem afterPrefix?_append (pattern rest : List Char) :
    afterPrefix? pattern (pattern ++ rest) = some rest := by
  induction pattern with
  | nil => simp [afterPrefix?]
  | cons p ps ih => simp [afterPrefix?, ih]

theorem afterPrefix?_eq_some_iff {pattern text rest : List Char} :
    afterPrefix? pattern text = some rest ↔ text = pattern ++ rest := by
  constructor
  · intro h
    fun_induction afterPrefix? pattern text with
    | case1 => simp_all
    | case2 => simp at h
    | case3 ps c cs ih => simpa using ih h
    | case4 => simp at h
  · rintro rfl
    simp

/-- The text in front of `ending`, if `text` ends with it. -/
def beforeSuffix? (ending text : List Char) : Option (List Char) :=
  (afterPrefix? ending.reverse text.reverse).map List.reverse

theorem beforeSuffix?_eq_some_iff {ending text stem : List Char} :
    beforeSuffix? ending text = some stem ↔ text = stem ++ ending := by
  simp only [beforeSuffix?, Option.map_eq_some_iff, afterPrefix?_eq_some_iff]
  constructor
  · rintro ⟨r, hr, rfl⟩
    simpa using congrArg List.reverse hr
  · rintro rfl
    exact ⟨stem.reverse, by simp, by simp⟩

/-- Scans `text` with `skip` characters of an occurrence still to be passed over. -/
def replaceFrom (pattern substitute : List Char) : (skip : Nat) → (text : List Char) → List Char
  | _, [] => []
  | skip + 1, _ :: cs => replaceFrom pattern substitute skip cs
  | 0, c :: cs =>
    if pattern.isPrefixOf (c :: cs) then
      substitute ++ replaceFrom pattern substitute (pattern.length - 1) cs
    else
      c :: replaceFrom pattern substitute 0 cs

/--
Writes `substitute` for every occurrence of the non-empty `pattern`. Occurrences are taken from left
to right and do not overlap; what is written is not searched again.
-/
def replaceAll (pattern substitute text : List Char) : List Char :=
  replaceFrom pattern substitute 0 text

@[simp] theorem replaceAll_nil (pattern substitute : List Char) :
    replaceAll pattern substitute [] = [] := rfl

/-- Writes `substitute` for every `c`. -/
def replaceChar (c substitute : Char) (text : String) : String :=
  String.ofList (text.toList.map fun d => if d = c then substitute else d)

/-- The last of the pieces that `separator` cuts a text into. -/
def lastPiece (separator : Char) (text : List Char) : List Char :=
  (text.splitOn separator).getLastD []

/-- The number of bytes of a text in UTF-8. -/
def utf8Length : (text : List Char) → Nat
  | [] => 0
  | c :: text => c.utf8Size + utf8Length text

@[simp] theorem utf8Length_nil : utf8Length [] = 0 := rfl

@[simp] theorem utf8Length_cons (c : Char) (cs : List Char) :
    utf8Length (c :: cs) = c.utf8Size + utf8Length cs := rfl

@[simp] theorem utf8Length_append (a b : List Char) :
    utf8Length (a ++ b) = utf8Length a + utf8Length b := by
  induction a with
  | nil => simp only [List.nil_append, utf8Length_nil, Nat.zero_add]
  | cons c a ih => rw [List.cons_append, utf8Length_cons, utf8Length_cons, ih, Nat.add_assoc]

/-- The bytes of a text in UTF-8. -/
def utf8 (text : String) : List UInt8 :=
  text.toList.flatMap String.utf8EncodeChar

/-- The text that a byte sequence spells in UTF-8, if it spells one. -/
def ofUtf8? (bytes : List UInt8) : Option String :=
  String.fromUTF8? (ByteArray.mk bytes.toArray)

end DslBindings.Text
