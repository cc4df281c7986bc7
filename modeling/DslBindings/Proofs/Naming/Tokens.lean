import Mathlib.Data.List.TakeWhile
import DslBindings.Json.Reader
import DslBindings.Naming
import DslBindings.Proofs.Documentation.Comments

/-!
# Names as tokens

How the names that are written are read again, whatever stands behind them. A name between backticks is
read up to the next backtick, and the text of a literal up to a quote that is not escaped; a line ends
before either of them does. A literal that starts with three quotes is one of several lines, which is why
the empty text is left out of what follows.
-/

namespace DslBindings

/-- What a source text is made of. Only what can hold a name is put together; words, numbers and signs are
left as their characters. -/
inductive Token
  /-- A name between backticks. -/
  | identifier (name : List Char)
  /-- A literal of one line without a template, by its value. -/
  | literal (value : List Char)
  | comment
  | plain (c : Char)
  deriving DecidableEq, Repr

namespace Token

/-! ### Reading -/

def isQuoted (c : Char) : Bool := !(['`', '\r', '\n'].contains c)

/-- The name in front of a closing backtick. -/
def quoted? (text : List Char) : Option (List Char × List Char) :=
  match text.takeWhile isQuoted, text.dropWhile isQuoted with
  | c :: name, '`' :: rest => some (c :: name, rest)
  | _, _ => none

/-- The character that is written with a backslash in front of another one. -/
def escaped? : Char → Option Char
  | 't' => some '\t'
  | 'b' => some '\x08'
  | 'n' => some '\n'
  | 'r' => some '\r'
  | '\'' => some '\''
  | '"' => some '"'
  | '\\' => some '\\'
  | '$' => some '$'
  | _ => none

/-- The character with this number, unless it is that of a surrogate. -/
def numbered? (n : Nat) : Option Char := if n.isValidChar then some (Char.ofNat n) else none

def consValue (c : Char) (content : List Char × List Char) : List Char × List Char :=
  (c :: content.1, content.2)

/--
The value of a literal behind its opening quote, and what is left behind the closing one. There is none if
the line ends before, or if a `$` is not escaped: such a one starts a template, or depends on what follows.
-/
def content? : List Char → Option (List Char × List Char)
  | [] => none
  | '"' :: rest => some ([], rest)
  | '\\' :: 'u' :: a :: b :: c :: d :: rest => do
    let unit ← Json.hexUnit? a b c d
    let value ← numbered? unit
    return consValue value (← content? rest)
  | '\\' :: c :: rest => do
    let value ← escaped? c
    return consValue value (← content? rest)
  | c :: rest =>
    if ['\\', '$', '\r', '\n'].contains c then none else (content? rest).map (consValue c)

/-- What is behind the comment that a scan is in. -/
def behindComment? (s : Comment.Scan) : List Char → Option (List Char)
  | [] => none
  | c :: text => if (s.step c).depth = 0 then some text else behindComment? (s.step c) text

/-- The literal behind an opening quote. Two more quotes open a literal of several lines, which is not
read. -/
def literal? : List Char → Option (Token × List Char)
  | '"' :: '"' :: _ => none
  | text => (content? text).map fun (value, rest) => (.literal value, rest)

/-- The token behind a slash: a comment, a comment that ends with its line, or the slash itself. -/
def slash? : List Char → Option (Token × List Char)
  | '*' :: text => (behindComment? ⟨1, none⟩ text).map fun rest => (.comment, rest)
  | '/' :: text => some (.comment, text.dropWhile fun c => c ≠ '\r' && c ≠ '\n')
  | text => some (.plain '/', text)

/-- The token at the front of a text, and what is left. Literals of a single character are not read. -/
def first? : List Char → Option (Token × List Char)
  | [] => none
  | c :: text =>
    if c = '`' then (quoted? text).map fun (name, rest) => (.identifier name, rest)
    else if c = '"' then literal? text
    else if c = '\'' then none
    else if c = '/' then slash? text
    else some (.plain c, text)

/-- A text is read as these tokens, with nothing left. -/
inductive Reads : List Char → List Token → Prop
  | nil : Reads [] []
  | cons {text rest : List Char} {token : Token} {tokens : List Token}
      (h : first? text = some (token, rest)) (hrest : Reads rest tokens) : Reads text (token :: tokens)

/-- A text is read as these tokens wherever it stands in front of something that is read. -/
def Spells (text : List Char) (tokens : List Token) : Prop :=
  ∀ rest others, Reads rest others → Reads (text ++ rest) (tokens ++ others)

/-- A character that starts no other token, whatever stands behind it. -/
def isPlain (c : Char) : Bool := !(['`', '"', '\'', '/'].contains c)

variable {text rest value name : List Char}

theorem Reads.unique {tokens tokens' : List Token} (h : Reads text tokens) (h' : Reads text tokens') :
    tokens = tokens' := by
  induction h generalizing tokens' with
  | nil =>
    cases h' with
    | nil => rfl
    | cons h => cases h
  | cons hfirst hrest ih =>
    cases h' with
    | nil => cases hfirst
    | cons hfirst' hrest' =>
      cases hfirst.symm.trans hfirst'
      rw [ih hrest']

theorem Spells.reads {tokens : List Token} (h : Spells text tokens) : Reads text tokens := by
  have hreads := h [] [] .nil
  rwa [List.append_nil, List.append_nil] at hreads

theorem spells_nil : Spells [] [] := fun _ _ hrest => hrest

theorem Spells.append {text' : List Char} {tokens tokens' : List Token} (h : Spells text tokens)
    (h' : Spells text' tokens') : Spells (text ++ text') (tokens ++ tokens') := by
  intro rest others hrest
  rw [List.append_assoc, List.append_assoc]
  exact h _ _ (h' rest others hrest)

theorem spells_of_first? {token : Token} (h : ∀ rest, first? (text ++ rest) = some (token, rest)) :
    Spells text [token] := fun rest _ hrest => .cons (h rest) hrest

theorem spells_flatMap {α : Type} {f : α → List Char} {g : α → List Token} {xs : List α}
    (h : ∀ x ∈ xs, Spells (f x) (g x)) : Spells (xs.flatMap f) (xs.flatMap g) := by
  induction xs with
  | nil => exact spells_nil
  | cons x xs ih =>
    exact (h x List.mem_cons_self).append (ih fun y hy => h y (List.mem_cons_of_mem x hy))

/-! ### Names -/

theorem quoted?_append (hname : name ≠ []) (h : ∀ c ∈ name, isQuoted c = true) :
    quoted? (name ++ '`' :: rest) = some (name, rest) := by
  have htake : (name ++ '`' :: rest).takeWhile isQuoted = name := by
    rw [List.takeWhile_append_of_pos h]
    exact List.append_nil name
  have hdrop : (name ++ '`' :: rest).dropWhile isQuoted = '`' :: rest := by
    rw [List.dropWhile_append_of_pos h]
    rfl
  obtain ⟨c, name, rfl⟩ := List.exists_cons_of_ne_nil hname
  rw [quoted?, htake, hdrop]
  rfl

theorem isQuoted_of_isLegal {name : String} (h : Naming.isLegal name = true) {c : Char}
    (hc : c ∈ name.toList) : isQuoted c = true := by
  rw [Naming.isLegal, Bool.and_eq_true, List.all_eq_true] at h
  have hquotable := h.2 c hc
  rw [isQuoted, Bool.not_eq_true', List.contains_eq_mem, decide_eq_false_iff_not]
  intro hmem
  have hnone : (['`', '\r', '\n'].all fun c =>
      !(!Naming.structuralChars.contains c && Naming.isQuotable c)) = true := by decide
  have hc := List.all_eq_true.mp hnone c hmem
  rw [hquotable] at hc
  cases hc

theorem ne_nil_of_isLegal {name : String} (h : Naming.isLegal name = true) : name.toList ≠ [] := by
  rintro hname
  rw [Naming.isLegal, Text.isAllBlank, hname] at h
  cases h

theorem first?_quote {name : String} (h : Naming.isLegal name = true) (rest : List Char) :
    first? ((Naming.quote name).toList ++ rest) = some (.identifier name.toList, rest) := by
  have htext : (Naming.quote name).toList ++ rest = '`' :: (name.toList ++ '`' :: rest) := by
    simp [Naming.quote]
  rw [htext, first?, if_pos rfl, quoted?_append (ne_nil_of_isLegal h) fun c => isQuoted_of_isLegal h]
  rfl

/-! ### Literals -/

theorem content?_escaped {c : Char} (hc : c = '"' ∨ c = '$' ∨ c = '\\') :
    content? ('\\' :: c :: text) = (content? text).map (consValue c) := by
  obtain rfl | rfl | rfl := hc
  · cases h : content? text <;> simp [content?, escaped?, h]
  · cases h : content? text <;> simp [content?, escaped?, h]
  · cases h : content? text <;> simp [content?, escaped?, h]

theorem content?_plain {c : Char} (hquote : c ≠ '"') (hc : ['\\', '$', '\r', '\n'].contains c = false) :
    content? (c :: text) = (content? text).map (consValue c) := by
  have hslash : c ≠ '\\' := by
    rintro rfl
    cases hc
  rw [content?.eq_def]
  split
  · next h => cases h
  · next h => exact absurd (List.cons.inj h).1 hquote
  · next h => exact absurd (List.cons.inj h).1 hslash
  · next h => exact absurd (List.cons.inj h).1 hslash
  · next h =>
    cases h
    rw [hc]
    rfl

theorem content?_flatMap (hreturn : '\r' ∉ value) (hfeed : '\n' ∉ value) :
    content? (value.flatMap Naming.escapeChar ++ '"' :: rest) = some (value, rest) := by
  induction value with
  | nil => rfl
  | cons c value ih =>
    rw [List.mem_cons, not_or] at hreturn hfeed
    have hvalue := ih hreturn.2 hfeed.2
    rw [List.flatMap_cons, Naming.escapeChar, List.append_assoc]
    split
    · next hescaped =>
      simp only [Bool.or_eq_true, decide_eq_true_eq, or_assoc] at hescaped
      rw [List.cons_append, List.singleton_append, content?_escaped hescaped, hvalue]
      rfl
    · next hplain =>
      simp only [Bool.or_eq_true, decide_eq_true_eq, not_or] at hplain
      rw [List.singleton_append, content?_plain hplain.1.1, hvalue]
      · rfl
      · simp [hplain, Ne.symm hreturn.1, Ne.symm hfeed.1]

theorem exists_cons_of_escapeChar (c : Char) :
    ∃ d others, Naming.escapeChar c = d :: others ∧ d ≠ '"' := by
  rw [Naming.escapeChar]
  split
  · exact ⟨_, _, rfl, by decide⟩
  · next h =>
    simp only [Bool.or_eq_true, decide_eq_true_eq, not_or] at h
    exact ⟨_, _, rfl, h.1.1⟩

theorem literal?_of_ne {c : Char} (hc : c ≠ '"') :
    literal? (c :: text) = (content? (c :: text)).map fun (value, rest) => (.literal value, rest) := by
  rw [literal?]
  intro text h
  exact hc (List.cons.inj h).1

theorem first?_stringLiteral {value : String} (hvalue : value ≠ "") (hreturn : '\r' ∉ value.toList)
    (hfeed : '\n' ∉ value.toList) (rest : List Char) :
    first? ((Naming.stringLiteral value).toList ++ rest) = some (.literal value.toList, rest) := by
  have htext : (Naming.stringLiteral value).toList ++ rest
      = '"' :: (value.toList.flatMap Naming.escapeChar ++ '"' :: rest) := by
    simp [Naming.stringLiteral]
  have hcontent : content? (value.toList.flatMap Naming.escapeChar ++ '"' :: rest)
      = some (value.toList, rest) := content?_flatMap hreturn hfeed
  have hliteral : literal? (value.toList.flatMap Naming.escapeChar ++ '"' :: rest)
      = some (.literal value.toList, rest) := by
    -- What is written for the first character is no quote, so no literal of several lines is opened.
    obtain ⟨c, chars, hchars⟩ := List.exists_cons_of_ne_nil (mt String.toList_eq_nil_iff.mp hvalue)
    obtain ⟨d, others, hescape, hd⟩ := exists_cons_of_escapeChar c
    rw [hchars, List.flatMap_cons, hescape] at hcontent ⊢
    rw [List.cons_append, List.cons_append] at hcontent ⊢
    rw [literal?_of_ne hd, hcontent]
    rfl
  rw [htext, first?, if_neg (by decide), if_pos rfl, hliteral]

/-- The quotes of the empty text may belong to a literal of several lines. -/
example : first? ((Naming.stringLiteral "").toList ++ ['"']) = none := rfl

theorem first?_stringLiteral_of_isLegal {name : String} (h : Naming.isLegal name = true)
    (rest : List Char) :
    first? ((Naming.stringLiteral name).toList ++ rest) = some (.literal name.toList, rest) := by
  apply first?_stringLiteral
  · exact mt String.toList_eq_nil_iff.mpr (ne_nil_of_isLegal h)
  · exact fun hreturn => absurd (isQuoted_of_isLegal h hreturn) (by decide)
  · exact fun hfeed => absurd (isQuoted_of_isLegal h hfeed) (by decide)

/-! ### Plain characters and comments -/

theorem first?_plain {c : Char} (hc : isPlain c = true) :
    first? (c :: text) = some (.plain c, text) := by
  simp only [isPlain, Bool.not_eq_true', List.contains_eq_mem, decide_eq_false_iff_not, List.mem_cons,
    List.not_mem_nil, or_false, not_or] at hc
  obtain ⟨hbacktick, hquote, happostrophe, hslash⟩ := hc
  rw [first?, if_neg hbacktick, if_neg hquote, if_neg happostrophe, if_neg hslash]

theorem spells_plain (h : text.all isPlain = true) : Spells text (text.map .plain) := by
  induction text with
  | nil => exact spells_nil
  | cons c text ih =>
    rw [List.all_cons, Bool.and_eq_true] at h
    have hc : Spells [c] [.plain c] := spells_of_first? fun _ => first?_plain h.1
    exact hc.append (ih h.2)

/-- A comment goes on as long as no slash comes. -/
theorem behindComment?_append {depth : Nat} {last : Option Char} (hlast : last ≠ some '/')
    (h : '/' ∉ text) :
    behindComment? ⟨depth + 1, last⟩ (text ++ rest)
      = behindComment? ⟨depth + 1, text.getLast?.or last⟩ rest := by
  induction text generalizing last with
  | nil => rfl
  | cons c text ih =>
    rw [List.mem_cons, not_or] at h
    have hc : some c ≠ some '/' := fun hc => h.1 (Option.some.inj hc).symm
    have hstep : (⟨depth + 1, last⟩ : Comment.Scan).step c = ⟨depth + 1, some c⟩ := by
      rw [Comment.Scan.step, if_neg fun hopen => hlast hopen.1,
        if_neg fun hclose => h.1 hclose.2.symm]
    rw [List.cons_append, behindComment?, hstep, if_neg (Nat.succ_ne_zero depth), ih hc h.2,
      List.getLast?_cons]
    cases text.getLast? <;> rfl

theorem spells_comment {body : List Char} (h : '/' ∉ body) :
    Spells ("/*".toList ++ (body ++ "*/".toList)) [.comment] := by
  apply spells_of_first?
  intro rest
  have hbody : '/' ∉ body ++ ['*'] := by
    simpa using h
  have hbehind : behindComment? ⟨1, none⟩ (body ++ '*' :: '/' :: rest) = some rest := by
    rw [List.append_cons, behindComment?_append (by decide) hbody, List.getLast?_concat]
    rfl
  have htext : "/*".toList ++ (body ++ "*/".toList) ++ rest
      = '/' :: '*' :: (body ++ '*' :: '/' :: rest) := by
    rw [List.append_assoc, List.append_assoc]
    rfl
  rw [htext, first?, if_neg (by decide), if_neg (by decide), if_neg (by decide), if_pos rfl, slash?,
    hbehind]
  rfl

end Token

end DslBindings
