import DslBindings.Proofs.Accessors.Blocks
import DslBindings.Proofs.Naming.Tokens

/-!
# Names in blocks

A block is made of parts, and which ones depends on nothing but what the accessors are for. The name stands
between backticks or in a literal, where it is read as that name whatever the type is, and in comments, which
it cannot end since it has no slash. So a block whose type is made of whole tokens is read as the tokens of
its parts, and the name takes no part in the code but as a name.
-/

namespace DslBindings.Accessors

open Token (Spells first? Reads)

inductive Part
  | code (text : String)
  | type
  /-- The name between backticks. -/
  | identifier
  /-- A literal of the name. -/
  | literal
  /-- A comment about the name and the type. -/
  | comment (opening closing : String)
  deriving DecidableEq, Repr

def partsOf : Kind → List Part
  | .extension =>
    [.comment "*\n * Retrieves the [" "] project extension.\n ", .code "\nval Project.", .identifier,
      .code ": ", .type, .code " get() =\n    extensions.getByName(", .literal, .code ") as ", .type,
      .code "\n\n",
      .comment "*\n * Configures the [" "] project extension.\n ", .code "\nfun Project.", .identifier,
      .code "(configure: ", .type, .code ".() -> Unit): Unit =\n    extensions.configure(", .literal,
      .code ", configure)\n"]
  | .convention =>
    [.comment "*\n * Retrieves the [" "] project convention.\n ", .code "\nval Project.", .identifier,
      .code ": ", .type, .code " get() =\n    convention.getPluginByName<", .type, .code ">(", .literal,
      .code ")\n\n",
      .comment "*\n * Configures the [" "] project convention.\n ", .code "\nfun Project.", .identifier,
      .code "(configure: ", .type, .code ".() -> Unit): Unit =\n    configure(this.", .identifier,
      .code ")\n"]

namespace Accessor

/-- What stands between the marks of a comment. -/
def commentBody (a : Accessor) (opening closing : String) : List Char :=
  opening.toList ++ (a.name.toList ++ ("][".toList ++ (a.type.toList ++ closing.toList)))

def written (a : Accessor) : Part → List Char
  | .code text => text.toList
  | .type => a.type.toList
  | .identifier => (Naming.quote a.name).toList
  | .literal => (Naming.stringLiteral a.name).toList
  | .comment opening closing => "/*".toList ++ (a.commentBody opening closing ++ "*/".toList)

def text (a : Accessor) (parts : List Part) : List Char := parts.flatMap a.written

/-- The tokens of a part, where those of the type are given. -/
def tokensOf (a : Accessor) (typeTokens : List Token) : Part → List Token
  | .code text => text.toList.map .plain
  | .type => typeTokens
  | .identifier => [.identifier a.name.toList]
  | .literal => [.literal a.name.toList]
  | .comment _ _ => [.comment]

end Accessor

/-- The fixed texts of a part hold no mark that starts a token. -/
def Part.hasPlainTexts : Part → Bool
  | .code text => text.toList.all Token.isPlain
  | .comment opening closing => !(opening.toList ++ closing.toList).contains '/'
  | _ => true

variable {s : ProjectSchema String} {a : Accessor}

theorem all_hasPlainTexts (kind : Kind) : (partsOf kind).all Part.hasPlainTexts = true := by
  cases kind with
  | extension => decide
  | convention => decide

theorem toList_block (a : Accessor) : a.block.toList = a.text (partsOf a.kind) := by
  obtain ⟨kind, name, type⟩ := a
  -- The texts of the template are taken apart where a comment begins or ends.
  have hopening : toString "/**\n * Retrieves the [" = "/*" ++ "*\n * Retrieves the [" := by decide
  cases kind with
  | extension =>
    have hproperty : toString "] project extension.\n */\nval Project."
        = "] project extension.\n " ++ ("*/" ++ "\nval Project.") := by decide
    have hnext : toString "\n\n/**\n * Configures the ["
        = "\n\n" ++ ("/*" ++ "*\n * Configures the [") := by decide
    have hfunction : toString "] project extension.\n */\nfun Project."
        = "] project extension.\n " ++ ("*/" ++ "\nfun Project.") := by decide
    change (extensionBlock name type).toList = _
    unfold extensionBlock
    rw [hopening, hproperty, hnext, hfunction]
    simp only [String.toList_append, List.append_assoc]
    simp only [Accessor.text, partsOf, List.flatMap_cons, List.flatMap_nil, List.append_nil,
      Accessor.written, Accessor.commentBody, List.append_assoc]
    rfl
  | convention =>
    have hproperty : toString "] project convention.\n */\nval Project."
        = "] project convention.\n " ++ ("*/" ++ "\nval Project.") := by decide
    have hnext : toString ")\n\n/**\n * Configures the ["
        = ")\n\n" ++ ("/*" ++ "*\n * Configures the [") := by decide
    have hfunction : toString "] project convention.\n */\nfun Project."
        = "] project convention.\n " ++ ("*/" ++ "\nfun Project.") := by decide
    change (conventionBlock name type).toList = _
    unfold conventionBlock
    rw [hopening, hproperty, hnext, hfunction]
    simp only [String.toList_append, List.append_assoc]
    simp only [Accessor.text, partsOf, List.flatMap_cons, List.flatMap_nil, List.append_nil,
      Accessor.written, Accessor.commentBody, List.append_assoc]
    rfl

/-! ### Reading blocks -/

theorem slash_notMem_of_isLegal {name : String} (h : Naming.isLegal name = true) : '/' ∉ name.toList := by
  intro hmem
  rw [Naming.isLegal, Bool.and_eq_true, List.all_eq_true] at h
  exact absurd (h.2 '/' hmem) (by decide)

theorem Accessor.slash_notMem_commentBody {opening closing : String}
    (hname : Naming.isLegal a.name = true) (htype : '/' ∉ a.type.toList)
    (htexts : (Part.comment opening closing).hasPlainTexts = true) :
    '/' ∉ a.commentBody opening closing := by
  have hbetween : '/' ∉ "][".toList := by decide
  simp only [Part.hasPlainTexts, Bool.not_eq_true', List.contains_eq_mem, decide_eq_false_iff_not,
    List.mem_append, not_or] at htexts
  simp only [commentBody, List.mem_append, not_or]
  exact ⟨htexts.1, slash_notMem_of_isLegal hname, hbetween, htype, htexts.2⟩

theorem spells_part (hname : Naming.isLegal a.name = true) {typeTokens : List Token}
    (htype : Spells a.type.toList typeTokens) (hslash : '/' ∉ a.type.toList) {part : Part}
    (hpart : part.hasPlainTexts = true) : Spells (a.written part) (a.tokensOf typeTokens part) := by
  cases part with
  | code text => exact Token.spells_plain hpart
  | type => exact htype
  | identifier => exact Token.spells_of_first? (Token.first?_quote hname)
  | literal => exact Token.spells_of_first? (Token.first?_stringLiteral_of_isLegal hname)
  | comment opening closing =>
    exact Token.spells_comment (Accessor.slash_notMem_commentBody hname hslash hpart)

theorem reads_block (hname : Naming.isLegal a.name = true) {typeTokens : List Token}
    (htype : Spells a.type.toList typeTokens) (hslash : '/' ∉ a.type.toList) :
    Reads a.block.toList ((partsOf a.kind).flatMap (a.tokensOf typeTokens)) := by
  rw [toList_block]
  exact (Token.spells_flatMap fun part hpart =>
    spells_part hname htype hslash (List.all_eq_true.mp (all_hasPlainTexts a.kind) part hpart)).reads

/--
A legal name between backticks is read as that name, whatever follows, and the literal of a text that is not
empty and has no line break as that text. So in each block of a schema the property and the function are
declared with the name of the accessors, and that name is looked up and configured, whatever the type is. If
the type is made of whole tokens and opens or closes no comment, the tokens of the block are just those of
its parts. Which parts there are does not depend on the name, so it is never read as code.
-/
theorem names_denote_themselves :
    (∀ name, Naming.isLegal name = true → ∀ rest,
        first? ((Naming.quote name).toList ++ rest) = some (.identifier name.toList, rest))
      ∧ (∀ value : String, value ≠ "" → '\r' ∉ value.toList → '\n' ∉ value.toList → ∀ rest,
        first? ((Naming.stringLiteral value).toList ++ rest) = some (.literal value.toList, rest))
      ∧ ∀ (s : ProjectSchema String), ∀ block ∈ blocks s, ∃ a : Accessor, a.BelongsTo s
        ∧ block.toList = a.text (partsOf a.kind)
        -- The places of the name in the code.
        ∧ (∀ after, first? (a.text (.identifier :: after))
          = some (.identifier a.name.toList, a.text after))
        ∧ (∀ after, first? (a.text (.literal :: after)) = some (.literal a.name.toList, a.text after))
        -- The block as a whole.
        ∧ ∀ typeTokens, Spells a.type.toList typeTokens → '/' ∉ a.type.toList → ∀ tokens,
          Reads block.toList tokens ↔ tokens = (partsOf a.kind).flatMap (a.tokensOf typeTokens) := by
  refine ⟨fun name => Token.first?_quote, fun value => Token.first?_stringLiteral, ?_⟩
  intro s block hblock
  rw [blocks_eq_map] at hblock
  obtain ⟨a, ha, rfl⟩ := List.mem_map.mp hblock
  have hbelongs := mem_accessorsOf.mp ha
  refine ⟨a, hbelongs, toList_block a, fun after => Token.first?_quote hbelongs.1 (a.text after),
    fun after => Token.first?_stringLiteral_of_isLegal hbelongs.1 (a.text after), ?_⟩
  intro typeTokens htype hslash tokens
  have hreads := reads_block hbelongs.1 htype hslash
  constructor
  · exact fun h => h.unique hreads
  · rintro rfl
    exact hreads

/-- A type without backticks, quotes and slashes is made of whole tokens. -/
example : Spells "kotlin.collections.Map<String, in a.T>".toList
    ("kotlin.collections.Map<String, in a.T>".toList.map .plain) := Token.spells_plain (by decide)

end DslBindings.Accessors
