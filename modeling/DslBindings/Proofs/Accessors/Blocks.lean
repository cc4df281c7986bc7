import Mathlib.Data.String.Basic
import DslBindings.Accessors
import DslBindings.Proofs.Sink

/-!
# One block for each name

A name that is both that of an extension and that of a convention gets the block of the extension.
Whether a convention is shadowed is decided by all names of extensions, legal or not; as a name is legal
in both registries or in neither, no legal name is lost by that.
-/

namespace DslBindings.Accessors

/-- What accessors are for. -/
inductive Kind
  | extension
  | convention
  deriving DecidableEq, Repr

/-- The accessors of one extension or convention. -/
structure Accessor where
  kind : Kind
  name : String
  type : String
  deriving DecidableEq, Repr

def Accessor.block (a : Accessor) : String :=
  match a.kind with
  | .extension => extensionBlock a.name a.type
  | .convention => conventionBlock a.name a.type

/-- Extensions come before conventions, and each of the two are in the order of their names. -/
def Accessor.Precedes (a b : Accessor) : Prop :=
  a.kind = .extension ∧ b.kind = .convention ∨ a.kind = b.kind ∧ a.name < b.name

/-- The accessors belong to a schema: their name is legal, and it is that of an extension, or else of a
convention. -/
def Accessor.BelongsTo (a : Accessor) (s : ProjectSchema String) : Prop :=
  Naming.isLegal a.name = true ∧
    match a.kind with
    | .extension => s.extensions[a.name]? = some a.type
    | .convention => a.name ∉ s.extensions ∧ s.conventions[a.name]? = some a.type

/-- The name in the title of a block, which is the first thing that stands in square brackets. -/
def title (block : String) : String :=
  String.ofList (((block.toList.dropWhile (· ≠ '[')).tail).takeWhile (· ≠ ']'))

/-- A block declares a property of projects. -/
def Declares (block property : String) : Prop :=
  ∃ comment rest, block = comment ++ "val Project." ++ Naming.quote property ++ rest

/-- The accessors of a schema, in the order of their blocks. -/
def accessorsOf (s : ProjectSchema String) : List Accessor :=
  (legalEntries s.extensions.toList).map (fun (name, type) => ⟨.extension, name, type⟩)
    ++ (legalEntries s.unshadowedConventions).map fun (name, type) => ⟨.convention, name, type⟩

variable {s : ProjectSchema String} {name type : String}

theorem blocks_eq_map (s : ProjectSchema String) : blocks s = (accessorsOf s).map Accessor.block := by
  rw [blocks, accessorsOf, List.map_append, List.map_map, List.map_map]
  rfl

/-! ### Which accessors there are -/

theorem mem_legalEntries {entries : List (String × String)} :
    (name, type) ∈ legalEntries entries ↔
      (name, type) ∈ entries ∧ Naming.isLegal name = true := by
  rw [legalEntries, List.mem_filter]

theorem mem_unshadowedConventions :
    (name, type) ∈ s.unshadowedConventions ↔
      name ∉ s.extensions ∧ s.conventions[name]? = some type := by
  rw [ProjectSchema.unshadowedConventions, List.mem_filter,
    Std.ExtTreeMap.mem_toList_iff_getElem?_eq_some, Bool.not_eq_true', ← Bool.not_eq_true,
    Std.ExtTreeMap.contains_iff_mem, and_comm]

theorem mem_map_accessor {kind kind' : Kind} {entries : List (String × String)} :
    (⟨kind, name, type⟩ : Accessor) ∈ entries.map (fun (name, type) => ⟨kind', name, type⟩) ↔
      kind = kind' ∧ (name, type) ∈ entries := by
  rw [List.mem_map]
  constructor
  · rintro ⟨entry, hentry, heq⟩
    obtain ⟨rfl, rfl, rfl⟩ := Accessor.mk.inj heq
    exact ⟨rfl, hentry⟩
  · rintro ⟨rfl, hentry⟩
    exact ⟨_, hentry, rfl⟩

theorem mem_accessorsOf {a : Accessor} : a ∈ accessorsOf s ↔ a.BelongsTo s := by
  obtain ⟨kind, name, type⟩ := a
  rw [accessorsOf, List.mem_append, mem_map_accessor, mem_map_accessor, mem_legalEntries,
    mem_legalEntries, mem_unshadowedConventions, Std.ExtTreeMap.mem_toList_iff_getElem?_eq_some,
    Accessor.BelongsTo]
  cases kind with
  | extension => simp [and_comm]
  | convention => simp [and_comm]

/-! ### Their order -/

theorem pairwise_toList (registry : Std.ExtTreeMap String String) :
    registry.toList.Pairwise fun a b => a.1 < b.1 :=
  Std.ExtTreeMap.ordered_keys_toList.imp fun h => compare_lt_iff_lt.mp h

theorem pairwise_map_legalEntries {entries : List (String × String)} (kind : Kind)
    (h : entries.Pairwise fun a b => a.1 < b.1) :
    ((legalEntries entries).map fun (name, type) => (⟨kind, name, type⟩ : Accessor)).Pairwise
      Accessor.Precedes := by
  rw [List.pairwise_map]
  exact (h.filter _).imp fun hlt => .inr ⟨rfl, hlt⟩

theorem pairwise_accessorsOf (s : ProjectSchema String) :
    (accessorsOf s).Pairwise Accessor.Precedes := by
  rw [accessorsOf, List.pairwise_append]
  refine ⟨pairwise_map_legalEntries .extension (pairwise_toList s.extensions),
    pairwise_map_legalEntries .convention ((pairwise_toList s.conventions).filter _), ?_⟩
  intro a ha b hb
  exact .inl ⟨(mem_map_accessor.mp ha).1, (mem_map_accessor.mp hb).1⟩

/-- No name has two accessors: that of a convention is not the name of an extension. -/
theorem nodup_names (s : ProjectSchema String) : ((accessorsOf s).map Accessor.name).Nodup := by
  rw [List.Nodup, List.pairwise_map]
  refine (pairwise_accessorsOf s).imp_of_mem fun {a b} ha hb hab hname => ?_
  obtain ⟨ha', hb'⟩ | ⟨-, hlt⟩ := hab
  · have hextension := (mem_accessorsOf.mp ha).2
    have hconvention := (mem_accessorsOf.mp hb).2
    rw [ha'] at hextension
    rw [hb'] at hconvention
    have hmem : a.name ∈ s.extensions := by
      rw [Std.ExtTreeMap.mem_iff_isSome_getElem?, hextension]
      rfl
    exact hconvention.1 (hname ▸ hmem)
  · exact hlt.ne hname

theorem mem_names : name ∈ (accessorsOf s).map Accessor.name ↔
    Naming.isLegal name = true ∧ (name ∈ s.extensions ∨ name ∈ s.conventions) := by
  rw [List.mem_map]
  simp only [mem_accessorsOf, Std.ExtTreeMap.mem_iff_isSome_getElem?, Option.isSome_iff_exists]
  constructor
  · rintro ⟨⟨kind, name, type⟩, ⟨hlegal, hregistered⟩, rfl⟩
    cases kind with
    | extension => exact ⟨hlegal, .inl ⟨type, hregistered⟩⟩
    | convention => exact ⟨hlegal, .inr ⟨type, hregistered.2⟩⟩
  · rintro ⟨hlegal, hregistered⟩
    by_cases hextension : ∃ type, s.extensions[name]? = some type
    · obtain ⟨type, htype⟩ := hextension
      exact ⟨⟨.extension, name, type⟩, ⟨hlegal, htype⟩, rfl⟩
    · obtain ⟨type, htype⟩ := hregistered.resolve_left hextension
      have hnot : name ∉ s.extensions := by
        rwa [Std.ExtTreeMap.mem_iff_isSome_getElem?, Option.isSome_iff_exists]
      exact ⟨⟨.convention, name, type⟩, ⟨hlegal, hnot, htype⟩, rfl⟩

/-! ### Titles and properties -/

theorem title_eq (hname : ']' ∉ name.toList) (rest : String) :
    title ("/**\n * Retrieves the [" ++ (name ++ ("][" ++ rest))) = name := by
  have htext : ("/**\n * Retrieves the [" ++ (name ++ ("][" ++ rest))).toList
      = "/**\n * Retrieves the ".toList ++ '[' :: (name.toList ++ ']' :: '[' :: rest.toList) := by
    have hopen : "/**\n * Retrieves the [".toList = "/**\n * Retrieves the ".toList ++ ['['] := by
      decide
    have hclose : "][".toList = [']', '['] := rfl
    simp only [String.toList_append, hopen, hclose, List.append_assoc, List.cons_append,
      List.nil_append]
  have hdrop : ∀ text, ("/**\n * Retrieves the ".toList ++ '[' :: text).dropWhile (· ≠ '[')
      = '[' :: text := by
    intro text
    have hnone : '[' ∉ "/**\n * Retrieves the ".toList := by decide
    rw [List.dropWhile_append_of_pos fun c hc => decide_eq_true (ne_of_mem_of_not_mem hc hnone)]
    rfl
  have htake : ∀ text, (name.toList ++ ']' :: text).takeWhile (· ≠ ']') = name.toList := by
    intro text
    rw [List.takeWhile_append_of_pos fun c hc => decide_eq_true (ne_of_mem_of_not_mem hc hname)]
    exact List.append_nil _
  rw [title, htext, hdrop, List.tail_cons, htake, String.ofList_toList]

theorem not_mem_of_isLegal (h : Naming.isLegal name = true) : ']' ∉ name.toList := by
  rw [Naming.isLegal, Bool.and_eq_true, List.all_eq_true] at h
  intro hmem
  exact absurd (h.2 ']' hmem) (by decide)

theorem Accessor.block_eq (a : Accessor) :
    ∃ about rest, a.block = "/**\n * Retrieves the [" ++ (a.name ++ ("][" ++ (a.type ++ (about
      ++ ("val Project." ++ (Naming.quote a.name ++ rest)))))) := by
  have hextension : toString "] project extension.\n */\nval Project."
      = "] project extension.\n */\n" ++ "val Project." := by decide
  have hconvention : toString "] project convention.\n */\nval Project."
      = "] project convention.\n */\n" ++ "val Project." := by decide
  unfold block
  cases a.kind with
  | extension =>
    unfold extensionBlock
    rw [hextension]
    simp only [String.append_assoc]
    exact ⟨_, _, rfl⟩
  | convention =>
    unfold conventionBlock
    rw [hconvention]
    simp only [String.append_assoc]
    exact ⟨_, _, rfl⟩

theorem title_block {a : Accessor} (h : Naming.isLegal a.name = true) : title a.block = a.name := by
  obtain ⟨about, rest, hblock⟩ := a.block_eq
  rw [hblock, title_eq (not_mem_of_isLegal h)]

theorem Accessor.declares_block (a : Accessor) : Declares a.block a.name := by
  obtain ⟨about, rest, hblock⟩ := a.block_eq
  refine ⟨"/**\n * Retrieves the [" ++ a.name ++ "][" ++ a.type ++ about, rest, ?_⟩
  rw [hblock]
  simp only [String.append_assoc]

/-! ### What is written -/

theorem join_pieces (s : ProjectSchema String) :
    String.join (pieces s)
      = Header.accessors ++ String.join ((blocks s).map fun block => "\n" ++ block) := by
  have hblocks : ∀ blocks : List String, String.join (blocks.flatMap fun block => ["\n", block])
      = String.join (blocks.map fun block => "\n" ++ block) := by
    intro blocks
    induction blocks with
    | nil => rfl
    | cons block blocks ih =>
      simp [ih, String.append_assoc]
  rw [pieces, String.join_cons, hblocks]

theorem writeTo_of_takes {sink : Sink} (hs : ∀ offered piece, sink.takes offered piece = true) :
    (writeTo sink s).1 = some (blocks s).length
      ∧ (writeTo sink s).2.text
        = sink.text ++ Header.accessors ++ String.join ((blocks s).map fun block => "\n" ++ block) := by
  rw [writeTo, Sink.writeAll_of_takes hs]
  refine ⟨rfl, ?_⟩
  rw [String.append_assoc, ← join_pieces, Sink.text, Sink.text, String.join_append]

/--
The blocks are those of the accessors of a schema, each with its own name: there is one for each legal
name of an extension or of a convention, and it is for the extension if there is one of that name.
Extensions come first, and each of the two are in the order of their names. A sink that takes everything
is given the header and then each block on a new line, and the blocks are counted.
-/
theorem blocks_declare_each_name (s : ProjectSchema String) :
    ∃ accessors : List Accessor,
      blocks s = accessors.map Accessor.block
        ∧ (∀ a, a ∈ accessors ↔ a.BelongsTo s)
        ∧ accessors.Pairwise Accessor.Precedes
        -- The names, which can be read off the blocks, and the properties of these names.
        ∧ (blocks s).map title = accessors.map Accessor.name
        ∧ (∀ block ∈ blocks s, Declares block (title block))
        ∧ ((blocks s).map title).Nodup
        ∧ (∀ name, name ∈ (blocks s).map title ↔
          Naming.isLegal name = true ∧ (name ∈ s.extensions ∨ name ∈ s.conventions))
        -- The source file.
        ∧ ∀ sink : Sink, (∀ offered piece, sink.takes offered piece = true) →
          (writeTo sink s).1 = some accessors.length
            ∧ (writeTo sink s).2.text
              = sink.text ++ Header.accessors
                ++ String.join ((blocks s).map fun block => "\n" ++ block) := by
  have htitles : (blocks s).map title = (accessorsOf s).map Accessor.name := by
    rw [blocks_eq_map, List.map_map]
    exact List.map_congr_left fun a ha => title_block (mem_accessorsOf.mp ha).1
  refine ⟨accessorsOf s, blocks_eq_map s, fun a => mem_accessorsOf, pairwise_accessorsOf s, htitles,
    ?_, ?_, ?_, ?_⟩
  · intro block hblock
    rw [blocks_eq_map] at hblock
    obtain ⟨a, ha, rfl⟩ := List.mem_map.mp hblock
    rw [title_block (mem_accessorsOf.mp ha).1]
    exact a.declares_block
  · rw [htitles]
    exact nodup_names s
  · intro name
    rw [htitles]
    exact mem_names
  · intro sink hsink
    have hlength : (blocks s).length = (accessorsOf s).length := by
      rw [blocks_eq_map, List.length_map]
    rw [← hlength]
    exact writeTo_of_takes hsink

end DslBindings.Accessors
