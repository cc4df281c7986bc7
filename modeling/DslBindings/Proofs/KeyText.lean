import Mathlib
import DslBindings.Build.Resolver

/-!
# Reading cache keys back

A cache key is written without quoting anything: an entry is a registry, a name and a type, the
sorted entries stand with colons between them, and each component of the key is on a new line.
Everything here is about when the pieces can be told from the whole.

`IsPlain` asks of a name that it has no equals sign, and of a type that nothing in it looks like the
start of another entry or of another line. Then the end of each piece is the first place where it
can end, so two keys with one text are made of the same entries in the same order. Without that
they need not be: `keyText_collisions` has one pair of inputs for each thing that is asked.
-/

namespace DslBindings

namespace KeyText

/-- Pieces with a mark in front of each. -/
def marked (mark : Char) (pieces : List (List Char)) : List Char := pieces.flatMap (mark :: ·)

@[simp] theorem marked_nil (mark : Char) : marked mark [] = [] := rfl

@[simp] theorem marked_cons (mark : Char) (piece : List Char) (pieces : List (List Char)) :
    marked mark (piece :: pieces) = mark :: (piece ++ marked mark pieces) := rfl

/-- A piece that does not hold the mark ends where the mark is. -/
theorem eq_of_append_mark {mark : Char} {a b x y : List Char} (ha : mark ∉ a) (hb : mark ∉ b)
    (h : a ++ mark :: x = b ++ mark :: y) : a = b ∧ x = y := by
  induction a generalizing b with
  | nil =>
    cases b with
    | nil => simpa using h
    | cons d b =>
      have hd : mark = d := (List.cons.inj h).1
      exact absurd (hd ▸ List.mem_cons_self) hb
  | cons c a ih =>
    cases b with
    | nil =>
      have hc : c = mark := (List.cons.inj h).1
      exact absurd (hc ▸ List.mem_cons_self) ha
    | cons d b =>
      obtain ⟨hcd, htail⟩ := List.cons.inj h
      obtain ⟨hab, hxy⟩ := ih (fun hm => ha (List.mem_cons_of_mem _ hm))
        (fun hm => hb (List.mem_cons_of_mem _ hm)) htail
      exact ⟨by rw [hcd, hab], hxy⟩

/-- A list with marks between its members is one with a mark in front of each, but for the first. -/
theorem cons_intercalate {mark : Char} {piece : List Char} {pieces : List (List Char)} :
    mark :: List.intercalate [mark] (piece :: pieces) = marked mark (piece :: pieces) := by
  induction pieces generalizing piece with
  | nil => simp
  | cons next pieces ih =>
    rw [List.intercalate_cons_cons, List.append_assoc, List.singleton_append, ih]
    rfl

/-- Pieces that do not hold the mark can be told from the text that they make. -/
theorem marked_inj {mark : Char} {as bs : List (List Char)} (has : ∀ a ∈ as, mark ∉ a)
    (hbs : ∀ b ∈ bs, mark ∉ b) (h : marked mark as = marked mark bs) : as = bs := by
  cases as with
  | nil =>
    cases bs with
    | nil => rfl
    | cons b bs => simp at h
  | cons a as =>
    cases bs with
    | nil => simp at h
    | cons b bs =>
      rw [← cons_intercalate, ← cons_intercalate] at h
      have hsplit := congrArg (List.splitOn mark) (List.cons.inj h).2
      rwa [List.splitOn_intercalate mark has (List.cons_ne_nil a as),
        List.splitOn_intercalate mark hbs (List.cons_ne_nil b bs)] at hsplit

/-! ### Where a type ends -/

/-- The letters of the two registries. -/
def tags : List Char := ['e', 'c']

/-- A type in which nothing looks like the start of another line or of another entry, with the colon
that can stand behind it taken into account. -/
def IsPlainType (type : List Char) : Prop :=
  '\n' ∉ type ∧ ∀ tag ∈ tags, ¬ [':', tag, ':'] <:+: type ++ [':']

instance (type : List Char) : Decidable (IsPlainType type) :=
  have := List.decidableBAll (fun tag => ¬ [':', tag, ':'] <:+: type ++ [':']) tags
  instDecidableAnd

/-- What can stand behind a type. -/
inductive Follows : List Char → Prop
  | nothing : Follows []
  | line (rest : List Char) : Follows ('\n' :: rest)
  | entry (tag : Char) (htag : tag ∈ tags) (rest : List Char) : Follows (':' :: tag :: ':' :: rest)

/-- A plain type does not reach into what follows another type. -/
theorem eq_nil_of_follows {type more rest : List Char} (hplain : IsPlainType (type ++ more))
    (hall : Follows (more ++ rest)) (hrest : Follows rest) : more = [] := by
  obtain ⟨hline, hentry⟩ := hplain
  generalize hwhole : more ++ rest = whole at hall
  cases hall with
  | nothing => exact (List.append_eq_nil_iff.mp hwhole).1
  | line r =>
    cases more with
    | nil => rfl
    | cons c more =>
      have hc : c = '\n' := (List.cons.inj hwhole).1
      exact absurd (by simp [hc]) hline
  | entry tag htag r =>
    -- The three characters that start an entry are spread over the two parts in one of four ways.
    match more, hwhole with
    | [], _ => rfl
    | [c], hwhole =>
      have hr : rest = tag :: ':' :: r := (List.cons.inj hwhole).2
      rw [hr] at hrest
      cases hrest <;> simp [tags] at htag
    | [c, d], hwhole =>
      simp only [List.cons_append, List.nil_append, List.cons.injEq] at hwhole
      obtain ⟨rfl, rfl, -⟩ := hwhole
      exact absurd ⟨type, [], by simp⟩ (hentry d htag)
    | c :: d :: e :: more, hwhole =>
      simp only [List.cons_append, List.cons.injEq] at hwhole
      obtain ⟨rfl, rfl, rfl, -⟩ := hwhole
      exact absurd ⟨type, more ++ [':'], by simp⟩ (hentry d htag)

/-- A plain type ends at the first place where it can end. -/
theorem eq_of_append_follows {s t x y : List Char} (hs : IsPlainType s) (ht : IsPlainType t)
    (hx : Follows x) (hy : Follows y) (h : s ++ x = t ++ y) : s = t ∧ x = y := by
  rcases List.append_eq_append_iff.mp h with ⟨more, rfl, rfl⟩ | ⟨more, rfl, rfl⟩
  · have hmore := eq_nil_of_follows ht hx hy
    simp [hmore]
  · have hmore := eq_nil_of_follows hs hy hx
    simp [hmore]

/-! ### Where an entry ends -/

/-- The text of an entry that can be told from what stands behind it. -/
def IsPlainEntry (text : List Char) : Prop :=
  ∃ tag name type, tag ∈ tags ∧ '=' ∉ name ∧ IsPlainType type
    ∧ text = tag :: ':' :: (name ++ '=' :: type)

theorem eq_of_entry_append {s t x y : List Char} (hs : IsPlainEntry s) (ht : IsPlainEntry t)
    (hx : Follows x) (hy : Follows y) (h : s ++ x = t ++ y) : s = t ∧ x = y := by
  obtain ⟨tag, name, type, -, hname, htype, rfl⟩ := hs
  obtain ⟨tag', name', type', -, hname', htype', rfl⟩ := ht
  simp only [List.cons_append, List.append_assoc, List.cons.injEq, true_and] at h
  obtain ⟨htag, h⟩ := h
  obtain ⟨hnames, h⟩ := eq_of_append_mark hname hname' h
  obtain ⟨htypes, hrest⟩ := eq_of_append_follows htype htype' hx hy h
  exact ⟨by rw [htag, hnames, htypes], hrest⟩

/-- What stands behind the last entry: nothing, or the next line. -/
def EndsEntries (rest : List Char) : Prop := rest = [] ∨ ∃ r, rest = '\n' :: r

theorem follows_marked_append {entries : List (List Char)} {rest : List Char}
    (hentries : ∀ e ∈ entries, IsPlainEntry e) (hrest : EndsEntries rest) :
    Follows (marked ':' entries ++ rest) := by
  cases entries with
  | nil =>
    rcases hrest with rfl | ⟨r, rfl⟩
    · exact .nothing
    · exact .line r
  | cons e entries =>
    obtain ⟨tag, name, type, htag, -, -, rfl⟩ := hentries e List.mem_cons_self
    exact .entry tag htag _

theorem marked_entries_inj {es fs : List (List Char)} {x y : List Char}
    (hes : ∀ e ∈ es, IsPlainEntry e) (hfs : ∀ f ∈ fs, IsPlainEntry f) (hx : EndsEntries x)
    (hy : EndsEntries y) (h : marked ':' es ++ x = marked ':' fs ++ y) : es = fs ∧ x = y := by
  induction es generalizing fs with
  | nil =>
    cases fs with
    | nil => exact ⟨rfl, h⟩
    | cons f fs => rcases hx with rfl | ⟨r, rfl⟩ <;> simp at h
  | cons e es ih =>
    cases fs with
    | nil => rcases hy with rfl | ⟨r, rfl⟩ <;> simp at h
    | cons f fs =>
      have htail : e ++ (marked ':' es ++ x) = f ++ (marked ':' fs ++ y) := by
        simpa [List.append_assoc] using h
      have hes' := fun e he => hes e (List.mem_cons_of_mem _ he)
      have hfs' := fun f hf => hfs f (List.mem_cons_of_mem _ hf)
      obtain ⟨hef, hrest⟩ := eq_of_entry_append (hes e List.mem_cons_self)
        (hfs f List.mem_cons_self) (follows_marked_append hes' hx) (follows_marked_append hfs' hy)
        htail
      obtain ⟨htails, hxy⟩ := ih hes' hfs' hrest
      exact ⟨by rw [hef, htails], hxy⟩

/-- What stands behind the last entry starts with no entry. -/
theorem ne_intercalate_append {f : List Char} {fs : List (List Char)} {x y : List Char}
    (hf : IsPlainEntry f) (hx : EndsEntries x) : x ≠ List.intercalate [':'] (f :: fs) ++ y := by
  intro h
  obtain ⟨tag, name, type, htag, -, -, rfl⟩ := hf
  have hcons := congrArg (':' :: ·) h
  simp only [← List.cons_append, cons_intercalate] at hcons
  rcases hx with rfl | ⟨r, rfl⟩
  · simp at hcons
  · obtain ⟨rfl, -⟩ : '\n' = tag ∧ _ := by simpa using hcons
    exact absurd htag (by decide)

theorem intercalate_entries_inj {es fs : List (List Char)} {x y : List Char}
    (hes : ∀ e ∈ es, IsPlainEntry e) (hfs : ∀ f ∈ fs, IsPlainEntry f) (hx : EndsEntries x)
    (hy : EndsEntries y)
    (h : List.intercalate [':'] es ++ x = List.intercalate [':'] fs ++ y) : es = fs ∧ x = y := by
  cases es with
  | nil =>
    cases fs with
    | nil => exact ⟨rfl, by simpa using h⟩
    | cons f fs =>
      exact absurd (by simpa using h) (ne_intercalate_append (hfs f List.mem_cons_self) hx)
  | cons e es =>
    cases fs with
    | nil =>
      exact absurd (by simpa using h.symm) (ne_intercalate_append (hes e List.mem_cons_self) hy)
    | cons f fs =>
      refine marked_entries_inj hes hfs hx hy ?_
      rw [← cons_intercalate, ← cons_intercalate, List.cons_append, List.cons_append, h]

end KeyText

/-! ### Schemas and class paths -/

namespace ProjectSchema

/-- Whether the entries of a registry can be told from the text of a key. -/
def IsPlainRegistry (registry : Std.ExtTreeMap String String) : Prop :=
  ∀ entry ∈ registry.toList, '=' ∉ entry.1.toList ∧ KeyText.IsPlainType entry.2.toList

instance (registry : Std.ExtTreeMap String String) : Decidable (IsPlainRegistry registry) :=
  List.decidableBAll _ registry.toList

/-- Whether the entries of a schema can be told from the text of a key. -/
structure IsPlain (s : ProjectSchema String) : Prop where
  extensions : IsPlainRegistry s.extensions
  conventions : IsPlainRegistry s.conventions

theorem toList_keyEntry {registry : String} {tag : Char} (htag : registry.toList = [tag])
    (entry : String × String) :
    (keyEntry registry entry).toList
      = tag :: ':' :: (entry.1.toList ++ '=' :: entry.2.toList) := by
  simp [keyEntry, htag]

theorem mem_keyEntries {s : ProjectSchema String} {text : String} :
    text ∈ s.keyEntries ↔
      (∃ entry ∈ s.extensions.toList, keyEntry "e" entry = text) ∨
        ∃ entry ∈ s.conventions.toList, keyEntry "c" entry = text := by
  simp [keyEntries, List.mem_mergeSort]

theorem IsPlain.isPlainEntry {s : ProjectSchema String} (hs : s.IsPlain) {text : String}
    (htext : text ∈ s.keyEntries) : KeyText.IsPlainEntry text.toList := by
  rcases mem_keyEntries.mp htext with ⟨entry, hentry, rfl⟩ | ⟨entry, hentry, rfl⟩
  · obtain ⟨hname, htype⟩ := hs.extensions entry hentry
    exact ⟨'e', _, _, by decide, hname, htype, toList_keyEntry rfl entry⟩
  · obtain ⟨hname, htype⟩ := hs.conventions entry hentry
    exact ⟨'c', _, _, by decide, hname, htype, toList_keyEntry rfl entry⟩

/-- The registry, the name and the type can be told from the text of an entry whose name has no
equals sign. -/
theorem keyEntry_inj {r r' : String} {tag tag' : Char} {entry entry' : String × String}
    (hr : r.toList = [tag]) (hr' : r'.toList = [tag']) (hname : '=' ∉ entry.1.toList)
    (hname' : '=' ∉ entry'.1.toList) (h : keyEntry r entry = keyEntry r' entry') :
    tag = tag' ∧ entry = entry' := by
  have htexts := congrArg String.toList h
  rw [toList_keyEntry hr, toList_keyEntry hr'] at htexts
  simp only [List.cons.injEq, true_and] at htexts
  obtain ⟨htag, htexts⟩ := htexts
  obtain ⟨hnames, htypes⟩ := KeyText.eq_of_append_mark hname hname' htexts
  exact ⟨htag, Prod.ext (String.toList_injective hnames) (String.toList_injective htypes)⟩

/-- Of two plain schemas with the same entries in their keys, each registers what the other does. -/
theorem IsPlain.mem_toList {s t : ProjectSchema String} (hs : s.IsPlain) (ht : t.IsPlain)
    (hmem : ∀ text ∈ s.keyEntries, text ∈ t.keyEntries) (entry : String × String) :
    (entry ∈ s.extensions.toList → entry ∈ t.extensions.toList) ∧
      (entry ∈ s.conventions.toList → entry ∈ t.conventions.toList) := by
  constructor
  · intro hentry
    have hname := (hs.extensions entry hentry).1
    rcases mem_keyEntries.mp (hmem _ (mem_keyEntries.mpr (.inl ⟨entry, hentry, rfl⟩))) with
      ⟨entry', hentry', htext⟩ | ⟨entry', hentry', htext⟩
    · obtain ⟨-, rfl⟩ := keyEntry_inj rfl rfl (ht.extensions _ hentry').1 hname htext
      exact hentry'
    · obtain ⟨htag, -⟩ := keyEntry_inj rfl rfl (ht.conventions _ hentry').1 hname htext
      exact absurd htag (by decide)
  · intro hentry
    have hname := (hs.conventions entry hentry).1
    rcases mem_keyEntries.mp (hmem _ (mem_keyEntries.mpr (.inr ⟨entry, hentry, rfl⟩))) with
      ⟨entry', hentry', htext⟩ | ⟨entry', hentry', htext⟩
    · obtain ⟨htag, -⟩ := keyEntry_inj rfl rfl (ht.extensions _ hentry').1 hname htext
      exact absurd htag (by decide)
    · obtain ⟨-, rfl⟩ := keyEntry_inj rfl rfl (ht.conventions _ hentry').1 hname htext
      exact hentry'

/-- Registries with the same entries are the same. -/
theorem registry_ext {r r' : Std.ExtTreeMap String String}
    (h : ∀ entry, entry ∈ r.toList ↔ entry ∈ r'.toList) : r = r' := by
  apply Std.ExtTreeMap.ext_getElem?
  intro name
  apply Option.ext
  intro type
  have hentry := h (name, type)
  rwa [Std.ExtTreeMap.mem_toList_iff_getElem?_eq_some,
    Std.ExtTreeMap.mem_toList_iff_getElem?_eq_some] at hentry

theorem IsPlain.eq_of_keyEntries {s t : ProjectSchema String} (hs : s.IsPlain) (ht : t.IsPlain)
    (h : s.keyEntries = t.keyEntries) : s = t := by
  have hst := hs.mem_toList ht fun text htext => h ▸ htext
  have hts := ht.mem_toList hs fun text htext => h ▸ htext
  have hextensions : s.extensions = t.extensions :=
    registry_ext fun entry => ⟨(hst entry).1, (hts entry).1⟩
  have hconventions : s.conventions = t.conventions :=
    registry_ext fun entry => ⟨(hst entry).2, (hts entry).2⟩
  cases s
  cases t
  simp only at hextensions hconventions
  rw [hextensions, hconventions]

end ProjectSchema

namespace CacheKey

theorem toList_toText (label : String) (components : List String) :
    (toText ⟨label, components⟩).toList
      = label.toList ++ KeyText.marked '\n' (components.map String.toList) := by
  induction components generalizing label with
  | nil => simp [toText]
  | cons component components ih =>
    have hstep : toText ⟨label, component :: components⟩
        = toText ⟨label ++ "\n" ++ component, components⟩ := rfl
    rw [hstep, ih]
    simp

end CacheKey

namespace Accessors

/-- The text of the cache key of a schema and of the class path with these entries. -/
def keyText (schema : ProjectSchema String) (classPath : List String) : String :=
  (cacheKey schema (classPath.map Path.ofText)).toText

theorem toList_keyText (schema : ProjectSchema String) (classPath : List String) :
    (keyText schema classPath).toList
      = cacheLabel.toList ++ '\n' :: (List.intercalate [':'] (schema.keyEntries.map String.toList)
          ++ KeyText.marked '\n' (classPath.map String.toList)) := by
  have hpaths : (classPath.map Path.ofText).map Path.text = classPath := by
    simp [Function.comp_def]
  have hcolon : ":".toList = [':'] := rfl
  rw [keyText, cacheKey, hpaths, CacheKey.toList_toText, List.map_cons, KeyText.marked_cons,
    ProjectSchema.cacheKey, String.toList_intercalate, hcolon]

/-- The source of a schema is its header and what its blocks make. -/
theorem source_eq (s : ProjectSchema String) :
    source s = Header.accessors ++ String.join ((blocks s).flatMap fun block => ["\n", block]) := by
  simp [source, pieces]

theorem source_inj {s t : ProjectSchema String} :
    source s = source t ↔
      String.join ((blocks s).flatMap fun block => ["\n", block])
        = String.join ((blocks t).flatMap fun block => ["\n", block]) := by
  rw [source_eq, source_eq, String.append_right_inj]

/-- A class path on lines of its own ends the entries. -/
theorem endsEntries_classPath (classPath : List String) :
    KeyText.EndsEntries (KeyText.marked '\n' (classPath.map String.toList)) := by
  cases classPath with
  | nil => exact .inl rfl
  | cons entry classPath => exact .inr ⟨_, rfl⟩

/-- Two keys of plain schemas and of class paths without line breaks have one text only if they are
of one schema and one class path. Then the accessors found under that key are the right ones. -/
theorem keyText_determines {s t : ProjectSchema String} {c d : List String} (hs : s.IsPlain)
    (ht : t.IsPlain) (hc : ∀ entry ∈ c, '\n' ∉ entry.toList) (hd : ∀ entry ∈ d, '\n' ∉ entry.toList)
    (h : keyText s c = keyText t d) :
    c = d ∧ s = t ∧ ∀ sink, writeTo sink s = writeTo sink t := by
  have htexts := congrArg String.toList h
  rw [toList_keyText, toList_keyText] at htexts
  have hbehind := (List.cons.inj (List.append_cancel_left htexts)).2
  have hsEntries : ∀ e ∈ s.keyEntries.map String.toList, KeyText.IsPlainEntry e := by
    intro e he
    obtain ⟨text, htext, rfl⟩ := List.mem_map.mp he
    exact hs.isPlainEntry htext
  have htEntries : ∀ e ∈ t.keyEntries.map String.toList, KeyText.IsPlainEntry e := by
    intro e he
    obtain ⟨text, htext, rfl⟩ := List.mem_map.mp he
    exact ht.isPlainEntry htext
  obtain ⟨hentries, hpaths⟩ := KeyText.intercalate_entries_inj hsEntries htEntries
    (endsEntries_classPath c) (endsEntries_classPath d) hbehind
  have hinj : Function.Injective (List.map String.toList) :=
    List.map_injective_iff.mpr fun _ _ => String.toList_injective
  have hschemas : s = t := hs.eq_of_keyEntries ht (hinj hentries)
  have hclassPaths : c = d := by
    refine hinj (KeyText.marked_inj ?_ ?_ hpaths)
    · simpa using hc
    · simpa using hd
  exact ⟨hclassPaths, hschemas, fun sink => by rw [hschemas]⟩

/-- A type that was given way to leaves no trace in a key. -/
theorem keyText_determines_greatest :
    let s := ProjectSchema.ofEntries [("a", "S"), ("a", "T:d=e")] []
    let t := ProjectSchema.ofEntries [("a", "T:d=e")] []
    (s.IsPlain ∧ t.IsPlain ∧ keyText s ["x:y.jar"] = keyText t ["x:y.jar"]) ∧ s = t := by
  intro s t
  have hs : s.IsPlain := ⟨by decide +kernel, by decide +kernel⟩
  have ht : t.IsPlain := ⟨by decide +kernel, by decide +kernel⟩
  have h : keyText s ["x:y.jar"] = keyText t ["x:y.jar"] := by
    unfold s t
    cbv
  exact ⟨⟨hs, ht, h⟩, (keyText_determines hs ht (by decide) (by decide) h).2.1⟩

/-- One text is the key of two inputs if a type goes on like another entry, or ends like the start of
one, if a name has an equals sign, or if a type or an entry of a class path has a line break. The
first of these is one of two registries as well. -/
theorem keyText_collisions :
    (let s := ProjectSchema.ofEntries [] [("a", "T:e:b=U")]
      let t := ProjectSchema.ofEntries [("b", "U")] [("a", "T")]
      keyText s [] = keyText t [] ∧ source s ≠ source t) ∧
    (let s := ProjectSchema.ofEntries [("a", "T:e"), ("b", "U")] []
      let t := ProjectSchema.ofEntries [("a", "T"), ("e:b", "U")] []
      keyText s [] = keyText t [] ∧ source s ≠ source t) ∧
    (let s := ProjectSchema.ofEntries [("a=b", "T")] []
      let t := ProjectSchema.ofEntries [("a", "b=T")] []
      keyText s [] = keyText t [] ∧ source s ≠ source t) ∧
    (let s := ProjectSchema.ofEntries [("a", "T\nx")] []
      let t := ProjectSchema.ofEntries [("a", "T")] []
      keyText s [] = keyText t ["x"] ∧ source s ≠ source t) ∧
    keyText .empty ["x\ny"] = keyText .empty ["x", "y"] := by
  refine ⟨⟨by cbv, ?_⟩, ⟨by cbv, ?_⟩, ⟨by cbv, ?_⟩, ⟨by cbv, ?_⟩, by cbv⟩
  all_goals
    rw [Ne, source_inj]
    decide +kernel

end Accessors

end DslBindings
