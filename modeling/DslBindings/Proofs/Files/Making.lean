import DslBindings.Proofs.Files.Writing

/-!
# Making what is below a directory

From a directory below which there is nothing, every way of names that entries can have is free. The
directories on it can be made, as long as the path is not too long, and then the way leads through them.
-/

namespace DslBindings

open Path

/-- A name that an entry of a file system can have. -/
def IsEntryName (name : String) : Prop :=
  IsProperName name ∧ '/' ∉ name.toList ∧ textHoldsNul name = false
    ∧ name.utf8ByteSize ≤ FileSystem.nameLimit

instance (name : String) : Decidable (IsEntryName name) := instDecidableAnd

theorem IsEntryName.isIdle {name : String} (h : IsEntryName name) : Path.isIdle name = false :=
  Bool.eq_false_iff.mpr h.1.1

namespace Path

variable {p : Path} {a b : String}

/-! ### Paths and their texts -/

theorem not_mem_of_mem_splitOn {mark : Char} {text piece : List Char} (h : piece ∈ text.splitOn mark) :
    mark ∉ piece := by
  induction text generalizing piece with
  | nil =>
    rw [List.splitOn_nil, List.mem_singleton] at h
    rw [h]
    exact List.not_mem_nil
  | cons c text ih =>
    obtain ⟨first, others, hpieces⟩ := List.exists_cons_of_ne_nil (List.splitOn_ne_nil mark text)
    rw [List.splitOn_cons_eq_if_modifyHead, hpieces] at h
    rw [hpieces] at ih
    split at h
    · rcases List.mem_cons.mp h with rfl | h
      · exact List.not_mem_nil
      · exact ih h
    · next hc =>
      rcases List.mem_cons.mp h with rfl | h
      · rintro (_ | ⟨_, hmem⟩)
        · exact hc (beq_self_eq_true mark)
        · exact ih List.mem_cons_self hmem
      · exact ih (List.mem_cons_of_mem first h)

theorem slash_not_mem_ofText (text : String) : ∀ s ∈ (ofText text).segments, '/' ∉ s.toList := by
  intro s hs
  obtain ⟨piece, hpiece, rfl⟩ := List.mem_map.mp hs
  rw [String.toList_ofList]
  exact not_mem_of_mem_splitOn hpiece

/-- A path without a slash in a segment is the one that its text is. -/
theorem ofText_text (hne : p.segments ≠ []) (h : ∀ s ∈ p.segments, '/' ∉ s.toList) :
    ofText p.text = p := by
  have hsplit : p.text.toList.splitOn '/' = p.segments.map String.toList := by
    rw [text, String.toList_intercalate]
    apply List.splitOn_intercalate
    · simpa using h
    · simpa using hne
  rw [ofText, hsplit]
  simp

theorem textHoldsNul_append (a b : String) :
    textHoldsNul (a ++ b) = (textHoldsNul a || textHoldsNul b) := by
  simp [textHoldsNul]

theorem textHoldsNul_intercalate {mark : String} {texts : List String}
    (hmark : textHoldsNul mark = false) (h : ∀ text ∈ texts, textHoldsNul text = false) :
    textHoldsNul (mark.intercalate texts) = false := by
  induction texts with
  | nil => rfl
  | cons text texts ih =>
    have htext := h text List.mem_cons_self
    cases texts with
    | nil => rwa [String.intercalate_singleton]
    | cons t ts =>
      rw [String.intercalate_cons_cons, textHoldsNul_append, textHoldsNul_append, htext, hmark,
        ih fun u hu => h u (List.mem_cons_of_mem text hu)]
      rfl

theorem textHoldsNul_text (h : p.holdsNul = false) : textHoldsNul p.text = false :=
  textHoldsNul_intercalate rfl (by simpa [holdsNul] using h)

/-! ### Paths that go on -/

theorem isAbsolute_append (h : p.isEmpty = false) (more : List String) :
    isAbsolute ⟨p.segments ++ more⟩ = p.isAbsolute := by
  obtain ⟨segments⟩ := p
  match segments with
  | [] => cases h
  | [s] =>
    have hs : s ≠ "" := by
      rintro rfl
      cases h
    cases more <;> simp [isAbsolute, hs]
  | s :: t :: rest => simp

theorem isEmpty_append (h : p.isEmpty = false) (more : List String) :
    isEmpty ⟨p.segments ++ more⟩ = false := by
  obtain ⟨segments⟩ := p
  match segments with
  | [] => cases h
  | [s] =>
    have hs : s ≠ "" := by
      rintro rfl
      cases h
    simp [isEmpty, hs]
  | s :: t :: rest => simp [isEmpty]

theorem ne_empty_of_isIdle (h : isIdle a = false) : a ≠ "" := by
  rintro rfl
  cases h

theorem isEmpty_concat (h : a ≠ "") (front : List String) : isEmpty ⟨front ++ [a]⟩ = false := by
  simp [isEmpty, h]

theorem utf8ByteSize_text_append {front more : List String} (h : front ≠ []) (h' : more ≠ []) :
    (text ⟨front ++ more⟩).utf8ByteSize
      = (text ⟨front⟩).utf8ByteSize + 1 + (text ⟨more⟩).utf8ByteSize := by
  rw [text, text, text, String.intercalate_append_of_ne_nil h h', String.utf8ByteSize_append,
    String.utf8ByteSize_append]
  rfl

theorem utf8ByteSize_text_concat (front : List String) (name : String) :
    (text ⟨front ++ [name]⟩).utf8ByteSize
      = (text ⟨front ++ [""]⟩).utf8ByteSize + name.utf8ByteSize := by
  by_cases h : front = []
  · simp [h, text]
  · rw [utf8ByteSize_text_append h (List.cons_ne_nil _ _),
      utf8ByteSize_text_append h (List.cons_ne_nil _ _)]
    simp [text]

theorem utf8ByteSize_text_append_le {front : List String} (h : front ≠ []) (more : List String) :
    (text ⟨front⟩).utf8ByteSize ≤ (text ⟨front ++ more⟩).utf8ByteSize := by
  by_cases h' : more = []
  · rw [h', List.append_nil]
  · rw [utf8ByteSize_text_append h h']
    omega

theorem segments_ne_nil_of_isEmpty (h : p.isEmpty = false) : p.segments ≠ [] := by
  intro hnil
  rw [isEmpty, hnil] at h
  cases h

theorem utf8ByteSize_text_le_concat (h : p.isEmpty = false) (names : List String) (name : String) :
    (text ⟨p.segments ++ names⟩).utf8ByteSize
      ≤ (text ⟨p.segments ++ (names ++ [name])⟩).utf8ByteSize := by
  rw [← List.append_assoc]
  exact utf8ByteSize_text_append_le (List.append_ne_nil_of_left_ne_nil (segments_ne_nil_of_isEmpty h) _) _

theorem trimEnd_of_getLast? {segments : List String} (h : isIdle a = false)
    (hlast : segments.getLast? = some a) : trimEnd segments = segments := by
  obtain ⟨front, rfl⟩ := List.getLast?_eq_some_iff.mp hlast
  simp [trimEnd, h]

/-- The names of a path that ends with one are its segments but the one before a first slash. -/
theorem names_of_getLast? (h : isIdle a = false) (hlast : p.segments.getLast? = some a) :
    p.names = if p.isAbsolute then p.segments.tail else p.segments := by
  have hrest {s : String} {rest : List String} (hs : isIdle s = true)
      (hp : p.segments = s :: rest) : rest.getLast? = some a := by
    rw [hp, List.getLast?_cons] at hlast
    cases hrest : rest.getLast? with
    | none =>
      rw [hrest] at hlast
      rw [← Option.some.inj hlast] at h
      exact absurd hs (Bool.eq_false_iff.mp h)
    | some t =>
      rw [hrest] at hlast
      exact hlast
  rw [names]
  split
  · next rest hp =>
    have hlast' := hrest rfl hp
    obtain ⟨s, ss, rfl⟩ := List.exists_cons_of_ne_nil (List.ne_nil_of_mem (List.mem_of_getLast? hlast'))
    rw [if_pos (isAbsolute_iff.mpr ⟨s, ss, hp⟩), hp, trimEnd_of_getLast? h hlast', List.tail_cons]
  · next rest hp =>
    have hroot : ¬ p.isAbsolute = true := by
      rw [isAbsolute_iff, hp]
      simp
    rw [if_neg hroot, hp, trimEnd_of_getLast? h (hrest rfl hp)]
  · next hp _ =>
    have hroot : ¬ p.isAbsolute = true := by
      rw [isAbsolute_iff]
      rintro ⟨s, ss, hsegments⟩
      exact hp _ hsegments
    rw [if_neg hroot, trimEnd_of_getLast? h hlast]

theorem parent?_concat (ha : isIdle a = false) (hlast : p.segments.getLast? = some a)
    (hb : isIdle b = false) : parent? ⟨p.segments ++ [b]⟩ = some p := by
  obtain ⟨front, hsegments⟩ := List.getLast?_eq_some_iff.mp hlast
  have hempty : p.isEmpty = false := by
    have hconcat := isEmpty_concat (ne_empty_of_isIdle ha) front
    rwa [← hsegments] at hconcat
  have hnames := names_of_getLast? ha hlast
  have hnames' : names ⟨p.segments ++ [b]⟩ = p.names ++ [b] := by
    rw [names_of_getLast? hb List.getLast?_concat, hnames, isAbsolute_append hempty]
    split
    · exact List.tail_append_of_ne_nil (by simp [hsegments])
    · rfl
  have hself : ofNames p.isAbsolute p.names = p := by
    rw [hnames]
    cases hroot : p.isAbsolute with
    | false =>
      rw [if_neg Bool.false_ne_true, hsegments, ofNames]
      · rw [← hsegments]
      · simp
    | true =>
      obtain ⟨s, ss, hsegments⟩ := isAbsolute_iff.mp hroot
      rw [if_pos rfl, hsegments, List.tail_cons, ofNames, ← hsegments]
      exact List.cons_ne_nil s ss
  rw [parent?, hnames', if_neg (List.concat_ne_nil b _), List.dropLast_concat,
    isAbsolute_append hempty, hself, hself]

end Path

namespace FileSystem

variable {fs : FileSystem} {here l : Location} {p : Path} {names : List String}

theorem follow_append (fs : FileSystem) (here : Location) (a b : List String) :
    fs.follow here (a ++ b) = (fs.follow here a).bind fun l => fs.follow l b := by
  induction a generalizing here with
  | nil => rfl
  | cons s a ih =>
    rw [List.cons_append, follow, follow]
    split
    · rfl
    · rfl
    · split
      · rfl
      · exact ih _

/-- Where a path leads that goes on behind another one. -/
theorem locate_append (h : fs.locate p = .ok here)
    (hnul : ∀ name ∈ names, textHoldsNul name = false)
    (hlong : (Path.text ⟨p.segments ++ names⟩).utf8ByteSize ≤ pathLimit) :
    fs.locate ⟨p.segments ++ names⟩ = fs.follow here names := by
  obtain ⟨hp, hempty, -, hfollow⟩ := locate_eq_ok.mp h
  have hholds : holdsNul ⟨p.segments ++ names⟩ = false := by
    rw [holdsNul] at hp ⊢
    rw [List.any_append, hp, Bool.false_or]
    simpa using hnul
  rw [locate, hholds, isEmpty_append hempty, isAbsolute_append hempty]
  simp only [Bool.false_eq_true, if_false, if_neg (Nat.not_lt_of_le hlong)]
  rw [follow_append]
  change ((fs.follow (start fs.workingDirectory p) p.segments).bind _) = _
  rw [hfollow]
  rfl

/-- Names lead where they say through directories. -/
theorem follow_of_directories (hnames : ∀ name ∈ names, IsEntryName name)
    (hdirs : ∀ front, front <+: names → front ≠ names → fs.at? (here ++ front) = some .directory) :
    fs.follow here names = .ok (here ++ names) := by
  induction names generalizing here with
  | nil => rw [follow, List.append_nil]
  | cons name names ih =>
    have hname := hnames name List.mem_cons_self
    have hhere : fs.at? here = some .directory := by
      have := hdirs [] List.nil_prefix (List.cons_ne_nil name names).symm
      rwa [List.append_nil] at this
    have hrest : fs.follow (here ++ [name]) names = .ok (here ++ [name] ++ names) := by
      refine ih (fun n hn => hnames n (List.mem_cons_of_mem name hn)) fun front hfront hne => ?_
      rw [List.append_assoc]
      exact hdirs (name :: front) ((List.prefix_cons_inj name).mpr hfront)
        fun h => hne (List.cons.inj h).2
    refine follow_cons_eq_ok.mpr ⟨hhere, hname.2.2.2, ?_⟩
    rw [step_of_isProperName hname.1, hrest, List.append_assoc]
    rfl

/-- Names lead nowhere if the first one does not and is not the last. -/
theorem follow_of_isNone {name : String} (hhere : fs.at? here = some .directory)
    (hname : IsEntryName name) (hnone : fs.at? (here ++ [name]) = none) (hmore : names ≠ []) :
    fs.follow here (name :: names) = .error .notFound := by
  obtain ⟨other, others, rfl⟩ := List.exists_cons_of_ne_nil hmore
  rw [follow, hhere]
  simp only
  rw [if_neg (Nat.not_lt_of_le hname.2.2.2), step_of_isProperName hname.1, follow, hnone]

theorem isBelow_append (h : names ≠ []) : IsBelow here (here ++ names) := by
  obtain ⟨name, rest, rfl⟩ := List.exists_cons_of_ne_nil h
  exact ⟨name, rest, rfl⟩

/-- A location is on the way from another one along some names. -/
def IsOnWay (here : Location) (names : List String) (l : Location) : Prop :=
  here <+: l ∧ l <+: here ++ names

instance (here : Location) (names : List String) (l : Location) : Decidable (IsOnWay here names l) :=
  instDecidableAnd

theorem isOnWay_nil : IsOnWay here [] l ↔ l = here := by
  rw [IsOnWay, List.append_nil]
  constructor
  · rintro ⟨h, h'⟩
    exact h'.eq_of_length_le h.length_le
  · rintro rfl
    exact ⟨List.prefix_refl _, List.prefix_refl _⟩

theorem isOnWay_concat {name : String} :
    IsOnWay here (names ++ [name]) l ↔ l = here ++ (names ++ [name]) ∨ IsOnWay here names l := by
  rw [IsOnWay, IsOnWay, ← List.append_assoc, List.prefix_concat_iff]
  constructor
  · rintro ⟨h, h' | h'⟩
    · exact .inl h'
    · exact .inr ⟨h, h'⟩
  · rintro (rfl | ⟨h, h'⟩)
    · rw [List.append_assoc]
      exact ⟨List.prefix_append _ _, .inl rfl⟩
    · exact ⟨h, .inr h'⟩

theorem not_isOnWay_concat {name : String} : ¬ IsOnWay here names (here ++ (names ++ [name])) := by
  rintro ⟨-, h⟩
  have hlength := ((List.prefix_append_right_inj here).mp h).length_le
  simp only [List.length_append, List.length_singleton] at hlength
  omega

/-- All that is new is the directories on a way. -/
structure HasWay (fs : FileSystem) (here : Location) (names : List String) (fs' : FileSystem) : Prop where
  workingDirectory : fs'.workingDirectory = fs.workingDirectory
  at? (l : Location) : fs'.at? l = if IsOnWay here names l then some .directory else fs.at? l

namespace HasWay

variable {fs' : FileSystem} {name : String}

theorem nil (hdir : fs.at? here = some .directory) : fs.HasWay here [] fs := by
  refine ⟨rfl, fun l => ?_⟩
  split
  · next h => rw [isOnWay_nil.mp h, hdir]
  · rfl

theorem locate (h : fs.HasWay here names fs') (hp : fs.locate p = .ok l) : fs'.locate p = .ok l := by
  refine locate_mono h.workingDirectory (fun m _ hm => ?_) hp
  rw [h.at?, hm, ite_self]

/-- The way goes on by one name. -/
theorem follow_concat (h : fs.HasWay here names fs') (hnames : ∀ n ∈ names ++ [name], IsEntryName n) :
    fs'.follow here (names ++ [name]) = .ok (here ++ (names ++ [name])) := by
  refine follow_of_directories hnames fun front hfront hne => ?_
  have hfront' : front <+: names := (List.prefix_concat_iff.mp hfront).resolve_left hne
  rw [h.at?, if_pos ⟨List.prefix_append here front, (List.prefix_append_right_inj here).mpr hfront'⟩]

theorem at?_concat (h : fs.HasWay here names fs') (hempty : ∀ l, IsBelow here l → fs.at? l = none) :
    fs'.at? (here ++ (names ++ [name])) = none := by
  rw [h.at?, if_neg not_isOnWay_concat]
  exact hempty _ (isBelow_append (List.concat_ne_nil name names))

theorem concat (h : fs.HasWay here names fs') :
    fs.HasWay here (names ++ [name]) (fs'.put (here ++ (names ++ [name])) .directory) := by
  refine ⟨h.workingDirectory, fun l => ?_⟩
  rw [at?_put (by simp), h.at?]
  by_cases hl : l = here ++ (names ++ [name])
  · rw [if_pos hl, if_pos (isOnWay_concat.mpr (.inl hl))]
  · rw [if_neg hl]
    simp only [isOnWay_concat, hl, false_or]

end HasWay

/-! ### Making directories -/

theorem exists_locate_withoutTrailingSlashes (h : fs.locate p = .ok l) :
    ∃ m, fs.locate p.withoutTrailingSlashes = .ok m ∧ (fs.at? m = some .directory ∨ m = l) := by
  rcases withoutTrailingSlashes_cases p with hp | ⟨front, s, more, hs, hp, hsegments⟩
  · rw [hp]
    exact ⟨l, h, .inr rfl⟩
  obtain ⟨hnul, -, hlong, hfollow⟩ := locate_eq_ok.mp h
  have hpath : p = ⟨front ++ [s] ++ more⟩ := by rw [← hsegments]
  have hstart : start fs.workingDirectory ⟨front ++ [s]⟩ = start fs.workingDirectory p := by
    rw [start, start, ← hp, isAbsolute_withoutTrailingSlashes]
  have hlocate : fs.locate ⟨front ++ [s]⟩
      = .ok (lead (start fs.workingDirectory p) (front ++ [s])) := by
    refine locate_eq_ok.mpr ⟨?_, isEmpty_concat hs front, ?_, ?_⟩
    · rw [holdsNul, hsegments, List.any_append, Bool.or_eq_false_iff] at hnul
      exact hnul.1
    · rw [hpath] at hlong
      exact Nat.le_trans (utf8ByteSize_text_append_le (by simp) more) hlong
    · rw [hsegments] at hfollow
      rw [hstart]
      exact (follow_append_eq_ok.mp hfollow).1
  refine ⟨_, hp ▸ hlocate, isDirectory_or_eq_of_passes h ⟨front ++ [s], ?_, rfl⟩⟩
  rw [hsegments]
  exact List.prefix_append _ _

theorem createDirectory_of_at? (h : fs.locate p.withoutTrailingSlashes = .ok l) (hnone : fs.at? l = none) :
    fs.createDirectory p = .ok (fs.put l .directory) :=
  createDirectory_eq_ok.mpr ⟨l, h, hnone, rfl⟩

theorem createDirectory_of_isSome {entry : FileEntry} (h : fs.locate p.withoutTrailingSlashes = .ok l)
    (hsome : fs.at? l = some entry) : fs.createDirectory p = .error .alreadyExists := by
  rw [createDirectory, h]
  simp only [bind, Except.bind, hsome]
  rfl

theorem createDirectory_of_locate_error {e : IoError} (h : fs.locate p.withoutTrailingSlashes = .error e) :
    fs.createDirectory p = .error e := by
  rw [createDirectory, h]
  rfl

end FileSystem

namespace Work

open FileSystem

variable {w : Workspace} {fs : FileSystem} {p q : Path}

theorem runAt_unlessDirectory_of_isDirectory (h : w.files.isDirectory p = true) (e : IoError) :
    (unlessDirectory p e).runAt w = (.ok (), w) := by
  rw [unlessDirectory, runAt_files_bind, h]
  rfl

theorem runAt_ensureDirectory_of_createDirectory (h : w.files.createDirectory p = .ok fs) :
    (ensureDirectory p).runAt w = (.ok (), { w with files := fs }) := by
  rw [ensureDirectory, runAt_files_bind, h]
  rfl

theorem runAt_createDirectories_of_createDirectory (hempty : p.isEmpty = false)
    (h : w.files.createDirectory p = .ok fs) :
    (createDirectories p).runAt w = (.ok (), { w with files := fs }) := by
  rw [createDirectories, hempty, if_neg Bool.false_ne_true, runAt_files_bind, h]
  rfl

theorem runAt_createDirectories_of_notFound (hempty : p.isEmpty = false) (hparent : p.parent? = some q)
    (h : w.files.createDirectory p = .error .notFound) :
    (createDirectories p).runAt w = (createDirectories q >>= fun _ => ensureDirectory p).runAt w := by
  rw [createDirectories, hempty, if_neg Bool.false_ne_true, runAt_files_bind, h]
  dsimp only
  split
  · next q' hparent' =>
    rw [hparent] at hparent'
    rw [Option.some.inj hparent']
  · next hparent' =>
    rw [hparent] at hparent'
    cases hparent'

/-- A directory that is there need not be made. -/
theorem runAt_createDirectories_of_isDirectory (h : w.files.isDirectory p = true) :
    (createDirectories p).runAt w = (.ok (), w) := by
  obtain ⟨l, hlocate, hdir⟩ := isDirectory_eq_true.mp h
  obtain ⟨m, hlocate', hm⟩ := exists_locate_withoutTrailingSlashes hlocate
  have hthere : w.files.at? m = some .directory := hm.elim id fun hm => hm ▸ hdir
  have hmade := createDirectory_of_isSome hlocate' hthere
  rw [createDirectories, (locate_eq_ok.mp hlocate).2.1, if_neg Bool.false_ne_true, runAt_files_bind,
    hmade]
  exact runAt_unlessDirectory_of_isDirectory h .alreadyExists

section Below

variable {here : Location} {names : List String} {name : String}

theorem locate_concat (hlocate : fs.locate p = .ok here) (hnames : ∀ n ∈ names ++ [name], IsEntryName n)
    (hlong : (Path.text ⟨p.segments ++ (names ++ [name])⟩).utf8ByteSize ≤ pathLimit) :
    fs.locate (withoutTrailingSlashes ⟨p.segments ++ (names ++ [name])⟩)
      = fs.follow here (names ++ [name]) := by
  have hname := hnames name (List.mem_append_right names List.mem_cons_self)
  rw [← List.append_assoc, withoutTrailingSlashes_concat hname.1.ne_empty, List.append_assoc]
  exact locate_append hlocate (fun n hn => (hnames n hn).2.2.1) hlong

/-- The last directory of a way is made first, and those above it only if that fails. -/
theorem exists_runAt_createDirectories_concat (hlocate : w.files.locate p = .ok here)
    (hdir : w.files.at? here = some .directory) (hempty : ∀ l, IsBelow here l → w.files.at? l = none)
    (hnames : ∀ n ∈ names ++ [name], IsEntryName n)
    (hlong : (Path.text ⟨p.segments ++ (names ++ [name])⟩).utf8ByteSize ≤ pathLimit)
    (hmade : (createDirectories ⟨p.segments ++ names⟩).runAt w = (.ok (), { w with files := fs }))
    (hway : w.files.HasWay here names fs) :
    ∃ fs', (createDirectories ⟨p.segments ++ (names ++ [name])⟩).runAt w
        = (.ok (), { w with files := fs' })
      ∧ w.files.HasWay here (names ++ [name]) fs' := by
  have hisEmpty : isEmpty ⟨p.segments ++ (names ++ [name])⟩ = false :=
    isEmpty_append (locate_eq_ok.mp hlocate).2.1 _
  have hlast : fs.createDirectory ⟨p.segments ++ (names ++ [name])⟩
      = .ok (fs.put (here ++ (names ++ [name])) .directory) :=
    createDirectory_of_at? ((locate_concat (hway.locate hlocate) hnames hlong).trans
      (hway.follow_concat hnames)) (hway.at?_concat hempty)
  refine ⟨_, ?_, hway.concat⟩
  cases names with
  | nil =>
    have hthere : (createDirectories ⟨p.segments ++ []⟩).runAt w = (.ok (), w) := by
      rw [List.append_nil]
      exact runAt_createDirectories_of_isDirectory (isDirectory_eq_true.mpr ⟨here, hlocate, hdir⟩)
    obtain rfl : w.files = fs := congrArg (fun end' => end'.2.files) (hthere.symm.trans hmade)
    exact runAt_createDirectories_of_createDirectory hisEmpty hlast
  | cons first rest =>
    obtain ⟨last, hlastName⟩ : ∃ last, (first :: rest).getLast? = some last :=
      ⟨_, List.getLast?_eq_some_getLast (List.cons_ne_nil first rest)⟩
    have hidle : Path.isIdle last = false :=
      (hnames last (List.mem_append_left _ (List.mem_of_getLast? hlastName))).isIdle
    have hparent : parent? ⟨p.segments ++ (first :: rest ++ [name])⟩
        = some ⟨p.segments ++ (first :: rest)⟩ := by
      rw [← List.append_assoc]
      refine parent?_concat (p := ⟨p.segments ++ (first :: rest)⟩) hidle ?_ (hnames name (by simp)).isIdle
      rw [List.getLast?_append, hlastName]
      rfl
    have hmissing : w.files.createDirectory ⟨p.segments ++ (first :: rest ++ [name])⟩
        = .error .notFound := by
      refine createDirectory_of_locate_error ((locate_concat hlocate hnames hlong).trans ?_)
      exact follow_of_isNone hdir (hnames first (by simp)) (hempty _ ⟨first, [], rfl⟩)
        (List.concat_ne_nil name rest)
    rw [runAt_createDirectories_of_notFound hisEmpty hparent hmissing, runAt_bind_ok hmade]
    exact runAt_ensureDirectory_of_createDirectory (w := { w with files := fs }) hlast

/-- From a directory below which there is nothing, all directories on a way can be made. -/
theorem exists_runAt_createDirectories_below (hlocate : w.files.locate p = .ok here)
    (hdir : w.files.at? here = some .directory) (hempty : ∀ l, IsBelow here l → w.files.at? l = none)
    (hnames : ∀ n ∈ names, IsEntryName n)
    (hlong : (Path.text ⟨p.segments ++ names⟩).utf8ByteSize ≤ pathLimit) :
    ∃ fs, (createDirectories ⟨p.segments ++ names⟩).runAt w = (.ok (), { w with files := fs })
      ∧ w.files.HasWay here names fs := by
  induction names using List.reverseRecOn with
  | nil =>
    refine ⟨w.files, ?_, .nil hdir⟩
    rw [List.append_nil]
    exact runAt_createDirectories_of_isDirectory (isDirectory_eq_true.mpr ⟨here, hlocate, hdir⟩)
  | append_singleton more name ih =>
    have hlong' : (Path.text ⟨p.segments ++ more⟩).utf8ByteSize ≤ pathLimit :=
      Nat.le_trans (utf8ByteSize_text_le_concat (locate_eq_ok.mp hlocate).2.1 more name) hlong
    obtain ⟨fs, hmade, hway⟩ := ih (fun n hn => hnames n (List.mem_append_left _ hn)) hlong'
    exact exists_runAt_createDirectories_concat hlocate hdir hempty hnames hlong hmade hway

/-- A file can be written at the end of a way whose directories are made first. -/
theorem exists_write_below (hlocate : w.files.locate p = .ok here)
    (hdir : w.files.at? here = some .directory) (hempty : ∀ l, IsBelow here l → w.files.at? l = none)
    (hnames : ∀ n ∈ names ++ [name], IsEntryName n)
    (hlong : (Path.text ⟨p.segments ++ (names ++ [name])⟩).utf8ByteSize ≤ pathLimit)
    (content : List UInt8) :
    ∃ made fs, (createDirectories ⟨p.segments ++ names⟩).runAt w = (.ok (), { w with files := made })
      ∧ made.write ⟨p.segments ++ (names ++ [name])⟩ content = .ok fs
      ∧ fs.workingDirectory = w.files.workingDirectory
      ∧ ∀ l, fs.at? l = if l = here ++ (names ++ [name]) then some (.file content)
          else if IsOnWay here names l then some .directory else w.files.at? l := by
  have hlong' : (Path.text ⟨p.segments ++ names⟩).utf8ByteSize ≤ pathLimit :=
    Nat.le_trans (utf8ByteSize_text_le_concat (locate_eq_ok.mp hlocate).2.1 names name) hlong
  obtain ⟨made, hmade, hway⟩ := exists_runAt_createDirectories_below hlocate hdir hempty
    (fun n hn => hnames n (List.mem_append_left _ hn)) hlong'
  have hfile : made.locate ⟨p.segments ++ (names ++ [name])⟩ = .ok (here ++ (names ++ [name])) := by
    rw [locate_append (hway.locate hlocate) (fun n hn => (hnames n hn).2.2.1) hlong]
    exact hway.follow_concat hnames
  have hidle : endsIdle ⟨p.segments ++ (names ++ [name])⟩ = false := by
    rw [endsIdle, ← List.append_assoc, List.getLast?_concat]
    exact (hnames name (by simp)).isIdle
  refine ⟨made, made.put (here ++ (names ++ [name])) (.file content), hmade, ?_, hway.workingDirectory,
    fun l => ?_⟩
  · refine write_eq_ok.mpr ⟨_, hfile, hidle, ?_, rfl⟩
    rw [hway.at?_concat hempty]
    simp
  · rw [at?_put (by simp), hway.at?]

end Below

end Work

end DslBindings
