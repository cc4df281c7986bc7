import DslBindings.Build.DirectoryCache
import DslBindings.Proofs.Files.Joining
import DslBindings.Proofs.Text.Fresh

/-!
# Where directories of a cache are populated

The directory of a key and the directory that it is populated as lie side by side where the root of the
cache leads, under two names. The second name is the longer one, and that is what a rename needs: where
the system takes the path that is populated, it takes the path of the key.
-/

namespace DslBindings

namespace Digest

theorem length_hex (x count : Nat) : (hex x count).length = count := by
  induction count generalizing x with
  | zero => rfl
  | succ count ih => rw [hex, List.length_append, ih, List.length_singleton]

theorem exists_of_mem_hex {x count : Nat} {c : Char} (h : c ∈ hex x count) :
    ∃ n < 16, c = Nat.digitChar n := by
  induction count generalizing x with
  | zero => cases h
  | succ count ih =>
    rw [hex, List.mem_append, List.mem_singleton] at h
    rcases h with h | rfl
    · exact ih h
    · exact ⟨x % 16, Nat.mod_lt x (by decide), rfl⟩

theorem digitChar_cases : ∀ n < 16, Nat.digitChar n ≠ '/' ∧ Nat.digitChar n ≠ '\x00'
    ∧ (Nat.digitChar n).utf8Size = 1 := by decide

theorem slash_not_mem_hex (x count : Nat) : '/' ∉ hex x count := by
  intro h
  obtain ⟨n, hn, hc⟩ := exists_of_mem_hex h
  exact (digitChar_cases n hn).1 hc.symm

theorem nul_not_mem_hex (x count : Nat) : '\x00' ∉ hex x count := by
  intro h
  obtain ⟨n, hn, hc⟩ := exists_of_mem_hex h
  exact (digitChar_cases n hn).2.1 hc.symm

theorem utf8ByteSize_hex (x count : Nat) : (String.ofList (hex x count)).utf8ByteSize = count := by
  induction count generalizing x with
  | zero => rfl
  | succ count ih =>
    have hdigit := (digitChar_cases (x % 16) (Nat.mod_lt x (by decide))).2.2
    rw [hex, String.ofList_append, String.utf8ByteSize_append, ih]
    simp [hdigit]

end Digest

namespace CacheKey

variable {key : CacheKey}

theorem toList_directoryName (key : CacheKey) :
    ∃ digits : List Char, digits.length = 32 ∧ '/' ∉ digits
      ∧ key.directoryName.toList = key.label.toList ++ '-' :: digits := by
  set digest := Digest.ofBytes (Text.utf8 key.toText).toArray with hdigest
  refine ⟨Digest.hex digest.high.toNat 16 ++ Digest.hex digest.low.toNat 16, ?_, ?_, ?_⟩
  · rw [List.length_append, Digest.length_hex, Digest.length_hex]
  · rw [List.mem_append, not_or]
    exact ⟨Digest.slash_not_mem_hex _ _, Digest.slash_not_mem_hex _ _⟩
  · rw [directoryName, ← hdigest, Digest.Wide.toHex]
    simp

theorem slash_not_mem_directoryName (h : '/' ∉ key.label.toList) :
    '/' ∉ key.directoryName.toList := by
  obtain ⟨digits, -, hdigits, htext⟩ := toList_directoryName key
  rw [htext, List.mem_append, List.mem_cons, not_or, not_or]
  exact ⟨h, by decide, hdigits⟩

theorem utf8ByteSize_directoryName (key : CacheKey) :
    key.directoryName.utf8ByteSize = key.label.utf8ByteSize + 33 := by
  rw [directoryName, Digest.Wide.toHex, String.ofList_append]
  simp only [String.utf8ByteSize_append, Digest.utf8ByteSize_hex]
  exact Nat.add_assoc _ _ _

theorem nul_not_mem_directoryName (h : '\x00' ∉ key.label.toList) :
    '\x00' ∉ key.directoryName.toList := by
  have hdash : '\x00' ∉ "-".toList := by decide
  rw [directoryName, Digest.Wide.toHex]
  simp only [String.toList_append, String.toList_ofList, List.mem_append, not_or]
  exact ⟨⟨h, hdash⟩, Digest.nul_not_mem_hex _ _, Digest.nul_not_mem_hex _ _⟩

theorem isProperName_directoryName (key : CacheKey) : IsProperName key.directoryName := by
  obtain ⟨digits, hlength, -, htext⟩ := toList_directoryName key
  apply isProperName_of_length
  rw [← String.length_toList, htext, List.length_append, List.length_cons]
  omega

end CacheKey

namespace DirectoryCache

open DslBindings.Path FileSystem

variable {cache : DirectoryCache} {key : CacheKey} {fs fs' : FileSystem} {wd l : Location}

/-- The name that the directory of a key has while it is populated. -/
def stagingName (cache : DirectoryCache) (fs : FileSystem) (key : CacheKey) : String :=
  Text.freshName (namesAt fs cache.root) ("." ++ key.directoryName ++ "-" ++ cache.stagingLabel)

/-- Where the root of a cache leads. -/
def place (cache : DirectoryCache) (wd : Location) : Location := destination wd cache.root

theorem toList_stagingName (cache : DirectoryCache) (fs : FileSystem) (key : CacheKey) :
    ∃ k, (cache.stagingName fs key).toList
      = '.' :: key.directoryName.toList ++ '-' :: cache.stagingLabel.toList ++ List.replicate k '_' := by
  obtain ⟨k, hk⟩ := Text.toList_freshName (namesAt fs cache.root)
    ("." ++ key.directoryName ++ "-" ++ cache.stagingLabel)
  refine ⟨k, ?_⟩
  rw [stagingName, hk]
  simp

theorem length_directoryName_lt (cache : DirectoryCache) (fs : FileSystem) (key : CacheKey) :
    key.directoryName.length < (cache.stagingName fs key).length := by
  obtain ⟨k, hk⟩ := toList_stagingName cache fs key
  rw [← String.length_toList, ← String.length_toList, hk]
  simp only [List.length_append, List.length_cons]
  omega

theorem stagingName_ne (cache : DirectoryCache) (fs : FileSystem) (key : CacheKey) :
    cache.stagingName fs key ≠ key.directoryName := by
  intro h
  have hlt := length_directoryName_lt cache fs key
  rw [h] at hlt
  exact Nat.lt_irrefl _ hlt

theorem isProperName_stagingName (cache : DirectoryCache) (fs : FileSystem) (key : CacheKey) :
    IsProperName (cache.stagingName fs key) := by
  obtain ⟨digits, hlength, -, htext⟩ := CacheKey.toList_directoryName key
  have hlt := length_directoryName_lt cache fs key
  apply isProperName_of_length
  rw [← String.length_toList, htext, List.length_append, List.length_cons] at hlt
  omega

theorem slash_not_mem_stagingName (hkey : '/' ∉ key.label.toList)
    (hlabel : '/' ∉ cache.stagingLabel.toList) (fs : FileSystem) :
    '/' ∉ (cache.stagingName fs key).toList := by
  obtain ⟨k, hk⟩ := toList_stagingName cache fs key
  have hname := CacheKey.slash_not_mem_directoryName hkey
  rw [hk]
  simp [hname, hlabel]

theorem utf8ByteSize_directoryName_le (cache : DirectoryCache) (fs : FileSystem) (key : CacheKey) :
    key.directoryName.utf8ByteSize ≤ (cache.stagingName fs key).utf8ByteSize := by
  obtain ⟨k, hk⟩ := toList_stagingName cache fs key
  have hname : cache.stagingName fs key
      = "." ++ key.directoryName
        ++ String.ofList ('-' :: cache.stagingLabel.toList ++ List.replicate k '_') := by
    apply String.toList_injective
    rw [hk]
    simp
  rw [hname, String.utf8ByteSize_append, String.utf8ByteSize_append]
  omega

theorem textHoldsNul_directoryName (cache : DirectoryCache) (fs : FileSystem) {key : CacheKey}
    (h : textHoldsNul (cache.stagingName fs key) = false) :
    textHoldsNul key.directoryName = false := by
  obtain ⟨k, hk⟩ := toList_stagingName cache fs key
  rw [textHoldsNul, hk] at h
  rw [textHoldsNul]
  simp only [List.contains_eq_mem, decide_eq_false_iff_not] at h ⊢
  intro hmem
  exact h (List.mem_append_left _ (List.mem_append_left _ (List.mem_cons_of_mem _ hmem)))

theorem directory_eq (hkey : '/' ∉ key.label.toList) :
    cache.directory key = ⟨cache.root.stem ++ [key.directoryName]⟩ :=
  joinText_eq (CacheKey.slash_not_mem_directoryName hkey) _

theorem staging_eq (hkey : '/' ∉ key.label.toList) (hlabel : '/' ∉ cache.stagingLabel.toList)
    (fs : FileSystem) :
    cache.staging fs key = ⟨(fs.absolute cache.root).stem ++ [cache.stagingName fs key]⟩ :=
  joinText_eq (slash_not_mem_stagingName hkey hlabel fs) _

theorem destination_directory (hkey : '/' ∉ key.label.toList) (wd : Location) :
    destination wd (cache.directory key) = cache.place wd ++ [key.directoryName] := by
  rw [directory_eq hkey, destination_stem_append (CacheKey.isProperName_directoryName key)]
  rfl

theorem eq_of_locate_directory (hkey : '/' ∉ key.label.toList)
    (h : fs.locate (cache.directory key) = .ok l) :
    l = cache.place fs.workingDirectory ++ [key.directoryName] :=
  (eq_destination_of_locate h).trans (destination_directory hkey _)

theorem eq_of_locate_staging (hwd : ∀ name ∈ fs.workingDirectory, IsProperName name)
    (hkey : '/' ∉ key.label.toList) (hlabel : '/' ∉ cache.stagingLabel.toList)
    (hsame : fs'.workingDirectory = fs.workingDirectory)
    (h : fs'.locate (cache.staging fs key) = .ok l) :
    l = cache.place fs.workingDirectory ++ [cache.stagingName fs key] := by
  rw [staging_eq hkey hlabel] at h
  rw [eq_destination_of_locate h, destination_stem_append (isProperName_stagingName cache fs key),
    hsame, destination_absolute hwd]
  rfl

/-- The path of a key is no harder to follow than the path that its directory is populated under. -/
theorem locate_directory_of_locate_staging
    (hwd : ∀ name ∈ fs.workingDirectory, IsProperName name)
    (hkey : '/' ∉ key.label.toList) (hlabel : '/' ∉ cache.stagingLabel.toList)
    (hsame : fs'.workingDirectory = fs.workingDirectory)
    (h : fs'.locate (cache.staging fs key) = .ok l) :
    fs'.locate (cache.directory key)
      = .ok (cache.place fs.workingDirectory ++ [key.directoryName]) := by
  have hname := CacheKey.isProperName_directoryName key
  rw [staging_eq hkey hlabel] at h
  rw [directory_eq hkey]
  obtain ⟨front, hstem, hfront⟩ := stem_absolute hwd cache.root
  rw [hstem] at h
  obtain ⟨hnul, -, hlong, hfollow⟩ := locate_eq_ok.mp h
  have hstart : start fs'.workingDirectory ⟨front ++ cache.root.stem ++ [cache.stagingName fs key]⟩
      = start fs.workingDirectory (fs.absolute cache.root) := by
    rw [← hstem, hsame]
    exact start_stem_append (isProperName_stagingName cache fs key).ne_empty _ _
  rw [hstart, List.append_assoc] at hfollow
  obtain ⟨-, hfollow⟩ := follow_append_eq_ok.mp hfollow
  rw [hfront] at hfollow
  obtain ⟨hroot, hlast⟩ := follow_append_eq_ok.mp hfollow
  obtain ⟨hdir, hsize, -⟩ := follow_singleton_eq_ok.mp hlast
  have hsize' := utf8ByteSize_directoryName_le cache fs key
  refine locate_eq_ok.mpr ⟨?_, ?_, ?_, ?_⟩
  · simp only [holdsNul, List.any_append, Bool.or_eq_false_iff] at hnul ⊢
    refine ⟨hnul.1.2, ?_⟩
    have hlast' : textHoldsNul key.directoryName = false :=
      textHoldsNul_directoryName cache fs (by simpa using hnul.2)
    simpa using hlast'
  · simp [Path.isEmpty, hname.ne_empty]
  · exact Nat.le_trans (utf8ByteSize_text_le hsize' front cache.root.stem) hlong
  · rw [start_stem_append hname.ne_empty, hsame]
    refine follow_append_eq_ok.mpr ⟨hroot, follow_singleton_eq_ok.mpr ⟨hdir, ?_, ?_⟩⟩
    · exact Nat.le_trans hsize' hsize
    · rw [step_of_isProperName hname, lead_stem]
      rfl

/-! ### What is on the way -/

theorem passes_directory (hkey : '/' ∉ key.label.toList) (hout : IsReachedFromOutside wd cache.root)
    (hl : Passes wd (cache.directory key) l) :
    l = cache.place wd ++ [key.directoryName] ∨ ¬ IsBelow (cache.place wd) l := by
  rw [directory_eq hkey] at hl
  exact (passes_stem_append (CacheKey.isProperName_directoryName key) hl).imp_right (hout l)

theorem passes_staging (hwd : ∀ name ∈ fs.workingDirectory, IsProperName name)
    (hkey : '/' ∉ key.label.toList) (hlabel : '/' ∉ cache.stagingLabel.toList)
    (hout : IsReachedFromOutside fs.workingDirectory cache.root)
    (hl : Passes fs.workingDirectory (cache.staging fs key) l) :
    l = cache.place fs.workingDirectory ++ [cache.stagingName fs key]
      ∨ ¬ IsBelow (cache.place fs.workingDirectory) l := by
  rw [staging_eq hkey hlabel] at hl
  rcases passes_stem_append (isProperName_stagingName cache fs key) hl with hl | hl
  · left
    rw [hl, destination_absolute hwd]
    rfl
  · right
    rcases passes_absolute hwd hl with hl | hl
    · intro hbelow
      have hstart : Passes fs.workingDirectory cache.root (start fs.workingDirectory cache.root) :=
        ⟨[], List.nil_prefix, rfl⟩
      exact hout _ hstart (hbelow.of_prefix hl)
    · exact hout l hl

end DirectoryCache

end DslBindings
