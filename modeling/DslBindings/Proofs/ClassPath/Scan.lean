import Mathlib.Data.List.Sort
import Mathlib.Data.String.Basic
import DslBindings.Command.Run
import DslBindings.Proofs.Build.Running
import DslBindings.Proofs.ClassFile.ErasedNames

/-!
# What a scan gives

Sorting is stable and a repetition gives way to the class in front of it, so of each name a scan gives
the first class on the class path (`mem_sorted_iff`), in the order of the names. That determines the
result: two class paths on which the first class of each name is the same give the same classes.
-/

namespace DslBindings

open Signature (bind_eq_ok_iff)

namespace ClassDescriptor

variable {classes others : List ClassDescriptor} {c : ClassDescriptor}

/-- The first of some classes that has a name. -/
def first? (classes : List ClassDescriptor) (name : String) : Option ClassDescriptor :=
  classes.find? (·.name = name)

theorem le_name_trans (a b c : ClassDescriptor) (hab : decide (a.name ≤ b.name) = true)
    (hbc : decide (b.name ≤ c.name) = true) : decide (a.name ≤ c.name) = true := by
  simp only [decide_eq_true_eq] at hab hbc ⊢
  exact hab.trans hbc

theorem le_name_total (a b : ClassDescriptor) :
    (decide (a.name ≤ b.name) || decide (b.name ≤ a.name)) = true := by
  simpa using le_total a.name b.name

theorem pairwise_mergeSort_name (classes : List ClassDescriptor) :
    (classes.mergeSort fun a b => a.name ≤ b.name).Pairwise fun a b => a.name ≤ b.name := by
  simpa using List.pairwise_mergeSort le_name_trans le_name_total classes

/-- Sorting leaves the classes of one name in their order. -/
theorem first?_mergeSort (classes : List ClassDescriptor) (name : String) :
    first? (classes.mergeSort fun a b => a.name ≤ b.name) name = first? classes name := by
  set named : ClassDescriptor → Bool := fun c => c.name = name with hnamed
  have hsame : (classes.filter named).Pairwise fun a b => decide (a.name ≤ b.name) = true := by
    refine List.pairwise_of_forall_mem_list fun a ha b hb => ?_
    have ha : a.name = name := by simpa [hnamed] using (List.mem_filter.mp ha).2
    have hb : b.name = name := by simpa [hnamed] using (List.mem_filter.mp hb).2
    simp [ha, hb]
  have hsublist : (classes.filter named).Sublist
      ((classes.mergeSort fun a b => a.name ≤ b.name).filter named) := by
    simpa using
      (List.sublist_mergeSort le_name_trans le_name_total hsame List.filter_sublist).filter named
  have hlength := ((List.mergeSort_perm classes fun a b => a.name ≤ b.name).filter named).length_eq
  rw [first?, first?, ← List.head?_filter, ← List.head?_filter]
  exact congrArg List.head? (hsublist.eq_of_length hlength.symm).symm

theorem mem_of_mem_withoutRepetitions (h : c ∈ withoutRepetitions classes) : c ∈ classes := by
  induction classes with
  | nil => exact h
  | cons d ds ih =>
    rcases List.mem_cons.mp h with rfl | h
    · exact List.mem_cons_self
    · exact List.mem_cons_of_mem _ (ih ((List.dropWhile_sublist _).subset h))

theorem pairwise_withoutRepetitions (h : classes.Pairwise fun a b => a.name ≤ b.name) :
    (withoutRepetitions classes).Pairwise fun a b => a.name < b.name := by
  induction classes with
  | nil => exact .nil
  | cons c cs ih =>
    obtain ⟨hc, hcs⟩ := List.pairwise_cons.mp h
    have htail := (ih hcs).sublist
      (List.dropWhile_sublist fun d : ClassDescriptor => decide (d.name = c.name))
    refine List.pairwise_cons.mpr ⟨?_, htail⟩
    -- The first class that is kept has another name, and the others have greater ones than that.
    cases hkept : (withoutRepetitions cs).dropWhile (·.name = c.name) with
    | nil => simp
    | cons d ds =>
      have hd : d.name ≠ c.name := by
        have := List.head?_dropWhile_not (fun d : ClassDescriptor => decide (d.name = c.name))
          (withoutRepetitions cs)
        simpa [hkept] using this
      have hmem : d ∈ withoutRepetitions cs :=
        (List.dropWhile_sublist _).subset (hkept ▸ List.mem_cons_self)
      have hcd : c.name < d.name :=
        lt_of_le_of_ne (hc d (mem_of_mem_withoutRepetitions hmem)) hd.symm
      rw [hkept] at htail
      intro e he
      rcases List.mem_cons.mp he with rfl | he
      · exact hcd
      · exact hcd.trans ((List.pairwise_cons.mp htail).1 e he)

/-- Of the classes of one name, the first is kept. -/
theorem mem_withoutRepetitions_iff (h : classes.Pairwise fun a b => a.name ≤ b.name) :
    c ∈ withoutRepetitions classes ↔ first? classes c.name = some c := by
  induction classes with
  | nil => simp [withoutRepetitions, first?]
  | cons d ds ih =>
    have ih := ih (List.pairwise_cons.mp h).2
    have hstrict := pairwise_withoutRepetitions h
    rw [withoutRepetitions] at hstrict ⊢
    by_cases hname : d.name = c.name
    · have hfirst : first? (d :: ds) c.name = some d := List.find?_cons_of_pos (by simpa using hname)
      rw [hfirst, List.mem_cons, Option.some.injEq]
      constructor
      · rintro (rfl | hmem)
        · rfl
        · exact absurd hname ((List.pairwise_cons.mp hstrict).1 c hmem).ne
      · rintro rfl
        exact .inl rfl
    · have hfirst : first? (d :: ds) c.name = first? ds c.name :=
        List.find?_cons_of_neg (by simpa using hname)
      rw [hfirst, ← ih, List.mem_cons]
      constructor
      · rintro (rfl | hmem)
        · exact absurd rfl hname
        · exact (List.dropWhile_sublist _).subset hmem
      · intro hmem
        rw [← List.takeWhile_append_dropWhile (p := fun e : ClassDescriptor => decide (e.name = d.name))
          (l := withoutRepetitions ds)] at hmem
        rcases List.mem_append.mp hmem with hmem | hmem
        · have := List.mem_takeWhile_imp hmem
          exact absurd (by simpa using this) (Ne.symm hname)
        · exact .inr hmem

theorem pairwise_sorted (classes : List ClassDescriptor) :
    (sorted classes).Pairwise fun a b => a.name < b.name :=
  pairwise_withoutRepetitions (pairwise_mergeSort_name classes)

theorem mem_sorted_iff : c ∈ sorted classes ↔ first? classes c.name = some c := by
  rw [sorted, mem_withoutRepetitions_iff (pairwise_mergeSort_name classes), first?_mergeSort]

theorem sorted_congr (h : ∀ name, first? classes name = first? others name) :
    sorted classes = sorted others := by
  have : Std.Antisymm fun a b : ClassDescriptor => a.name < b.name :=
    ⟨fun a b hab hba => absurd hab hba.asymm⟩
  have : Std.Irrefl fun a b : ClassDescriptor => a.name < b.name := ⟨fun a => lt_irrefl a.name⟩
  refine (pairwise_sorted classes).eq_of_mem_iff (pairwise_sorted others) fun c => ?_
  rw [mem_sorted_iff, mem_sorted_iff, h]

end ClassDescriptor

/-! ### Class files -/

namespace FoundClass

/-- Whether a class file can be converted. -/
def isReadable (f : FoundClass) : Bool := f.descriptor?.isSome

/-- The visible classes among class files, in the order of these. -/
def visible (found : List FoundClass) : List ClassDescriptor :=
  (found.filterMap descriptor?).filter ClassDescriptor.isVisible

theorem classes_eq (found : List FoundClass) : classes found = ClassDescriptor.sorted (visible found) :=
  rfl

theorem visible_flatMap {α : Type} (part : α → List FoundClass) (items : List α) :
    visible (items.flatMap part) = items.flatMap fun a => visible (part a) := by
  rw [visible, List.filterMap_flatMap, List.filter_flatMap]
  rfl

theorem visible_filter_isReadable (found : List FoundClass) :
    visible (found.filter isReadable) = visible found := by
  rw [visible, visible, List.filterMap_filter]
  congr 2
  funext f
  rw [isReadable]
  cases f.descriptor? <;> rfl

/-- Class files that cannot be converted might as well not be there. -/
theorem classes_congr_of_isReadable {found others : List FoundClass}
    (h : others.filter isReadable = found.filter isReadable) : classes others = classes found := by
  rw [classes_eq, classes_eq, ← visible_filter_isReadable others, h, visible_filter_isReadable]

end FoundClass

namespace Scope

variable {s : Scope} {fs : FileSystem} {classPath other : List Path} {raw : List FoundClass}

/-- The names of the files in an entry of a class path, in their order there. -/
def fileNames (fs : FileSystem) (path : Path) : List String :=
  match fs.visit path with
  | .ok (location, .directory) => (fs.filesBelow location).map fun (names, _) => "/".intercalate names
  | .ok (_, .file content) =>
    (((Archive.entries? content).getD []).filter (!·.isDirectory)).map Archive.Entry.name
  | .error _ => []

theorem name_inDirectory (s : Scope) (fs : FileSystem) (location : Location) :
    (s.inDirectory fs location).map FoundClass.name
      = ((fs.filesBelow location).map fun (names, _) => "/".intercalate names).filter s.accepts := by
  rw [inDirectory]
  induction fs.filesBelow location with
  | nil => rfl
  | cons file files ih =>
    by_cases h : s.accepts ("/".intercalate file.1) <;> simp [h, ih]

theorem name_ofArchiveEntry {path : Path} {file : List UInt8} {e : Archive.Entry}
    {found : Option FoundClass} (h : s.ofArchiveEntry path file e = .ok found) :
    found.map FoundClass.name = if !e.isDirectory && s.accepts e.name then some e.name else none := by
  rw [ofArchiveEntry] at h
  split at h
  · cases h
  · split at h
    · next hskip =>
      cases h
      have : (!e.isDirectory && s.accepts e.name) = false := by
        revert hskip
        cases e.isDirectory <;> cases s.accepts e.name <;> simp
      rw [this]
      rfl
    · next hread =>
      have : (!e.isDirectory && s.accepts e.name) = true := by
        revert hread
        cases e.isDirectory <;> cases s.accepts e.name <;> simp
      split at h
      · cases h
        rw [this]
        rfl
      · cases h

theorem name_inArchive {path : Path} {file : List UInt8} {found : List FoundClass}
    (h : s.inArchive path file = .ok found) :
    found.map FoundClass.name
      = ((((Archive.entries? file).getD []).filter (!·.isDirectory)).map
          Archive.Entry.name).filter s.accepts := by
  rw [inArchive] at h
  cases hentries : Archive.entries? file with
  | none =>
    rw [hentries] at h
    cases h
  | some entries =>
    rw [hentries] at h
    obtain ⟨options, hoptions, hfound⟩ := bind_eq_ok_iff.mp h
    cases hfound
    clear h hentries
    rw [Option.getD_some]
    induction entries generalizing options with
    | nil =>
      cases hoptions
      rfl
    | cons e es ih =>
      simp only [List.mapM_cons, bind_eq_ok_iff] at hoptions
      obtain ⟨option, hoption, options, htail, hcons⟩ := hoptions
      cases hcons
      have hname := name_ofArchiveEntry hoption
      have ih := ih options htail
      cases option with
      | none =>
        cases hdirectory : e.isDirectory <;> cases haccepts : s.accepts e.name <;>
          simp_all
      | some f =>
        cases hdirectory : e.isDirectory <;> cases haccepts : s.accepts e.name <;>
          simp_all

theorem name_inClassPathEntry {path : Path} {found : List FoundClass}
    (h : s.inClassPathEntry fs path = .ok found) :
    found.map FoundClass.name = (fileNames fs path).filter s.accepts := by
  rw [inClassPathEntry] at h
  rw [fileNames]
  rcases hvisit : fs.visit path with e | ⟨here, content | _⟩
  · rw [hvisit] at h
    cases h
  · rw [hvisit] at h
    exact name_inArchive h
  · rw [hvisit] at h
    cases h
    exact name_inDirectory s fs here

/-! ### Class paths -/

/-- The class files of an entry of a class path that are in scope, if it can be read. -/
def partOf (s : Scope) (fs : FileSystem) (path : Path) : List FoundClass :=
  (s.inClassPathEntry fs path).toOption.getD []

theorem found_eq_ok_iff :
    s.found fs classPath = .ok raw ↔
      (∀ path ∈ classPath, s.inClassPathEntry fs path = .ok (s.partOf fs path))
        ∧ raw = classPath.flatMap (s.partOf fs) := by
  have hpart (path : Path) (part : List FoundClass) (h : s.inClassPathEntry fs path = .ok part) :
      s.partOf fs path = part := by
    rw [partOf, h]
    rfl
  have hmap (parts : List (List FoundClass)) :
      classPath.mapM (s.inClassPathEntry fs) = .ok parts ↔
        (∀ path ∈ classPath, s.inClassPathEntry fs path = .ok (s.partOf fs path))
          ∧ parts = classPath.map (s.partOf fs) := by
    induction classPath generalizing parts with
    | nil => simp [pure, Except.pure, eq_comm]
    | cons path paths ih =>
      simp only [List.mapM_cons, bind_eq_ok_iff, ih]
      constructor
      · rintro ⟨part, hread, parts, ⟨hall, rfl⟩, hcons⟩
        cases hcons
        obtain rfl := hpart path part hread
        exact ⟨List.forall_mem_cons.mpr ⟨hread, hall⟩, rfl⟩
      · rintro ⟨hall, rfl⟩
        obtain ⟨hread, hall⟩ := List.forall_mem_cons.mp hall
        exact ⟨_, hread, _, ⟨hall, rfl⟩, rfl⟩
  rw [found]
  cases h : classPath.mapM (s.inClassPathEntry fs) with
  | error e =>
    constructor
    · intro hraw
      cases hraw
    · rintro ⟨hall, -⟩
      rw [(hmap _).mpr ⟨hall, rfl⟩] at h
      cases h
  | ok parts =>
    obtain ⟨hall, rfl⟩ := (hmap parts).mp h
    change Except.ok _ = Except.ok raw ↔ _
    rw [Except.ok.injEq, List.flatMap_def, eq_comm, and_iff_right hall]

theorem name_found (h : s.found fs classPath = .ok raw) :
    raw.map FoundClass.name = (classPath.flatMap (fileNames fs)).filter s.accepts := by
  obtain ⟨hall, rfl⟩ := found_eq_ok_iff.mp h
  rw [List.map_flatMap, List.filter_flatMap]
  exact List.flatMap_congr fun path hmem => name_inClassPathEntry (hall path hmem)

/-- Whether an entry of a class path has a visible class of a name. -/
def offers (s : Scope) (fs : FileSystem) (name : String) (path : Path) : Bool :=
  (FoundClass.visible (s.partOf fs path)).any (·.name = name)

/-- Two entries of a class path have no visible classes of one name. -/
def AreApart (s : Scope) (fs : FileSystem) (a b : Path) : Prop :=
  ∀ name, ¬ (s.offers fs name a = true ∧ s.offers fs name b = true)

/-- The first class of a name does not depend on the entries that have none. -/
theorem first?_flatMap_filter (s : Scope) (fs : FileSystem) (classPath : List Path) (name : String) :
    ClassDescriptor.first? (FoundClass.visible ((classPath.filter (s.offers fs name)).flatMap
        (s.partOf fs))) name
      = ClassDescriptor.first? (FoundClass.visible (classPath.flatMap (s.partOf fs))) name := by
  rw [FoundClass.visible_flatMap, FoundClass.visible_flatMap]
  induction classPath with
  | nil => rfl
  | cons path paths ih =>
    rw [ClassDescriptor.first?, ClassDescriptor.first?] at ih ⊢
    cases h : s.offers fs name path with
    | true =>
      rw [List.filter_cons_of_pos h, List.flatMap_cons, List.flatMap_cons, List.find?_append,
        List.find?_append, ih]
    | false =>
      have hnone : (FoundClass.visible (s.partOf fs path)).find? (·.name = name) = none := by
        rw [offers, List.any_eq_false] at h
        exact List.find?_eq_none.mpr h
      rw [List.filter_cons_of_neg (by simp [h]), ih, List.flatMap_cons, List.find?_append, hnone,
        Option.none_or]

/-- Entries that have no class of one name can stand in any order. -/
theorem filter_offers_of_areApart (hperm : other.Perm classPath)
    (hapart : classPath.Pairwise (s.AreApart fs)) (name : String) :
    other.filter (s.offers fs name) = classPath.filter (s.offers fs name) := by
  have hperm := hperm.filter (s.offers fs name)
  have hapart := hapart.filter (s.offers fs name)
  have hoffers : ∀ path ∈ classPath.filter (s.offers fs name), s.offers fs name path = true :=
    fun path hmem => (List.mem_filter.mp hmem).2
  match hfilter : classPath.filter (s.offers fs name) with
  | [] => exact List.perm_nil.mp (hfilter ▸ hperm)
  | [path] => exact List.perm_singleton.mp (hfilter ▸ hperm)
  | a :: b :: more =>
    rw [hfilter] at hapart hoffers
    have hab := (List.pairwise_cons.mp hapart).1 b List.mem_cons_self
    exact absurd ⟨hoffers a List.mem_cons_self, hoffers b (by simp)⟩ (hab name)

/-- A class path can be rearranged if the entries that have a class of one name keep their order. -/
theorem scan_of_perm {classes : List ClassDescriptor} (hscan : s.scan fs classPath = .ok classes)
    (hperm : other.Perm classPath)
    (hsame : ∀ name, other.filter (s.offers fs name) = classPath.filter (s.offers fs name)) :
    s.scan fs other = .ok classes := by
  rw [scan] at hscan ⊢
  cases hfound : s.found fs classPath with
  | error e =>
    rw [hfound] at hscan
    cases hscan
  | ok raw =>
    rw [hfound] at hscan
    obtain rfl := Except.ok.inj hscan
    obtain ⟨hall, rfl⟩ := found_eq_ok_iff.mp hfound
    have hother : s.found fs other = .ok (other.flatMap (s.partOf fs)) :=
      found_eq_ok_iff.mpr ⟨fun path hmem => hall path (hperm.mem_iff.mp hmem), rfl⟩
    rw [hother]
    refine congrArg Except.ok (ClassDescriptor.sorted_congr fun name => ?_)
    have hfirst := first?_flatMap_filter s fs other name
    rw [hsame, first?_flatMap_filter] at hfirst
    exact hfirst.symm

/-- What a generation reads depends on its class path by the scan alone. -/
theorem prepare_congr {r : GenerationRequest} {c : Configuration}
    (hc : r.configured fs = .ok c)
    (hscan : (r.override c).scope.scan fs other = (r.override c).scope.scan fs r.classPath) :
    Generation.prepare { r with classPath := other } fs = Generation.prepare r fs := by
  have hc' : ({ r with classPath := other } : GenerationRequest).configured fs = .ok c := hc
  have hscan' : (({ r with classPath := other } : GenerationRequest).override c).scope.scan fs other
      = (r.override c).scope.scan fs r.classPath := hscan
  rw [Generation.prepare, Generation.prepare, hc, hc']
  simp only [Except.mapError, bind, Except.bind]
  rw [hscan']
  rfl

theorem runAt_perform_congr {r : GenerationRequest} {w : Workspace}
    (h : Generation.prepare { r with classPath := other } w.files = Generation.prepare r w.files) :
    ({ r with classPath := other } : GenerationRequest).perform.runAt w = r.perform.runAt w := by
  rw [GenerationRequest.perform, GenerationRequest.perform, Work.runAt_bind, Work.runAt_bind,
    Work.runAt_look, Work.runAt_look, h]

/-- A directory with a class file, and another one with a file that cannot be converted. -/
def twoDirectories : FileSystem :=
  ((((FileSystem.empty.put ["x"] .directory).put ["x", "a"] .directory).put ["x", "a", "C.class"]
    (.file ClassFile.boundedBytes)).put ["y"] .directory).put ["y", "D.class"] (.file [])

theorem scan_twoDirectories :
    scan ⟨[], []⟩ twoDirectories [.ofText "x", .ofText "y"] = .ok [ClassFile.boundedClass] := by
  have hfound : found ⟨[], []⟩ twoDirectories [.ofText "x", .ofText "y"]
      = .ok [⟨"a/C.class", ClassFile.boundedBytes⟩, ⟨"D.class", []⟩] := by
    decide +kernel
  have hread : FoundClass.descriptor? ⟨"a/C.class", ClassFile.boundedBytes⟩
      = some ClassFile.boundedClass := by
    rw [FoundClass.descriptor?, ClassFile.ofBytes_boundedBytes]
    rfl
  have hbroken : FoundClass.descriptor? ⟨"D.class", []⟩ = none := rfl
  have hvisible : ClassFile.boundedClass.isVisible = true := rfl
  rw [scan, hfound]
  change Except.ok (ClassDescriptor.sorted (FoundClass.visible _)) = _
  simp [FoundClass.visible, hread, hbroken, hvisible, ClassDescriptor.sorted,
    ClassDescriptor.withoutRepetitions]

end Scope

end DslBindings
