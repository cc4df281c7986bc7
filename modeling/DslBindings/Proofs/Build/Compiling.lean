import DslBindings.Build.Resolver
import DslBindings.Proofs.Files.Making

/-!
# Populating a directory with accessors

What is needed to write the source file of accessors into an empty directory and to compile it there,
and what is below the directory then. Of the compiler it is needed that it succeeds and that it changes
no file but its output.
-/

namespace DslBindings

open Path FileSystem

/-! ### Compilers -/

/-- A program that compiles: if it is told where its output goes, it succeeds, and the file of the output
is all that it changes. -/
structure Compiles (run : (arguments : List String) → FileSystem → (Nat × String) × FileSystem) : Prop where
  status (output : String) (rest : List String) (fs : FileSystem) :
    (run ("-d" :: output :: rest) fs).1.1 = 0
  workingDirectory (output : String) (rest : List String) (fs : FileSystem) :
    (run ("-d" :: output :: rest) fs).2.workingDirectory = fs.workingDirectory
  at? (output : String) (rest : List String) (fs : FileSystem) (l : Location) :
    (run ("-d" :: output :: rest) fs).2.at? l = fs.at? l
      ∨ fs.locate (.ofText output) = .ok l ∧ fs.at? l ≠ some .directory
        ∧ ∃ content, (run ("-d" :: output :: rest) fs).2.at? l = some (.file content)

/-- The program that does nothing but write some bytes to its output. -/
def writingOutput (content : List UInt8) (arguments : List String) (fs : FileSystem) :
    (Nat × String) × FileSystem :=
  match arguments with
  | "-d" :: output :: _ => ((0, ""), (fs.write (.ofText output) content).toOption.getD fs)
  | _ => ((1, "no output"), fs)

theorem compiles_writingOutput (content : List UInt8) : Compiles (writingOutput content) := by
  have hcases (output : String) (fs : FileSystem) :
      (fs.write (.ofText output) content).toOption.getD fs = fs
        ∨ ∃ l, fs.locate (.ofText output) = .ok l ∧ fs.at? l ≠ some .directory
          ∧ (fs.write (.ofText output) content).toOption.getD fs = fs.put l (.file content) := by
    cases hwrite : fs.write (.ofText output) content with
    | error e => exact .inl rfl
    | ok fs' =>
      obtain ⟨l, hlocate, -, hat, rfl⟩ := write_eq_ok.mp hwrite
      exact .inr ⟨l, hlocate, hat, rfl⟩
  refine ⟨fun _ _ _ => rfl, ?_, ?_⟩
  · intro output rest fs
    rw [writingOutput]
    rcases hcases output fs with h | ⟨l, -, -, h⟩ <;> rw [h]
    exact workingDirectory_put l (.file content)
  · intro output rest fs m
    rw [writingOutput]
    rcases hcases output fs with h | ⟨l, hlocate, hat, h⟩
    · rw [h]
      exact .inl rfl
    · have hne : l ≠ [] := by
        rintro rfl
        exact hat rfl
      rw [h, at?_put hne]
      by_cases hm : m = l
      · rw [hm]
        exact .inr ⟨hlocate, hat, content, if_pos rfl⟩
      · exact .inl (if_neg hm)

theorem Program.runAt_compiler {p : Program} {job : Compilation} {arguments : List String}
    {run : List String → FileSystem → (Nat × String) × FileSystem} (hrun : p.run = some run)
    (harguments : job.arguments = .ok arguments) {w : Workspace}
    (hstatus : (run arguments w.files).1.1 = 0) :
    (p.compiler job).runAt w = (.ok (), { w with files := (run arguments w.files).2 }) := by
  rw [Program.compiler, harguments]
  simp only [hrun, Work.runAt_files_bind]
  change (if _ then _ else _ : Work CompilationError Unit).runAt _ = _
  rw [if_pos hstatus]
  rfl

namespace Compilation

/-- A job can be put into arguments if its class path can be joined. -/
theorem exists_arguments {job : Compilation}
    (hclassPath : ∀ p ∈ job.classPath, ':' ∉ p.text.toList ∧ textHoldsNul p.text = false)
    (houtput : textHoldsNul job.output.text = false)
    (hsources : ∀ p ∈ job.sources, textHoldsNul p.text = false) :
    ∃ rest, job.arguments = .ok ("-d" :: job.output.text :: rest) := by
  obtain ⟨given, hgiven, hnul⟩ : ∃ given, classPathArguments job.classPath = .ok given
      ∧ ∀ text ∈ given, textHoldsNul text = false := by
    cases hcases : job.classPath with
    | nil => exact ⟨[], rfl, by simp⟩
    | cons p ps =>
      rw [hcases] at hclassPath
      have hjoined : joined (p :: ps) = .ok (":".intercalate ((p :: ps).map Path.text)) := by
        refine if_neg ?_
        simpa using fun q hq => (hclassPath q hq).1
      refine ⟨["-classpath", ":".intercalate ((p :: ps).map Path.text)], ?_, ?_⟩
      · rw [classPathArguments, hjoined]
        rfl
      · intro text htext
        rcases List.mem_pair.mp htext with rfl | rfl
        · rfl
        · refine textHoldsNul_intercalate rfl fun t ht => ?_
          obtain ⟨q, hq, rfl⟩ := List.mem_map.mp ht
          exact (hclassPath q hq).2
  refine ⟨given ++ job.sources.map Path.text, ?_⟩
  rw [arguments, hgiven]
  refine if_neg ?_
  have hflag : textHoldsNul "-d" = false := rfl
  simpa [houtput, hflag] using ⟨hnul, hsources⟩

end Compilation

/-! ### Populating -/

namespace Accessors

/-- The directories from a cache directory to the source file in it. -/
def sourceDirectories : List String := ["src", "org", "gradle", "kotlin", "dsl"]

/-- The way from a cache directory to the source file in it. -/
def sourceWay : List String := sourceDirectories ++ ["accessors.kt"]

/-- The name of the compiled accessors in a cache directory. -/
def archiveName : String := "gradle-kotlin-dsl-accessors.jar"

theorem isEntryName_of_mem_sourceWay : ∀ name ∈ sourceWay, IsEntryName name := by decide

variable {front : List String} {name : String} {here : Location} {w : Workspace}

theorem archive_concat (h : name ≠ "") (front : List String) :
    archive ⟨front ++ [name]⟩ = ⟨front ++ [name] ++ [archiveName]⟩ := by
  rw [archive, joinText_eq (by decide), stem_of_getLast]
  · rfl
  · simpa using h

theorem sourceFile_concat (h : name ≠ "") (front : List String) :
    sourceFile ⟨front ++ [name]⟩ = ⟨front ++ [name] ++ sourceWay⟩ := by
  have hsource : sourceDirectory ⟨front ++ [name]⟩ = ⟨front ++ [name] ++ ["src"]⟩ := by
    rw [sourceDirectory, joinText_eq (by decide), stem_of_getLast]
    simpa using h
  have hstem : stem ⟨front ++ [name] ++ ["src"]⟩ = front ++ [name] ++ ["src"] :=
    stem_of_getLast (by simp)
  rw [sourceFile, hsource, join, isEmpty_concat (by decide), hstem]
  simp [isAbsolute, sourceWay, sourceDirectories]

/-- What is there once the source file of a schema is written into an empty directory. -/
theorem exists_writeSource (hname : name ≠ "")
    (hlocate : w.files.locate ⟨front ++ [name]⟩ = .ok here) (hdir : w.files.at? here = some .directory)
    (hempty : ∀ l, IsBelow here l → w.files.at? l = none)
    (hroom : (sourceFile ⟨front ++ [name]⟩).text.utf8ByteSize ≤ pathLimit)
    (schema : ProjectSchema String) :
    ∃ fs, (writeSource schema ⟨front ++ [name]⟩).runAt w = (.ok (), { w with files := fs })
      ∧ fs.workingDirectory = w.files.workingDirectory
      ∧ ∀ l, fs.at? l = if l = here ++ sourceWay then some (.file (Text.utf8 (source schema)))
          else if IsOnWay here sourceDirectories l then some .directory else w.files.at? l := by
  have hparent : parent? ⟨front ++ [name] ++ sourceWay⟩ = some ⟨front ++ [name] ++ sourceDirectories⟩ := by
    rw [sourceWay, ← List.append_assoc]
    refine parent?_concat (p := ⟨front ++ [name] ++ sourceDirectories⟩) (a := "dsl") rfl ?_ rfl
    rw [List.getLast?_append]
    rfl
  rw [sourceFile_concat hname] at hroom
  obtain ⟨made, fs, hmade, hwrite, hwd, hat⟩ := Work.exists_write_below hlocate hdir hempty
    isEntryName_of_mem_sourceWay hroom (Text.utf8 (source schema))
  refine ⟨fs, ?_, hwd, hat⟩
  have hwrite' : made.write ⟨front ++ [name] ++ sourceWay⟩ (Text.utf8 (source schema)) = .ok fs := hwrite
  rw [writeSource, sourceFile_concat hname]
  simp only [hparent]
  rw [Work.runAt_bind_ok hmade, Work.runAt_change]
  simp only [hwrite']

/-- An empty directory can be populated by a program that compiles. All that changes is below it, and the
source file is there. -/
theorem exists_populate {program : Program}
    {run : List String → FileSystem → (Nat × String) × FileSystem} (hrun : program.run = some run)
    (hcompiles : Compiles run) {classPath : List Path}
    (hclassPath : ∀ p ∈ classPath, ':' ∉ p.text.toList ∧ textHoldsNul p.text = false)
    (hname : name ≠ "") (hslash : ∀ s ∈ front ++ [name], '/' ∉ s.toList)
    (hlocate : w.files.locate ⟨front ++ [name]⟩ = .ok here) (hdir : w.files.at? here = some .directory)
    (hempty : ∀ l, IsBelow here l → w.files.at? l = none)
    (hroom : (sourceFile ⟨front ++ [name]⟩).text.utf8ByteSize ≤ pathLimit)
    (schema : ProjectSchema String) :
    ∃ w', (populate program.compiler schema classPath ⟨front ++ [name]⟩).runAt w = (.ok (), w')
      ∧ w'.files.workingDirectory = w.files.workingDirectory
      ∧ (∀ l, ¬ IsBelow here l → w'.files.at? l = w.files.at? l)
      ∧ w'.files.at? (here ++ sourceWay) = some (.file (Text.utf8 (source schema)))
      ∧ ∀ ns, ns <+: sourceDirectories → w'.files.at? (here ++ ns) = some .directory := by
  obtain ⟨fs, hwrite, hwd, hat⟩ := exists_writeSource hname hlocate hdir hempty hroom schema
  have hnul : holdsNul ⟨front ++ [name]⟩ = false := (locate_eq_ok.mp hlocate).1
  have hnulBelow (more : List String) (hmore : more.any textHoldsNul = false) :
      textHoldsNul (Path.text ⟨front ++ [name] ++ more⟩) = false := by
    apply textHoldsNul_text
    rw [holdsNul] at hnul ⊢
    rw [List.any_append, hnul, hmore]
    rfl
  have hslashOutput : ∀ s ∈ front ++ [name] ++ [archiveName], '/' ∉ s.toList := by
    intro s hs
    rcases List.mem_append.mp hs with hs | hs
    · exact hslash s hs
    · rw [List.mem_singleton.mp hs]
      decide
  set job : Compilation := ⟨archive ⟨front ++ [name]⟩, [sourceFile ⟨front ++ [name]⟩], classPath⟩
  obtain ⟨rest, harguments⟩ : ∃ rest,
      job.arguments = .ok ("-d" :: (archive ⟨front ++ [name]⟩).text :: rest) := by
    apply Compilation.exists_arguments hclassPath
    · change textHoldsNul (archive ⟨front ++ [name]⟩).text = false
      rw [archive_concat hname]
      exact hnulBelow _ rfl
    · intro p hp
      rw [List.mem_singleton.mp hp, sourceFile_concat hname]
      exact hnulBelow _ rfl
  set output := (archive ⟨front ++ [name]⟩).text with houtput
  set fs' := (run ("-d" :: output :: rest) fs).2 with hfs'
  -- Of all that the compiler can change, only its output is left.
  have hoff (l : Location) (hl : l ≠ here ++ [archiveName]) : fs'.at? l = fs.at? l := by
    refine (hcompiles.at? output rest fs l).resolve_right ?_
    rintro ⟨hl', -⟩
    refine hl ?_
    rw [houtput, archive_concat hname, ofText_text (by simp) hslashOutput] at hl'
    have hstem : stem ⟨front ++ [name]⟩ = front ++ [name] := stem_of_getLast (by simpa using hname)
    have hplace : destination w.files.workingDirectory ⟨front ++ [name] ++ [archiveName]⟩
        = destination w.files.workingDirectory ⟨front ++ [name]⟩ ++ [archiveName] := by
      rw [← destination_stem_append (by decide), hstem]
    rw [eq_destination_of_locate hl', hwd, hplace, ← eq_destination_of_locate hlocate]
  refine ⟨⟨fs', w.events ++ [.compilation job]⟩, ?_,
    (hcompiles.workingDirectory output rest fs).trans hwd, ?_, ?_, ?_⟩
  · have hwritten : ((writeSource schema ⟨front ++ [name]⟩).failingWith
        (ResolverError.source (sourceFile ⟨front ++ [name]⟩))).runAt w = (.ok (), { w with files := fs }) := by
      rw [Work.runAt_failingWith, hwrite]
      rfl
    rw [populate, Work.runAt_bind_ok hwritten, Work.runAt_bind_ok (Work.runAt_record _ _),
      Work.runAt_failingWith, Program.runAt_compiler hrun harguments (hcompiles.status output rest _)]
    rfl
  · intro l hl
    have hsource : l ≠ here ++ sourceWay := by
      rintro rfl
      exact hl (isBelow_append (by decide))
    rw [hoff l fun h => hl ⟨archiveName, [], h⟩, hat, if_neg hsource]
    split
    · next hon =>
      obtain ⟨⟨more, rfl⟩, -⟩ := hon
      cases more with
      | nil => rw [List.append_nil, hdir]
      | cons n ns => exact absurd ⟨n, ns, rfl⟩ hl
    · rfl
  · have hne : here ++ sourceWay ≠ here ++ [archiveName] := fun h =>
      absurd (List.append_cancel_left h) (by decide)
    rw [hoff _ hne, hat, if_pos rfl]
  · intro ns hns
    have hne : here ++ ns ≠ here ++ [archiveName] := by
      intro h
      rw [List.append_cancel_left h] at hns
      exact absurd hns (by decide)
    have hsource : here ++ ns ≠ here ++ sourceWay := by
      intro h
      rw [List.append_cancel_left h] at hns
      exact absurd hns (by decide)
    rw [hoff _ hne, hat, if_neg hsource,
      if_pos ⟨List.prefix_append here ns, (List.prefix_append_right_inj here).mpr hns⟩]

end Accessors

end DslBindings
