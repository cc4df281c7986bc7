import DslBindings.Proofs.Files.Making
import DslBindings.Proofs.Files.Renaming
import DslBindings.Proofs.Json.RoundTrip
import DslBindings.Proofs.Resolver.Steps

/-!
# Snapshots that were written

A snapshot that could be written is what the build has from then on. What was written comes back because
schemas survive JSON and are never too deep; where it was written, because a rename puts one file in the
place of another and leaves the way to it as it was.
-/

namespace DslBindings

theorem FileSystem.readJson_of_read {α : Type} {encode : α → Json} {decode : Json → Option α}
    (hcoding : Json.RoundTrips encode decode) {a : α} (hdepth : (encode a).depth ≤ Json.maxDepth)
    {text : String} (htext : Json.Spells text (encode a)) {fs : FileSystem} {file : Path}
    (h : fs.read file = .ok (Text.utf8 text)) : fs.readJson decode file = .ok a := by
  rw [readJson, h]
  simp only [Json.parseBytes_utf8, hcoding.comesBack rfl htext, if_pos hdepth]

theorem ProjectSchema.depth_registryToJson_le {α : Type} {encode : α → Json} {d : Nat}
    (h : ∀ a, (encode a).depth ≤ d) (registry : Std.ExtTreeMap String α) :
    (registryToJson encode registry).depth ≤ d + 1 :=
  Nat.succ_le_succ (Json.IsCoding.depthOfMembers_le fun e _ => h e.2)

theorem BuildSchema.depth_toJson_le (schemas : BuildSchema) : schemas.toJson.depth ≤ Json.maxDepth := by
  have hregistry (registry : Std.ExtTreeMap String String) :
      (ProjectSchema.registryToJson .string registry).depth ≤ 1 :=
    ProjectSchema.depth_registryToJson_le (fun _ => Nat.le_refl 0) registry
  have hschema (schema : ProjectSchema String) : (schema.toJson .string).depth ≤ 2 := by
    have hextensions := hregistry schema.extensions
    have hconventions := hregistry schema.conventions
    simp only [ProjectSchema.toJson, Json.depth, Json.depthOfMembers]
    omega
  exact Nat.le_trans (ProjectSchema.depth_registryToJson_le hschema schemas) (by decide)

namespace Snapshot

open FileSystem Path

section Write

variable {root p : Path} {schemas : BuildSchema} {w w' : Workspace} {fs : FileSystem}

/-- The segments of the directory that a snapshot is in. -/
def way (root : Path) : List String := if root.isEmpty then ["gradle"] else root.stem ++ ["gradle"]

def fileName : String := "project-schema.json"

def temporaryName : String := "project-schema.tmp"

theorem way_ne_nil (root : Path) : way root ≠ [] := by
  rw [way]
  split
  · exact List.cons_ne_nil _ _
  · exact List.concat_ne_nil _ _

theorem join_gradle (root : Path) (name : String) :
    root.join ⟨["gradle", name]⟩ = ⟨way root ++ [name]⟩ := by
  rw [join, way]
  cases root.isEmpty <;> simp [isAbsolute]

theorem file_eq (root : Path) : file root = ⟨way root ++ [fileName]⟩ := join_gradle root _

theorem temporaryFile_eq (root : Path) : temporaryFile root = ⟨way root ++ [temporaryName]⟩ :=
  join_gradle root _

theorem load?_of_read (h : fs.read (file root) = .ok (Text.utf8 (text schemas))) :
    load? fs root = .ok (some schemas) := by
  have hfile : fs.isFile (file root) = true := by
    rw [FileSystem.isFile]
    cases hfind : fs.find (file root) with
    | error e =>
      rw [FileSystem.read, hfind] at h
      cases h
    | ok entry =>
      cases entry with
      | directory =>
        rw [FileSystem.read, hfind] at h
        cases h
      | file content => rfl
  have hread := readJson_of_read (BuildSchema.isCoding.roundTrips (by decide)) schemas.depth_toJson_le
    (.inr rfl) h
  rw [load?, hfile, if_pos rfl, hread]
  rfl

theorem parent?_file (root : Path) : (file root).parent? = some ⟨way root⟩ := by
  have hlast : (way root).getLast? = some "gradle" := by
    rw [way]
    split
    · rfl
    · exact List.getLast?_concat
  rw [file_eq]
  exact parent?_concat (by decide) hlast (by decide)

/-! ### Writing -/

/-- The steps that a snapshot is written in. -/
theorem exists_of_write (h : (write root schemas).runAt w = (.ok p, w')) :
    ∃ made written, Grows (Passes w.files.workingDirectory (file root)) w.files made
      ∧ made.write (temporaryFile root) (Text.utf8 (text schemas)) = .ok written
      ∧ written.rename (temporaryFile root) (file root) = .ok w'.files
      ∧ p = file root ∧ w'.events = w.events := by
  rw [write] at h
  simp only [parent?_file] at h
  obtain ⟨_, w₁, hmake, h⟩ := Work.runAt_bind_eq_ok.mp h
  obtain ⟨_, w₂, hwrite, h⟩ := Work.runAt_bind_eq_ok.mp h
  obtain ⟨_, w₃, hrename, h⟩ := Work.runAt_bind_eq_ok.mp h
  cases h
  have honly := Work.onlyGrows_createDirectories ⟨way root⟩ w
  rw [Work.OnlyGrows, Work.runAt_failingWith_eq_ok.mp hmake] at honly
  obtain ⟨written, hwritten, rfl⟩ := Work.runAt_change_mapError_eq_ok.mp hwrite
  obtain ⟨renamed, hrenamed, rfl⟩ := Work.runAt_change_mapError_eq_ok.mp hrename
  exact ⟨w₁.files, written, honly.1.mono fun l => passes_of_parent (parent?_file root), hwritten,
    hrenamed, rfl, honly.2⟩

/-- Where a snapshot is afterwards, and what is as it was. -/
theorem exists_located_of_write (h : (write root schemas).runAt w = (.ok p, w')) :
    ∃ here, w'.files.locate (file root) = .ok (here ++ [fileName])
      ∧ w'.files.at? (here ++ [fileName]) = some (.file (Text.utf8 (text schemas)))
      ∧ w'.files.locate (temporaryFile root) = .ok (here ++ [temporaryName])
      ∧ w'.files.at? (here ++ [temporaryName]) = none
      ∧ ∀ l, ¬ here ++ [fileName] <+: l → ¬ here ++ [temporaryName] <+: l →
          w'.files.at? l = w.files.at? l ∨ Passes w.files.workingDirectory (file root) l
            ∧ w.files.at? l = none ∧ w'.files.at? l = some .directory := by
  obtain ⟨made, written, hgrows, hwrite, hrename, -⟩ := exists_of_write h
  rw [temporaryFile_eq] at hwrite hrename
  rw [file_eq] at hrename
  obtain ⟨here, -, htemporary, hgone, hfile, hthere, hothers⟩ := exists_of_write_of_rename
    (by decide) (by decide) (by decide) (way_ne_nil root) hwrite hrename
  rw [← temporaryFile_eq] at htemporary
  rw [← file_eq] at hfile
  refine ⟨here, hfile, hthere, htemporary, hgone, fun l hl hl' => ?_⟩
  rw [hothers l hl' hl]
  exact hgrows.at? l

/-- A snapshot that could be written is read as it was written, whatever was there before: by those who
load it, and by every resolver that has not loaded one for this build. Nothing is left of the file that
it was written to first, and the rest is as it was but for directories on the way. -/
theorem load?_of_write (h : (write root schemas).runAt w = (.ok p, w')) :
    p = file root ∧ w'.events = w.events ∧ load? w'.files root = .ok (some schemas)
      ∧ w'.files.read (file root) = .ok (Text.utf8 (text schemas))
      ∧ w'.files.find (temporaryFile root) = .error .notFound
      ∧ (∃ here, w'.files.locate (file root) = .ok (here ++ [fileName])
          ∧ w'.files.locate (temporaryFile root) = .ok (here ++ [temporaryName])
          ∧ ∀ l, ¬ here ++ [fileName] <+: l → ¬ here ++ [temporaryName] <+: l →
              w'.files.at? l = w.files.at? l ∨ Passes w.files.workingDirectory (file root) l
                ∧ w.files.at? l = none ∧ w'.files.at? l = some .directory)
      ∧ ∀ (r : Resolver) (project : Project) (schema : ProjectSchema String), project.root = root →
          schemas[project.path]? = some schema → r.snapshot? root = none →
          (Resolver.schema project).runAt ⟨r, w'⟩
            = (.ok (some schema),
                ⟨r.keepingSnapshot root (some schemas), w'.recording [.snapshotRead root]⟩) := by
  obtain ⟨-, -, -, -, -, hp, hevents⟩ := exists_of_write h
  obtain ⟨here, hfile, hthere, htemporary, hgone, hothers⟩ := exists_located_of_write h
  have hread := read_of_locate hfile hthere
  have hload := load?_of_read hread
  refine ⟨hp, hevents, hload, hread, ?_, ⟨here, hfile, htemporary, hothers⟩, ?_⟩
  · rw [find_of_locate htemporary, hgone]
  · rintro r project schema rfl hschema hkept
    have hinSnapshot : project.inSnapshot? (some schemas) = some schema := hschema
    have hnone : project.introspections (some schemas) = [] := by
      rw [Project.introspections, if_neg]
      rintro ⟨hmissing, -⟩
      rw [hinSnapshot] at hmissing
      cases hmissing
    rw [Resolver.runAt_schema_of_none hkept, hload]
    simp only [Project.decision, hinSnapshot, hnone]

end Write

/-! ### A replaced snapshot -/

/-- A build whose snapshot is damaged, and was being replaced when the last work on it broke off. -/
def interrupted : Workspace where
  files := (((FileSystem.empty.put ["app"] .directory).put ["app", "gradle"] .directory).put
      ["app", "gradle", "project-schema.json"] (.file [123, 34])).put
    ["app", "gradle", "project-schema.tmp"] (.file [123])
  events := []

namespace interrupted

def root : Path := ⟨["", "app"]⟩

/-- The schema of a project with one extension. -/
def schema : ProjectSchema String := ⟨.ofList [("java", "J<*>")], ∅⟩

def schemas : BuildSchema := .ofList [(":", schema)]

/-- A project that asks for its live schema, where nothing is attached to it any more. -/
def project : Project := ⟨root, ":", [("org.gradle.kotlin.dsl.accessors", "auto")], true, ⟨∅, ∅⟩⟩

theorem runAt_write :
    (write root schemas).runAt interrupted
      = (.ok (file root), ((write root schemas).runAt interrupted).2) := by
  have hdirectory : interrupted.files.isDirectory ⟨way root⟩ = true := by decide +kernel
  have hmade := Work.runAt_createDirectories_of_isDirectory hdirectory
  have hreplaced : ((do
      Work.change fun fs => (fs.write (temporaryFile root) (Text.utf8 (text schemas))).mapError
        (JsonFileError.io (file root))
      Work.change fun fs => (fs.rename (temporaryFile root) (file root)).mapError
        (JsonFileError.io (file root))
      return file root : Work JsonFileError Path).runAt interrupted).1 = .ok (file root) := by
    decide +kernel
  refine Prod.ext ?_ rfl
  rw [write]
  simp only [parent?_file]
  rw [Work.runAt_bind_ok (Work.runAt_failingWith_eq_ok.mpr hmade)]
  exact hreplaced

theorem load?_of_write_interrupted :
    let w := ((write root schemas).runAt interrupted).2
    load? w.files root = .ok (some schemas)
      ∧ w.files.find (temporaryFile root) = .error .notFound
      ∧ ((Resolver.schema project).runAt ⟨{}, w⟩).1 = .ok (some schema) := by
  obtain ⟨-, -, hload, -, hgone, -, hresolved⟩ := load?_of_write runAt_write
  exact ⟨hload, hgone, by rw [hresolved {} project schema rfl rfl rfl]⟩

end interrupted

end Snapshot

end DslBindings
