import Appspine.LoadState
import Appspine.Generators

/-!
# `build`

Without `--check`, `build` writes the artefacts that changed and the lockfile. It refuses before
that on a missing manifest, on a failed check and on a schema that cannot be composed. Diagnostics
of the expansion of presets are not among what it looks at.
-/
namespace Appspine.Build
open JsText StableSort InsertionMap JsonText PluginManifest Resolver Commands Generate Lockfile
open Generators (generateAll documentText presetJson textOrNull environmentJson)
open Inventory (PresetsUsable)

variable {N : Type}

section Files

/-- The texts of the files below the root of the App. -/
abbrev Files := JsString → Option JsString

structure Writing where
  files : Files
  written : List JsString

/-- A file is written when its text changes. -/
def writeFile (state : Writing) (path contents : JsString) : Writing :=
  if state.files path = some contents then state
  else
    { files := Function.update state.files path (some contents)
      written := state.written ++ [path] }

def writeArtifacts (files : Files) (artifacts : List GeneratedArtifact) : Writing :=
  artifacts.foldl (fun state artifact => writeFile state artifact.path artifact.contents)
    { files := files, written := [] }

end Files

section Serialize

variable [JsonNumber N]

def LOCK_SCHEMA_VERSION : JsString := js "appspine.plugin-lock/v1"

def lockedPackageJson (entry : LockedPackage) : Json N :=
  .obj [(js "name", .str entry.name), (js "version", .str entry.version),
    (js "digest", .str entry.digest), (js "manifestDigest", .str entry.manifestDigest),
    (js "schemaDigest", textOrNull entry.schemaDigest),
    (js "permissionDigest", textOrNull entry.permissionDigest)]

def lockedInstanceJson (entry : LockedInstance) : Json N :=
  .obj [(js "key", .str entry.key), (js "pluginId", .str entry.pluginId),
    (js "instanceId", .str entry.instanceId), (js "package", .str entry.package),
    (js "enabled", .bool entry.enabled), (js "required", .bool entry.required),
    (js "configRef", textOrNull entry.configRef), (js "fromPreset", textOrNull entry.fromPreset),
    (js "provides", strings entry.provides), (js "requires", strings entry.requires),
    (js "optionalRequires", strings entry.optionalRequires),
    (js "unresolvedOptional", strings entry.unresolvedOptional),
    (js "dependsOn", strings entry.dependsOn),
    (js "environment", .arr (entry.environment.map environmentJson))]

def lockedArtifactJson (entry : LockedArtifact) : Json N :=
  .obj [(js "path", .str entry.path), (js "digest", .str entry.digest)]

def lockfileJson (lock : PluginLockfile) : Json N :=
  .obj [(js "schemaVersion", .str LOCK_SCHEMA_VERSION),
    (js "presets", .arr (lock.presets.map presetJson)),
    (js "resolutionDigest", .str lock.resolutionDigest),
    (js "order", strings lock.order),
    (js "capabilities", .obj (lock.capabilities.map (fun e => (e.1, strings e.2)))),
    (js "hostCapabilities", strings lock.hostCapabilities),
    (js "packages", .arr (lock.packages.map lockedPackageJson)),
    (js "instances", .arr (lock.instances.map lockedInstanceJson)),
    (js "artifacts", .arr (lock.artifacts.map lockedArtifactJson)),
    (js "note", .str (js ("Generated by @appspine/plugin-cli. Review this file as a diff; run " ++
      "`appspine build` to update it. Package resolution and integrity live in pnpm-lock.yaml, " ++
      "not here.")))]

end Serialize

section Build

variable [JsonNumber N] [LinearOrder N] [Zero N] {sha256Hex : JsString → JsString}
  (localeCompare : JsString → JsString → Ordering) (toUpperCase : JsString → JsString)

def writeLockfile (N : Type) [JsonNumber N] (state : Writing) (lock : PluginLockfile) : Writing :=
  writeFile state LOCKFILE_NAME (documentText (lockfileJson lock : Json N))

structure BuildResult where
  exitCode : ExitCode
  diagnostics : List PluginDiagnostic
  written : List JsString
  files : Files

def prismaCompositionFailed : PluginDiagnostic :=
  diagnostic (js "prisma-composition-failed")
    (js ("the installed plugins cannot be composed into one Prisma schema, so nothing was " ++
      "generated")) none none none

def compositionWithoutBackend (pluginId : JsString) : PluginDiagnostic :=
  { diagnostic (js "composition-without-backend")
      (quoted pluginId ++
        js " has no backend facet, so it contributes nothing to the Nest composition")
      (some pluginId) none none with
    severity := .info }

/-- A note on every instance without a backend. -/
def compositionPreflight (input : GeneratorInput N sha256Hex) : List PluginDiagnostic :=
  input.graph.instances.flatMap (fun i =>
    match input.manifestOf i.packageName with
    | none => []
    | some loaded =>
      if loaded.manifest.facets.backend.isSome then [] else [compositionWithoutBackend i.pluginId])

def artifactsWritten (written : List JsString) : PluginDiagnostic :=
  { diagnostic (js "artifacts-written")
      (if written = [] then js "everything was already up to date"
        else js "wrote " ++ join (js ", ") written) none none none with
    severity := .info }

def lockfileReview : PluginDiagnostic :=
  { diagnostic (js "lockfile-review")
      (LOCKFILE_NAME ++
        js " changed. It is committed and reviewed as a diff - read it before merging")
      none none (some LOCKFILE_NAME) with
    severity := .info }

/-- What is written once the artefacts are generated. -/
def writeAll (files : Files) (input : GeneratorInput N sha256Hex)
    (artifacts : List GeneratedArtifact) : Writing :=
  writeLockfile N (writeArtifacts files artifacts) (buildLockfile input artifacts)

/-- `build` without `--check`; an exception leaves the files as they are. -/
def build (app : AppRoot N sha256Hex) (fragmentText : JsString → JsString → Option JsString)
    (version : JsString) (files : Files) : Except JsString BuildResult :=
  match generatorInput app fragmentText version with
  | .error (exitCode, diagnostics) =>
    .ok { exitCode := exitCode, diagnostics := diagnostics, written := [], files := files }
  | .ok input =>
    let prisma := Prisma.compose localeCompare input
    if prisma.schema = none then
      .ok { exitCode := .resolutionFailed
            diagnostics := prismaCompositionFailed :: prisma.diagnostics
            written := []
            files := files }
    else
      (generateAll localeCompare toUpperCase input).map (fun artifacts =>
        let after := writeAll files input artifacts
        { exitCode := .ok
          diagnostics := compositionPreflight input ++ prisma.diagnostics ++
            [artifactsWritten after.written] ++
            (if LOCKFILE_NAME ∈ after.written then [lockfileReview] else [])
          written := after.written
          files := after.files })

end Build

section Written

lemma writeFile_unwritten {state : Writing} {path contents : JsString}
    (h : (writeFile state path contents).written = []) :
    writeFile state path contents = state ∧ state.files path = some contents := by
  unfold writeFile at h ⊢
  split_ifs at h ⊢ with hsame
  · exact ⟨rfl, hsame⟩
  · simp at h

lemma writeArtifacts_unwritten {files : Files} {artifacts : List GeneratedArtifact}
    (h : (writeArtifacts files artifacts).written = []) :
    (writeArtifacts files artifacts).files = files := by
  unfold writeArtifacts at h ⊢
  induction artifacts using List.reverseRecOn with
  | nil => rfl
  | append_singleton artifacts artifact ih =>
    rw [List.foldl_append, List.foldl_cons, List.foldl_nil] at h ⊢
    have hlast := (writeFile_unwritten h).1
    rw [hlast] at h ⊢
    exact ih h

variable [JsonNumber N] {sha256Hex : JsString → JsString}

/-- Where there was no file before, something is written. -/
lemma writeAll_written (input : GeneratorInput N sha256Hex) (artifacts : List GeneratedArtifact) :
    (writeAll (fun _ => none) input artifacts).written ≠ [] := by
  intro h
  obtain ⟨hlock, hsame⟩ := writeFile_unwritten h
  rw [writeAll, writeLockfile, hlock] at h
  rw [writeArtifacts_unwritten h] at hsame
  cases hsame

end Written

section Gate

variable [JsonNumber N] [LinearOrder N] [Zero N] {sha256Hex : JsString → JsString}
  (localeCompare : JsString → JsString → Ordering) (toUpperCase : JsString → JsString)

/-- The diagnostics of loading the state of an App and of checking it. -/
def stateDiagnostics (app : AppRoot N sha256Hex) : List PluginDiagnostic :=
  match loadState app with
  | .error diagnostics => diagnostics
  | .ok state => state.diagnostics ++ state.checked.diagnostics

/-- Whatever files there are, `build` writes only when no diagnostic is an error. -/
def WritesOnlyClean (app : AppRoot N sha256Hex)
    (fragmentText : JsString → JsString → Option JsString) (version : JsString) : Prop :=
  ∀ files result, build localeCompare toUpperCase app fragmentText version files = .ok result →
    result.written ≠ [] → hasErrors (stateDiagnostics app) = false

/-- The inventory resolves, its schema composes and its artefacts can be generated. -/
def Generates (app : AppRoot N sha256Hex) (fragmentText : JsString → JsString → Option JsString)
    (version : JsString) : Prop :=
  ∃ input artifacts, generatorInput app fragmentText version = .ok input ∧
    (Prisma.compose localeCompare input).schema ≠ none ∧
    generateAll localeCompare toUpperCase input = .ok artifacts

/-- The presets that the inventory of the App names can all be expanded, without an overlap. -/
def UsablePresets (app : AppRoot N sha256Hex) : Prop :=
  ∀ read, readInventory app = .ok read →
    PresetsUsable app.readPreset (read.inventory.presets.getD [])

variable {localeCompare toUpperCase} {app : AppRoot N sha256Hex}
  {fragmentText : JsString → JsString → Option JsString} {version : JsString}

lemma generates_of_written {files : Files} {result : BuildResult}
    (h : build localeCompare toUpperCase app fragmentText version files = .ok result)
    (hwritten : result.written ≠ []) :
    Generates localeCompare toUpperCase app fragmentText version := by
  unfold build at h
  cases hinput : generatorInput app fragmentText version with
  | error refused =>
    simp only [hinput, Except.ok.injEq] at h
    exact absurd (by rw [← h]) hwritten
  | ok input =>
    simp only [hinput] at h
    split_ifs at h with hschema
    · obtain rfl := Except.ok.inj h
      exact absurd rfl hwritten
    · cases hall : generateAll localeCompare toUpperCase input with
      | error thrown =>
        rw [hall] at h
        cases h
      | ok artifacts => exact ⟨input, artifacts, hinput, hschema, hall⟩

/-- An App that generates writes, in a place without files. -/
lemma Generates.written (h : Generates localeCompare toUpperCase app fragmentText version) :
    ∃ result, build localeCompare toUpperCase app fragmentText version (fun _ => none) = .ok result ∧
      result.written ≠ [] := by
  obtain ⟨input, artifacts, hinput, hschema, hall⟩ := h
  simp only [build, hinput, hschema, if_false, hall]
  exact ⟨_, rfl, writeAll_written input artifacts⟩

/-- What loads, resolves and generates reports an error only of its presets. -/
lemma Generates.stateDiagnostics (hclean : CleanLoader app)
    (h : Generates localeCompare toUpperCase app fragmentText version) :
    hasErrors (stateDiagnostics app) = false ↔ UsablePresets app := by
  obtain ⟨input, artifacts, hinput, -, -⟩ := h
  obtain ⟨generation, hgeneration⟩ : ∃ generation, buildInput app = .ok generation := by
    cases hbuild : buildInput app with
    | error refused =>
      rw [generatorInput, hbuild] at hinput
      cases hinput
    | ok generation => exact ⟨generation, rfl⟩
  obtain ⟨read, hread, hmissing, hchecked⟩ := buildInput_loaded hgeneration
  have hload : loadState app = .ok (stateOf app read) := loadState_eq_ok.mpr ⟨read, hread, rfl⟩
  rw [Build.stateDiagnostics, hload]
  simp only [hasErrors_append, hchecked, Bool.or_false]
  rw [hasErrors_stateOf hclean hread hmissing]
  constructor
  · intro husable read' hread'
    obtain rfl := Except.ok.inj (hread.symm.trans hread')
    exact husable
  · exact fun husable => husable read hread

variable (localeCompare toUpperCase fragmentText version)

/-- `build` writes from clean states only, exactly when what it can generate names usable presets. -/
theorem build_writesOnlyClean_iff (hclean : CleanLoader app) :
    WritesOnlyClean localeCompare toUpperCase app fragmentText version ↔
      (Generates localeCompare toUpperCase app fragmentText version → UsablePresets app) := by
  constructor
  · intro h hgenerates
    obtain ⟨result, hresult, hwritten⟩ := hgenerates.written
    exact (hgenerates.stateDiagnostics hclean).mp (h _ result hresult hwritten)
  · intro h files result hresult hwritten
    have hgenerates := generates_of_written hresult hwritten
    exact (hgenerates.stateDiagnostics hclean).mpr (h hgenerates)

end Gate

section Standard

/-- Small texts are compared by code units, and have no letters to raise. -/
abbrev GeneratesPlainly (app : AppRoot ℤ (fun text => text)) : Prop :=
  Generates Prisma.compareUnits (fun text => text) app (fun _ _ => none) (js "1")

lemma generatesPlainly_of_isOk {app : AppRoot ℤ (fun text => text)}
    (h : ∃ input ∈ (generatorInput app (fun _ _ => none) (js "1")).toOption,
      (Prisma.compose Prisma.compareUnits input).schema.isSome = true ∧
        (generateAll Prisma.compareUnits (fun text => text) input).isOk = true) :
    GeneratesPlainly app := by
  obtain ⟨input, hinput, hschema, hall⟩ := h
  have hok : generatorInput app (fun _ _ => none) (js "1") = .ok input := by
    cases hgenerator : generatorInput app (fun _ _ => none) (js "1") with
    | error refused =>
      rw [hgenerator] at hinput
      cases hinput
    | ok input' =>
      rw [hgenerator] at hinput
      rw [Option.some.inj hinput]
  cases hartifacts : generateAll Prisma.compareUnits (fun text => text) input with
  | error thrown =>
    rw [hartifacts] at hall
    cases hall
  | ok artifacts =>
    refine ⟨input, artifacts, hok, ?_, hartifacts⟩
    rintro hnone
    rw [hnone] at hschema
    cases hschema

lemma cleanLoader_standardApp (plugins : List PluginInventoryEntry) (installed : Bool) :
    CleanLoader (standardApp plugins installed) := by
  intro ref loaded diagnostics h
  simp only [standardApp] at h
  split_ifs at h with hfound
  simp only [Except.ok.injEq, Prod.mk.injEq] at h
  rw [← h.2]
  rfl

theorem build_writesOnlyClean_standard :
    WritesOnlyClean Prisma.compareUnits (fun text => text) (standardApp [] true) (fun _ _ => none)
      (js "1") := by
  refine (build_writesOnlyClean_iff _ _ _ _ (cleanLoader_standardApp [] true)).mpr fun _ => ?_
  intro read hread
  obtain rfl := Except.ok.inj ((show Except.ok _ = readInventory _ from by rfl).trans hread)
  refine ⟨?_, ?_⟩
  · intro name hname
    obtain rfl := List.mem_singleton.mp hname
    exact ⟨_, rfl, rfl⟩
  · intro name hname other hother _ _ _ _ _
    rw [List.mem_singleton.mp hname, List.mem_singleton.mp hother]

/-- An App that names a preset which is not installed. -/
def misnamedApp : AppRoot ℤ (fun text => text) :=
  { standardApp [enabledEntry (js "@x/a")] true with
    inventory := .document [] { presets := some [js "@x/standrad"],
                                plugins := [enabledEntry (js "@x/a")] } }

/-- The error of a preset that was not found does not keep `build` from writing. -/
theorem build_writes_despite_preset : ∃ result,
    build Prisma.compareUnits (fun text => text) misnamedApp (fun _ _ => none) (js "1")
      (fun _ => none) = .ok result ∧ result.written ≠ [] ∧
      hasErrors (stateDiagnostics misnamedApp) = true := by
  have hgenerates : GeneratesPlainly misnamedApp := generatesPlainly_of_isOk (by decide +kernel)
  obtain ⟨result, hresult, hwritten⟩ := hgenerates.written
  exact ⟨result, hresult, hwritten, by decide +kernel⟩

end Standard

end Appspine.Build
