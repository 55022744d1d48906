import Appspine.Permissions

/-!
# The plugin lockfile

`appspine.plugin-lock.json` as `build` derives it, and the comparison that `build --check` makes
with the committed one. The comparison looks at the packages by name, at the resolution digest
and at the digests of the generated artefacts.
-/
namespace Appspine.Lockfile
open JsText StableSort InsertionMap JsonText PluginManifest Resolver Commands Generate

variable {N : Type} [JsonNumber N] {sha256Hex : JsString → JsString}

def LOCKFILE_NAME : JsString := js "appspine.plugin-lock.json"

structure LockedPackage where
  name : JsString
  version : JsString
  digest : JsString
  manifestDigest : JsString
  schemaDigest : Option JsString
  permissionDigest : Option JsString
  deriving DecidableEq

structure EnvironmentKey where
  key : JsString
  required : Bool
  secret : Bool
  deriving DecidableEq

structure LockedInstance where
  key : JsString
  pluginId : JsString
  instanceId : JsString
  package : JsString
  enabled : Bool
  required : Bool
  configRef : Option JsString
  fromPreset : Option JsString
  provides : List JsString
  requires : List JsString
  optionalRequires : List JsString
  unresolvedOptional : List JsString
  dependsOn : List JsString
  environment : List EnvironmentKey
  deriving DecidableEq

structure LockedArtifact where
  path : JsString
  digest : JsString
  deriving DecidableEq

/-- What a lock records; its schema version and its note are fixed. -/
structure PluginLockfile where
  presets : List PresetSummary
  resolutionDigest : JsString
  order : List JsString
  capabilities : List (JsString × List JsString)
  hostCapabilities : List JsString
  packages : List LockedPackage
  instances : List LockedInstance
  artifacts : List LockedArtifact
  deriving DecidableEq

section Build

def artifactDigest (sha256Hex : JsString → JsString) (contents : JsString) : JsString :=
  hash sha256Hex contents

/-- Digest of the Prisma fragment a package ships, LF-normalised. -/
def fragmentDigest (input : GeneratorInput N sha256Hex)
    (loaded : LoadedPluginManifest N sha256Hex) : Option JsString :=
  ((schemaFragmentOf loaded.manifest).filter (· ≠ [])).bind (fun fragment =>
    (input.fragmentText loaded.packageName fragment).map (fun contents =>
      hash sha256Hex (normalizeNewlines contents)))

def lockedPackage (input : GeneratorInput N sha256Hex)
    (loaded : LoadedPluginManifest N sha256Hex) : LockedPackage :=
  { name := loaded.packageName
    version := loaded.packageVersion
    digest := loaded.digest
    manifestDigest := loaded.manifestDigest
    schemaDigest := fragmentDigest input loaded
    permissionDigest := none }

omit [JsonNumber N] in
def environmentKeyOf : Json N → Option EnvironmentKey
  | .obj members =>
    (textMember members (js "key")).map (fun key =>
      { key := key
        required := (flagMember members (js "required")).getD false
        secret := (flagMember members (js "secret")).getD false })
  | _ => none

omit [JsonNumber N] in
/-- The environment keys a manifest declares, by name and flags. -/
def environmentOf (manifest : PluginManifestV1 N) : List EnvironmentKey :=
  sortBy (·.key) ((itemsMember manifest.rest (js "environment")).filterMap environmentKeyOf)

/-- The key under which the graph has an entry, by the id of its manifest. -/
def entryKey (loaded : LoadedPluginManifest N sha256Hex) (entry : PluginInventoryEntry) : JsString :=
  instanceKey loaded.manifest.id entry.instanceId

def lockedInstance (input : GeneratorInput N sha256Hex) (entry : PluginInventoryEntry)
    (loaded : LoadedPluginManifest N sha256Hex) : LockedInstance :=
  let key := entryKey loaded entry
  let resolved := lastBy (·.key) input.graph.instances key
  { key := key
    pluginId := loaded.manifest.id
    instanceId := entry.instanceId
    package := loaded.packageName
    enabled := entry.enabled
    required := entry.required
    configRef := entry.configRef
    fromPreset := InsertionMap.get input.presetProvenance key
    provides := resolved.elim [] (·.provides)
    requires := resolved.elim loaded.manifest.requires (·.requires)
    optionalRequires := resolved.elim (loaded.manifest.optionalRequires.getD []) (·.optionalRequires)
    unresolvedOptional := resolved.elim [] (·.unresolvedOptional)
    dependsOn := resolved.elim [] (·.dependsOn)
    environment := environmentOf loaded.manifest }

/-- The entries whose manifest was loaded under their reference. -/
def loadedEntries (input : GeneratorInput N sha256Hex) :
    List (PluginInventoryEntry × LoadedPluginManifest N sha256Hex) :=
  input.plugins.filterMap (fun entry =>
    (InsertionMap.get input.manifests.byRef entry.plugin).map (fun loaded => (entry, loaded)))

def buildLockfile (input : GeneratorInput N sha256Hex) (artifacts : List GeneratedArtifact) :
    PluginLockfile :=
  { presets := input.presetSummary
    resolutionDigest := input.graph.digest
    order := input.graph.order
    capabilities := ofEntries (sortBy Prod.fst (input.graph.providers.map
      (fun e => (e.1, sorted e.2))))
    hostCapabilities := sorted input.graph.hostCapabilities
    packages := sortBy (·.name) (input.loaded.map (lockedPackage input))
    instances := sortBy (·.key) ((loadedEntries input).map (fun e => lockedInstance input e.1 e.2))
    artifacts := sortBy (·.path) (artifacts.map (fun artifact =>
      { path := artifact.path, digest := artifactDigest sha256Hex artifact.contents })) }

end Build

section Compare

def packagesPath : Option JsString := some (LOCKFILE_NAME ++ js "#packages")

def packageAdded (entry : LockedPackage) : PluginDiagnostic :=
  diagnostic (js "plugin-lock-package-added") (entry.name ++ js " is installed but not in the lock")
    none none packagesPath

def versionDrift (entry previous : LockedPackage) : PluginDiagnostic :=
  diagnostic (js "plugin-lock-version-drift")
    (entry.name ++ js " is installed at " ++ entry.version ++ js " but the lock records " ++
      previous.version ++ js (". The package manager ran without " ++
        "`appspine build`, so the reviewed capability graph describes the previous version"))
    none none packagesPath

def manifestTampered (entry previous : LockedPackage) : List PluginDiagnostic :=
  if previous.manifestDigest ≠ entry.manifestDigest then
    [diagnostic (js "plugin-lock-manifest-tampered")
      (entry.name ++ js "@" ++ entry.version ++ js (" has a different manifest than the lock " ++
        "recorded for the same version. The installed package was modified after it was locked"))
      none none packagesPath]
  else []

def schemaDrift (entry previous : LockedPackage) : List PluginDiagnostic :=
  if previous.schemaDigest ≠ entry.schemaDigest then
    [diagnostic (js "plugin-lock-schema-drift")
      (entry.name ++ js "@" ++ entry.version ++
        js " ships a different Prisma fragment than the lock recorded")
      none none packagesPath]
  else []

/-- One package of the fresh lock; a changed version is reported alone. -/
def comparePackage (onDisk : PluginLockfile) (entry : LockedPackage) : List PluginDiagnostic :=
  match lastBy (·.name) onDisk.packages entry.name with
  | none => [packageAdded entry]
  | some previous =>
    if previous.version ≠ entry.version then [versionDrift entry previous]
    else manifestTampered entry previous ++ schemaDrift entry previous

def packageRemoved (fresh : PluginLockfile) (entry : LockedPackage) : List PluginDiagnostic :=
  if fresh.packages.any (fun candidate => candidate.name = entry.name) then []
  else
    [diagnostic (js "plugin-lock-package-removed")
      (entry.name ++ js " is in the lock but no longer referenced by the inventory")
      none none packagesPath]

def resolutionDrift (onDisk fresh : PluginLockfile) : List PluginDiagnostic :=
  if onDisk.resolutionDigest ≠ fresh.resolutionDigest then
    [diagnostic (js "plugin-lock-resolution-drift")
      (js ("the resolved capability graph differs from the one in the lock. Run " ++
        "`appspine build` and review the diff"))
      none none (some (LOCKFILE_NAME ++ js "#resolutionDigest"))]
  else []

def artifactDrift (onDisk : PluginLockfile) (artifact : LockedArtifact) : List PluginDiagnostic :=
  if (onDisk.artifacts.find? (fun candidate => candidate.path = artifact.path)).map (·.digest) =
      some artifact.digest then []
  else
    [diagnostic (js "plugin-lock-artifact-drift")
      (artifact.path ++ js " does not match the digest recorded in the lock")
      none none (some (LOCKFILE_NAME ++ js "#artifacts"))]

def lockMissing : PluginDiagnostic :=
  diagnostic (js "plugin-lock-missing")
    (LOCKFILE_NAME ++ js " is missing or unreadable. Run `appspine build` and commit the result")
    none none (some LOCKFILE_NAME)

def compareLockfile (onDisk : Option PluginLockfile) (fresh : PluginLockfile) :
    List PluginDiagnostic :=
  match onDisk with
  | none => [lockMissing]
  | some onDisk =>
    fresh.packages.flatMap (comparePackage onDisk) ++
      onDisk.packages.flatMap (packageRemoved fresh) ++ resolutionDrift onDisk fresh ++
      fresh.artifacts.flatMap (artifactDrift onDisk)

end Compare

section Drift

variable {onDisk fresh : PluginLockfile}

/-- Both record the same; capabilities are compared by name. -/
structure SameRecord (onDisk fresh : PluginLockfile) : Prop where
  presets : onDisk.presets = fresh.presets
  resolutionDigest : onDisk.resolutionDigest = fresh.resolutionDigest
  order : onDisk.order = fresh.order
  capabilities : ∀ capability, InsertionMap.get onDisk.capabilities capability =
    InsertionMap.get fresh.capabilities capability
  hostCapabilities : onDisk.hostCapabilities = fresh.hostCapabilities
  packages : onDisk.packages = fresh.packages
  instances : onDisk.instances = fresh.instances
  artifacts : onDisk.artifacts = fresh.artifacts

/-- A difference in what the comparison looks at. -/
inductive TrackedDrift (onDisk fresh : PluginLockfile) : Prop
  | added (entry : LockedPackage) (hentry : entry ∈ fresh.packages)
      (hnew : ∀ previous ∈ onDisk.packages, previous.name ≠ entry.name)
  | changed (entry previous : LockedPackage) (hentry : entry ∈ fresh.packages)
      (hprevious : lastBy (·.name) onDisk.packages entry.name = some previous)
      (hchanged : previous.version ≠ entry.version ∨
        previous.manifestDigest ≠ entry.manifestDigest ∨
        previous.schemaDigest ≠ entry.schemaDigest)
  | removed (entry : LockedPackage) (hentry : entry ∈ onDisk.packages)
      (hgone : ∀ candidate ∈ fresh.packages, candidate.name ≠ entry.name)
  | resolution (hdigest : onDisk.resolutionDigest ≠ fresh.resolutionDigest)
  | artifact (artifact : LockedArtifact) (hartifact : artifact ∈ fresh.artifacts)
      (hdigest : ∀ recorded, onDisk.artifacts.find? (fun candidate =>
        candidate.path = artifact.path) = some recorded → recorded.digest ≠ artifact.digest)

/-- Packages of one name, and artefacts of one path, are recorded alike. -/
structure Unambiguous (lock : PluginLockfile) : Prop where
  packages : ∀ entry ∈ lock.packages, ∀ other ∈ lock.packages, entry.name = other.name →
    entry.version = other.version ∧ entry.manifestDigest = other.manifestDigest ∧
      entry.schemaDigest = other.schemaDigest
  artifacts : ∀ artifact ∈ lock.artifacts, ∀ other ∈ lock.artifacts,
    artifact.path = other.path → artifact.digest = other.digest

lemma mem_of_lastBy {α κ : Type*} [DecidableEq κ] {f : α → κ} {xs : List α} {k : κ} {x : α}
    (h : lastBy f xs k = some x) : x ∈ xs ∧ f x = k := by
  refine ⟨List.mem_reverse.mp (List.mem_of_find?_eq_some h), ?_⟩
  simpa using List.find?_some h

lemma lastBy_eq_none {α κ : Type*} [DecidableEq κ] {f : α → κ} {xs : List α} {k : κ} :
    lastBy f xs k = none ↔ ∀ x ∈ xs, f x ≠ k := by
  simp [lastBy, List.find?_eq_none]

lemma exists_lastBy {α κ : Type*} [DecidableEq κ] {f : α → κ} {xs : List α} {x : α} (hx : x ∈ xs) :
    ∃ y, lastBy f xs (f x) = some y := by
  cases hlast : lastBy f xs (f x) with
  | none => exact absurd rfl (lastBy_eq_none.mp hlast x hx)
  | some y => exact ⟨y, rfl⟩

lemma comparePackage_ne_nil {entry : LockedPackage} :
    comparePackage onDisk entry ≠ [] ↔
      (∀ previous ∈ onDisk.packages, previous.name ≠ entry.name) ∨
      ∃ previous, lastBy (·.name) onDisk.packages entry.name = some previous ∧
        (previous.version ≠ entry.version ∨ previous.manifestDigest ≠ entry.manifestDigest ∨
          previous.schemaDigest ≠ entry.schemaDigest) := by
  rw [comparePackage]
  cases hlast : lastBy (·.name) onDisk.packages entry.name with
  | none => exact iff_of_true (List.cons_ne_nil _ _) (.inl (lastBy_eq_none.mp hlast))
  | some previous =>
    have hpresent : ¬ ∀ previous ∈ onDisk.packages, previous.name ≠ entry.name :=
      fun hnew => hnew previous (mem_of_lastBy hlast).1 (mem_of_lastBy hlast).2
    simp only [hpresent, false_or, Option.some.injEq, exists_eq_left']
    by_cases hversion : previous.version = entry.version
    · by_cases hmanifest : previous.manifestDigest = entry.manifestDigest <;>
        by_cases hschema : previous.schemaDigest = entry.schemaDigest <;>
          simp [manifestTampered, schemaDrift, hversion, hmanifest, hschema]
    · simp [hversion]

lemma packageRemoved_ne_nil {entry : LockedPackage} :
    packageRemoved fresh entry ≠ [] ↔ ∀ candidate ∈ fresh.packages, candidate.name ≠ entry.name := by
  rw [packageRemoved]
  split_ifs with hany
  · obtain ⟨candidate, hcandidate, hname⟩ := List.any_eq_true.mp hany
    refine iff_of_false (by simp) ?_
    exact fun hgone => hgone candidate hcandidate (of_decide_eq_true hname)
  · refine iff_of_true (List.cons_ne_nil _ _) ?_
    intro candidate hcandidate hname
    exact hany (List.any_eq_true.mpr ⟨candidate, hcandidate, decide_eq_true hname⟩)

lemma artifactDrift_ne_nil {artifact : LockedArtifact} :
    artifactDrift onDisk artifact ≠ [] ↔ ∀ recorded, onDisk.artifacts.find? (fun candidate =>
      candidate.path = artifact.path) = some recorded → recorded.digest ≠ artifact.digest := by
  rw [artifactDrift]
  cases onDisk.artifacts.find? (fun candidate => candidate.path = artifact.path) with
  | none => simp
  | some recorded => by_cases hdigest : recorded.digest = artifact.digest <;> simp [hdigest]

/-- The comparison reports something exactly when what it looks at differs. -/
lemma compareLockfile_ne_nil_iff :
    compareLockfile (some onDisk) fresh ≠ [] ↔ TrackedDrift onDisk fresh := by
  simp only [compareLockfile, ne_eq, List.append_eq_nil_iff, List.flatMap_eq_nil_iff,
    not_and_or, not_forall]
  constructor
  · rintro (((⟨entry, hentry, hreport⟩ | ⟨entry, hentry, hreport⟩) | hreport) |
      ⟨artifact, hartifact, hreport⟩)
    · rcases comparePackage_ne_nil.mp hreport with hnew | ⟨previous, hprevious, hchanged⟩
      · exact .added entry hentry hnew
      · exact .changed entry previous hentry hprevious hchanged
    · exact .removed entry hentry (packageRemoved_ne_nil.mp hreport)
    · refine .resolution fun hdigest => hreport ?_
      simp [resolutionDrift, hdigest]
    · exact .artifact artifact hartifact (artifactDrift_ne_nil.mp hreport)
  · intro hdrift
    cases hdrift with
    | added entry hentry hnew =>
      exact .inl (.inl (.inl ⟨entry, hentry, comparePackage_ne_nil.mpr (.inl hnew)⟩))
    | changed entry previous hentry hprevious hchanged =>
      exact .inl (.inl (.inl ⟨entry, hentry,
        comparePackage_ne_nil.mpr (.inr ⟨previous, hprevious, hchanged⟩)⟩))
    | removed entry hentry hgone =>
      exact .inl (.inl (.inr ⟨entry, hentry, packageRemoved_ne_nil.mpr hgone⟩))
    | resolution hdigest =>
      refine .inl (.inr ?_)
      simp [resolutionDrift, hdigest]
    | artifact artifact hartifact hdigest =>
      exact .inr ⟨artifact, hartifact, artifactDrift_ne_nil.mpr hdigest⟩

/-- Two locks that record the same differ in the comparison only by what they repeat. -/
lemma SameRecord.trackedDrift_iff (h : SameRecord onDisk fresh) :
    TrackedDrift onDisk fresh ↔ ¬ Unambiguous fresh := by
  constructor
  · rintro hdrift ⟨hpackages, hartifacts⟩
    cases hdrift with
    | added entry hentry hnew => exact hnew entry (h.packages ▸ hentry) rfl
    | changed entry previous hentry hprevious hchanged =>
      obtain ⟨hmem, hname⟩ := mem_of_lastBy hprevious
      obtain ⟨hversion, hmanifest, hschema⟩ :=
        hpackages previous (h.packages ▸ hmem) entry hentry hname
      rcases hchanged with hne | hne | hne
      · exact hne hversion
      · exact hne hmanifest
      · exact hne hschema
    | removed entry hentry hgone => exact hgone entry (h.packages ▸ hentry) rfl
    | resolution hdigest => exact hdigest h.resolutionDigest
    | artifact artifact hartifact hdigest =>
      cases hfind : onDisk.artifacts.find? (fun candidate => candidate.path = artifact.path) with
      | none =>
        exact absurd (decide_eq_true rfl)
          (List.find?_eq_none.mp hfind artifact (h.artifacts ▸ hartifact))
      | some recorded =>
        have hpath : recorded.path = artifact.path := by simpa using List.find?_some hfind
        exact hdigest recorded hfind (hartifacts recorded
          (h.artifacts ▸ List.mem_of_find?_eq_some hfind) artifact hartifact hpath)
  · intro hambiguous
    by_contra hnone
    refine hambiguous ⟨?_, ?_⟩
    · -- each agrees with the last of its name
      have hlast : ∀ entry ∈ fresh.packages, ∀ last,
          lastBy (·.name) fresh.packages entry.name = some last →
          last.version = entry.version ∧ last.manifestDigest = entry.manifestDigest ∧
            last.schemaDigest = entry.schemaDigest := by
        intro entry hentry last hlast
        by_contra hdiffers
        refine hnone (.changed entry last hentry (h.packages ▸ hlast) ?_)
        tauto
      intro entry hentry other hother hname
      obtain ⟨last, hl⟩ := exists_lastBy (f := LockedPackage.name) hentry
      obtain ⟨hv, hm, hs⟩ := hlast entry hentry last hl
      obtain ⟨hv', hm', hs'⟩ := hlast other hother last (hname ▸ hl)
      exact ⟨hv.symm.trans hv', hm.symm.trans hm', hs.symm.trans hs'⟩
    · have hfirst : ∀ artifact ∈ fresh.artifacts, ∃ recorded, fresh.artifacts.find?
          (fun candidate => candidate.path = artifact.path) = some recorded ∧
            recorded.digest = artifact.digest := by
        intro artifact hartifact
        by_contra hdiffers
        refine hnone (.artifact artifact hartifact fun recorded hfind hdigest => ?_)
        exact hdiffers ⟨recorded, h.artifacts ▸ hfind, hdigest⟩
      intro artifact hartifact other hother hpath
      obtain ⟨recorded, hfind, hdigest⟩ := hfirst artifact hartifact
      obtain ⟨recorded', hfind', hdigest'⟩ := hfirst other hother
      rw [← hpath, hfind, Option.some.injEq] at hfind'
      rw [← hdigest, hfind', hdigest']

/-- The comparison is complete for a lock on disk exactly when a difference shows in what it looks
at, and equal locks do not contradict themselves. -/
theorem compareLockfile_complete_iff (onDisk : PluginLockfile) (input : GeneratorInput N sha256Hex)
    (artifacts : List GeneratedArtifact) :
    (compareLockfile (some onDisk) (buildLockfile input artifacts) = [] ↔
        SameRecord onDisk (buildLockfile input artifacts)) ↔
      (¬ SameRecord onDisk (buildLockfile input artifacts) →
        TrackedDrift onDisk (buildLockfile input artifacts)) ∧
      (SameRecord onDisk (buildLockfile input artifacts) →
        Unambiguous (buildLockfile input artifacts)) := by
  have hreports : compareLockfile (some onDisk) (buildLockfile input artifacts) ≠ [] ↔
      TrackedDrift onDisk (buildLockfile input artifacts) := compareLockfile_ne_nil_iff
  constructor
  · intro hiff
    refine ⟨fun hdiffers => hreports.mp (hiff.not.mpr hdiffers), fun hsame => ?_⟩
    by_contra hambiguous
    exact hreports.mpr (hsame.trackedDrift_iff.mpr hambiguous) (hiff.mpr hsame)
  · rintro ⟨hshows, hfine⟩
    constructor
    · intro hnil
      by_contra hdiffers
      exact hreports.mpr (hshows hdiffers) hnil
    · intro hsame
      by_contra hne
      exact hsame.trackedDrift_iff.mp (hreports.mp hne) (hfine hsame)

/-- A lock whose order and instances were emptied by hand is taken for the current one. -/
theorem compareLockfile_misses_instances : ∃ input ∈ (generatorInput
    (installedApp (fun text => text) [plainManifest (js "a") [] []] [enabledEntry (js "@x/a")]) (fun _ _ => none)
    (js "1")).toOption, ∃ onDisk,
    compareLockfile (some onDisk) (buildLockfile input []) = [] ∧
      ¬ SameRecord onDisk (buildLockfile input []) := by
  obtain ⟨input, hinput, hnil, hne⟩ : ∃ input ∈ (generatorInput
      (installedApp (fun text => text) [plainManifest (js "a") [] []] [enabledEntry (js "@x/a")]) (fun _ _ => none)
      (js "1")).toOption,
      compareLockfile (some { buildLockfile input [] with order := [], instances := [] })
        (buildLockfile input []) = [] ∧
      [] ≠ (buildLockfile input []).instances := by
    decide +kernel
  exact ⟨input, hinput, _, hnil, fun hsame => hne hsame.instances⟩

end Drift

end Appspine.Lockfile
