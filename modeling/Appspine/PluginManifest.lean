import Appspine.JsonCanonical

/-!
# Manifests, inventory entries and diagnostics

The data the resolver works on. A manifest is a JSON document; the fields that the
resolver reads are typed, the others stay JSON members in `rest`.
-/
namespace Appspine.PluginManifest
open JsText Utf16 StableSort InsertionMap JsonText

inductive PluginCardinality where
  | singleton
  | multiple
  deriving DecidableEq

inductive PluginDistribution where
  | official
  | appLocal
  deriving DecidableEq

structure ReplacementDeclaration where
  plugin : JsString
  facet : JsString
  contribution : JsString
  reason : JsString
  deriving DecidableEq

structure ConfigSchemaReference where
  configRef : JsString
  deriving DecidableEq

structure BackendFacetContribution (N : Type) where
  exportName : JsString
  controllerRoutes : Option (List JsString)
  providerTokens : Option (List JsString)
  workers : Option (List JsString)
  rest : List (JsString × Json N)

structure OperationsFacetContribution (N : Type) where
  healthIndicatorId : Option JsString
  rest : List (JsString × Json N)

/-- The Prisma facet is an open JSON object. -/
structure PluginFacets (N : Type) where
  backend : Option (BackendFacetContribution N)
  prisma : Option (List (JsString × Json N))
  operations : Option (OperationsFacetContribution N)
  rest : List (JsString × Json N)

structure PluginManifestV1 (N : Type) where
  id : JsString
  cardinality : PluginCardinality
  distribution : Option PluginDistribution
  provides : List JsString
  requires : List JsString
  optionalRequires : Option (List JsString)
  conflicts : Option (List JsString)
  replaces : Option (List ReplacementDeclaration)
  configSchema : Option ConfigSchemaReference
  optionalFailurePolicy : Option (List (JsString × Json N))
  facets : PluginFacets N
  rest : List (JsString × Json N)

section Document

variable {N : Type}

def strings (xs : List JsString) : Json N := .arr (xs.map .str)

/-- An optional member: absent when the value is. -/
def optionalMember (k : JsString) : Option (Json N) → List (JsString × Json N)
  | some j => [(k, j)]
  | none => []

def PluginCardinality.text : PluginCardinality → JsString
  | .singleton => js "singleton"
  | .multiple => js "multiple"

def PluginDistribution.text : PluginDistribution → JsString
  | .official => js "official"
  | .appLocal => js "app-local"

def ReplacementDeclaration.toJson (r : ReplacementDeclaration) : Json N :=
  .obj [(js "plugin", .str r.plugin), (js "facet", .str r.facet),
    (js "contribution", .str r.contribution), (js "reason", .str r.reason)]

def BackendFacetContribution.toJson (b : BackendFacetContribution N) : Json N :=
  .obj ([(js "exportName", .str b.exportName)] ++
    optionalMember (js "controllerRoutes") (b.controllerRoutes.map strings) ++
    optionalMember (js "providerTokens") (b.providerTokens.map strings) ++
    optionalMember (js "workers") (b.workers.map strings) ++ b.rest)

def OperationsFacetContribution.toJson (o : OperationsFacetContribution N) : Json N :=
  .obj (optionalMember (js "healthIndicatorId") (o.healthIndicatorId.map .str) ++ o.rest)

def PluginFacets.toJson (f : PluginFacets N) : Json N :=
  .obj (optionalMember (js "backend") (f.backend.map BackendFacetContribution.toJson) ++
    optionalMember (js "prisma") (f.prisma.map .obj) ++
    optionalMember (js "operations") (f.operations.map OperationsFacetContribution.toJson) ++
    f.rest)

/-- The document the manifest was read from. -/
def PluginManifestV1.toJson (m : PluginManifestV1 N) : Json N :=
  .obj ([(js "id", .str m.id), (js "cardinality", .str m.cardinality.text)] ++
    optionalMember (js "distribution") (m.distribution.map (fun d => .str d.text)) ++
    [(js "provides", strings m.provides), (js "requires", strings m.requires)] ++
    optionalMember (js "optionalRequires") (m.optionalRequires.map strings) ++
    optionalMember (js "conflicts") (m.conflicts.map strings) ++
    optionalMember (js "replaces") (m.replaces.map
      (fun rs => .arr (rs.map ReplacementDeclaration.toJson))) ++
    optionalMember (js "configSchema") (m.configSchema.map
      (fun c => .obj [(js "configRef", .str c.configRef)])) ++
    optionalMember (js "optionalFailurePolicy") (m.optionalFailurePolicy.map .obj) ++
    [(js "facets", m.facets.toJson)] ++ m.rest)

end Document

section Digests

variable {N : Type} [JsonNumber N]

/-- `sha256:<hex>` over the UTF-8 bytes of a text; `sha256Hex` is the hash in hexadecimal. -/
def hash (sha256Hex : JsString → JsString) (input : JsString) : JsString :=
  js "sha256:" ++ sha256Hex input

def manifestDigest (sha256Hex : JsString → JsString) (manifest : Json N) : JsString :=
  hash sha256Hex (canonicalJsonString manifest)

/-- The object that the resolved digest covers. -/
def resolvedManifest (manifest : Json N) (packageName packageVersion : JsString) : Json N :=
  .obj [(js "manifest", manifest), (js "packageName", .str packageName),
    (js "packageVersion", .str packageVersion)]

def resolvedManifestDigest (sha256Hex : JsString → JsString) (manifest : Json N)
    (packageName packageVersion : JsString) : JsString :=
  hash sha256Hex (canonicalJsonString (resolvedManifest manifest packageName packageVersion))

/-- A hash that separates texts without lone surrogates: on the others, UTF-8 itself does not. -/
def Injective (sha256Hex : JsString → JsString) : Prop :=
  Set.InjOn sha256Hex {s | wellFormed s = true}

theorem hash_injOn {sha256Hex : JsString → JsString} (hinj : Injective sha256Hex)
    {s t : JsString} (hs : wellFormed s = true) (ht : wellFormed t = true)
    (h : hash sha256Hex s = hash sha256Hex t) : s = t :=
  hinj hs ht (List.append_cancel_left h)

theorem canonicalJsonString_eq_of_manifestDigest_eq {sha256Hex : JsString → JsString}
    (hinj : Injective sha256Hex) {j j' : Json N}
    (h : manifestDigest sha256Hex j = manifestDigest sha256Hex j') :
    canonicalJsonString j = canonicalJsonString j' :=
  hash_injOn hinj (wellFormed_canonicalJsonString j) (wellFormed_canonicalJsonString j') h

/-- The digest of a manifest never is the digest of that manifest resolved for a package. -/
theorem manifestDigest_ne_resolvedManifestDigest {sha256Hex : JsString → JsString}
    (hinj : Injective sha256Hex) (manifest : Json N) (name version : JsString) :
    manifestDigest sha256Hex manifest ≠ resolvedManifestDigest sha256Hex manifest name version := by
  intro h
  have htext := hash_injOn hinj (wellFormed_canonicalJsonString _)
    (wellFormed_canonicalJsonString _) h
  have hnodup : ([(js "manifest", manifest), (js "packageName", .str name),
      (js "packageVersion", .str version)].map Prod.fst).Nodup := by
    simp only [List.map_cons, List.map_nil]
    decide
  have hlt := length_canonicalJsonString_lt hnodup (k := js "manifest") (by decide)
    (v := manifest) rfl
  rw [resolvedManifest] at htext
  rw [htext] at hlt
  exact lt_irrefl _ hlt

/-- A manifest as the loader returns it, its digests computed from what it holds. -/
structure LoadedPluginManifest (N : Type) [JsonNumber N] (sha256Hex : JsString → JsString) where
  manifest : PluginManifestV1 N
  packageName : JsString
  packageVersion : JsString
  manifestDigest : JsString
  digest : JsString
  manifestDigest_eq : manifestDigest = PluginManifest.manifestDigest sha256Hex manifest.toJson
  digest_eq : digest = resolvedManifestDigest sha256Hex manifest.toJson packageName packageVersion

/-- What `parsePluginManifest` returns for a valid manifest. -/
def LoadedPluginManifest.ofManifest (sha256Hex : JsString → JsString) (manifest : PluginManifestV1 N)
    (packageName packageVersion : JsString) : LoadedPluginManifest N sha256Hex :=
  { manifest := manifest
    packageName := packageName
    packageVersion := packageVersion
    manifestDigest := PluginManifest.manifestDigest sha256Hex manifest.toJson
    digest := resolvedManifestDigest sha256Hex manifest.toJson packageName packageVersion
    manifestDigest_eq := rfl
    digest_eq := rfl }

end Digests

section Inventory

structure PluginInventoryEntry where
  plugin : JsString
  instanceId : JsString
  enabled : Bool
  required : Bool
  configRef : Option JsString
  deriving DecidableEq

def DEFAULT_INSTANCE_ID : JsString := js "default"

/-- Catalog key of an instance; a `default` instance keeps the bare plugin id. -/
def instanceKey (pluginId instanceId : JsString) : JsString :=
  if instanceId = DEFAULT_INSTANCE_ID then pluginId else pluginId ++ unit '#' :: instanceId

/-- Strips the `@scope/` prefix. -/
def inventoryPluginIdOf (pluginRef : JsString) : JsString := afterLast (unit '/') pluginRef

def qualifyCapability (capability instanceId : JsString) : JsString :=
  capability ++ unit '#' :: instanceId

def parseQualifiedCapability (qualified : JsString) : JsString × Option JsString :=
  breakAt (unit '#') qualified

end Inventory

section Diagnostics

inductive DiagnosticSeverity where
  | error
  | warning
  | info
  deriving DecidableEq

structure PluginDiagnostic where
  code : JsString
  severity : DiagnosticSeverity
  message : JsString
  pluginId : Option JsString
  instanceId : Option JsString
  path : Option JsString
  deriving DecidableEq

def hasErrors (diagnostics : List PluginDiagnostic) : Bool :=
  diagnostics.any (fun d => d.severity = .error)

/-- The text diagnostics are sorted by, its fields separated by NUL. -/
def diagnosticKey (d : PluginDiagnostic) : JsString :=
  d.pluginId.getD [] ++ (0 : CodeUnit) :: (d.instanceId.getD [] ++ (0 : CodeUnit) ::
    (d.code ++ (0 : CodeUnit) :: (d.path.getD [] ++ (0 : CodeUnit) :: d.message)))

def sortDiagnostics (diagnostics : List PluginDiagnostic) : List PluginDiagnostic :=
  sortBy diagnosticKey diagnostics

@[simp] theorem hasErrors_append (ds es : List PluginDiagnostic) :
    hasErrors (ds ++ es) = (hasErrors ds || hasErrors es) := by
  simp [hasErrors]

theorem hasErrors_perm {ds es : List PluginDiagnostic} (h : ds.Perm es) :
    hasErrors ds = hasErrors es := by
  rw [Bool.eq_iff_iff, hasErrors, hasErrors, List.any_eq_true, List.any_eq_true]
  simp only [h.mem_iff]

/-- A list of errors reports an error unless it is empty. -/
theorem hasErrors_eq_false_iff {ds : List PluginDiagnostic}
    (h : ∀ d ∈ ds, d.severity = .error) : hasErrors ds = false ↔ ds = [] := by
  constructor
  · intro hno
    rw [List.eq_nil_iff_forall_not_mem]
    intro d hd
    rw [hasErrors, List.any_eq_false] at hno
    exact hno d hd (by simpa using h d hd)
  · rintro rfl
    rfl

theorem sortDiagnostics_perm (ds : List PluginDiagnostic) : (sortDiagnostics ds).Perm ds :=
  sortBy_perm diagnosticKey ds

theorem sortDiagnostics_eq {ds es : List PluginDiagnostic} (h : ds.Perm es)
    (inj : ∀ d ∈ ds, ∀ d' ∈ ds, diagnosticKey d = diagnosticKey d' → d = d') :
    sortDiagnostics ds = sortDiagnostics es := sortBy_eq_of_perm h inj

/-- Rearranged diagnostics sort to the same keys in the same places. -/
theorem map_key_sortDiagnostics {ds es : List PluginDiagnostic} (h : ds.Perm es) :
    (sortDiagnostics ds).map diagnosticKey = (sortDiagnostics es).map diagnosticKey := by
  rw [sortDiagnostics, sortDiagnostics, map_key_sortBy, map_key_sortBy,
    sorted_eq_of_perm (h.map diagnosticKey)]

end Diagnostics

end Appspine.PluginManifest
