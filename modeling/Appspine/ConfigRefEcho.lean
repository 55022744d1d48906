import Appspine.Generate

/-!
# What the check says of a `configRef`

The boundary check stops at a `configRef` that looks like a credential and does not repeat it.
The resolver compares the same text with the manifest and quotes it. Two inventories that differ
in such texts only are told apart exactly where that comparison takes place.
-/
namespace Appspine.Commands
open JsText StableSort InsertionMap JsonText PluginManifest Resolver Appspine.Composition
open ConfigBoundary (checkConfigBoundary entryBoundary isCredentialShaped)
open Inventory hiding keyOf inventorySortKey duplicateInstance

variable {N : Type}

section Core

variable {is js : List (ResolvedPluginInstance N)}

lemma flatMap_of_core {β : Type*} (h : is.map (·.core) = js.map (·.core))
    {f g : ResolvedPluginInstance N → List β} (hf : ∀ i, f i.core = f i) (hg : ∀ i, f i = g i) :
    is.flatMap f = js.flatMap g := by
  have hmap := congrArg (List.flatMap f) h
  simp only [List.flatMap_map, hf] at hmap
  rwa [show g = f from (funext hg).symm]

lemma cardinalityOf_of_core {id : JsString} (h : is.map (·.core) = js.map (·.core)) :
    cardinalityOf id is = cardinalityOf id js := by
  have hlength := congrArg List.length h
  have hkeys := congrArg (List.map (·.key)) h
  simp only [List.length_map] at hlength
  simp only [List.map_map] at hkeys
  cases is with
  | nil =>
    cases js with
    | nil => rfl
    | cons j js => simp at h
  | cons i is =>
    cases js with
    | nil => simp at h
    | cons j js =>
      have hcardinality : i.cardinality = j.cardinality :=
        congrArg (·.cardinality) (List.cons.inj h).1
      have hsorted : sorted ((i :: is).map (·.key)) = sorted ((j :: js).map (·.key)) :=
        congrArg sorted hkeys
      simp only [cardinalityOf, hcardinality, hlength, hsorted]

/-- Instances that agree on what linking reads are told the same. -/
lemma linkDiagnostics_of_core (h : is.map (·.core) = js.map (·.core)) (hosts : List JsString) :
    linkDiagnostics hosts is = linkDiagnostics hosts js := by
  have hcore : SameCore is js := List.Perm.of_eq h
  have hcardinality : cardinalityDiagnostics is = cardinalityDiagnostics js := by
    apply flatMap_sortBy_group_eq (F := cardinalityOf) (G := cardinalityOf)
    · intro id
      have hperm := hcore.map (f := fun i => i.pluginId) (fun _ => rfl)
      simpa only [List.map_map, Function.comp_def] using hperm.mem_iff
    · intro id
      rw [valuesAt_byPluginId, valuesAt_byPluginId]
      apply cardinalityOf_of_core
      have hfilter := congrArg (List.filter (fun i : ResolvedPluginInstance N => i.pluginId = id)) h
      simp only [List.filter_map, Function.comp_def] at hfilter
      exact hfilter
  have hconflict : conflictDiagnostics is = conflictDiagnostics js := by
    apply flatMap_of_core h
    · intro i
      rfl
    · intro i
      simp only [mem_enabledPluginIds hcore]
  have hreplaces : replacesTargetDiagnostics is = replacesTargetDiagnostics js := by
    apply flatMap_of_core h
    · intro i
      rfl
    · intro i
      simp only [mem_enabledPluginIds hcore]
  have hrequires : requirementDiagnostics hosts is = requirementDiagnostics hosts js :=
    flatMap_of_core h (fun _ => rfl) (requirementsOf_eq hcore hosts)
  rw [linkDiagnostics, linkDiagnostics, hcardinality, hconflict, hreplaces, hrequires,
    duplicateProviderDiagnostics_eq hcore, hostOverrideDiagnostics_eq hcore,
    duplicateContributionDiagnostics_eq hcore,
    topologicalOrder_eq (wired_sameCore hcore hosts)]

end Core

section Scan

variable [JsonNumber N] {sha256Hex : JsString → JsString} {scope : JsString}
  {lookup : PluginInventoryEntry → Option (ResolvableManifest N)}

/-- What the loop over the inventory reports of an entry, given the entries before it. -/
def entryReport (scope : JsString) (lookup : PluginInventoryEntry → Option (ResolvableManifest N))
    (before : List PluginInventoryEntry) (entry : PluginInventoryEntry) : List PluginDiagnostic :=
  match lookup entry with
  | none => [unknownPlugin entry]
  | some found =>
    if keyOf found entry ∈ entryKeys lookup before then [duplicateInstance found entry]
    else if entry.enabled then entryDiagnostics scope found entry
    else []

omit [JsonNumber N] in
lemma entryKeys_append (before : List PluginInventoryEntry) (entry : PluginInventoryEntry) :
    entryKeys lookup (before ++ [entry]) =
      entryKeys lookup before ++ ((lookup entry).map (fun found => keyOf found entry)).toList := by
  rw [entryKeys, resolvedEntries_append, List.map_append]
  cases lookup entry <;> rfl

lemma mem_seenKeys (entries : List PluginInventoryEntry) (key : JsString) :
    key ∈ (entries.foldl (scanEntry sha256Hex scope lookup) Scan.empty).seenKeys ↔
      key ∈ entryKeys lookup entries := by
  induction entries using List.reverseRecOn with
  | nil => simp [Scan.empty, entryKeys, resolvedEntries]
  | append_singleton entries e ih =>
    rw [scan_append, entryKeys_append, List.mem_append, ← ih]
    generalize entries.foldl (scanEntry sha256Hex scope lookup) Scan.empty = scan
    cases hl : lookup e with
    | none => simp [scanEntry, hl]
    | some found =>
      by_cases hseen : keyOf found e ∈ scan.seenKeys
      · have hkey : key = keyOf found e → key ∈ scan.seenKeys := fun h => h ▸ hseen
        simpa [scanEntry, hl, hseen] using hkey
      · by_cases hen : e.enabled = true <;> simp [scanEntry, hl, hseen, hen]

lemma scan_diagnostics_append (entries : List PluginInventoryEntry) (e : PluginInventoryEntry) :
    ((entries ++ [e]).foldl (scanEntry sha256Hex scope lookup) Scan.empty).diagnostics =
      (entries.foldl (scanEntry sha256Hex scope lookup) Scan.empty).diagnostics ++
        entryReport scope lookup entries e := by
  rw [scan_append, entryReport, scanEntry]
  cases hl : lookup e with
  | none => rfl
  | some found =>
    simp only [mem_seenKeys]
    by_cases hseen : keyOf found e ∈ entryKeys lookup entries
    · simp [hseen]
    · by_cases hen : e.enabled = true <;> simp [hseen, hen]

lemma mem_scan_diagnostics {entries : List PluginInventoryEntry} {d : PluginDiagnostic} :
    d ∈ (entries.foldl (scanEntry sha256Hex scope lookup) Scan.empty).diagnostics ↔
      ∃ before e after, entries = before ++ e :: after ∧
        d ∈ entryReport scope lookup before e := by
  induction entries using List.reverseRecOn with
  | nil => simp [Scan.empty]
  | append_singleton entries last ih =>
    rw [scan_diagnostics_append, List.mem_append, ih]
    constructor
    · rintro (⟨before, e, after, rfl, hd⟩ | hd)
      · exact ⟨before, e, after ++ [last], by simp, hd⟩
      · exact ⟨entries, last, [], rfl, hd⟩
    · rintro ⟨before, e, after, hsplit, hd⟩
      rcases List.eq_nil_or_concat after with rfl | ⟨after, other, rfl⟩
      · obtain ⟨rfl, hlast⟩ := List.append_inj' hsplit rfl
        obtain rfl : last = e := by simpa using hlast
        exact .inr hd
      · have hsplit' : entries ++ [last] = (before ++ e :: after) ++ [other] := by
          simpa using hsplit
        obtain ⟨rfl, _⟩ := List.append_inj' hsplit' rfl
        exact .inl ⟨before, e, after, rfl, hd⟩

end Scan

section Respelt

variable [JsonNumber N] {sha256Hex : JsString → JsString} {scope : JsString}
  {lookup : PluginInventoryEntry → Option (ResolvableManifest N)}
  {text : PluginInventoryEntry → Option JsString}

/-- The entry with another `configRef`. -/
def respelt (text : PluginInventoryEntry → Option JsString) (entry : PluginInventoryEntry) :
    PluginInventoryEntry := { entry with configRef := text entry }

omit [JsonNumber N] in
lemma entryKeys_respelt (hl : ∀ e, lookup (respelt text e) = lookup e)
    (entries : List PluginInventoryEntry) :
    entryKeys lookup (entries.map (respelt text)) = entryKeys lookup entries := by
  induction entries using List.reverseRecOn with
  | nil => rfl
  | append_singleton entries e ih =>
    rw [List.map_append, List.map_singleton, entryKeys_append, entryKeys_append, ih, hl]
    rfl

omit [JsonNumber N] in
/-- Of an entry whose text is never compared, or is the same, the same is said. -/
lemma entryReport_respelt (hl : ∀ e, lookup (respelt text e) = lookup e)
    (before : List PluginInventoryEntry) (e : PluginInventoryEntry)
    (h : e.enabled = true → ∀ found, lookup e = some found →
      keyOf found e ∉ entryKeys lookup before →
      configRefMismatch found (respelt text e) = configRefMismatch found e) :
    entryReport scope lookup (before.map (respelt text)) (respelt text e) =
      entryReport scope lookup before e := by
  rw [entryReport, entryReport, hl, entryKeys_respelt hl]
  cases hfound : lookup e with
  | none => rfl
  | some found =>
    by_cases hseen : keyOf found e ∈ entryKeys lookup before
    · have hseen' : keyOf found (respelt text e) ∈ entryKeys lookup before := hseen
      simp only [hseen, hseen', if_true]
      rfl
    · have hseen' : keyOf found (respelt text e) ∉ entryKeys lookup before := hseen
      simp only [hseen, hseen', if_false]
      by_cases hen : e.enabled = true
      · have hen' : (respelt text e).enabled = true := hen
        rw [if_pos hen, if_pos hen', entryDiagnostics, entryDiagnostics, h hen found hfound hseen]
        rfl
      · have hen' : ¬ (respelt text e).enabled = true := hen
        rw [if_neg hen, if_neg hen']

lemma scan_instances_respelt (hl : ∀ e, lookup (respelt text e) = lookup e)
    (entries : List PluginInventoryEntry) :
    ((entries.map (respelt text)).foldl (scanEntry sha256Hex scope lookup)
        Scan.empty).instances.map (·.core) =
      (entries.foldl (scanEntry sha256Hex scope lookup) Scan.empty).instances.map (·.core) := by
  induction entries using List.reverseRecOn with
  | nil => rfl
  | append_singleton entries e ih =>
    rw [List.map_append, List.map_singleton, scan_append, scan_append]
    have hseen := @mem_seenKeys N _ sha256Hex scope lookup entries
    have hseen' := @mem_seenKeys N _ sha256Hex scope lookup (entries.map (respelt text))
    rw [entryKeys_respelt hl] at hseen'
    simp only [← hseen] at hseen'
    generalize entries.foldl (scanEntry sha256Hex scope lookup) Scan.empty = scan at *
    generalize (entries.map (respelt text)).foldl (scanEntry sha256Hex scope lookup) Scan.empty =
      scan' at *
    rw [scanEntry, scanEntry, hl]
    cases hfound : lookup e with
    | none => exact ih
    | some found =>
      have hkey : keyOf found (respelt text e) = keyOf found e := rfl
      have hen : (respelt text e).enabled = e.enabled := rfl
      simp only [hkey, hseen', hen]
      split_ifs
      · exact ih
      · exact ih
      · simp only [List.map_append, ih]
        rfl

/-- When every entry is reported alike, so is the inventory. -/
lemma scan_diagnostics_respelt {entries : List PluginInventoryEntry}
    (h : ∀ before e after, entries = before ++ e :: after →
      entryReport scope lookup (before.map (respelt text)) (respelt text e) =
        entryReport scope lookup before e) :
    ((entries.map (respelt text)).foldl (scanEntry sha256Hex scope lookup) Scan.empty).diagnostics =
      (entries.foldl (scanEntry sha256Hex scope lookup) Scan.empty).diagnostics := by
  induction entries using List.reverseRecOn with
  | nil => rfl
  | append_singleton entries e ih =>
    rw [List.map_append, List.map_singleton, scan_diagnostics_append, scan_diagnostics_append,
      h entries e [] rfl, ih]
    rintro before other after rfl
    exact h before other (after ++ [e]) (by simp)

end Respelt

section Echo

variable [JsonNumber N] {sha256Hex : JsString → JsString}
  {manifests : LoadedManifests N sha256Hex} {plugins plugins' : List PluginInventoryEntry}
  {text : PluginInventoryEntry → Option JsString}

/-- The manifest that the resolver of the CLI finds for an entry. -/
def cliLookup (manifests : LoadedManifests N sha256Hex) :
    PluginInventoryEntry → Option (ResolvableManifest N) :=
  (cliOptions [] manifests.toManifestSet AMBIENT_CAPABILITIES).lookup

/-- Two different spellings, both of a credential and neither what the manifest declares. -/
def CredentialRefs (manifests : LoadedManifests N sha256Hex) (e e' : PluginInventoryEntry) : Prop :=
  ∃ c c', e.configRef = some c ∧ e'.configRef = some c' ∧ isCredentialShaped c = true ∧
    isCredentialShaped c' = true ∧ ∀ found schema, cliLookup manifests e = some found →
      found.manifest.configSchema = some schema → c ≠ schema.configRef ∧ c' ≠ schema.configRef

def SameButCredentials (manifests : LoadedManifests N sha256Hex) (e e' : PluginInventoryEntry) :
    Prop :=
  e' = { e with configRef := e'.configRef } ∧
    (e'.configRef = e.configRef ∨ CredentialRefs manifests e e')

/-- The resolver compares the `configRef` of the entry with its manifest: the entry is enabled,
the manifest declares one, and no entry before it in the resolver's order has the same key. -/
def Compared (manifests : LoadedManifests N sha256Hex) (plugins : List PluginInventoryEntry)
    (entry : PluginInventoryEntry) : Prop :=
  entry.enabled = true ∧ ∃ found, cliLookup manifests entry = some found ∧
    found.manifest.configSchema.isSome = true ∧
    ∃ before after, sortBy Resolver.inventorySortKey plugins = before ++ entry :: after ∧
      keyOf found entry ∉ entryKeys (cliLookup manifests) before

lemma checkInventory_diagnostics (plugins : List PluginInventoryEntry)
    (manifests : LoadedManifests N sha256Hex) :
    (checkInventory plugins manifests).diagnostics =
      checkConfigBoundary plugins manifests.byPluginId ++
        if manifests.missing ≠ [] then [resolutionSkipped manifests.missing]
        else sortDiagnostics ((cliOptions plugins manifests.toManifestSet
          AMBIENT_CAPABILITIES).diagnostics sha256Hex) := by
  simp only [checkInventory, resolveInventory]
  split_ifs with hmissing
  · rfl
  · rw [resolvePlugins]
    split_ifs <;> rfl

lemma checkConfigBoundary_respelt
    (h : ∀ e ∈ plugins, SameButCredentials manifests e (respelt text e)) :
    checkConfigBoundary (plugins.map (respelt text)) manifests.byPluginId =
      checkConfigBoundary plugins manifests.byPluginId := by
  rw [checkConfigBoundary, checkConfigBoundary, List.zipIdx_map, List.flatMap_map]
  apply List.flatMap_congr
  rintro ⟨e, index⟩ he
  obtain ⟨_, hsame | ⟨c, c', hc, hc', hshaped, hshaped', _⟩⟩ := h e (List.fst_mem_of_mem_zipIdx he)
  · have hentry : respelt text e = e := by
      rw [respelt] at hsame ⊢
      rw [show text e = e.configRef from hsame]
    simp only [Prod.map_apply, hentry, id_eq]
  · simp only [Prod.map_apply, entryBoundary, hc, hc', Option.elim_some, id_eq,
      ConfigBoundary.configRefDiagnostics, hshaped, hshaped', if_true]
    rfl

omit [JsonNumber N] in
/-- A mismatch that an entry is reported for names the key of the entry. -/
lemma mem_entryReport_mismatch {scope : JsString}
    {lookup : PluginInventoryEntry → Option (ResolvableManifest N)}
    {before : List PluginInventoryEntry} {e : PluginInventoryEntry} {d : PluginDiagnostic}
    (hd : d ∈ entryReport scope lookup before e) (hcode : d.code = js "config-ref-mismatch") :
    ∃ found, lookup e = some found ∧ keyOf found e ∉ entryKeys lookup before ∧
      d ∈ configRefMismatch found e := by
  rw [entryReport] at hd
  split at hd
  · obtain rfl := List.mem_singleton.mp hd
    exact absurd (show js "unknown-plugin" = js "config-ref-mismatch" from hcode) (by decide)
  · rename_i found hfound
    split_ifs at hd with hseen
    · obtain rfl := List.mem_singleton.mp hd
      exact absurd (show js "duplicate-instance" = js "config-ref-mismatch" from hcode) (by decide)
    · rw [entryDiagnostics, List.mem_append, List.mem_append] at hd
      rcases hd with (hd | hd) | hd
      · rw [optionalWithoutPolicy] at hd
        split_ifs at hd
        · obtain rfl := List.mem_singleton.mp hd
          exact absurd (show js "optional-without-failure-policy" = js "config-ref-mismatch" from
            hcode) (by decide)
        · simp at hd
      · exact ⟨found, hfound, hseen, hd⟩
      · rw [appLocalClaim] at hd
        split_ifs at hd
        · obtain rfl := List.mem_singleton.mp hd
          exact absurd (show js "app-local-claim-from-official-scope" = js "config-ref-mismatch" from
            hcode) (by decide)
        · simp at hd
    · simp at hd

omit [JsonNumber N] in
lemma mem_configRefMismatch {found : ResolvableManifest N} {e : PluginInventoryEntry}
    {d : PluginDiagnostic} (hd : d ∈ configRefMismatch found e) :
    ∃ c schema, e.configRef = some c ∧ found.manifest.configSchema = some schema ∧
      d.pluginId = some found.manifest.id ∧ d.instanceId = some (instanceIdOf e) ∧
      d.message = js "inventory configRef " ++ quoted c ++
        js " does not match the manifest's " ++ quoted schema.configRef := by
  rw [configRefMismatch] at hd
  split at hd
  · rename_i c schema hc hschema
    split_ifs at hd
    · rw [List.mem_singleton.mp hd]
      exact ⟨c, schema, hc, hschema, rfl, rfl, rfl⟩
    · simp at hd
  · simp at hd

omit [JsonNumber N] in
/-- The first entry with a key is one entry. -/
lemma first_unique {lookup : PluginInventoryEntry → Option (ResolvableManifest N)}
    {before after before' after' : List PluginInventoryEntry} {e e' : PluginInventoryEntry}
    {found found' : ResolvableManifest N}
    (h : before ++ e :: after = before' ++ e' :: after') (hfound : lookup e = some found)
    (hfound' : lookup e' = some found') (hnew : keyOf found e ∉ entryKeys lookup before)
    (hnew' : keyOf found' e' ∉ entryKeys lookup before')
    (hkey : keyOf found e = keyOf found' e') : e = e' := by
  have hmem : ∀ {es : List PluginInventoryEntry} {e found}, e ∈ es → lookup e = some found →
      keyOf found e ∈ entryKeys lookup es := fun he hl =>
    List.mem_map.mpr ⟨_, mem_resolvedEntries.mpr ⟨he, hl⟩, rfl⟩
  rcases List.append_eq_append_iff.mp h with ⟨between, rfl, hrest⟩ | ⟨between, rfl, hrest⟩
  · cases between with
    | nil => exact (List.cons.inj hrest).1
    | cons x xs =>
      obtain ⟨rfl, _⟩ := List.cons.inj hrest
      exact absurd (hkey ▸ hmem (by simp) hfound) hnew'
  · cases between with
    | nil => exact (List.cons.inj hrest).1.symm
    | cons x xs =>
      obtain ⟨rfl, _⟩ := List.cons.inj hrest
      exact absurd (hkey ▸ hmem (by simp) hfound') hnew

lemma quoted_inj {s t u : JsString} (h : js "inventory configRef " ++ quoted s ++
    js " does not match the manifest's " ++ quoted u = js "inventory configRef " ++ quoted t ++
    js " does not match the manifest's " ++ quoted u) : s = t := by
  have hprefix := List.append_cancel_right (List.append_cancel_right h)
  have hquoted := List.append_cancel_left hprefix
  exact List.append_cancel_right (List.cons.inj hquoted).2

lemma isCredentialShaped_ne_nil {c : JsString} (h : isCredentialShaped c = true) : c ≠ [] := by
  rintro rfl
  exact absurd h (by decide)

/-- Respelt credentials are told apart exactly where one is compared with a manifest. -/
lemma checkInventory_respelt (hmissing : manifests.missing = [])
    (h : ∀ e ∈ plugins, SameButCredentials manifests e (respelt text e)) :
    (checkInventory (plugins.map (respelt text)) manifests).diagnostics =
        (checkInventory plugins manifests).diagnostics ↔
      ∀ e ∈ plugins, text e ≠ e.configRef → ¬ Compared manifests plugins e := by
  have hl : ∀ e, cliLookup manifests (respelt text e) = cliLookup manifests e := fun _ => rfl
  have hsorted : sortBy Resolver.inventorySortKey (plugins.map (respelt text)) =
      (sortBy Resolver.inventorySortKey plugins).map (respelt text) := sortBy_map _ _ _
  simp only [checkInventory_diagnostics, checkConfigBoundary_respelt h, hmissing, ne_eq,
    not_true_eq_false, if_false, List.append_cancel_left_eq]
  set options := cliOptions plugins manifests.toManifestSet AMBIENT_CAPABILITIES
  set options' := cliOptions (plugins.map (respelt text)) manifests.toManifestSet
    AMBIENT_CAPABILITIES
  have hlinks : linkDiagnostics options'.hosts (options'.scan sha256Hex).instances =
      linkDiagnostics options.hosts (options.scan sha256Hex).instances := by
    refine linkDiagnostics_of_core ?_ _
    have hcore := @scan_instances_respelt N _ sha256Hex options.scope _ _ hl
      (sortBy Resolver.inventorySortKey plugins)
    rw [← hsorted] at hcore
    exact hcore
  constructor
  · intro hsame e he hne hcompared
    obtain ⟨hen, found, hfound, hschema, before, after, hsplit, hnew⟩ := hcompared
    obtain ⟨schema, hschema⟩ := Option.isSome_iff_exists.mp hschema
    obtain ⟨_, heq | ⟨c, c', hc, hc', hshaped, _, hdeclared⟩⟩ := h e he
    · exact hne heq
    have hmismatch : configRefMismatch found e ≠ [] := by
      simp [configRefMismatch, hc, hschema, isCredentialShaped_ne_nil hshaped,
        (hdeclared found schema hfound hschema).1]
    obtain ⟨d, hd⟩ := List.exists_mem_of_ne_nil _ hmismatch
    have hcode : d.code = js "config-ref-mismatch" := by
      simp only [configRefMismatch, hc, hschema] at hd
      split_ifs at hd
      · rw [List.mem_singleton.mp hd]
        rfl
      · simp at hd
    have hscan : d ∈ (options.scan sha256Hex).diagnostics := by
      refine mem_scan_diagnostics.mpr ⟨before, e, after, hsplit, ?_⟩
      have hlookup : options.lookup e = some found := hfound
      have hnew' : keyOf found e ∉ entryKeys options.lookup before := hnew
      rw [entryReport, hlookup]
      simp only [if_neg hnew', if_pos hen, entryDiagnostics]
      exact List.mem_append_left _ (List.mem_append_right _ hd)
    -- the other inventory reports it as well, and only the same entry can be its source
    have hscan' : d ∈ (options'.scan sha256Hex).diagnostics := by
      have hperm := ((sortDiagnostics_perm _).symm.trans (List.Perm.of_eq hsame)).trans
        (sortDiagnostics_perm _)
      rw [ResolveOptions.diagnostics, ResolveOptions.diagnostics, hlinks] at hperm
      have hscans := (List.perm_append_left_iff _).mp ((List.perm_append_right_iff _).mp hperm)
      exact hscans.mem_iff.mpr hscan
    obtain ⟨before', e', after', hsplit', hd'⟩ := mem_scan_diagnostics.mp hscan'
    have hsorted' : sortBy Resolver.inventorySortKey options'.inventory =
        (sortBy Resolver.inventorySortKey plugins).map (respelt text) := hsorted
    rw [hsorted'] at hsplit'
    obtain ⟨before₀, rest, hsplit₀, rfl, hrest⟩ := List.map_eq_append_iff.mp hsplit'
    obtain ⟨e₀, after₀, rfl, rfl, rfl⟩ := List.map_eq_cons_iff.mp hrest
    obtain ⟨found', hfound', hnew', hd'⟩ := mem_entryReport_mismatch hd' hcode
    have hfound₀ : cliLookup manifests e₀ = some found' := hfound'
    have hnew₀ : keyOf found' e₀ ∉ entryKeys (cliLookup manifests) before₀ := by
      have hkeys : entryKeys options'.lookup (before₀.map (respelt text)) =
          entryKeys (cliLookup manifests) before₀ := entryKeys_respelt hl before₀
      rwa [hkeys] at hnew'
    obtain ⟨c₁, schema₁, hc₁, hs₁, hid, hinstance, hmessage⟩ := mem_configRefMismatch hd
    obtain ⟨c₂, schema₂, hc₂, hs₂, hid', hinstance', hmessage'⟩ := mem_configRefMismatch hd'
    have hkey : keyOf found e = keyOf found' e₀ := by
      have hids : found.manifest.id = found'.manifest.id :=
        Option.some.inj (hid.symm.trans hid')
      have hinstances : instanceIdOf e = instanceIdOf e₀ :=
        Option.some.inj (hinstance.symm.trans hinstance')
      rw [keyOf, keyOf, hids, hinstances]
    obtain rfl := first_unique (hsplit.symm.trans hsplit₀) hfound hfound₀ hnew hnew₀ hkey
    obtain rfl := Option.some.inj (hfound.symm.trans hfound₀)
    obtain rfl := Option.some.inj (hs₁.symm.trans hs₂)
    have htext := quoted_inj (hmessage.symm.trans hmessage')
    exact hne (hc₂.trans (htext ▸ hc₁.symm))
  · intro hcompared
    have hscans : (options'.scan sha256Hex).diagnostics = (options.scan sha256Hex).diagnostics := by
      have hreports := @scan_diagnostics_respelt N _ sha256Hex options.scope
        (cliLookup manifests) text (sortBy Resolver.inventorySortKey plugins) ?_
      · rw [← hsorted] at hreports
        exact hreports
      · intro before e after hsplit
        refine entryReport_respelt hl before e ?_
        intro hen found hfound hnew
        have he : e ∈ plugins := by
          rw [← (sortBy_perm Resolver.inventorySortKey plugins).mem_iff, hsplit]
          simp
        by_cases heq : text e = e.configRef
        · rw [show respelt text e = e by rw [respelt, heq]]
        · have hschema : found.manifest.configSchema = none := by
            by_contra hsome
            exact hcompared e he heq ⟨hen, found, hfound, Option.isSome_iff_ne_none.mpr hsome,
              before, after, hsplit, hnew⟩
          simp only [configRefMismatch, hschema]
          cases (respelt text e).configRef <;> cases e.configRef <;> rfl
    rw [ResolveOptions.diagnostics, ResolveOptions.diagnostics, hlinks, hscans]
    rfl

omit [JsonNumber N] in
lemma find_of_nodup {entries : List PluginInventoryEntry}
    (hnodup : (entries.map Inventory.keyOf).Nodup) {e : PluginInventoryEntry} (he : e ∈ entries) :
    entries.find? (fun x => Inventory.keyOf x = Inventory.keyOf e) = some e := by
  cases hfind : entries.find? (fun x => Inventory.keyOf x = Inventory.keyOf e) with
  | none => exact absurd (decide_eq_true rfl) (List.find?_eq_none.mp hfind e he)
  | some x =>
    have hkey : Inventory.keyOf x = Inventory.keyOf e := by
      simpa using List.find?_some hfind
    exact congrArg some
      (List.inj_on_of_nodup_map hnodup (List.mem_of_find?_eq_some hfind) he hkey)

/-- The `configRef` that an inventory gives to the instance of an entry. -/
def textIn (plugins : List PluginInventoryEntry) (entry : PluginInventoryEntry) : Option JsString :=
  (plugins.find? (fun x => Inventory.keyOf x = Inventory.keyOf entry)).bind (·.configRef)

/-- Inventories that differ in such texts only are respelt, as each instance has one entry. -/
lemma eq_respelt (hnodup : (plugins.map Inventory.keyOf).Nodup)
    (h : List.Forall₂ (SameButCredentials manifests) plugins plugins') :
    plugins' = plugins.map (respelt (textIn plugins')) := by
  have hkeys : plugins'.map Inventory.keyOf = plugins.map Inventory.keyOf := by
    induction h with
    | nil => rfl
    | cons hhead _ ih =>
      rw [List.map_cons, List.map_cons, ih (List.nodup_cons.mp hnodup).2, hhead.1]
      rfl
  have hnodup' : (plugins'.map Inventory.keyOf).Nodup := hkeys ▸ hnodup
  obtain ⟨hlength, hzip⟩ := List.forall₂_iff_zip.mp h
  have hrespelt : List.Forall₂ (fun e e' => respelt (textIn plugins') e = e') plugins plugins' := by
    refine List.forall₂_iff_zip.mpr ⟨hlength, ?_⟩
    intro e e' hmem
    obtain ⟨hentry, _⟩ := hzip hmem
    have hkey : Inventory.keyOf e' = Inventory.keyOf e := by rw [hentry]; rfl
    have htext : textIn plugins' e = e'.configRef := by
      rw [textIn, ← hkey, find_of_nodup hnodup' (List.of_mem_zip hmem).2]
      rfl
    rw [hentry, respelt, htext]
  exact (List.forall₂_eq_eq_eq ▸ List.forall₂_map_left_iff.mpr hrespelt).symm

/-- Two accepted inventories that differ in credentials only are reported alike exactly when the
resolver does not run, or compares none of the entries that differ. -/
theorem checkInventory_diagnostics_eq_iff {errors : List SchemaError} {candidate : InventoryFile}
    {parsed parsed' : ParsedInventory} (hparse : parseInventory errors candidate = .ok parsed)
    (manifests : LoadedManifests N sha256Hex)
    (h : List.Forall₂ (SameButCredentials manifests) parsed.inventory.plugins
      parsed'.inventory.plugins) :
    (checkInventory parsed'.inventory.plugins manifests).diagnostics =
        (checkInventory parsed.inventory.plugins manifests).diagnostics ↔
      manifests.missing ≠ [] ∨ ∀ e ∈ parsed.inventory.plugins, e ∉ parsed'.inventory.plugins →
        ¬ Compared manifests parsed.inventory.plugins e := by
  have hnodup := (parseInventory_ok hparse).2.1
  have hplugins := eq_respelt hnodup h
  set text := textIn parsed'.inventory.plugins
  have hsame : ∀ e ∈ parsed.inventory.plugins, SameButCredentials manifests e (respelt text e) := by
    rw [hplugins, List.forall₂_map_right_iff, List.forall₂_same] at h
    exact h
  by_cases hmissing : manifests.missing = []
  · have hiff := checkInventory_respelt hmissing hsame
    rw [← hplugins] at hiff
    have hdiffers : ∀ e ∈ parsed.inventory.plugins,
        e ∉ parsed'.inventory.plugins ↔ text e ≠ e.configRef := by
      intro e he
      rw [not_iff_not, hplugins, List.mem_map]
      constructor
      · rintro ⟨e₀, he₀, hrespelt⟩
        have hkey : Inventory.keyOf e₀ = Inventory.keyOf e := hrespelt ▸ rfl
        obtain rfl := List.inj_on_of_nodup_map hnodup he₀ he hkey
        exact congrArg (·.configRef) hrespelt
      · intro htext
        exact ⟨e, he, by rw [respelt, htext]⟩
    rw [hiff]
    constructor
    · intro hnone
      exact .inr fun e he hout => hnone e he ((hdiffers e he).mp hout)
    · rintro (hmissing' | hnone) e he hne
      · exact absurd hmissing hmissing'
      · exact hnone e he ((hdiffers e he).mpr hne)
  · refine iff_of_true ?_ (.inl hmissing)
    rw [checkInventory_diagnostics, checkInventory_diagnostics, if_pos hmissing, if_pos hmissing,
      hplugins, checkConfigBoundary_respelt hsame]

/-- A plugin that reads its configuration from `hr`, or one that takes none. -/
def configured (configSchema : Option ConfigSchemaReference) : PluginManifestV1 ℤ :=
  { plainManifest (js "a") [] [] with configSchema := configSchema }

def credentialEntry (configRef : JsString) : PluginInventoryEntry :=
  { enabledEntry (js "@x/a") with configRef := some configRef }

def configuredManifests (configSchema : Option ConfigSchemaReference) :
    LoadedManifests ℤ (fun text => text) :=
  readManifestsFor (Generate.installedApp (fun text => text) [configured configSchema] []) [js "@x/a"]

lemma sameButCredentials_example {configSchema : Option ConfigSchemaReference}
    (h : ∀ schema, configSchema = some schema → schema.configRef = js "hr") :
    SameButCredentials (configuredManifests configSchema) (credentialEntry (js "ghp_one"))
      (credentialEntry (js "ghp_two")) := by
  refine ⟨rfl, .inr ⟨js "ghp_one", js "ghp_two", rfl, rfl, by decide, by decide, ?_⟩⟩
  intro found schema hfound hschema
  have hmanifest : (cliLookup (configuredManifests configSchema)
      (credentialEntry (js "ghp_one"))).map (·.manifest.configSchema) = some configSchema := rfl
  rw [hfound] at hmanifest
  rw [h schema (Option.some.inj hmanifest ▸ hschema)]
  decide

theorem checkInventory_undeclared : (checkInventory [credentialEntry (js "ghp_two")]
      (configuredManifests none)).diagnostics =
    (checkInventory [credentialEntry (js "ghp_one")] (configuredManifests none)).diagnostics := by
  have hparse : parseInventory [] { presets := none, plugins := [credentialEntry (js "ghp_one")] } =
      .ok ⟨⟨none, [credentialEntry (js "ghp_one")]⟩, []⟩ := rfl
  have hsame : List.Forall₂ (SameButCredentials (configuredManifests none))
      (ParsedInventory.mk ⟨none, [credentialEntry (js "ghp_one")]⟩ []).inventory.plugins
      (ParsedInventory.mk ⟨none, [credentialEntry (js "ghp_two")]⟩ []).inventory.plugins :=
    .cons (sameButCredentials_example nofun) .nil
  refine (checkInventory_diagnostics_eq_iff hparse (configuredManifests none) hsame).mpr (.inr ?_)
  rintro e he _ ⟨_, found, hfound, hschema, _⟩
  obtain rfl := List.mem_singleton.mp he
  have hmanifest : (cliLookup (configuredManifests none)
      (credentialEntry (js "ghp_one"))).map (·.manifest.configSchema) = some none := rfl
  rw [hfound, Option.map_some, Option.some.injEq] at hmanifest
  rw [hmanifest] at hschema
  cases hschema

/-- The resolver quotes a token that an inventory has in the place of a path. -/
theorem configRef_echoed : ∃ (manifests : LoadedManifests ℤ (fun text => text))
    (parsed parsed' : ParsedInventory),
    parseInventory [] { presets := none, plugins := [credentialEntry (js "ghp_one")] } = .ok parsed ∧
    parseInventory [] { presets := none, plugins := [credentialEntry (js "ghp_two")] } = .ok parsed' ∧
    List.Forall₂ (SameButCredentials manifests) parsed.inventory.plugins
      parsed'.inventory.plugins ∧
    (checkInventory parsed'.inventory.plugins manifests).diagnostics ≠
      (checkInventory parsed.inventory.plugins manifests).diagnostics := by
  refine ⟨configuredManifests (some { configRef := js "hr" }), _, _, rfl, rfl,
    .cons (sameButCredentials_example ?_) .nil, by decide +kernel⟩
  intro schema hschema
  exact congrArg (·.configRef) (Option.some.inj hschema).symm

end Echo

end Appspine.Commands
