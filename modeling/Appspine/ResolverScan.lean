import Appspine.Resolver

/-!
# What indexing and scanning report

The index keeps the first claim on each reference and reports the others; the scan
turns the inventory into enabled and disabled instances. Both say when nothing is
reported, in terms that do not mention the order of the inputs.
-/
namespace Appspine.Resolver
open JsText StableSort InsertionMap FrontierOrder JsonText PluginManifest

variable {N Obj : Type} [DecidableEq Obj]

section Index

/-- Every reference with the object that claims it, in the order of the claims. -/
def claims (read : Obj → ResolvableManifest N) (manifests : List Obj) : List (JsString × Obj) :=
  manifests.flatMap (fun entry => (refsOf (read entry)).map (fun ref => (ref, entry)))

/-- No reference is claimed by two objects. -/
def Unambiguous (read : Obj → ResolvableManifest N) (manifests : List Obj) : Prop :=
  ∀ c ∈ claims read manifests, ∀ d ∈ claims read manifests, c.1 = d.1 → c.2 = d.2

def indexClaims (read : Obj → ResolvableManifest N) (cs : List (JsString × Obj)) :
    Entries JsString Obj × List PluginDiagnostic :=
  cs.foldl (fun state c => indexRef read c.2 state c.1) ([], [])

omit [DecidableEq Obj] in
theorem mem_claims {read : Obj → ResolvableManifest N} {manifests : List Obj}
    {c : JsString × Obj} :
    c ∈ claims read manifests ↔ c.2 ∈ manifests ∧ c.1 ∈ refsOf (read c.2) := by
  simp only [claims, List.mem_flatMap, List.mem_map]
  constructor
  · rintro ⟨entry, he, ref, href, rfl⟩
    exact ⟨he, href⟩
  · rintro ⟨he, href⟩
    exact ⟨c.2, he, c.1, href, rfl⟩

theorem indexManifests_eq (read : Obj → ResolvableManifest N) (manifests : List Obj) :
    indexManifests read manifests = indexClaims read (claims read manifests) := by
  simp [indexManifests, indexClaims, claims, List.foldl_flatMap, List.foldl_map]

theorem indexClaims_append (read : Obj → ResolvableManifest N) (cs : List (JsString × Obj))
    (c : JsString × Obj) :
    indexClaims read (cs ++ [c]) = indexRef read c.2 (indexClaims read cs) c.1 := by
  simp [indexClaims]

/-- The first claim on a reference wins. -/
theorem get_indexClaims (read : Obj → ResolvableManifest N) (cs : List (JsString × Obj))
    (ref : JsString) : get (indexClaims read cs).1 ref = get cs ref := by
  induction cs using List.reverseRecOn generalizing ref with
  | nil => rfl
  | append_singleton cs c ih =>
    have hlast : get [c] ref = if c.1 = ref then some c.2 else none := get_cons c [] ref
    rw [indexClaims_append, get_append, hlast, indexRef, ih c.1]
    cases hc : get cs c.1 with
    | none =>
      rw [get_set, ih ref]
      by_cases href : ref = c.1
      · simp [href, hc]
      · simp [href, Ne.symm href]
    | some existing =>
      by_cases hsame : existing = c.2
      · simp only [hsame, ne_eq, not_true_eq_false, if_false, get_set, ih ref]
        by_cases href : ref = c.1
        · simp [href, hc, hsame]
        · simp [href, Ne.symm href]
      · simp only [ne_eq, hsame, not_false_eq_true, if_true, ih ref]
        by_cases href : c.1 = ref
        · simp [← href, hc]
        · simp [href]

omit [DecidableEq Obj] in
/-- When no reference has two claimants, every claim is found. -/
theorem get_of_consistent {cs : List (JsString × Obj)}
    (h : ∀ c ∈ cs, ∀ d ∈ cs, c.1 = d.1 → c.2 = d.2) {ref : JsString} {o : Obj} :
    get cs ref = some o ↔ (ref, o) ∈ cs := by
  constructor
  · exact mem_of_get
  · intro hmem
    cases hg : get cs ref with
    | none => exact absurd (List.mem_map.mpr ⟨_, hmem, rfl⟩) (get_eq_none.mp hg)
    | some o' => exact congrArg some (h _ (mem_of_get hg) _ hmem rfl)

/-- The index reports nothing exactly when no reference has two claimants. -/
theorem indexClaims_diagnostics (read : Obj → ResolvableManifest N) (cs : List (JsString × Obj)) :
    (indexClaims read cs).2 = [] ↔ ∀ c ∈ cs, ∀ d ∈ cs, c.1 = d.1 → c.2 = d.2 := by
  induction cs using List.reverseRecOn with
  | nil => simp [indexClaims]
  | append_singleton cs c ih =>
    have hstep : (indexClaims read (cs ++ [c])).2 = [] ↔
        (indexClaims read cs).2 = [] ∧ ∀ o, get cs c.1 = some o → o = c.2 := by
      rw [indexClaims_append, indexRef, get_indexClaims]
      cases hc : get cs c.1 with
      | none => simp
      | some existing => by_cases hsame : existing = c.2 <;> simp [hsame]
    rw [hstep, ih]
    constructor
    · rintro ⟨hcs, hlast⟩ d hd e he hde
      rw [List.mem_append, List.mem_singleton] at hd he
      rcases hd with hd | rfl <;> rcases he with he | rfl
      · exact hcs d hd e he hde
      · exact hlast d.2 ((get_of_consistent hcs).mpr (hde ▸ hd))
      · exact (hlast e.2 ((get_of_consistent hcs).mpr (hde ▸ he))).symm
      · rfl
    · intro h
      refine ⟨fun d hd e he => h d (by simp [hd]) e (by simp [he]), fun o ho => ?_⟩
      exact h (c.1, o) (by simp [mem_of_get ho]) c (by simp) rfl

theorem severity_indexClaims (read : Obj → ResolvableManifest N) (cs : List (JsString × Obj)) :
    ∀ d ∈ (indexClaims read cs).2,
      d.severity = .error ∧ d.code = js "ambiguous-plugin-reference" := by
  induction cs using List.reverseRecOn with
  | nil => simp [indexClaims]
  | append_singleton cs c ih =>
    intro d hd
    rw [indexClaims_append, indexRef] at hd
    split at hd
    · split_ifs at hd
      · rcases List.mem_append.mp hd with hd | hd
        · exact ih d hd
        · rw [List.mem_singleton.mp hd]
          exact ⟨rfl, rfl⟩
      · exact ih d hd
    · exact ih d hd

theorem index_diagnostics (options : ResolveOptions N Obj) :
    options.index.2 = [] ↔ Unambiguous options.read options.manifests := by
  rw [ResolveOptions.index, indexManifests_eq, indexClaims_diagnostics]
  rfl

/-- The manifest an unambiguous reference stands for. -/
theorem get_index {options : ResolveOptions N Obj}
    (h : Unambiguous options.read options.manifests) {ref : JsString} {o : Obj} :
    get options.index.1 ref = some o ↔ o ∈ options.manifests ∧ ref ∈ refsOf (options.read o) := by
  rw [ResolveOptions.index, indexManifests_eq, get_indexClaims, get_of_consistent h, mem_claims]

end Index

section Scan

variable [JsonNumber N]

/-- Entries with the manifests they resolve to. -/
def resolvedEntries (lookup : PluginInventoryEntry → Option (ResolvableManifest N))
    (entries : List PluginInventoryEntry) : List (ResolvableManifest N × PluginInventoryEntry) :=
  entries.filterMap (fun e => (lookup e).map (fun found => (found, e)))

/-- Keys of the entries, disabled ones included. -/
def entryKeys (lookup : PluginInventoryEntry → Option (ResolvableManifest N))
    (entries : List PluginInventoryEntry) : List JsString :=
  (resolvedEntries lookup entries).map (fun p => keyOf p.1 p.2)

/-- The instances of the enabled entries. -/
def enabledInstances (sha256Hex : JsString → JsString)
    (lookup : PluginInventoryEntry → Option (ResolvableManifest N))
    (entries : List PluginInventoryEntry) : List (ResolvedPluginInstance N) :=
  ((resolvedEntries lookup entries).filter (fun p => p.2.enabled)).map
    (fun p => buildInstance sha256Hex p.1 p.2)

def disabledInstances (lookup : PluginInventoryEntry → Option (ResolvableManifest N))
    (entries : List PluginInventoryEntry) : List DisabledInstance :=
  ((resolvedEntries lookup entries).filter (fun p => !p.2.enabled)).map
    (fun p => disabledInstance p.1 p.2)

/-- What the loop over the inventory demands of the entries. -/
structure Acceptable (scope : JsString)
    (lookup : PluginInventoryEntry → Option (ResolvableManifest N))
    (entries : List PluginInventoryEntry) : Prop where
  known : ∀ e ∈ entries, (lookup e).isSome
  distinctKeys : (entryKeys lookup entries).Nodup
  clean : ∀ p ∈ resolvedEntries lookup entries, p.2.enabled = true →
    entryDiagnostics scope p.1 p.2 = []

variable {sha256Hex : JsString → JsString} {scope : JsString}
  {lookup : PluginInventoryEntry → Option (ResolvableManifest N)}

omit [JsonNumber N] in
theorem mem_resolvedEntries {entries : List PluginInventoryEntry} {found : ResolvableManifest N}
    {e : PluginInventoryEntry} :
    (found, e) ∈ resolvedEntries lookup entries ↔ e ∈ entries ∧ lookup e = some found := by
  simp only [resolvedEntries, List.mem_filterMap, Option.map_eq_some_iff, Prod.mk.injEq]
  constructor
  · rintro ⟨e', he', found', hfound, rfl, rfl⟩
    exact ⟨he', hfound⟩
  · rintro ⟨he, hfound⟩
    exact ⟨e, he, found, hfound, rfl, rfl⟩

omit [JsonNumber N] in
theorem resolvedEntries_perm {es es' : List PluginInventoryEntry} (h : es.Perm es') :
    (resolvedEntries lookup es).Perm (resolvedEntries lookup es') := h.filterMap _

omit [JsonNumber N] in
theorem Acceptable.perm {es es' : List PluginInventoryEntry} (h : es.Perm es')
    (ha : Acceptable scope lookup es) : Acceptable scope lookup es' where
  known e he := ha.known e (h.mem_iff.mpr he)
  distinctKeys := ((resolvedEntries_perm h).map _).nodup_iff.mp ha.distinctKeys
  clean p hp := ha.clean p ((resolvedEntries_perm h).mem_iff.mpr hp)

theorem scan_append (entries : List PluginInventoryEntry) (e : PluginInventoryEntry) :
    (entries ++ [e]).foldl (scanEntry sha256Hex scope lookup) Scan.empty =
      scanEntry sha256Hex scope lookup
        (entries.foldl (scanEntry sha256Hex scope lookup) Scan.empty) e := by
  simp

omit [JsonNumber N] in
theorem resolvedEntries_append (entries : List PluginInventoryEntry) (e : PluginInventoryEntry) :
    resolvedEntries lookup (entries ++ [e]) =
      resolvedEntries lookup entries ++ ((lookup e).map (fun found => (found, e))).toList := by
  simp only [resolvedEntries, List.filterMap_append, List.filterMap_cons, List.filterMap_nil]
  cases lookup e <;> rfl

/-- What one entry adds to a scan that has reported nothing. -/
theorem scanEntry_diagnostics (scan : Scan N) (e : PluginInventoryEntry) :
    (scanEntry sha256Hex scope lookup scan e).diagnostics = [] ↔
      scan.diagnostics = [] ∧ ∃ found, lookup e = some found ∧ keyOf found e ∉ scan.seenKeys ∧
        (e.enabled = true → entryDiagnostics scope found e = []) := by
  unfold scanEntry
  cases hl : lookup e with
  | none => simp
  | some found =>
    by_cases hseen : keyOf found e ∈ scan.seenKeys
    · simp [hseen]
    · by_cases hen : e.enabled = true <;> simp [hseen, hen]

/-- The scan reports nothing exactly when the entries are acceptable, and then it has
collected the enabled and the disabled ones in order. -/
theorem scan_spec (entries : List PluginInventoryEntry) :
    let scan := entries.foldl (scanEntry sha256Hex scope lookup) Scan.empty
    (scan.diagnostics = [] ↔ Acceptable scope lookup entries) ∧
      (scan.diagnostics = [] → scan.seenKeys = entryKeys lookup entries ∧
        scan.instances = enabledInstances sha256Hex lookup entries ∧
        scan.disabled = disabledInstances lookup entries) := by
  induction entries using List.reverseRecOn with
  | nil =>
    refine ⟨⟨fun _ => ⟨by simp, List.nodup_nil, by simp [resolvedEntries]⟩, fun _ => rfl⟩, ?_⟩
    intro _
    exact ⟨rfl, rfl, rfl⟩
  | append_singleton entries e ih =>
    simp only [scan_append, scanEntry_diagnostics]
    obtain ⟨hiff, hvalues⟩ := ih
    constructor
    · constructor
      · rintro ⟨hnone, found, hfound, hnew, hclean⟩
        obtain ⟨hknown, hdistinct, hrest⟩ := hiff.mp hnone
        have happ : resolvedEntries lookup (entries ++ [e]) = _ := resolvedEntries_append entries e
        rw [hfound] at happ
        refine ⟨?_, ?_, ?_⟩
        · intro e' he'
          rcases List.mem_append.mp he' with he' | he'
          · exact hknown e' he'
          · rw [List.mem_singleton.mp he', hfound]
            rfl
        · rw [(hvalues hnone).1] at hnew
          unfold entryKeys at hdistinct hnew ⊢
          rw [happ, List.map_append]
          exact hdistinct.append (List.nodup_singleton _) (by simpa using hnew)
        · rw [happ]
          intro p hp hen
          rcases List.mem_append.mp hp with hp | hp
          · exact hrest p hp hen
          · obtain rfl : p = (found, e) := by simpa using hp
            exact hclean hen
      · rintro ⟨hknown, hdistinct, hclean⟩
        obtain ⟨found, hfound⟩ := Option.isSome_iff_exists.mp (hknown e (by simp))
        have happ : resolvedEntries lookup (entries ++ [e]) = _ := resolvedEntries_append entries e
        rw [hfound] at happ
        unfold entryKeys at hdistinct
        rw [happ, List.map_append, List.nodup_append] at hdistinct
        rw [happ] at hclean
        have hnone := hiff.mpr ⟨fun e' he' => hknown e' (by simp [he']), hdistinct.1,
          fun p hp => hclean p (by simp [hp])⟩
        refine ⟨hnone, found, hfound, ?_, hclean (found, e) (by simp)⟩
        rw [(hvalues hnone).1]
        intro hmem
        exact hdistinct.2.2 _ hmem (keyOf found e) (by simp) rfl
    · rintro ⟨hnone, found, hfound, hnew, hclean⟩
      obtain ⟨hseen, hinstances, hdisabled⟩ := hvalues hnone
      have happ : resolvedEntries lookup (entries ++ [e]) = _ := resolvedEntries_append entries e
      rw [hfound] at happ
      simp only [scanEntry, hfound, if_neg hnew, entryKeys, enabledInstances, disabledInstances,
        happ, List.map_append, List.filter_append] at hseen hinstances hdisabled ⊢
      cases hen : e.enabled <;> simp [hen, hseen, hinstances, hdisabled]

end Scan

end Appspine.Resolver
