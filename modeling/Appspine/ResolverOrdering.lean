import Appspine.JsonNumbers
import Appspine.ResolverLinks

/-!
# The order of a resolution

When the resolver accepts, what it returns, and why every instance comes after the
providers of what it requires. A cycle is reported exactly when there is one.
-/
namespace Appspine.Resolver
open JsText StableSort InsertionMap FrontierOrder JsonText PluginManifest

variable {N Obj : Type} [DecidableEq Obj]

section Severity

variable [JsonNumber N] {sha256Hex : JsString → JsString} {scope : JsString}
  {lookup : PluginInventoryEntry → Option (ResolvableManifest N)}

omit [JsonNumber N] in
theorem entryDiagnostics_error {found : ResolvableManifest N} {e : PluginInventoryEntry} :
    ∀ d ∈ entryDiagnostics scope found e,
      d.severity = .error ∧ d.code ≠ js "dependency-cycle" := by
  intro d hd
  simp only [entryDiagnostics, List.mem_append] at hd
  rcases hd with (hd | hd) | hd
  · unfold optionalWithoutPolicy at hd
    split_ifs at hd
    · rw [List.mem_singleton.mp hd]
      exact ⟨rfl, by simp only [diagnostic]; decide⟩
    · simp at hd
  · unfold configRefMismatch at hd
    split at hd
    · split_ifs at hd
      · rw [List.mem_singleton.mp hd]
        exact ⟨rfl, by simp only [diagnostic]; decide⟩
      · simp at hd
    · simp at hd
  · unfold appLocalClaim at hd
    split_ifs at hd
    · rw [List.mem_singleton.mp hd]
      exact ⟨rfl, by simp only [diagnostic]; decide⟩
    · simp at hd

/-- What holds of a scan whatever it reports. -/
structure ScanInvariant (scan : Scan N) : Prop where
  errors : ∀ d ∈ scan.diagnostics, d.severity = .error ∧ d.code ≠ js "dependency-cycle"
  nodup : (scan.instances.map (·.key)).Nodup
  seen : ∀ i ∈ scan.instances, i.key ∈ scan.seenKeys

theorem scanEntry_invariant {scan : Scan N} (h : ScanInvariant scan) (e : PluginInventoryEntry) :
    ScanInvariant (scanEntry sha256Hex scope lookup scan e) := by
  unfold scanEntry
  cases hl : lookup e with
  | none =>
    refine ⟨?_, h.nodup, h.seen⟩
    intro d hd
    rcases List.mem_append.mp hd with hd | hd
    · exact h.errors d hd
    · rw [List.mem_singleton.mp hd]
      exact ⟨rfl, by simp only [unknownPlugin, diagnostic]; decide⟩
  | some found =>
    simp only
    split_ifs with hseen hen
    · refine ⟨?_, h.nodup, h.seen⟩
      intro d hd
      rcases List.mem_append.mp hd with hd | hd
      · exact h.errors d hd
      · rw [List.mem_singleton.mp hd]
        exact ⟨rfl, by simp only [duplicateInstance, diagnostic]; decide⟩
    · exact ⟨h.errors, h.nodup, fun i hi => List.mem_append_left _ (h.seen i hi)⟩
    · refine ⟨?_, ?_, ?_⟩
      · intro d hd
        rcases List.mem_append.mp hd with hd | hd
        · exact h.errors d hd
        · exact entryDiagnostics_error d hd
      · rw [List.map_append]
        refine h.nodup.append (List.nodup_singleton _) ?_
        simp only [List.map_cons, List.map_nil, List.disjoint_singleton, List.mem_map, not_exists,
          not_and]
        intro i hi hkey
        exact hseen (show keyOf found e ∈ scan.seenKeys from
          (show i.key = keyOf found e from hkey) ▸ h.seen i hi)
      · intro i hi
        rcases List.mem_append.mp hi with hi | hi
        · exact List.mem_append_left _ (h.seen i hi)
        · rw [List.mem_singleton.mp hi]
          exact List.mem_append_right _ (by simp [buildInstance])

theorem scanEntries_invariant (inventory : List PluginInventoryEntry) :
    ScanInvariant (scanEntries sha256Hex scope lookup inventory) := by
  unfold scanEntries
  induction sortBy inventorySortKey inventory using List.reverseRecOn with
  | nil => exact ⟨by simp [Scan.empty], by simp [Scan.empty], by simp [Scan.empty]⟩
  | append_singleton entries e ih =>
    rw [scan_append]
    exact scanEntry_invariant ih e

end Severity

section Accept

variable [JsonNumber N] (sha256Hex : JsString → JsString)

/-- The entries in the order the resolver processes them. -/
def ResolveOptions.entries (options : ResolveOptions N Obj) : List PluginInventoryEntry :=
  sortBy inventorySortKey options.inventory

/-- The instances of the enabled entries, not yet wired. -/
def ResolveOptions.enabled (options : ResolveOptions N Obj) (sha256Hex : JsString → JsString) :
    List (ResolvedPluginInstance N) :=
  enabledInstances sha256Hex options.lookup options.entries

/-- What an input must satisfy to be accepted. -/
structure Accepts (options : ResolveOptions N Obj) (sha256Hex : JsString → JsString) : Prop where
  unambiguous : Unambiguous options.read options.manifests
  acceptable : Acceptable options.scope options.lookup options.inventory
  linked : hasErrors (linkDiagnostics options.hosts (options.enabled sha256Hex)) = false

theorem scan_diagnostics_eq_nil (options : ResolveOptions N Obj) :
    (options.scan sha256Hex).diagnostics = [] ↔
      Acceptable options.scope options.lookup options.inventory := by
  rw [ResolveOptions.scan, scanEntries, (scan_spec _).1]
  have hperm := sortBy_perm inventorySortKey options.inventory
  exact ⟨Acceptable.perm hperm, Acceptable.perm hperm.symm⟩

/-- An acceptable inventory scans to its enabled and disabled instances. -/
theorem scan_of_acceptable {options : ResolveOptions N Obj}
    (h : Acceptable options.scope options.lookup options.inventory) :
    (options.scan sha256Hex).instances = options.enabled sha256Hex ∧
      (options.scan sha256Hex).disabled = disabledInstances options.lookup options.entries :=
  ((scan_spec options.entries).2 ((scan_diagnostics_eq_nil sha256Hex options).mpr h)).2

omit [JsonNumber N] in
theorem index_errors (options : ResolveOptions N Obj) :
    ∀ d ∈ options.index.2, d.severity = .error ∧ d.code ≠ js "dependency-cycle" := by
  rw [ResolveOptions.index, indexManifests_eq]
  intro d hd
  obtain ⟨hsev, hcode⟩ := severity_indexClaims _ _ d hd
  exact ⟨hsev, by rw [hcode]; decide⟩

theorem scan_errors (options : ResolveOptions N Obj) :
    ∀ d ∈ (options.scan sha256Hex).diagnostics,
      d.severity = .error ∧ d.code ≠ js "dependency-cycle" :=
  (scanEntries_invariant options.inventory).errors

/-- Nothing is reported by the index, by the scan or as an error by linking. -/
theorem hasErrors_diagnostics_eq_false (options : ResolveOptions N Obj) :
    hasErrors (options.diagnostics sha256Hex) = false ↔ Accepts options sha256Hex := by
  rw [ResolveOptions.diagnostics, hasErrors_append, hasErrors_append, Bool.or_eq_false_iff,
    Bool.or_eq_false_iff, hasErrors_eq_false_iff (fun d hd => (index_errors options d hd).1),
    hasErrors_eq_false_iff (fun d hd => (scan_errors sha256Hex options d hd).1), index_diagnostics,
    scan_diagnostics_eq_nil]
  constructor
  · rintro ⟨⟨hu, ha⟩, hl⟩
    rw [(scan_of_acceptable sha256Hex ha).1] at hl
    exact ⟨hu, ha, hl⟩
  · rintro ⟨hu, ha, hl⟩
    rw [(scan_of_acceptable sha256Hex ha).1]
    exact ⟨⟨hu, ha⟩, hl⟩

/-- The graph an accepted input resolves to. -/
def ResolveOptions.graph (options : ResolveOptions N Obj) (sha256Hex : JsString → JsString) :
    ResolutionGraph N :=
  assemble sha256Hex options.hosts (options.enabled sha256Hex)
    (disabledInstances options.lookup options.entries)
    (linkDiagnostics options.hosts (options.enabled sha256Hex))

theorem resolvePlugins_of_accepts {options : ResolveOptions N Obj}
    (h : Accepts options sha256Hex) :
    resolvePlugins sha256Hex options = .ok (options.graph sha256Hex) := by
  have hno := (hasErrors_diagnostics_eq_false sha256Hex options).mpr h
  have hindex := (index_diagnostics options).mpr h.unambiguous
  have hscan := (scan_diagnostics_eq_nil sha256Hex options).mpr h.acceptable
  obtain ⟨hinst, hdis⟩ := scan_of_acceptable sha256Hex h.acceptable
  have hdiagnostics : options.diagnostics sha256Hex =
      linkDiagnostics options.hosts (options.enabled sha256Hex) := by
    rw [ResolveOptions.diagnostics, hindex, hscan, hinst]
    rfl
  simp only [resolvePlugins, hno, Bool.false_eq_true, if_false]
  rw [hinst, hdis, hdiagnostics, ResolveOptions.graph]

theorem resolvePlugins_of_not_accepts {options : ResolveOptions N Obj}
    (h : ¬ Accepts options sha256Hex) :
    resolvePlugins sha256Hex options = .error (sortDiagnostics (options.diagnostics sha256Hex)) := by
  have hyes : hasErrors (options.diagnostics sha256Hex) = true := by
    rw [← hasErrors_diagnostics_eq_false, Bool.not_eq_false] at h
    exact h
  simp only [resolvePlugins, hyes, if_true]

/-- The resolver accepts exactly these inputs, with this graph. -/
theorem resolvePlugins_eq_ok {options : ResolveOptions N Obj} {graph : ResolutionGraph N} :
    resolvePlugins sha256Hex options = .ok graph ↔
      Accepts options sha256Hex ∧ graph = options.graph sha256Hex := by
  by_cases h : Accepts options sha256Hex
  · rw [resolvePlugins_of_accepts sha256Hex h, Except.ok.injEq]
    exact ⟨fun heq => ⟨h, heq.symm⟩, fun heq => heq.2.symm⟩
  · rw [resolvePlugins_of_not_accepts sha256Hex h]
    constructor
    · intro heq
      cases heq
    · intro heq
      exact absurd heq.1 h

theorem accepted_iff {options : ResolveOptions N Obj} :
    (∃ graph, resolvePlugins sha256Hex options = .ok graph) ↔ Accepts options sha256Hex :=
  ⟨fun ⟨_, h⟩ => ((resolvePlugins_eq_ok sha256Hex).mp h).1,
    fun h => ⟨_, resolvePlugins_of_accepts sha256Hex h⟩⟩

end Accept

section Edges

variable {hosts : List JsString} {is : List (ResolvedPluginInstance N)}

/-- An instance waits for the other providers of every capability it names, host
capabilities apart. -/
theorem mem_dependsOn {i : ResolvedPluginInstance N} {key : JsString} :
    key ∈ (wire hosts is i).dependsOn ↔
      ∃ c ∈ i.requires ++ i.optionalRequires, c ∉ hosts ∧ key ≠ i.key ∧
        ∃ j ∈ is, j.key = key ∧ c ∈ j.provides := by
  simp only [wire, mem_sorted, mem_distinct, List.mem_flatMap, List.mem_filter, decide_eq_true_eq,
    mem_external, and_assoc]

theorem nodes_dependencyGraph :
    nodes (dependencyGraph (wired hosts is)) = is.map (·.key) := by
  simp [nodes, dependencyGraph, wired, wire, Function.comp_def]

/-- `a` depends on `b`, by the edges of some instance. -/
def DependsOn (is : List (ResolvedPluginInstance N)) (a b : JsString) : Prop :=
  ∃ i ∈ is, i.key = a ∧ b ∈ i.dependsOn

theorem waits_iff {js : List (ResolvedPluginInstance N)} {a b : JsString} :
    Waits (dependencyGraph js) a b ↔ DependsOn js a b := by
  simp only [Waits, dependencyGraph, List.mem_map, Prod.mk.injEq, DependsOn]
  constructor
  · rintro ⟨ds, ⟨i, hi, rfl, rfl⟩, hb⟩
    exact ⟨i, hi, rfl, mem_distinct.mp hb⟩
  · rintro ⟨i, hi, rfl, hb⟩
    exact ⟨_, ⟨i, hi, rfl, rfl⟩, mem_distinct.mpr hb⟩

theorem dependencyGraph_wellFormed (hosts : List JsString) (hn : (is.map (·.key)).Nodup) :
    WellFormed (dependencyGraph (wired hosts is)) where
  nodup := by rwa [nodes_dependencyGraph]
  closed := by
    intro a b hab
    rw [waits_iff] at hab
    obtain ⟨i', hi', _, hb⟩ := hab
    obtain ⟨i, _, rfl⟩ := List.mem_map.mp hi'
    obtain ⟨_, _, _, _, j, hj, rfl, _⟩ := mem_dependsOn.mp hb
    rw [nodes_dependencyGraph]
    exact List.mem_map.mpr ⟨j, hj, rfl⟩

theorem topologicalOrder_diagnostics (hn : (is.map (·.key)).Nodup) :
    (topologicalOrder (wired hosts is)).2 ≠ [] ↔
      ∃ k, Relation.TransGen (DependsOn (wired hosts is)) k k := by
  have hwaits : Waits (dependencyGraph (wired hosts is)) = DependsOn (wired hosts is) := by
    funext a b
    exact propext waits_iff
  rw [← hwaits, ← layered_stuck_iff (dependencyGraph_wellFormed _ hn)]
  simp only [topologicalOrder]
  split_ifs with h <;> simp [h]

theorem code_topologicalOrder :
    ∀ d ∈ (topologicalOrder is).2, d.severity = .error ∧ d.code = js "dependency-cycle" := by
  intro d hd
  simp only [topologicalOrder] at hd
  split_ifs at hd
  · simp at hd
  · rw [List.mem_singleton.mp hd]
    exact ⟨rfl, rfl⟩

/-- The instances in order are the wired instances. -/
theorem orderedInstances_perm {order : List JsString} (hn : (is.map (·.key)).Nodup)
    (ho : order.Perm (is.map (·.key))) :
    (orderedInstances order is).map (·.key) = order ∧ (orderedInstances order is).Perm is := by
  have hfind : ∀ i ∈ is, is.find? (fun j => j.key = i.key) = some i := by
    intro i hi
    cases hf : is.find? (fun j => j.key = i.key) with
    | none => exact absurd (List.find?_eq_none.mp hf i hi) (by simp)
    | some j =>
      have hkey : j.key = i.key := by simpa using List.find?_some hf
      exact congrArg some (List.inj_on_of_nodup_map hn (List.mem_of_find?_eq_some hf) hi hkey)
  have hself : orderedInstances (is.map (·.key)) is = is := by
    rw [orderedInstances, List.filterMap_map]
    exact (List.filterMap_congr hfind).trans List.filterMap_some
  constructor
  · rw [orderedInstances, List.map_filterMap]
    refine (List.filterMap_congr fun key hkey => ?_).trans List.filterMap_some
    obtain ⟨i, hi, rfl⟩ := List.mem_map.mp (ho.mem_iff.mp hkey)
    rw [hfind i hi]
    rfl
  · have hperm : (orderedInstances order is).Perm (orderedInstances (is.map (·.key)) is) :=
      ho.filterMap _
    rwa [hself] at hperm

end Edges

section LinkErrors

variable {hosts : List JsString} {is : List (ResolvedPluginInstance N)}

theorem missingRequired_error (i : ResolvedPluginInstance N) (capability : JsString) :
    ∀ d ∈ missingRequired is i capability,
      d.severity = .error ∧ d.code = js "missing-required-capability" := by
  intro d hd
  unfold missingRequired at hd
  split_ifs at hd
  · rw [List.mem_singleton.mp hd]
    exact ⟨rfl, rfl⟩
  · simp at hd

theorem duplicateContribution_error {id : JsString} {owners : List Contribution} :
    ∀ d ∈ duplicateContribution id owners,
      d.severity = .error ∧ d.code ≠ js "dependency-cycle" := by
  intro d hd
  simp only [duplicateContribution] at hd
  split_ifs at hd
  · simp at hd
  · simp at hd
  · rw [List.mem_singleton.mp hd]
    refine ⟨rfl, ?_⟩
    simp only [diagnostic]
    cases hg : get DUPLICATE_CODES (splitContributionId id).1 with
    | none => decide
    | some code =>
      have hmem := List.mem_map_of_mem (f := Prod.snd) (mem_of_get hg)
      have hall : ∀ c ∈ DUPLICATE_CODES.map Prod.snd, c ≠ js "dependency-cycle" := by decide
      exact hall code hmem

/-- What the checks before the ordering report: errors, none of them a cycle, and the
optional capabilities that nothing provides. -/
theorem before_ordering_cases :
    ∀ d ∈ cardinalityDiagnostics is ++ conflictDiagnostics is ++ duplicateProviderDiagnostics is ++
      hostOverrideDiagnostics hosts is ++ replacesTargetDiagnostics is ++
      requirementDiagnostics hosts is ++ duplicateContributionDiagnostics is,
      (d.severity = .error ∧ d.code ≠ js "dependency-cycle") ∨
        ∃ i ∈ is, ∃ c, d = unresolvedOptionalDiagnostic i c := by
  intro d hd
  simp only [List.mem_append] at hd
  rcases hd with (((((hd | hd) | hd) | hd) | hd) | hd) | hd
  · obtain ⟨e, _, hd⟩ := List.mem_flatMap.mp hd
    unfold cardinalityOf at hd
    split at hd
    · simp at hd
    · split_ifs at hd
      · rw [List.mem_singleton.mp hd]
        exact Or.inl ⟨rfl, by simp only [diagnostic]; decide⟩
      · simp at hd
  · obtain ⟨i, _, hd⟩ := List.mem_flatMap.mp hd
    obtain ⟨c, _, rfl⟩ := List.mem_map.mp hd
    exact Or.inl ⟨rfl, by simp only [diagnostic]; decide⟩
  · obtain ⟨e, _, hd⟩ := List.mem_flatMap.mp hd
    unfold duplicateProvider at hd
    split_ifs at hd
    · simp at hd
    · simp at hd
    · simp at hd
    · rw [List.mem_singleton.mp hd]
      exact Or.inl ⟨rfl, by simp only [diagnostic]; decide⟩
  · obtain ⟨c, _, hd⟩ := List.mem_flatMap.mp hd
    split_ifs at hd
    · rw [List.mem_singleton.mp hd]
      exact Or.inl ⟨rfl, by simp only [diagnostic]; decide⟩
    · simp at hd
  · obtain ⟨i, _, hd⟩ := List.mem_flatMap.mp hd
    obtain ⟨r, _, hd⟩ := List.mem_flatMap.mp hd
    split_ifs at hd
    · simp at hd
    · rw [List.mem_singleton.mp hd]
      exact Or.inl ⟨rfl, by simp only [diagnostic]; decide⟩
  · obtain ⟨i, hi, hd⟩ := List.mem_flatMap.mp hd
    rcases List.mem_append.mp hd with hd | hd
    · obtain ⟨c, _, hd⟩ := List.mem_flatMap.mp hd
      obtain ⟨hsev, hcode⟩ := missingRequired_error i c d hd
      exact Or.inl ⟨hsev, by rw [hcode]; decide⟩
    · obtain ⟨c, _, rfl⟩ := List.mem_map.mp hd
      exact Or.inr ⟨i, hi, c, rfl⟩
  · obtain ⟨e, _, hd⟩ := List.mem_flatMap.mp hd
    exact Or.inl (duplicateContribution_error d hd)

/-- Only the ordering reports a cycle. -/
theorem code_before_ordering :
    ∀ d ∈ cardinalityDiagnostics is ++ conflictDiagnostics is ++ duplicateProviderDiagnostics is ++
      hostOverrideDiagnostics hosts is ++ replacesTargetDiagnostics is ++
      requirementDiagnostics hosts is ++ duplicateContributionDiagnostics is,
      d.code ≠ js "dependency-cycle" := by
  intro d hd
  rcases before_ordering_cases d hd with h | ⟨i, _, c, rfl⟩
  · exact h.2
  · simp only [unresolvedOptionalDiagnostic, diagnostic]
    decide

/-- Without errors, only optional capabilities are reported. -/
theorem linkDiagnostics_of_no_error (h : hasErrors (linkDiagnostics hosts is) = false) :
    ∀ d ∈ linkDiagnostics hosts is, ∃ i ∈ is, ∃ c, d = unresolvedOptionalDiagnostic i c := by
  intro d hd
  rw [hasErrors, List.any_eq_false] at h
  have hsev : d.severity ≠ .error := by simpa using h d hd
  rcases List.mem_append.mp hd with hd | hd
  · rcases before_ordering_cases d hd with hcase | hcase
    · exact absurd hcase.1 hsev
    · exact hcase
  · exact absurd (code_topologicalOrder d hd).1 hsev

/-- Linking without errors: every requirement is met and nothing is left unordered. -/
theorem linked_spec (h : hasErrors (linkDiagnostics hosts is) = false) :
    (∀ i ∈ is, ∀ c ∈ i.requires, c ∈ hosts ∨ ∃ j ∈ is, j.key ≠ i.key ∧ c ∈ j.provides) ∧
      (layered (dependencyGraph (wired hosts is))).2 = [] := by
  rw [linkDiagnostics, hasErrors_append, hasErrors_append, hasErrors_append, Bool.or_eq_false_iff,
    Bool.or_eq_false_iff, Bool.or_eq_false_iff] at h
  obtain ⟨⟨⟨_, hreq⟩, _⟩, hcycle⟩ := h
  constructor
  · intro i hi c hc
    by_contra hcon
    rw [not_or] at hcon
    obtain ⟨hhost, hnone⟩ := hcon
    have hext : external is i c = [] := by
      rw [List.eq_nil_iff_forall_not_mem]
      intro key hkey
      obtain ⟨hne, j, hj, rfl, hp⟩ := mem_external.mp hkey
      exact hnone ⟨j, hj, hne, hp⟩
    obtain ⟨d, hd⟩ : ∃ d, d ∈ missingRequired is i c := by
      rw [missingRequired, if_pos hext]
      exact ⟨_, List.mem_singleton_self _⟩
    have hmem : d ∈ requirementDiagnostics hosts is := by
      refine List.mem_flatMap.mpr ⟨i, hi, List.mem_append_left _ ?_⟩
      exact List.mem_flatMap.mpr ⟨c, by simpa using ⟨hc, hhost⟩, hd⟩
    rw [hasErrors, List.any_eq_false] at hreq
    exact hreq d hmem (by simpa using (missingRequired_error i c d hd).1)
  · have hnil := (hasErrors_eq_false_iff (fun d hd => (code_topologicalOrder d hd).1)).mp hcycle
    simp only [topologicalOrder] at hnil
    split_ifs at hnil with hstuck
    exact hstuck

end LinkErrors

section Soundness

variable [JsonNumber N] (sha256Hex : JsString → JsString)

/-- What the caller gets to see. -/
def reported : Except (List PluginDiagnostic) (ResolutionGraph N) → List PluginDiagnostic
  | .ok graph => graph.diagnostics
  | .error diagnostics => diagnostics

/-- The enabled instances with their edges, as the ordering receives them. -/
def ResolveOptions.linked (options : ResolveOptions N Obj) (sha256Hex : JsString → JsString) :
    List (ResolvedPluginInstance N) :=
  wired options.hosts (options.scan sha256Hex).instances

theorem mem_reported {options : ResolveOptions N Obj} {d : PluginDiagnostic} :
    d ∈ reported (resolvePlugins sha256Hex options) ↔ d ∈ options.diagnostics sha256Hex := by
  unfold resolvePlugins
  simp only
  split_ifs
  · exact mem_sortBy
  · exact mem_sortBy

/-- A cycle is reported exactly when the dependency relation has one. -/
theorem cycle_reported_iff (options : ResolveOptions N Obj) :
    (∃ d ∈ reported (resolvePlugins sha256Hex options), d.code = js "dependency-cycle") ↔
      ∃ k, Relation.TransGen (DependsOn (options.linked sha256Hex)) k k := by
  have hn : ((options.scan sha256Hex).instances.map (·.key)).Nodup :=
    (scanEntries_invariant options.inventory).nodup
  rw [ResolveOptions.linked, ← topologicalOrder_diagnostics hn]
  simp only [mem_reported, ResolveOptions.diagnostics, linkDiagnostics]
  constructor
  · rintro ⟨d, hd, hcode⟩
    rcases List.mem_append.mp hd with hd | hd
    · rcases List.mem_append.mp hd with hd | hd
      · exact absurd hcode (index_errors options d hd).2
      · exact absurd hcode (scan_errors sha256Hex options d hd).2
    · rcases List.mem_append.mp hd with hd | hd
      · exact absurd hcode (code_before_ordering d hd)
      · exact List.ne_nil_of_mem hd
  · intro hne
    obtain ⟨d, hd⟩ := List.exists_mem_of_ne_nil _ hne
    exact ⟨d, List.mem_append_right _ (List.mem_append_right _ hd),
      (code_topologicalOrder d hd).2⟩

theorem nodup_enabled {options : ResolveOptions N Obj} (h : Accepts options sha256Hex) :
    ((options.enabled sha256Hex).map (·.key)).Nodup := by
  rw [← (scan_of_acceptable sha256Hex h.acceptable).1]
  exact (scanEntries_invariant options.inventory).nodup

/-- The order lists the enabled instances. -/
theorem order_perm {options : ResolveOptions N Obj} (h : Accepts options sha256Hex) :
    (options.graph sha256Hex).order.Perm ((options.enabled sha256Hex).map (·.key)) := by
  have hwf := dependencyGraph_wellFormed options.hosts (nodup_enabled sha256Hex h)
  have hcomplete := layered_complete hwf (linked_spec h.linked).2
  rwa [nodes_dependencyGraph] at hcomplete

theorem graph_instances {options : ResolveOptions N Obj} (h : Accepts options sha256Hex) :
    (options.graph sha256Hex).instances.map (·.key) = (options.graph sha256Hex).order ∧
      (options.graph sha256Hex).instances.Perm
        (wired options.hosts (options.enabled sha256Hex)) := by
  have hkeys : (wired options.hosts (options.enabled sha256Hex)).map (·.key) =
      (options.enabled sha256Hex).map (·.key) := by
    simp [wired, wire, Function.comp_def]
  apply orderedInstances_perm
  · rw [hkeys]
    exact nodup_enabled sha256Hex h
  · rw [hkeys]
    exact order_perm sha256Hex h

/-- The keys of the enabled entries are the keys of their instances. -/
theorem keys_enabledInstances {lookup : PluginInventoryEntry → Option (ResolvableManifest N)}
    {es : List PluginInventoryEntry} (h : ∀ e ∈ es, (lookup e).isSome) :
    (es.filter (fun e => e.enabled)).map (fun e => (lookup e).map (fun found => keyOf found e)) =
      ((enabledInstances sha256Hex lookup es).map (·.key)).map some := by
  induction es with
  | nil => rfl
  | cons e es ih =>
    obtain ⟨found, hfound⟩ := Option.isSome_iff_exists.mp (h e (by simp))
    have hrest := ih (fun e' he' => h e' (by simp [he']))
    have hcons : resolvedEntries lookup (e :: es) = (found, e) :: resolvedEntries lookup es := by
      simp [resolvedEntries, hfound]
    unfold enabledInstances at hrest ⊢
    rw [hcons]
    cases hen : e.enabled with
    | false => simpa [hen] using hrest
    | true =>
      simp only [List.filter_cons, hen, if_true, List.map_cons, hrest, hfound]
      rfl

/-- A provider comes before the instances that require what it provides. -/
lemma graph_order_before {options : ResolveOptions N Obj} (h : Accepts options sha256Hex)
    {i j : ResolvedPluginInstance N} (hi : i ∈ (options.graph sha256Hex).instances)
    (hj : j ∈ (options.graph sha256Hex).instances) (hne : j.key ≠ i.key) {c : JsString}
    (hc : c ∈ i.requires ++ i.optionalRequires) (hhost : c ∉ options.hosts)
    (hp : c ∈ j.provides) : [j.key, i.key].Sublist (options.graph sha256Hex).order := by
  have hn := nodup_enabled sha256Hex h
  have hperm := (graph_instances sha256Hex h).2
  obtain ⟨i', hi', rfl⟩ := List.mem_map.mp (hperm.mem_iff.mp hi)
  obtain ⟨j', hj', rfl⟩ := List.mem_map.mp (hperm.mem_iff.mp hj)
  have hdep : DependsOn (wired options.hosts (options.enabled sha256Hex)) i'.key j'.key :=
    ⟨_, List.mem_map_of_mem hi', rfl, mem_dependsOn.mpr ⟨c, hc, hhost, hne, j', hj', rfl, hp⟩⟩
  have hin : i'.key ∈ (options.graph sha256Hex).order :=
    (order_perm sha256Hex h).mem_iff.mpr (List.mem_map_of_mem hi')
  exact layered_ordered (dependencyGraph_wellFormed _ hn) (waits_iff.mpr hdep) hin

/-- Soundness and completeness of the ordering. -/
theorem resolvePlugins_ordering (options : ResolveOptions N Obj) :
    (∀ graph, resolvePlugins sha256Hex options = .ok graph →
      (∃ ks : List JsString, (options.inventory.filter (fun e => e.enabled)).map
          (fun e => (options.lookup e).map (fun found => keyOf found e)) = ks.map some ∧
        graph.order.Perm ks ∧ graph.order.Nodup) ∧
      graph.instances.map (·.key) = graph.order ∧
      (∀ i ∈ graph.instances, ∀ c ∈ i.requires, c ∈ graph.hostCapabilities ∨
        ∃ j ∈ graph.instances, j.key ≠ i.key ∧ c ∈ j.provides) ∧
      (∀ i ∈ graph.instances, ∀ j ∈ graph.instances, j.key ≠ i.key →
        ∀ c ∈ i.requires ++ i.optionalRequires, c ∉ graph.hostCapabilities → c ∈ j.provides →
          graph.order.idxOf j.key < graph.order.idxOf i.key ∧
          (shutdownOrder graph).idxOf i.key < (shutdownOrder graph).idxOf j.key)) ∧
    ((∃ d ∈ reported (resolvePlugins sha256Hex options), d.code = js "dependency-cycle") ↔
      ∃ k, Relation.TransGen (DependsOn (options.linked sha256Hex)) k k) := by
  refine ⟨?_, cycle_reported_iff sha256Hex options⟩
  intro graph hgraph
  obtain ⟨h, rfl⟩ := (resolvePlugins_eq_ok sha256Hex).mp hgraph
  have hn := nodup_enabled sha256Hex h
  have horder := order_perm sha256Hex h
  have hnodup : (options.graph sha256Hex).order.Nodup := horder.nodup_iff.mpr hn
  obtain ⟨hmap, hperm⟩ := graph_instances sha256Hex h
  refine ⟨?_, hmap, ?_, ?_⟩
  · have hperm := (sortBy_perm inventorySortKey options.inventory).symm
    have hkeys : ((options.enabled sha256Hex).map (·.key)).Perm
        ((enabledInstances sha256Hex options.lookup options.inventory).map (·.key)) :=
      ((((resolvedEntries_perm hperm).filter _).map _).map _).symm
    exact ⟨_, keys_enabledInstances sha256Hex h.acceptable.known, horder.trans hkeys, hnodup⟩
  · intro i hi c hc
    obtain ⟨i', hi', rfl⟩ := List.mem_map.mp (hperm.mem_iff.mp hi)
    rcases (linked_spec h.linked).1 i' hi' c hc with hhost | ⟨j, hj, hne, hp⟩
    · exact Or.inl hhost
    · exact Or.inr ⟨wire options.hosts (options.enabled sha256Hex) j,
        hperm.mem_iff.mpr (List.mem_map_of_mem hj), hne, hp⟩
  · intro i hi j hj hne c hc hhost hp
    have hbefore := graph_order_before sha256Hex h hi hj hne hc hhost hp
    constructor
    · exact idxOf_lt_of_sublist hnodup hbefore
    · exact idxOf_lt_of_sublist (List.nodup_reverse.mpr hnodup) hbefore.reverse

end Soundness

section Example

def plainManifest (id : JsString) (provides requires : List JsString) : PluginManifestV1 ℤ :=
  { id := id, cardinality := .singleton, distribution := none, provides := provides,
    requires := requires, optionalRequires := none, conflicts := none, replaces := none,
    configSchema := none, optionalFailurePolicy := none,
    facets := { backend := none, prisma := none, operations := none, rest := [] }, rest := [] }

def published (m : PluginManifestV1 ℤ) : ResolvableManifest ℤ :=
  { manifest := m, packageName := js "@x/" ++ m.id, packageVersion := js "1",
    manifestDigest := none, digest := none }

def enabledEntry (plugin : JsString) : PluginInventoryEntry :=
  { plugin := plugin, instanceId := DEFAULT_INSTANCE_ID, enabled := true, required := true,
    configRef := none }

/-- Plugin `a` requires what plugin `b` provides, and a host capability. -/
def twoPlugins : ResolveOptions ℤ Bool :=
  { inventory := [enabledEntry (js "a"), enabledEntry (js "b")]
    manifests := [false, true]
    read := fun o => published (if o then plainManifest (js "b") [js "c"] []
      else plainManifest (js "a") [] [js "c", js "h"])
    hostCapabilities := some [js "h"]
    officialScope := none }

theorem twoPlugins_accepts : Accepts twoPlugins id :=
  (hasErrors_diagnostics_eq_false id twoPlugins).mp (by decide +kernel)

theorem resolvePlugins_ordering_twoPlugins : ∃ graph, resolvePlugins id twoPlugins = .ok graph ∧
    graph.order = [js "b", js "a"] ∧ graph.order.Nodup ∧
    graph.instances.map (·.key) = graph.order := by
  have hok := resolvePlugins_of_accepts id twoPlugins_accepts
  obtain ⟨⟨_, _, _, hnodup⟩, hmap, _⟩ := (resolvePlugins_ordering id twoPlugins).1 _ hok
  exact ⟨_, hok, by decide +kernel, hnodup, hmap⟩

end Example

end Appspine.Resolver
