import Appspine.ResolverPermutation
import Appspine.ResolverOwnership

/-!
# What removing entries can break

Cardinality, conflicts, host capabilities and the order survive when entries are taken away from
an accepted input. A required capability or a replaced plugin can go missing, and a `replaces`
declaration that goes away can leave two providers or two contributions in conflict.
-/
namespace Appspine.Resolver
open JsText StableSort InsertionMap FrontierOrder JsonText PluginManifest

variable {N : Type}

section Clean

variable {hosts : List JsString} {is : List (ResolvedPluginInstance N)}

/-- No required capability is missing. -/
def RequirementsMet (hosts : List JsString) (is : List (ResolvedPluginInstance N)) : Prop :=
  ∀ i ∈ is, ∀ c ∈ i.requires, c ∉ hosts → external is i c ≠ []

/-- Every plugin that an instance replaces something of is there. -/
def TargetsPresent (is : List (ResolvedPluginInstance N)) : Prop :=
  ∀ i ∈ is, ∀ r ∈ i.replaces, r.plugin ∈ enabledPluginIds is

/-- What linking checks, check by check. -/
structure Linked (hosts : List JsString) (is : List (ResolvedPluginInstance N)) : Prop where
  cardinality : cardinalityDiagnostics is = []
  conflicts : conflictDiagnostics is = []
  providers : duplicateProviderDiagnostics is = []
  hostOwned : hostOverrideDiagnostics hosts is = []
  targets : TargetsPresent is
  requirements : RequirementsMet hosts is
  contributions : duplicateContributionDiagnostics is = []
  order : (topologicalOrder (wired hosts is)).2 = []

lemma severity_cardinality : ∀ d ∈ cardinalityDiagnostics is, d.severity = .error := by
  intro d hd
  obtain ⟨e, _, hd⟩ := List.mem_flatMap.mp hd
  unfold cardinalityOf at hd
  split at hd
  · cases hd
  · split_ifs at hd
    · rw [List.mem_singleton.mp hd]
      rfl
    · cases hd

lemma severity_conflict : ∀ d ∈ conflictDiagnostics is, d.severity = .error := by
  intro d hd
  obtain ⟨i, _, hd⟩ := List.mem_flatMap.mp hd
  obtain ⟨c, _, rfl⟩ := List.mem_map.mp hd
  rfl

lemma replacesTarget_eq_nil : replacesTargetDiagnostics is = [] ↔ TargetsPresent is := by
  rw [replacesTargetDiagnostics, List.flatMap_eq_nil_iff]
  refine forall₂_congr fun i _ => ?_
  rw [List.flatMap_eq_nil_iff]
  constructor
  · intro h r hr
    obtain ⟨n, hn⟩ := List.mem_iff_getElem?.mp hr
    by_contra habsent
    have hone := h (r, n) (List.mk_mem_zipIdx_iff_getElem?.mpr hn)
    simp [habsent] at hone
  · rintro h ⟨r, n⟩ hr
    simp [h r (List.fst_mem_of_mem_zipIdx hr)]

lemma severity_replacesTarget : ∀ d ∈ replacesTargetDiagnostics is, d.severity = .error := by
  intro d hd
  obtain ⟨i, _, hd⟩ := List.mem_flatMap.mp hd
  obtain ⟨r, _, hd⟩ := List.mem_flatMap.mp hd
  split_ifs at hd
  · cases hd
  · rw [List.mem_singleton.mp hd]
    rfl

lemma hasErrors_requirements :
    hasErrors (requirementDiagnostics hosts is) = false ↔ RequirementsMet hosts is := by
  have hany : ∀ ds : List PluginDiagnostic, hasErrors ds = false ↔ ∀ d ∈ ds, d.severity ≠ .error := by
    intro ds
    rw [hasErrors, List.any_eq_false]
    simp
  rw [hany]
  constructor
  · intro h i hi c hc hhost hnil
    have hmissing : (missingRequired is i c) ≠ [] := by simp [missingRequired, hnil]
    obtain ⟨d, hd⟩ := List.exists_mem_of_ne_nil _ hmissing
    refine h d (List.mem_flatMap.mpr ⟨i, hi, List.mem_append_left _ ?_⟩)
      (missingRequired_error i c d hd).1
    exact List.mem_flatMap.mpr ⟨c, List.mem_filter.mpr ⟨hc, decide_eq_true hhost⟩, hd⟩
  · intro h d hd
    obtain ⟨i, hi, hd⟩ := List.mem_flatMap.mp hd
    rcases List.mem_append.mp hd with hd | hd
    · obtain ⟨c, hc, hd⟩ := List.mem_flatMap.mp hd
      obtain ⟨hc, hhost⟩ := List.mem_filter.mp hc
      rw [missingRequired, if_neg (h i hi c hc (of_decide_eq_true hhost))] at hd
      cases hd
    · obtain ⟨c, _, rfl⟩ := List.mem_map.mp hd
      simp [unresolvedOptionalDiagnostic]

lemma hasErrors_link : hasErrors (linkDiagnostics hosts is) = false ↔ Linked hosts is := by
  constructor
  · intro h
    obtain ⟨hproviders, hhosts, hcontributions⟩ := linked_unique h
    rw [linkDiagnostics] at h
    simp only [hasErrors_append, Bool.or_eq_false_iff] at h
    obtain ⟨⟨⟨⟨⟨⟨⟨hcardinality, hconflicts⟩, _⟩, _⟩, htargets⟩, hrequirements⟩, _⟩, horder⟩ := h
    exact
      { cardinality := (hasErrors_eq_false_iff severity_cardinality).mp hcardinality
        conflicts := (hasErrors_eq_false_iff severity_conflict).mp hconflicts
        providers := hproviders
        hostOwned := hhosts
        targets := replacesTarget_eq_nil.mp
          ((hasErrors_eq_false_iff severity_replacesTarget).mp htargets)
        requirements := hasErrors_requirements.mp hrequirements
        contributions := hcontributions
        order := (hasErrors_eq_false_iff fun d hd => (code_topologicalOrder d hd).1).mp horder }
  · intro h
    rw [linkDiagnostics, h.cardinality, h.conflicts, h.providers, h.hostOwned,
      replacesTarget_eq_nil.mpr h.targets, h.contributions, h.order]
    simpa using hasErrors_requirements.mpr h.requirements

end Clean

section Fewer

variable {hosts : List JsString} {is js : List (ResolvedPluginInstance N)}

lemma cardinality_eq_nil : cardinalityDiagnostics is = [] ↔
    ∀ id, cardinalityOf id (is.filter (fun i => i.pluginId = id)) = [] := by
  rw [cardinalityDiagnostics, List.flatMap_eq_nil_iff]
  constructor
  · intro h id
    cases hlist : is.filter (fun i => i.pluginId = id) with
    | nil => rfl
    | cons i rest =>
      have hi : i ∈ is ∧ i.pluginId = id := by
        have hmem : i ∈ is.filter (fun i => i.pluginId = id) := by rw [hlist]; simp
        simpa using List.mem_filter.mp hmem
      refine h (id, i :: rest) ((sortBy_perm _ _).mem_iff.mpr ?_)
      rw [byPluginId, mem_group, valuesAt_byPluginId, hlist]
      exact ⟨List.mem_map.mpr ⟨_, List.mem_map_of_mem hi.1, hi.2⟩, rfl⟩
  · rintro h ⟨id, list⟩ he
    rw [(sortBy_perm _ _).mem_iff, byPluginId, mem_group, valuesAt_byPluginId] at he
    rw [he.2]
    exact h id

lemma cardinality_of_subset (hsub : js ⊆ is) (hnodup : js.Nodup) (hu : UniformCardinality is)
    (h : cardinalityDiagnostics is = []) : cardinalityDiagnostics js = [] := by
  rw [cardinality_eq_nil] at h ⊢
  intro id
  have hfilter : js.filter (fun i => i.pluginId = id) ⊆ is.filter (fun i => i.pluginId = id) :=
    fun i hi => List.mem_filter.mpr ⟨hsub (List.mem_filter.mp hi).1, (List.mem_filter.mp hi).2⟩
  have hlength := ((hnodup.filter _).subperm hfilter).length_le
  have hmany := h id
  cases hleft : js.filter (fun i => i.pluginId = id) with
  | nil => rfl
  | cons j rest =>
    rw [hleft] at hfilter hlength
    have hj : j ∈ is.filter (fun i => i.pluginId = id) := hfilter (by simp)
    cases hall : is.filter (fun i => i.pluginId = id) with
    | nil =>
      rw [hall] at hj
      cases hj
    | cons i others =>
      rw [hall] at hj hlength hmany
      have hi : i ∈ is ∧ i.pluginId = id := by
        have hmem : i ∈ is.filter (fun i => i.pluginId = id) := by rw [hall]; simp
        simpa using List.mem_filter.mp hmem
      have hj' : j ∈ is ∧ j.pluginId = id := by
        have hmem : j ∈ js.filter (fun i => i.pluginId = id) := by rw [hleft]; simp
        obtain ⟨hin, hid⟩ := List.mem_filter.mp hmem
        exact ⟨hsub hin, by simpa using hid⟩
      have hsame : i.cardinality = j.cardinality := hu i hi.1 j hj'.1 (hi.2.trans hj'.2.symm)
      simp only [cardinalityOf] at hmany ⊢
      split_ifs at hmany with hbad
      rw [if_neg]
      rintro ⟨hsingle, hlong⟩
      exact hbad ⟨hsame.trans hsingle, lt_of_lt_of_le hlong hlength⟩

lemma enabledPluginIds_subset (hsub : js ⊆ is) : enabledPluginIds js ⊆ enabledPluginIds is := by
  intro id hid
  obtain ⟨i, hi, rfl⟩ := List.mem_map.mp hid
  exact List.mem_map_of_mem (hsub hi)

lemma conflict_of_subset (hsub : js ⊆ is) (h : conflictDiagnostics is = []) :
    conflictDiagnostics js = [] := by
  rw [conflictDiagnostics, List.flatMap_eq_nil_iff] at h ⊢
  intro j hj
  have hnone := h j (hsub hj)
  rw [List.map_eq_nil_iff, List.filter_eq_nil_iff] at hnone ⊢
  intro c hc hin
  exact hnone c hc (decide_eq_true (enabledPluginIds_subset hsub (of_decide_eq_true hin)))

lemma host_of_subset (hsub : js ⊆ is) (h : hostOverrideDiagnostics hosts is = []) :
    hostOverrideDiagnostics hosts js = [] := by
  rw [hostOverrideDiagnostics, List.flatMap_eq_nil_iff] at h ⊢
  intro capability hcapability
  have hnone := h capability hcapability
  split_ifs at hnone with hprovided
  refine if_neg fun hhas => hprovided ?_
  rw [has_providersOf, List.mem_map] at hhas ⊢
  obtain ⟨⟨c, key⟩, hmem, rfl⟩ := hhas
  obtain ⟨j, hj, rfl, hc⟩ := mem_provisions.mp hmem
  exact ⟨(c, j.key), mem_provisions.mpr ⟨j, hsub hj, rfl, hc⟩, rfl⟩

lemma dependsOn_of_subset (hsub : js ⊆ is) {a b : JsString} (h : DependsOn (wired hosts js) a b) :
    DependsOn (wired hosts is) a b := by
  obtain ⟨i', hi', hkey, hb⟩ := h
  obtain ⟨i, hi, rfl⟩ := List.mem_map.mp hi'
  obtain ⟨c, hc, hhost, hne, j, hj, hjkey, hprovides⟩ := mem_dependsOn.mp hb
  refine ⟨wire hosts is i, List.mem_map_of_mem (hsub hi), hkey, ?_⟩
  exact mem_dependsOn.mpr ⟨c, hc, hhost, hne, j, hsub hj, hjkey, hprovides⟩

lemma order_of_subset (hsub : js ⊆ is) (hn : (is.map (·.key)).Nodup) (hn' : (js.map (·.key)).Nodup)
    (h : (topologicalOrder (wired hosts is)).2 = []) : (topologicalOrder (wired hosts js)).2 = [] := by
  by_contra hcycle
  obtain ⟨k, hk⟩ := (topologicalOrder_diagnostics hn').mp hcycle
  have hlift : Relation.TransGen (DependsOn (wired hosts is)) k k :=
    hk.lift id fun _ _ hab => dependsOn_of_subset hsub hab
  exact (topologicalOrder_diagnostics hn).mpr ⟨k, hlift⟩ h

/-- Of linking, these four checks can fail when instances are taken away. -/
lemma linked_of_subset (hsub : js ⊆ is) (hn : (is.map (·.key)).Nodup) (hn' : (js.map (·.key)).Nodup)
    (hu : UniformCardinality is) (h : Linked hosts is) :
    Linked hosts js ↔ RequirementsMet hosts js ∧ TargetsPresent js ∧
      duplicateProviderDiagnostics js = [] ∧ duplicateContributionDiagnostics js = [] := by
  constructor
  · exact fun h' => ⟨h'.requirements, h'.targets, h'.providers, h'.contributions⟩
  · rintro ⟨hrequirements, htargets, hproviders, hcontributions⟩
    exact
      { cardinality := cardinality_of_subset hsub hn'.of_map hu h.cardinality
        conflicts := conflict_of_subset hsub h.conflicts
        providers := hproviders
        hostOwned := host_of_subset hsub h.hostOwned
        targets := htargets
        requirements := hrequirements
        contributions := hcontributions
        order := order_of_subset hsub hn hn' h.order }

end Fewer

section Remaining

variable [JsonNumber N] {Obj Obj' : Type} [DecidableEq Obj] [DecidableEq Obj']
  {options : ResolveOptions N Obj} {options' : ResolveOptions N Obj'}
  {sha256Hex : JsString → JsString}

/-- An input with some of the entries, and some of the manifests: what an entry still resolves to
is what it resolved to before. -/
structure Remains (options : ResolveOptions N Obj) (options' : ResolveOptions N Obj') : Prop where
  inventory : options'.inventory.Subperm options.inventory
  hosts : options'.hosts = options.hosts
  scope : options'.scope = options.scope
  manifests : ∃ embed : Obj' → Obj, Function.Injective embed ∧
    ∀ o ∈ options'.manifests, embed o ∈ options.manifests ∧ options'.read o = options.read (embed o)
  lookup : ∀ e ∈ options'.inventory, ∀ found, options'.lookup e = some found →
    options.lookup e = some found

/-- What can fail of an input with fewer entries. -/
structure Unbroken (options : ResolveOptions N Obj) (sha256Hex : JsString → JsString) : Prop where
  known : ∀ e ∈ options.inventory, (options.lookup e).isSome
  requirements : RequirementsMet options.hosts (options.enabled sha256Hex)
  targets : TargetsPresent (options.enabled sha256Hex)
  providers : duplicateProviderDiagnostics (options.enabled sha256Hex) = []
  contributions : duplicateContributionDiagnostics (options.enabled sha256Hex) = []

omit [JsonNumber N] in
lemma Remains.unambiguous (h : Remains options options')
    (hu : Unambiguous options.read options.manifests) :
    Unambiguous options'.read options'.manifests := by
  obtain ⟨embed, hinjective, hembed⟩ := h.manifests
  rintro ⟨ref, a⟩ ha ⟨ref', b⟩ hb hrefs
  rw [mem_claims] at ha hb
  obtain ⟨hmem, hread⟩ := hembed a ha.1
  obtain ⟨hmem', hread'⟩ := hembed b hb.1
  refine hinjective (hu (ref, embed a) (mem_claims.mpr ⟨hmem, ?_⟩) (ref', embed b)
    (mem_claims.mpr ⟨hmem', ?_⟩) hrefs)
  · rw [← hread]
    exact ha.2
  · rw [← hread']
    exact hb.2

omit [JsonNumber N] in
lemma Remains.resolvedEntries_subperm (h : Remains options options')
    (hknown : ∀ e ∈ options'.inventory, (options'.lookup e).isSome) :
    (resolvedEntries options'.lookup options'.inventory).Subperm
      (resolvedEntries options.lookup options.inventory) := by
  have hsame : resolvedEntries options'.lookup options'.inventory =
      resolvedEntries options.lookup options'.inventory := by
    refine List.filterMap_congr fun e he => ?_
    obtain ⟨found, hfound⟩ := Option.isSome_iff_exists.mp (hknown e he)
    rw [hfound, h.lookup e he found hfound]
  rw [hsame]
  obtain ⟨entries, hperm, hsublist⟩ := h.inventory
  exact ⟨resolvedEntries options.lookup entries, hperm.filterMap _, hsublist.filterMap _⟩

omit [JsonNumber N] in
lemma Remains.acceptable (h : Remains options options')
    (ha : Acceptable options.scope options.lookup options.inventory)
    (hknown : ∀ e ∈ options'.inventory, (options'.lookup e).isSome) :
    Acceptable options'.scope options'.lookup options'.inventory := by
  have hsub := h.resolvedEntries_subperm hknown
  refine ⟨hknown, ?_, ?_⟩
  · obtain ⟨entries, hperm, hsublist⟩ := hsub
    exact ((hperm.map _).nodup_iff).mp (ha.distinctKeys.sublist (hsublist.map _))
  · intro p hp henabled
    rw [h.scope]
    exact ha.clean p (hsub.subset hp) henabled

lemma Remains.enabled_subset (h : Remains options options') :
    options'.enabled sha256Hex ⊆ options.enabled sha256Hex := by
  intro i hi
  obtain ⟨e, he, henabled, found, hfound, rfl⟩ := mem_enabled.mp hi
  exact mem_enabled.mpr ⟨e, h.inventory.subset he, henabled, found, h.lookup e he found hfound, rfl⟩

lemma nodup_enabled_of_acceptable
    (ha : Acceptable options.scope options.lookup options.inventory) :
    ((options.enabled sha256Hex).map (·.key)).Nodup := by
  rw [← (scan_of_acceptable sha256Hex ha).1]
  exact (scanEntries_invariant options.inventory).nodup

/-- What remains of an accepted input is accepted exactly when it is unbroken. -/
lemma Remains.accepts_iff (h : Remains options options') (ha : Accepts options sha256Hex) :
    Accepts options' sha256Hex ↔ Unbroken options' sha256Hex := by
  have hn := nodup_enabled sha256Hex ha
  have hlinked : ∀ hacceptable : Acceptable options'.scope options'.lookup options'.inventory,
      Linked options'.hosts (options'.enabled sha256Hex) ↔ _ := fun hacceptable =>
    linked_of_subset h.enabled_subset hn (nodup_enabled_of_acceptable hacceptable)
      (uniformCardinality ha.unambiguous) (h.hosts ▸ hasErrors_link.mp ha.linked)
  constructor
  · intro h'
    obtain ⟨hrequirements, htargets, hproviders, hcontributions⟩ :=
      (hlinked h'.acceptable).mp (hasErrors_link.mp h'.linked)
    exact ⟨h'.acceptable.known, hrequirements, htargets, hproviders, hcontributions⟩
  · intro h'
    have hacceptable := h.acceptable ha.acceptable h'.known
    refine ⟨h.unambiguous ha.unambiguous, hacceptable, hasErrors_link.mpr ?_⟩
    exact (hlinked hacceptable).mpr ⟨h'.requirements, h'.targets, h'.providers, h'.contributions⟩

end Remaining

end Appspine.Resolver
