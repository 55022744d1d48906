import Appspine.ResolverOwnership

/-!
# Replaced contributions

A `replaces` declaration names a plugin, a facet and a contribution; the duplicate check
goes by the plugin and the contribution alone. What an accepted resolution says about two
instances that contribute the same thing.
-/
namespace Appspine.Resolver
open JsText StableSort InsertionMap FrontierOrder JsonText PluginManifest

variable {N Obj : Type} [DecidableEq Obj]

/-- The facet a kind of contribution belongs to. -/
def facetOf (kind : JsString) : JsString :=
  if kind = js "health-indicator" then js "operations"
  else if kind = js "prisma-model" then js "prisma"
  else js "backend"

/-- Both instances contribute the thing, and not as two instances of a plugin that share it. -/
structure Duplicated (i j : ResolvedPluginInstance N) (kind value : JsString) : Prop where
  distinct : i.key ≠ j.key
  left : ∃ c ∈ collectContributions i, c.kind = kind ∧ c.value = value
  right : ∃ c ∈ collectContributions j, c.kind = kind ∧ c.value = value
  unshared : ¬ (kind ∈ SHARED_ACROSS_INSTANCES ∧ i.pluginId = j.pluginId)

/-- A declaration names this contribution of one of the two plugins, facet included. -/
def ReplacedExactly (is : List (ResolvedPluginInstance N)) (i j : ResolvedPluginInstance N)
    (kind value : JsString) : Prop :=
  ∃ k ∈ is, ∃ r ∈ k.replaces, (r.plugin = i.pluginId ∨ r.plugin = j.pluginId) ∧
    r.facet = facetOf kind ∧ r.contribution = value

/-- Whatever two instances duplicate is replaced by an exact declaration. -/
def ExactReplacement (is : List (ResolvedPluginInstance N)) : Prop :=
  ∀ i ∈ is, ∀ j ∈ is, ∀ kind value, Duplicated i j kind value → ReplacedExactly is i j kind value

/-- Where the joined text of a declaration meets that of a duplicated contribution, some
declaration is exact about it. -/
def DeclaredExactly (is : List (ResolvedPluginInstance N)) : Prop :=
  ∀ k ∈ is, ∀ r ∈ k.replaces, ∀ i ∈ is, ∀ j ∈ is, ∀ kind value, Duplicated i j kind value →
    r.plugin ++ js "::" ++ r.contribution = i.pluginId ++ js "::" ++ value →
      ReplacedExactly is i j kind value

section Collected

lemma kind_collectContributions {i : ResolvedPluginInstance N} {c : Contribution}
    (h : c ∈ collectContributions i) :
    c.key = i.key ∧ c.pluginId = i.pluginId ∧
      c.kind ∈ [js "route", js "provider-token", js "worker", js "backend-module",
        js "health-indicator", js "prisma-model"] := by
  have hpush : ∀ kind value : JsString, kind ∈ [js "route", js "provider-token", js "worker",
      js "backend-module", js "health-indicator", js "prisma-model"] →
      c = { kind := kind, value := value, key := i.key, pluginId := i.pluginId } →
      c.key = i.key ∧ c.pluginId = i.pluginId ∧
        c.kind ∈ [js "route", js "provider-token", js "worker", js "backend-module",
          js "health-indicator", js "prisma-model"] := by
    rintro kind value hkind rfl
    exact ⟨rfl, rfl, hkind⟩
  simp only [collectContributions, List.mem_append] at h
  rcases h with (h | h) | h
  · cases hb : i.manifest.facets.backend with
    | none => simp [hb] at h
    | some b =>
      simp only [hb, List.mem_append, List.mem_map] at h
      rcases h with ((⟨v, _, rfl⟩ | ⟨v, _, rfl⟩) | ⟨v, _, rfl⟩) | h
      · exact hpush _ _ (by simp) rfl
      · exact hpush _ _ (by simp) rfl
      · exact hpush _ _ (by simp) rfl
      · split_ifs at h
        · simp at h
        · exact hpush _ _ (by simp) (List.mem_singleton.mp h)
  · cases ho : i.manifest.facets.operations.bind (·.healthIndicatorId) with
    | none => simp [ho] at h
    | some id =>
      simp only [ho] at h
      split_ifs at h
      · simp at h
      · exact hpush _ _ (by simp) (List.mem_singleton.mp h)
      · exact hpush _ _ (by simp) (List.mem_singleton.mp h)
  · obtain ⟨v, _, rfl⟩ := List.mem_map.mp h
    exact hpush _ _ (by simp) rfl

/-- The kinds contain no separator, so an id splits where it was joined. -/
lemma splitContributionId_kind {kind : JsString} (h : kind ∈ [js "route", js "provider-token",
    js "worker", js "backend-module", js "health-indicator", js "prisma-model"])
    (value : JsString) : (splitContributionId (kind ++ js "::" ++ value)).1 = kind := by
  have hfree : unit ':' ∉ kind := by
    revert kind
    decide
  have hbreak : breakOn (js "::") (kind ++ js "::" ++ value) = (kind, some value) :=
    breakOn_append hfree
  rw [splitContributionId, hbreak]

end Collected

section Suppressed

variable {hosts : List JsString} {is js : List (ResolvedPluginInstance N)}

/-- What two instances duplicate without sharing it is suppressed for one of them. -/
lemma suppressed_of_duplicated (hnone : duplicateContributionDiagnostics is = [])
    {i j : ResolvedPluginInstance N} (hi : i ∈ is) (hj : j ∈ is) {kind value : JsString}
    (h : Duplicated i j kind value) :
    i.pluginId ++ JsText.js "::" ++ value ∈ replacementKeysOf is ∨
      j.pluginId ++ JsText.js "::" ++ value ∈ replacementKeysOf is := by
  by_contra hfree
  rw [not_or] at hfree
  obtain ⟨c, hc, hck, hcv⟩ := h.left
  obtain ⟨d, hd, hdk, hdv⟩ := h.right
  obtain ⟨hckey, hcp, hkind⟩ := kind_collectContributions hc
  obtain ⟨hdkey, hdp, _⟩ := kind_collectContributions hd
  rw [hck] at hkind
  set id := kind ++ JsText.js "::" ++ value with hid
  set pairs := is.flatMap (fun i => ((collectContributions i).filter (fun c =>
    c.pluginId ++ JsText.js "::" ++ c.value ∉ replacementKeysOf is)).map
      (fun c => (c.kind ++ JsText.js "::" ++ c.value, c))) with hpairs
  have hcmem : (id, c) ∈ pairs := by
    refine List.mem_flatMap.mpr ⟨i, hi, List.mem_map.mpr ⟨c, ?_, by rw [hck, hcv]⟩⟩
    exact List.mem_filter.mpr ⟨hc, by simpa [hcp, hcv] using hfree.1⟩
  have hdmem : (id, d) ∈ pairs := by
    refine List.mem_flatMap.mpr ⟨j, hj, List.mem_map.mpr ⟨d, ?_, by rw [hdk, hdv]⟩⟩
    exact List.mem_filter.mpr ⟨hd, by simpa [hdp, hdv] using hfree.2⟩
  set owners := valuesAt pairs id with howners
  have hcown : c ∈ owners := mem_valuesAt.mpr hcmem
  have hdown : d ∈ owners := mem_valuesAt.mpr hdmem
  have hcd : c ≠ d := by
    intro heq
    exact h.distinct (hckey.symm.trans ((congrArg Contribution.key heq).trans hdkey))
  have hlen : ¬ owners.length < 2 := by
    have := two_le_length hcown hdown hcd
    omega
  have hshared : ¬ ((splitContributionId id).1 ∈ SHARED_ACROSS_INSTANCES ∧
      (InsertionMap.distinct (owners.map (·.pluginId))).length = 1) := by
    rintro ⟨hsh, hone⟩
    rw [hid, splitContributionId_kind hkind] at hsh
    by_cases hp : i.pluginId = j.pluginId
    · exact h.unshared ⟨hsh, hp⟩
    · have hci : i.pluginId ∈ InsertionMap.distinct (owners.map (·.pluginId)) := by
        simpa [InsertionMap.distinct, mem_keys_group] using ⟨c, hcown, hcp⟩
      have hdj : j.pluginId ∈ InsertionMap.distinct (owners.map (·.pluginId)) := by
        simpa [InsertionMap.distinct, mem_keys_group] using ⟨d, hdown, hdp⟩
      have := two_le_length hci hdj hp
      omega
  have hsome : duplicateContribution id owners ≠ [] := by
    simp only [duplicateContribution]
    rw [if_neg hlen, if_neg hshared]
    exact List.cons_ne_nil _ _
  obtain ⟨e, he⟩ := List.exists_mem_of_ne_nil _ hsome
  have hentry : (id, owners) ∈ contributionOwners is :=
    mem_group.mpr ⟨List.mem_map.mpr ⟨(id, c), hcmem, rfl⟩, rfl⟩
  have hmem : e ∈ duplicateContributionDiagnostics is :=
    List.mem_flatMap.mpr ⟨(id, owners), mem_sortBy.mpr hentry, he⟩
  rw [hnone] at hmem
  cases hmem

lemma Duplicated.symm {i j : ResolvedPluginInstance N} {kind value : JsString}
    (h : Duplicated i j kind value) : Duplicated j i kind value where
  distinct := h.distinct.symm
  left := h.right
  right := h.left
  unshared := by
    rintro ⟨hsh, hp⟩
    exact h.unshared ⟨hsh, hp.symm⟩

lemma ReplacedExactly.symm {i j : ResolvedPluginInstance N} {kind value : JsString}
    (h : ReplacedExactly is i j kind value) : ReplacedExactly is j i kind value := by
  obtain ⟨k, hk, r, hr, hp, hrest⟩ := h
  exact ⟨k, hk, r, hr, hp.symm, hrest⟩

lemma exactReplacement_iff (hnone : duplicateContributionDiagnostics is = []) :
    ExactReplacement is ↔ DeclaredExactly is := by
  constructor
  · intro h _ _ _ _ i hi j hj kind value hdup _
    exact h i hi j hj kind value hdup
  · intro h i hi j hj kind value hdup
    rcases suppressed_of_duplicated hnone hi hj hdup with hs | hs
    · obtain ⟨k, hk, hs⟩ := List.mem_flatMap.mp hs
      obtain ⟨r, hr, heq⟩ := List.mem_map.mp hs
      exact h k hk r hr i hi j hj kind value hdup heq
    · obtain ⟨k, hk, hs⟩ := List.mem_flatMap.mp hs
      obtain ⟨r, hr, heq⟩ := List.mem_map.mp hs
      exact (h k hk r hr j hj i hi kind value hdup.symm heq).symm

lemma exactReplacement_wired (h : js.Perm (wired hosts is)) :
    ExactReplacement js ↔ ExactReplacement is := by
  have hmem : ∀ j, j ∈ js ↔ ∃ i ∈ is, wire hosts is i = j := by
    intro j
    rw [h.mem_iff, wired, List.mem_map]
  have hdup : ∀ (i j : ResolvedPluginInstance N) kind value,
      Duplicated (wire hosts is i) (wire hosts is j) kind value ↔ Duplicated i j kind value :=
    fun i j kind value => ⟨fun h => ⟨h.distinct, h.left, h.right, h.unshared⟩,
      fun h => ⟨h.distinct, h.left, h.right, h.unshared⟩⟩
  have hexact : ∀ (i j : ResolvedPluginInstance N) kind value,
      ReplacedExactly js (wire hosts is i) (wire hosts is j) kind value ↔
        ReplacedExactly is i j kind value := by
    intro i j kind value
    constructor
    · rintro ⟨k, hk, r, hr, hrest⟩
      obtain ⟨k', hk', rfl⟩ := (hmem k).mp hk
      exact ⟨k', hk', r, hr, hrest⟩
    · rintro ⟨k, hk, r, hr, hrest⟩
      exact ⟨wire hosts is k, (hmem _).mpr ⟨k, hk, rfl⟩, r, hr, hrest⟩
  constructor
  · intro hall i hi j hj kind value hd
    have hboth := hall _ ((hmem _).mpr ⟨i, hi, rfl⟩) _ ((hmem _).mpr ⟨j, hj, rfl⟩) kind value
      ((hdup i j kind value).mpr hd)
    exact (hexact i j kind value).mp hboth
  · intro hall i hi j hj kind value hd
    obtain ⟨i', hi', rfl⟩ := (hmem i).mp hi
    obtain ⟨j', hj', rfl⟩ := (hmem j).mp hj
    exact (hexact i' j' kind value).mpr (hall i' hi' j' hj' kind value ((hdup i' j' kind value).mp hd))

end Suppressed

section Replacement

variable [JsonNumber N] (sha256Hex : JsString → JsString)

/-- In an accepted resolution every duplicated contribution is replaced by an exact declaration
exactly when no declaration hits a duplicated contribution without one. -/
theorem resolvePlugins_replacement {options : ResolveOptions N Obj} {graph : ResolutionGraph N}
    (h : resolvePlugins sha256Hex options = .ok graph) :
    ExactReplacement graph.instances ↔ DeclaredExactly (options.enabled sha256Hex) := by
  obtain ⟨ha, rfl⟩ := (resolvePlugins_eq_ok sha256Hex).mp h
  rw [exactReplacement_wired (graph_instances sha256Hex ha).2]
  exact exactReplacement_iff (linked_unique ha.linked).2.2

section Example

def owning (id : JsString) (models : List JsString) : PluginManifestV1 ℤ :=
  { plainManifest id [] [] with
    facets :=
      { backend := none
        prisma := some [(js "owns", strings models)]
        operations := none
        rest := [] } }

/-- Two plugins that own a model of one name, and a declaration of the second about `facet`. -/
def replacedModel (facet : JsString) : ResolveOptions ℤ Bool :=
  { inventory := [enabledEntry (js "a"), enabledEntry (js "b")]
    manifests := [false, true]
    read := fun o => published (
      if o then { owning (js "b") [js "Ledger"] with
        distribution := some .appLocal
        replaces := some [⟨js "a", facet, js "Ledger", js "own table"⟩] }
      else owning (js "a") [js "Ledger"])
    hostCapabilities := none
    officialScope := none }

lemma replacedModel_accepts :
    ∀ facet ∈ [js "prisma", js "backend"], Accepts (replacedModel facet) id := by
  intro facet hf
  rw [← hasErrors_diagnostics_eq_false]
  revert facet
  decide +kernel

end Example

theorem resolvePlugins_replacement_prisma : ∃ graph,
    resolvePlugins id (replacedModel (js "prisma")) = .ok graph ∧
      (ExactReplacement graph.instances ↔
        DeclaredExactly ((replacedModel (js "prisma")).enabled id)) := by
  have hok := resolvePlugins_of_accepts id (replacedModel_accepts (js "prisma") (by simp))
  exact ⟨_, hok, resolvePlugins_replacement id hok⟩

/-- A declaration about the backend facet hides a Prisma model of two plugins. -/
theorem resolvePlugins_hides_model : ∃ graph,
    resolvePlugins id (replacedModel (js "backend")) = .ok graph ∧
      ¬ ExactReplacement graph.instances := by
  have ha := replacedModel_accepts (js "backend") (by simp)
  refine ⟨_, resolvePlugins_of_accepts id ha, ?_⟩
  rw [exactReplacement_wired (graph_instances id ha).2]
  intro hexact
  have hshared : ∃ i ∈ (replacedModel (js "backend")).enabled id,
      ∃ j ∈ (replacedModel (js "backend")).enabled id, i.key ≠ j.key ∧
        (∃ c ∈ collectContributions i, c.kind = js "prisma-model" ∧ c.value = js "Ledger") ∧
        (∃ c ∈ collectContributions j, c.kind = js "prisma-model" ∧ c.value = js "Ledger") ∧
        i.pluginId ≠ j.pluginId ∧
        ∀ k ∈ (replacedModel (js "backend")).enabled id, ∀ r ∈ k.replaces,
          r.facet ≠ facetOf (js "prisma-model") := by decide +kernel
  obtain ⟨i, hi, j, hj, hne, hci, hcj, hplugin, hnone⟩ := hshared
  obtain ⟨k, hk, r, hr, _, hfacet, _⟩ := hexact i hi j hj (js "prisma-model") (js "Ledger")
    ⟨hne, hci, hcj, fun hsh => hplugin hsh.2⟩
  exact hnone k hk r hr hfacet

end Replacement

end Appspine.Resolver
