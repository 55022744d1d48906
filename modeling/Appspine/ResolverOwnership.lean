import Appspine.ResolverOrdering

/-!
# Owners of capabilities and contributions

What an accepted resolution says about two plugins that provide one capability, or
contribute one thing, and which `replaces` declarations stand behind it.
-/
namespace Appspine.Resolver
open JsText StableSort InsertionMap FrontierOrder JsonText PluginManifest

variable {N Obj : Type} [DecidableEq Obj]

lemma two_le_length {α : Type*} {xs : List α} {a b : α} (ha : a ∈ xs) (hb : b ∈ xs) (h : a ≠ b) :
    2 ≤ xs.length := by
  match xs with
  | [] => simp at ha
  | [x] =>
    rw [List.mem_singleton] at ha hb
    exact absurd (ha.trans hb.symm) h
  | x :: y :: rest => simp

section Accepted

variable {hosts : List JsString} {is : List (ResolvedPluginInstance N)}

lemma duplicateProvider_error {replaced : List JsString} {capability : JsString}
    {keys : List JsString} : ∀ d ∈ duplicateProvider replaced capability keys, d.severity = .error := by
  intro d hd
  unfold duplicateProvider at hd
  split_ifs at hd
  · simp at hd
  · simp at hd
  · simp at hd
  · rw [List.mem_singleton.mp hd]
    rfl

/-- Linking without errors reports no provider twice, no host capability and no contribution twice. -/
lemma linked_unique (h : hasErrors (linkDiagnostics hosts is) = false) :
    duplicateProviderDiagnostics is = [] ∧ hostOverrideDiagnostics hosts is = [] ∧
      duplicateContributionDiagnostics is = [] := by
  rw [linkDiagnostics] at h
  simp only [hasErrors_append, Bool.or_eq_false_iff] at h
  obtain ⟨⟨⟨⟨⟨⟨_, hproviders⟩, hhosts⟩, _⟩, _⟩, hcontributions⟩, _⟩ := h
  refine ⟨?_, ?_, ?_⟩
  · apply (hasErrors_eq_false_iff _).mp hproviders
    intro d hd
    obtain ⟨e, _, hd⟩ := List.mem_flatMap.mp hd
    exact duplicateProvider_error d hd
  · apply (hasErrors_eq_false_iff _).mp hhosts
    intro d hd
    obtain ⟨c, _, hd⟩ := List.mem_flatMap.mp hd
    split_ifs at hd
    · rw [List.mem_singleton.mp hd]
      rfl
    · simp at hd
  · apply (hasErrors_eq_false_iff _).mp hcontributions
    intro d hd
    obtain ⟨e, _, hd⟩ := List.mem_flatMap.mp hd
    exact (duplicateContribution_error d hd).1

end Accepted

section Capabilities

variable {hosts : List JsString} {is js : List (ResolvedPluginInstance N)}

/-- The plugin `p` declares to replace something of the plugin `q`. -/
def Replaces (is : List (ResolvedPluginInstance N)) (p q : JsString) : Prop :=
  ∃ i ∈ is, i.pluginId = p ∧ ∃ r ∈ i.replaces, r.plugin = q

/-- Two plugins share a capability only if one of them replaces the other. -/
def ExclusiveProviders (is : List (ResolvedPluginInstance N)) : Prop :=
  ∀ i ∈ is, ∀ j ∈ is, i.pluginId ≠ j.pluginId → ∀ c ∈ i.provides, c ∈ j.provides →
    Replaces is i.pluginId j.pluginId ∨ Replaces is j.pluginId i.pluginId

/-- The id the duplicate check reads off a key: the text of the plugin id before a `#`. -/
def ownerId (pluginId : JsString) : JsString := (breakAt (unit '#') pluginId).1

/-- No replaced plugin shares a capability with a plugin that stands in no `replaces` relation
to it, and no two such plugins have one owner id. -/
structure ReplacedByPeers (is : List (ResolvedPluginInstance N)) : Prop where
  peers : ∀ k ∈ is, ∀ r ∈ k.replaces, ∀ i ∈ is, ∀ j ∈ is, ownerId i.pluginId = r.plugin →
    i.pluginId ≠ j.pluginId → ∀ c ∈ i.provides, c ∈ j.provides →
      Replaces is i.pluginId j.pluginId ∨ Replaces is j.pluginId i.pluginId
  separate : ∀ i ∈ is, ∀ j ∈ is, ownerId i.pluginId = ownerId j.pluginId →
    i.pluginId ≠ j.pluginId → ∀ c ∈ i.provides, c ∈ j.provides →
      Replaces is i.pluginId j.pluginId ∨ Replaces is j.pluginId i.pluginId

lemma breakAt_fst_append (c : CodeUnit) (s t : JsString) :
    (breakAt c (s ++ c :: t)).1 = (breakAt c s).1 := by
  induction s with
  | nil => simp [breakAt]
  | cons u us ih =>
    by_cases hu : u = c
    · simp [breakAt, hu]
    · simp [breakAt, hu, ih]

lemma ownerId_instanceKey (pluginId instanceId : JsString) :
    (breakAt (unit '#') (instanceKey pluginId instanceId)).1 = ownerId pluginId := by
  unfold instanceKey ownerId
  split_ifs
  · rfl
  · exact breakAt_fst_append _ _ _

lemma mem_ownerIds {keys : List JsString} {owner : JsString} :
    owner ∈ ownerIds keys ↔ ∃ key ∈ keys, (breakAt (unit '#') key).1 = owner := by
  simp [ownerIds, distinct, mem_keys_group]

/-- Two providers of one capability with different owners: one of the owners is replaced. -/
lemma replaced_of_shared (hkeys : ∀ i ∈ is, i.key = instanceKey i.pluginId i.instanceId)
    (hnone : duplicateProviderDiagnostics is = []) {i j : ResolvedPluginInstance N} (hi : i ∈ is)
    (hj : j ∈ is) (howner : ownerId i.pluginId ≠ ownerId j.pluginId) {c : JsString}
    (hci : c ∈ i.provides) (hcj : c ∈ j.provides) :
    ownerId i.pluginId ∈ replacedPlugins is ∨ ownerId j.pluginId ∈ replacedPlugins is := by
  by_contra hfree
  rw [not_or] at hfree
  set keys := valuesAt (provisions is) c with hkeysdef
  have hi' : i.key ∈ keys := mem_valuesAt.mpr (mem_provisions.mpr ⟨i, hi, rfl, hci⟩)
  have hj' : j.key ∈ keys := mem_valuesAt.mpr (mem_provisions.mpr ⟨j, hj, rfl, hcj⟩)
  have howni : ownerId i.pluginId ∈ ownerIds keys := by
    refine mem_ownerIds.mpr ⟨i.key, hi', ?_⟩
    rw [hkeys i hi, ownerId_instanceKey]
  have hownj : ownerId j.pluginId ∈ ownerIds keys := by
    refine mem_ownerIds.mpr ⟨j.key, hj', ?_⟩
    rw [hkeys j hj, ownerId_instanceKey]
  have hne : i.key ≠ j.key := by
    intro heq
    have hsame := congrArg (fun key => (breakAt (unit '#') key).1) heq
    simp only [hkeys i hi, hkeys j hj, ownerId_instanceKey] at hsame
    exact howner hsame
  have hlen : ¬ keys.length < 2 := by
    have := two_le_length hi' hj' hne
    omega
  have howners : (ownerIds keys).length ≠ 1 := by
    have := two_le_length howni hownj howner
    omega
  have hcontested : ¬ ((ownerIds keys).filter (· ∉ replacedPlugins is)).length < 2 := by
    have htwo : 2 ≤ ((ownerIds keys).filter (· ∉ replacedPlugins is)).length :=
      two_le_length (List.mem_filter.mpr ⟨howni, by simpa using hfree.1⟩)
        (List.mem_filter.mpr ⟨hownj, by simpa using hfree.2⟩) howner
    omega
  have hentry : (c, keys) ∈ providersOf is := by
    refine mem_group.mpr ⟨?_, rfl⟩
    exact List.mem_map.mpr ⟨(c, i.key), mem_provisions.mpr ⟨i, hi, rfl, hci⟩, rfl⟩
  have hsome : duplicateProvider (replacedPlugins is) c keys ≠ [] := by
    rw [duplicateProvider, if_neg hlen, if_neg howners, if_neg hcontested]
    exact List.cons_ne_nil _ _
  obtain ⟨d, hd⟩ := List.exists_mem_of_ne_nil _ hsome
  have hmem : d ∈ duplicateProviderDiagnostics is :=
    List.mem_flatMap.mpr ⟨(c, keys), mem_sortBy.mpr hentry, hd⟩
  rw [hnone] at hmem
  cases hmem

lemma exclusiveProviders_iff (hkeys : ∀ i ∈ is, i.key = instanceKey i.pluginId i.instanceId)
    (hnone : duplicateProviderDiagnostics is = []) : ExclusiveProviders is ↔ ReplacedByPeers is := by
  constructor
  · intro h
    constructor
    · intro _ _ _ _ i hi j hj _ hne c hci hcj
      exact h i hi j hj hne c hci hcj
    · intro i hi j hj _ hne c hci hcj
      exact h i hi j hj hne c hci hcj
  · intro h i hi j hj hne c hci hcj
    by_cases howner : ownerId i.pluginId = ownerId j.pluginId
    · exact h.separate i hi j hj howner hne c hci hcj
    · rcases replaced_of_shared hkeys hnone hi hj howner hci hcj with hr | hr
      · obtain ⟨k, hk, hr⟩ := List.mem_flatMap.mp hr
        obtain ⟨r, hr, heq⟩ := List.mem_map.mp hr
        exact h.peers k hk r hr i hi j hj heq.symm hne c hci hcj
      · obtain ⟨k, hk, hr⟩ := List.mem_flatMap.mp hr
        obtain ⟨r, hr, heq⟩ := List.mem_map.mp hr
        exact (h.peers k hk r hr j hj i hi heq.symm hne.symm c hcj hci).symm

/-- No instance provides a host capability. -/
lemma host_not_provided (hnone : hostOverrideDiagnostics hosts is = []) :
    ∀ c ∈ hosts, ∀ i ∈ is, c ∉ i.provides := by
  intro c hc i hi hp
  have hhas : has (providersOf is) c = true :=
    (has_providersOf is c).mpr (List.mem_map.mpr ⟨(c, i.key), mem_provisions.mpr ⟨i, hi, rfl, hp⟩, rfl⟩)
  have hne : hostOverrideDiagnostics hosts is ≠ [] := by
    intro hnil
    have hall := List.flatMap_eq_nil_iff.mp hnil c hc
    rw [if_pos hhas] at hall
    cases hall
  exact hne hnone

/-- Wiring and ordering leave the providers and their declarations as they are. -/
lemma exclusiveProviders_wired (h : js.Perm (wired hosts is)) :
    ExclusiveProviders js ↔ ExclusiveProviders is := by
  have hmem : ∀ j, j ∈ js ↔ ∃ i ∈ is, wire hosts is i = j := by
    intro j
    rw [h.mem_iff, wired, List.mem_map]
  have hreplaces : ∀ p q, Replaces js p q ↔ Replaces is p q := by
    intro p q
    constructor
    · rintro ⟨j, hj, hp, hr⟩
      obtain ⟨i, hi, rfl⟩ := (hmem j).mp hj
      exact ⟨i, hi, hp, hr⟩
    · rintro ⟨i, hi, hp, hr⟩
      exact ⟨wire hosts is i, (hmem _).mpr ⟨i, hi, rfl⟩, hp, hr⟩
  constructor
  · intro hex i hi j hj hne c hci hcj
    have hboth := hex _ ((hmem _).mpr ⟨i, hi, rfl⟩) _ ((hmem _).mpr ⟨j, hj, rfl⟩) hne c hci hcj
    rwa [hreplaces, hreplaces] at hboth
  · intro hex i hi j hj hne c hci hcj
    obtain ⟨i', hi', rfl⟩ := (hmem i).mp hi
    obtain ⟨j', hj', rfl⟩ := (hmem j).mp hj
    rw [hreplaces, hreplaces]
    exact hex i' hi' j' hj' hne c hci hcj

end Capabilities

section Ownership

variable [JsonNumber N] (sha256Hex : JsString → JsString)

lemma key_enabled (options : ResolveOptions N Obj) :
    ∀ i ∈ options.enabled sha256Hex, i.key = instanceKey i.pluginId i.instanceId := by
  intro i hi
  obtain ⟨p, _, rfl⟩ := List.mem_map.mp hi
  rfl

lemma host_graph (options : ResolveOptions N Obj) :
    (options.graph sha256Hex).hostCapabilities = options.hosts := rfl

/-- In an accepted resolution no plugin provides a host capability, and plugins share a
capability only by replacing each other exactly when nothing is replaced by third parties. -/
theorem resolvePlugins_ownership {options : ResolveOptions N Obj} {graph : ResolutionGraph N}
    (h : resolvePlugins sha256Hex options = .ok graph) :
    (ExclusiveProviders graph.instances ∧
        ∀ c ∈ graph.hostCapabilities, ∀ i ∈ graph.instances, c ∉ i.provides) ↔
      ReplacedByPeers (options.enabled sha256Hex) := by
  obtain ⟨ha, rfl⟩ := (resolvePlugins_eq_ok sha256Hex).mp h
  obtain ⟨hproviders, hhosts, _⟩ := linked_unique ha.linked
  have hperm := (graph_instances sha256Hex ha).2
  have hfree : ∀ c ∈ (options.graph sha256Hex).hostCapabilities,
      ∀ i ∈ (options.graph sha256Hex).instances, c ∉ i.provides := by
    intro c hc i hi
    obtain ⟨i', hi', rfl⟩ := List.mem_map.mp (hperm.mem_iff.mp hi)
    exact host_not_provided hhosts c (host_graph sha256Hex options ▸ hc) i' hi'
  rw [exclusiveProviders_wired hperm,
    exclusiveProviders_iff (key_enabled sha256Hex options) hproviders]
  exact ⟨fun hboth => hboth.1, fun hpeers => ⟨hpeers, hfree⟩⟩

section Example

/-- Two plugins that provide `c`, and a third one that replaces a route of the first. -/
def thirdPartyReplacement (provided : JsString) : ResolveOptions ℤ (Fin 3) :=
  { inventory := [enabledEntry (js "a"), enabledEntry (js "b"), enabledEntry (js "z")]
    manifests := [0, 1, 2]
    read := fun o => published (
      if o = 0 then plainManifest (js "a") [js "c"] []
      else if o = 1 then plainManifest (js "b") [provided] []
      else { plainManifest (js "z") [] [] with
        distribution := some .appLocal
        replaces := some [⟨js "a", js "backend", js "/api/a", js "own route"⟩] })
    hostCapabilities := none
    officialScope := none }

lemma thirdPartyReplacement_accepts :
    ∀ provided ∈ [js "c", js "d"], Accepts (thirdPartyReplacement provided) id := by
  intro provided hp
  rw [← hasErrors_diagnostics_eq_false]
  revert provided
  decide +kernel

end Example

theorem resolvePlugins_ownership_distinct : ∃ graph,
    resolvePlugins id (thirdPartyReplacement (js "d")) = .ok graph ∧
      ((ExclusiveProviders graph.instances ∧
          ∀ c ∈ graph.hostCapabilities, ∀ i ∈ graph.instances, c ∉ i.provides) ↔
        ReplacedByPeers ((thirdPartyReplacement (js "d")).enabled id)) := by
  have hok := resolvePlugins_of_accepts id (thirdPartyReplacement_accepts (js "d") (by simp))
  exact ⟨_, hok, resolvePlugins_ownership id hok⟩

/-- Two unrelated plugins share a capability because a third one replaces something else. -/
theorem resolvePlugins_shares_capability : ∃ graph,
    resolvePlugins id (thirdPartyReplacement (js "c")) = .ok graph ∧
      ¬ ExclusiveProviders graph.instances := by
  have ha := thirdPartyReplacement_accepts (js "c") (by simp)
  refine ⟨_, resolvePlugins_of_accepts id ha, ?_⟩
  rw [exclusiveProviders_wired (graph_instances id ha).2]
  intro hex
  have hshared : ∃ i ∈ (thirdPartyReplacement (js "c")).enabled id,
      ∃ j ∈ (thirdPartyReplacement (js "c")).enabled id, i.pluginId ≠ j.pluginId ∧
        js "c" ∈ i.provides ∧ js "c" ∈ j.provides ∧
        (∀ k ∈ (thirdPartyReplacement (js "c")).enabled id, ∀ r ∈ k.replaces,
          k.pluginId ≠ i.pluginId ∧ k.pluginId ≠ j.pluginId) := by decide +kernel
  obtain ⟨i, hi, j, hj, hne, hci, hcj, hnone⟩ := hshared
  rcases hex i hi j hj hne _ hci hcj with ⟨k, hk, hp, r, hr, _⟩ | ⟨k, hk, hp, r, hr, _⟩
  · exact (hnone k hk r hr).1 hp
  · exact (hnone k hk r hr).2 hp

end Ownership

end Appspine.Resolver
