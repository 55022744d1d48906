import Appspine.ResolverScan

/-!
# What linking depends on

The checks after the scan, and the edges they compute, see the instances as a
collection: neither the order in which the instances are listed nor the digests and
the configuration path they carry reaches them.
-/
namespace Appspine.Resolver
open JsText StableSort InsertionMap FrontierOrder JsonText PluginManifest

variable {N : Type}

/-- An instance without what linking never reads. -/
def ResolvedPluginInstance.core (i : ResolvedPluginInstance N) : ResolvedPluginInstance N :=
  { i with configRef := none, manifestDigest := [], digest := [] }

/-- The same instances up to their order and to what linking never reads. -/
def SameCore (is js : List (ResolvedPluginInstance N)) : Prop :=
  (is.map (·.core)).Perm (js.map (·.core))

/-- Instances of one plugin agree on its cardinality. -/
def UniformCardinality (is : List (ResolvedPluginInstance N)) : Prop :=
  ∀ i ∈ is, ∀ j ∈ is, i.pluginId = j.pluginId → i.cardinality = j.cardinality

theorem SameCore.of_perm {is js : List (ResolvedPluginInstance N)} (h : is.Perm js) :
    SameCore is js := h.map _

theorem SameCore.symm {is js : List (ResolvedPluginInstance N)} (h : SameCore is js) :
    SameCore js is := List.Perm.symm h

/-- A projection that ignores what linking never reads lists the same values. -/
theorem SameCore.map {β : Type*} {is js : List (ResolvedPluginInstance N)} (h : SameCore is js)
    {f : ResolvedPluginInstance N → β} (hf : ∀ i, f i.core = f i) : (is.map f).Perm (js.map f) := by
  have := List.Perm.map f h
  simpa only [List.map_map, Function.comp_def, hf] using this

theorem SameCore.flatMap {β : Type*} {is js : List (ResolvedPluginInstance N)}
    (h : SameCore is js) {f g : ResolvedPluginInstance N → List β} (hf : ∀ i, f i.core = f i)
    (hg : ∀ i, f i = g i) : (is.flatMap f).Perm (js.flatMap g) := by
  have hperm := List.Perm.flatMap_right f h
  simp only [List.flatMap_map, hf] at hperm
  rwa [show g = f from (funext hg).symm]

variable {is js : List (ResolvedPluginInstance N)}

section Groups

/-- The capability and the provider of every provision. -/
def provisions (is : List (ResolvedPluginInstance N)) : List (JsString × JsString) :=
  is.flatMap (fun i => i.provides.map (fun capability => (capability, i.key)))

theorem mem_provisions {capability key : JsString} :
    (capability, key) ∈ provisions is ↔ ∃ i ∈ is, i.key = key ∧ capability ∈ i.provides := by
  simp only [provisions, List.mem_flatMap, List.mem_map, Prod.mk.injEq]
  constructor
  · rintro ⟨i, hi, c, hc, rfl, rfl⟩
    exact ⟨i, hi, rfl, hc⟩
  · rintro ⟨i, hi, rfl, hc⟩
    exact ⟨i, hi, capability, hc, rfl, rfl⟩

theorem provisions_perm (h : SameCore is js) : (provisions is).Perm (provisions js) :=
  h.flatMap (fun _ => rfl) (fun _ => rfl)

theorem get_providersOf (is : List (ResolvedPluginInstance N)) (capability : JsString) :
    (get (providersOf is) capability).getD [] = valuesAt (provisions is) capability :=
  get_group _ _

theorem has_providersOf (is : List (ResolvedPluginInstance N)) (capability : JsString) :
    has (providersOf is) capability = true ↔ capability ∈ (provisions is).map Prod.fst := by
  rw [has_iff]
  exact mem_keys_group

/-- The other instances that provide a capability. -/
theorem mem_external {i : ResolvedPluginInstance N} {capability key : JsString} :
    key ∈ external is i capability ↔
      key ≠ i.key ∧ ∃ j ∈ is, j.key = key ∧ capability ∈ j.provides := by
  rw [external, get_providersOf, List.mem_filter, mem_valuesAt, mem_provisions, decide_eq_true_eq,
    and_comm]

theorem external_perm (h : SameCore is js) (i : ResolvedPluginInstance N) (capability : JsString) :
    (external is i capability).Perm (external js i capability) := by
  rw [external, external, get_providersOf, get_providersOf]
  exact (valuesAt_perm (provisions_perm h) capability).filter _

theorem external_eq_nil (h : SameCore is js) (i : ResolvedPluginInstance N)
    (capability : JsString) : external is i capability = [] ↔ external js i capability = [] := by
  constructor <;> intro hnil
  · exact (hnil ▸ external_perm h i capability).symm.eq_nil
  · exact (hnil ▸ (external_perm h i capability).symm).symm.eq_nil

theorem mem_enabledPluginIds (h : SameCore is js) (id : JsString) :
    id ∈ enabledPluginIds is ↔ id ∈ enabledPluginIds js :=
  (h.map (f := fun i => i.pluginId) (fun _ => rfl)).mem_iff

end Groups

section Checks

theorem cardinalityOf_perm {id : JsString} {xs ys : List (ResolvedPluginInstance N)}
    (h : SameCore xs ys) (hx : UniformCardinality xs) (hid : ∀ i ∈ xs, i.pluginId = id) :
    cardinalityOf id xs = cardinalityOf id ys := by
  have hlen : xs.length = ys.length := by simpa using h.length_eq
  have hkeys : sorted (xs.map (·.key)) = sorted (ys.map (·.key)) :=
    sorted_eq_of_perm (h.map (fun _ => rfl))
  cases xs with
  | nil =>
    have : ys = [] := List.length_eq_zero_iff.mp hlen.symm
    rw [this]
  | cons x xs =>
    cases ys with
    | nil => simp at hlen
    | cons y ys =>
      have hy : y.core ∈ (x :: xs).map (·.core) := (List.Perm.mem_iff h).mpr (by simp)
      obtain ⟨z, hz, hzy⟩ := List.mem_map.mp hy
      have hcard : x.cardinality = y.cardinality := by
        have hzc : z.cardinality = y.cardinality := congrArg (·.cardinality) hzy
        rw [← hzc]
        exact hx x (by simp) z hz (by rw [hid x (by simp), hid z hz])
      simp only [cardinalityOf, hcard, hlen, hkeys]

theorem valuesAt_byPluginId {id : JsString} :
    valuesAt (is.map (fun i => (i.pluginId, i))) id = is.filter (fun i => i.pluginId = id) := by
  simp [valuesAt, List.filter_map, Function.comp_def]

theorem cardinalityDiagnostics_eq (h : SameCore is js) (hu : UniformCardinality is) :
    cardinalityDiagnostics is = cardinalityDiagnostics js := by
  apply flatMap_sortBy_group_eq (F := cardinalityOf) (G := cardinalityOf)
  · intro id
    have hperm := h.map (f := fun i => i.pluginId) (fun _ => rfl)
    simpa only [List.map_map, Function.comp_def] using hperm.mem_iff
  · intro id
    rw [valuesAt_byPluginId, valuesAt_byPluginId]
    apply cardinalityOf_perm
    · have hperm := List.Perm.filter (fun i : ResolvedPluginInstance N => i.pluginId = id) h
      simp only [List.filter_map, Function.comp_def] at hperm
      exact hperm
    · intro i hi j hj
      exact hu i (List.mem_filter.mp hi).1 j (List.mem_filter.mp hj).1
    · intro i hi
      simpa using (List.mem_filter.mp hi).2

theorem conflictDiagnostics_perm (h : SameCore is js) :
    (conflictDiagnostics is).Perm (conflictDiagnostics js) := by
  apply h.flatMap
  · intro i
    rfl
  · intro i
    simp only [mem_enabledPluginIds h]

theorem ownerIds_perm {xs ys : List JsString} (h : xs.Perm ys) :
    (ownerIds xs).Perm (ownerIds ys) := distinct_perm (fun _ => (h.map _).mem_iff)

theorem duplicateProvider_perm {replaced replaced' : List JsString}
    (hr : ∀ id, id ∈ replaced ↔ id ∈ replaced') {capability : JsString} {xs ys : List JsString}
    (h : xs.Perm ys) :
    duplicateProvider replaced capability xs = duplicateProvider replaced' capability ys := by
  have hcontested : ((ownerIds xs).filter (· ∉ replaced)).length =
      ((ownerIds ys).filter (· ∉ replaced')).length := by
    simp only [hr]
    exact ((ownerIds_perm h).filter _).length_eq
  simp only [duplicateProvider, h.length_eq, (ownerIds_perm h).length_eq, hcontested,
    sorted_eq_of_perm h]

theorem duplicateProviderDiagnostics_eq (h : SameCore is js) :
    duplicateProviderDiagnostics is = duplicateProviderDiagnostics js := by
  apply flatMap_sortBy_group_eq (F := duplicateProvider (replacedPlugins is))
    (G := duplicateProvider (replacedPlugins js))
  · intro capability
    exact ((provisions_perm h).map _).mem_iff
  · intro capability
    apply duplicateProvider_perm
    · intro id
      exact (h.flatMap (fun _ => rfl) (fun _ => rfl)).mem_iff
    · exact valuesAt_perm (provisions_perm h) capability

theorem hostOverrideDiagnostics_eq (h : SameCore is js) (hosts : List JsString) :
    hostOverrideDiagnostics hosts is = hostOverrideDiagnostics hosts js := by
  unfold hostOverrideDiagnostics
  congr 1
  funext capability
  have hmem : has (providersOf is) capability = has (providersOf js) capability := by
    rw [Bool.eq_iff_iff, has_providersOf, has_providersOf]
    exact ((provisions_perm h).map _).mem_iff
  simp only [hmem, get_providersOf, sorted_eq_of_perm (valuesAt_perm (provisions_perm h) capability)]

theorem replacesTargetDiagnostics_perm (h : SameCore is js) :
    (replacesTargetDiagnostics is).Perm (replacesTargetDiagnostics js) := by
  apply h.flatMap
  · intro i
    rfl
  · intro i
    simp only [mem_enabledPluginIds h]

theorem requirementsOf_eq (h : SameCore is js) (hosts : List JsString)
    (i : ResolvedPluginInstance N) : requirementsOf hosts is i = requirementsOf hosts js i := by
  have hopt : isUnresolvedOptional hosts is i = isUnresolvedOptional hosts js i := by
    funext capability
    simp only [isUnresolvedOptional, external_eq_nil h]
  have hreq : missingRequired is i = missingRequired js i := by
    funext capability
    simp only [missingRequired, external_eq_nil h]
  simp only [requirementsOf, hopt, hreq]

theorem requirementDiagnostics_perm (h : SameCore is js) (hosts : List JsString) :
    (requirementDiagnostics hosts is).Perm (requirementDiagnostics hosts js) :=
  h.flatMap (fun _ => rfl) (requirementsOf_eq h hosts)

/-- The edges of an instance depend only on what the others provide. -/
theorem wire_eq (h : SameCore is js) (hosts : List JsString) (i : ResolvedPluginInstance N) :
    wire hosts is i = wire hosts js i := by
  have hopt : isUnresolvedOptional hosts is i = isUnresolvedOptional hosts js i := by
    funext capability
    simp only [isUnresolvedOptional, external_eq_nil h]
  have hdeps : ∀ cs : List JsString, sorted (distinct (cs.flatMap (external is i))) =
      sorted (distinct (cs.flatMap (external js i))) := by
    intro cs
    apply sorted_distinct_eq
    intro key
    simp only [List.mem_flatMap, (external_perm h i _).mem_iff]
  simp only [wire, hopt, hdeps]

theorem wired_sameCore (h : SameCore is js) (hosts : List JsString) :
    SameCore (wired hosts is) (wired hosts js) := by
  have hmap := h.map (f := fun i => (wire hosts is i).core) (fun _ => rfl)
  unfold SameCore wired
  simp only [List.map_map, Function.comp_def]
  simpa only [wire_eq h hosts] using hmap

theorem contributionPairs_perm (h : SameCore is js) :
    (is.flatMap (fun i => ((collectContributions i).filter (fun c =>
      c.pluginId ++ JsText.js "::" ++ c.value ∉ replacementKeysOf is)).map
      (fun c => (c.kind ++ JsText.js "::" ++ c.value, c)))).Perm
    (js.flatMap (fun i => ((collectContributions i).filter (fun c =>
      c.pluginId ++ JsText.js "::" ++ c.value ∉ replacementKeysOf js)).map
      (fun c => (c.kind ++ JsText.js "::" ++ c.value, c)))) := by
  have hkeys : ∀ key, key ∈ replacementKeysOf is ↔ key ∈ replacementKeysOf js := fun key =>
    (h.flatMap (fun _ => rfl) (fun _ => rfl)).mem_iff
  apply h.flatMap
  · intro i
    rfl
  · intro i
    simp only [hkeys]

theorem duplicateContribution_perm {id : JsString} {xs ys : List Contribution} (h : xs.Perm ys) :
    duplicateContribution id xs = duplicateContribution id ys := by
  have howners : (distinct (xs.map (·.pluginId))).length = (distinct (ys.map (·.pluginId))).length :=
    (distinct_perm (fun _ => (h.map _).mem_iff)).length_eq
  simp only [duplicateContribution, h.length_eq, howners, sorted_eq_of_perm (h.map (·.key))]

theorem duplicateContributionDiagnostics_eq (h : SameCore is js) :
    duplicateContributionDiagnostics is = duplicateContributionDiagnostics js := by
  apply flatMap_sortBy_group_eq (F := duplicateContribution) (G := duplicateContribution)
  · intro id
    exact ((contributionPairs_perm h).map _).mem_iff
  · intro id
    exact duplicateContribution_perm (valuesAt_perm (contributionPairs_perm h) id)

theorem topologicalOrder_eq (h : SameCore is js) : topologicalOrder is = topologicalOrder js := by
  have hgraph : (dependencyGraph is).Perm (dependencyGraph js) := h.map (fun _ => rfl)
  simp only [topologicalOrder, layered_perm hgraph]

end Checks

/-- Linking the same instances reports the same diagnostics, in some order. -/
theorem linkDiagnostics_perm (h : SameCore is js) (hu : UniformCardinality is)
    (hosts : List JsString) : (linkDiagnostics hosts is).Perm (linkDiagnostics hosts js) := by
  unfold linkDiagnostics
  rw [cardinalityDiagnostics_eq h hu, duplicateProviderDiagnostics_eq h,
    hostOverrideDiagnostics_eq h, duplicateContributionDiagnostics_eq h,
    topologicalOrder_eq (wired_sameCore h hosts)]
  have hconflict := conflictDiagnostics_perm h
  have hreplaces := replacesTargetDiagnostics_perm h
  have hrequire := requirementDiagnostics_perm h hosts
  exact ((((((hconflict.append_left _).append_right _).append_right _).append hreplaces).append
    hrequire).append_right _).append_right _

end Appspine.Resolver
