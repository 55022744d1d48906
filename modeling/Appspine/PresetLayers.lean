import Appspine.PresetDiagnostics

/-!
# The layers of an expanded inventory

Between presets the first one wins, inside a preset the last entry, and the App at the end. What
the expansion returns under each key, whatever the order of the lists it was given.
-/
namespace Appspine.Inventory
open JsText StableSort InsertionMap PluginManifest ConfigBoundary

variable {readPreset : JsString → Option LoadedPreset}

/-- The last entry of a preset under a key. -/
def lastEntry (readPreset : JsString → Option LoadedPreset) (name key : JsString) :
    Option PluginInventoryEntry :=
  ((presetEntries readPreset [name]).filter fun e => keyOf e.expanded = key).getLast?.map
    PresetEntry.expanded

/-- The first of the named presets, in the order of their names, that contributes the key. -/
structure FirstContributor (readPreset : JsString → Option LoadedPreset) (names : List JsString)
    (key owner : JsString) : Prop where
  named : owner ∈ names
  contributes : key ∈ keysOfPreset readPreset owner
  first : ∀ other ∈ names, key ∈ keysOfPreset readPreset other → owner ≤ other

section Contributions

/-- What one entry of a preset does to the map of entries. -/
lemma byKey_contribute (packageName : JsString) (state : Expansion) (entry : PresetEntry)
    (key : JsString) :
    InsertionMap.get (contribute packageName state entry).byKey key =
      if key = keyOf entry.expanded ∧ (InsertionMap.get state.provenance key).filter
          (fun previous => previous ≠ [] ∧ previous ≠ packageName) = none
      then some entry.expanded else InsertionMap.get state.byKey key := by
  have hstep := contribute.eq_def packageName state entry
  simp only at hstep
  cases hprevious : (InsertionMap.get state.provenance (keyOf entry.expanded)).filter (fun previous =>
      previous ≠ [] ∧ previous ≠ packageName) with
  | some previous =>
    have hblocked : ¬ (key = keyOf entry.expanded ∧ (InsertionMap.get state.provenance key).filter
        (fun previous => previous ≠ [] ∧ previous ≠ packageName) = none) := by
      rintro ⟨rfl, hnone⟩
      rw [hnone] at hprevious
      cases hprevious
    rw [hprevious] at hstep
    rw [hstep, if_neg hblocked]
  | none =>
    rw [hprevious] at hstep
    rw [hstep, get_set]
    by_cases hkey : key = keyOf entry.expanded
    · rw [if_pos hkey, if_pos ⟨hkey, hkey ▸ hprevious⟩]
    · rw [if_neg hkey, if_neg fun h => hkey h.1]

/-- Under a key that no other preset has taken, the entries of a preset leave the last of them. -/
lemma byKey_contribute_all (packageName key : JsString) (entries : List PresetEntry)
    (state : Expansion) :
    let after := entries.foldl (contribute packageName) state
    (Taken state.provenance packageName key →
      InsertionMap.get after.byKey key = InsertionMap.get state.byKey key) ∧
    (¬ Taken state.provenance packageName key →
      InsertionMap.get after.byKey key =
        ((entries.filter fun e => keyOf e.expanded = key).getLast?.map PresetEntry.expanded).or
          (InsertionMap.get state.byKey key)) := by
  induction entries using List.reverseRecOn with
  | nil => exact ⟨fun _ => rfl, fun _ => rfl⟩
  | append_singleton entries entry ih =>
    have htaken : _ ↔ Taken state.provenance packageName key :=
      (contribute_all packageName entries state).1.taken_iff
    simp only [List.foldl_append, List.foldl_cons, List.foldl_nil, byKey_contribute]
    rw [Inventory.taken_iff] at htaken
    constructor
    · intro h
      have hblocked := htaken.mpr h
      rw [if_neg fun hfree => hblocked hfree.2]
      exact ih.1 h
    · intro h
      have hfree := not_not.mp fun hblocked => h (htaken.mp hblocked)
      by_cases hkey : key = keyOf entry.expanded
      · rw [if_pos ⟨hkey, hfree⟩, List.filter_append, List.filter_cons_of_pos (by simp [hkey]),
          List.filter_nil, List.getLast?_concat]
        rfl
      · rw [if_neg fun hthis => hkey hthis.1, ih.2 h, List.filter_append,
          List.filter_cons_of_neg (by simpa using Ne.symm hkey), List.filter_nil, List.append_nil]

/-- What the maps hold after the presets of these names, in this order. -/
structure Layered (readPreset : JsString → Option LoadedPreset) (state : Expansion)
    (names : List JsString) : Prop where
  owner : ∀ key, InsertionMap.get state.provenance key =
    names.find? fun name => key ∈ keysOfPreset readPreset name
  entry : ∀ key, InsertionMap.get state.byKey key =
    (names.find? fun name => key ∈ keysOfPreset readPreset name).bind
      fun name => lastEntry readPreset name key

lemma lastEntry_eq_none {name key : JsString} :
    lastEntry readPreset name key = none ↔ key ∉ keysOfPreset readPreset name := by
  rw [lastEntry, Option.map_eq_none_iff, List.getLast?_eq_none_iff, List.filter_eq_nil_iff,
    keysOfPreset, List.mem_map]
  push Not
  simp

/-- Expanding a preset, as far as the two maps go. -/
lemma expandPreset_maps (state : Expansion) (name : JsString) :
    let after := (presetEntries readPreset [name]).foldl (contribute name) state
    (expandPreset readPreset state name).byKey = after.byKey ∧
      (expandPreset readPreset state name).provenance = after.provenance := by
  have hpresets : ∀ (entries : List PresetEntry) (s s' : Expansion), s.byKey = s'.byKey →
      s.provenance = s'.provenance →
      (entries.foldl (contribute name) s).byKey = (entries.foldl (contribute name) s').byKey ∧
        (entries.foldl (contribute name) s).provenance =
          (entries.foldl (contribute name) s').provenance := by
    intro entries
    induction entries with
    | nil => exact fun s s' hkeys howners => ⟨hkeys, howners⟩
    | cons entry entries ih =>
      intro s s' hkeys howners
      refine ih _ _ ?_ ?_
      · unfold contribute
        rw [howners, hkeys]
        dsimp only
        split <;> rfl
      · unfold contribute
        rw [howners, hkeys]
        dsimp only
        split <;> rfl
  unfold expandPreset presetEntries
  cases hread : readPreset name with
  | none => exact ⟨by simp [hread], by simp [hread]⟩
  | some preset =>
    by_cases hversion : preset.document.schemaVersion ≠ PRESET_SCHEMA_VERSION
    · exact ⟨by simp [hread, hversion], by simp [hread, hversion]⟩
    · simp only [hread, hversion, if_false, List.flatMap_cons, List.flatMap_nil, List.append_nil]
      exact hpresets _ _ _ rfl rfl

/-- One more preset keeps the layers. -/
lemma Layered.expandPreset {state : Expansion} {names : List JsString} {name : JsString}
    (h : Layered readPreset state names) (hnames : ∀ other ∈ names, other ≠ []) :
    Layered readPreset (Inventory.expandPreset readPreset state name) (names ++ [name]) := by
  obtain ⟨hbyKey, hprovenance⟩ := @expandPreset_maps readPreset state name
  have hadded := (contribute_all name (presetEntries readPreset [name]) state).1
  have hboth : ∀ key,
      InsertionMap.get (Inventory.expandPreset readPreset state name).provenance key =
          (names ++ [name]).find? (fun name => key ∈ keysOfPreset readPreset name) ∧
        InsertionMap.get (Inventory.expandPreset readPreset state name).byKey key =
          ((names ++ [name]).find? fun name => key ∈ keysOfPreset readPreset name).bind
            fun name => lastEntry readPreset name key := by
    intro key
    have hlast := byKey_contribute_all name key (presetEntries readPreset [name]) state
    rw [hbyKey, hprovenance, List.find?_append]
    by_cases hkey : key ∈ keysOfPreset readPreset name
    case neg =>
      have hnone : ((presetEntries readPreset [name]).filter fun e => keyOf e.expanded = key).getLast?.map
          PresetEntry.expanded = none := lastEntry_eq_none.mpr hkey
      have hsame : InsertionMap.get ((presetEntries readPreset [name]).foldl (contribute name)
          state).byKey key = InsertionMap.get state.byKey key := by
        by_cases htaken : Taken state.provenance name key
        · exact hlast.1 htaken
        · rw [hlast.2 htaken, hnone, Option.none_or]
      rw [hadded.other key (Or.inl hkey), hsame, h.owner, h.entry]
      simp [hkey]
    have hthis : [name].find? (fun name => decide (key ∈ keysOfPreset readPreset name)) =
        some name := by simp [hkey]
    rw [hthis]
    cases hbefore : names.find? fun name => decide (key ∈ keysOfPreset readPreset name) with
    | none =>
      have hfree : ¬ Taken state.provenance name key := by
        rintro ⟨previous, hprevious, _⟩
        rw [h.owner, hbefore] at hprevious
        cases hprevious
      refine ⟨hadded.free key hkey hfree, ?_⟩
      rw [hlast.2 hfree, h.entry, hbefore, Option.bind_none, Option.or_none]
      rfl
    | some owner =>
      by_cases hsame : owner = name
      · subst hsame
        have hfree : ¬ Taken state.provenance owner key := by
          rintro ⟨previous, hprevious, _, hne⟩
          rw [h.owner, hbefore] at hprevious
          exact hne (Option.some.inj hprevious).symm
        refine ⟨hadded.free key hkey hfree, ?_⟩
        obtain ⟨entry, hentry⟩ := Option.ne_none_iff_exists'.mp
          fun hnone => lastEntry_eq_none.mp hnone hkey
        rw [hlast.2 hfree, ← lastEntry, hentry, Option.some_or, Option.some_or, Option.bind_some,
          hentry]
      · have hne : owner ≠ [] := hnames owner (List.mem_of_find?_eq_some hbefore)
        have htaken : Taken state.provenance name key := ⟨owner, by rw [h.owner, hbefore], hne, hsame⟩
        rw [hadded.other key (Or.inr htaken), hlast.1 htaken, h.owner, h.entry, hbefore]
        exact ⟨rfl, rfl⟩
  exact ⟨fun key => (hboth key).1, fun key => (hboth key).2⟩

lemma contributions_layered {inventory : InventoryFile}
    (hnames : ∀ name ∈ inventory.presets.getD [], name ≠ []) :
    Layered readPreset (contributions readPreset inventory)
      (sorted (inventory.presets.getD [])) := by
  have hsorted : ∀ name ∈ sorted (inventory.presets.getD []), name ≠ [] :=
    fun name hname => hnames name (mem_sorted.mp hname)
  rw [contributions]
  generalize sorted (inventory.presets.getD []) = names at hsorted ⊢
  induction names using List.reverseRecOn with
  | nil => exact ⟨fun _ => rfl, fun _ => rfl⟩
  | append_singleton names name ih =>
    have hbefore : ∀ other ∈ names, other ≠ [] :=
      fun other hother => hsorted other (List.mem_append_left _ hother)
    rw [List.foldl_append, List.foldl_cons, List.foldl_nil]
    exact (ih hbefore).expandPreset hbefore

/-- The first name found in the sorted list is the least. -/
lemma find_sorted_iff {names : List JsString} {key owner : JsString} :
    (sorted names).find? (fun name => decide (key ∈ keysOfPreset readPreset name)) = some owner ↔
      FirstContributor readPreset names key owner := by
  have hordered := sorted_pairwise names
  constructor
  · intro h
    obtain ⟨hkey, before, after, hsplit, hbefore⟩ := List.find?_eq_some_iff_append.mp h
    have hmem : owner ∈ sorted names := by simp [hsplit]
    refine ⟨mem_sorted.mp hmem, of_decide_eq_true hkey, fun other hother hcontributes => ?_⟩
    rw [← mem_sorted, hsplit] at hother
    rw [hsplit, List.pairwise_append] at hordered
    rcases List.mem_append.mp hother with hin | hin
    · have hnot := hbefore other hin
      simp [hcontributes] at hnot
    · rcases List.mem_cons.mp hin with rfl | hin
      · exact le_rfl
      · exact List.rel_of_pairwise_cons hordered.2.1 hin
  · intro h
    cases hfind : (sorted names).find? (fun name => decide (key ∈ keysOfPreset readPreset name)) with
    | none =>
      have hnone := List.find?_eq_none.mp hfind owner (mem_sorted.mpr h.named)
      simp [h.contributes] at hnone
    | some found =>
      obtain ⟨hkey, before, after, hsplit, hbefore⟩ := List.find?_eq_some_iff_append.mp hfind
      have hfound : found ∈ names := mem_sorted.mp (by simp [hsplit])
      have hle := h.first found hfound (of_decide_eq_true hkey)
      have hge : found ≤ owner := by
        have hmem := mem_sorted.mpr h.named
        rw [hsplit] at hmem hordered
        rw [List.pairwise_append] at hordered
        rcases List.mem_append.mp hmem with hin | hin
        · have hnot := hbefore owner hin
          simp [h.contributes] at hnot
        · rcases List.mem_cons.mp hin with rfl | hin
          · exact le_rfl
          · exact List.rel_of_pairwise_cons hordered.2.1 hin
      rw [le_antisymm hge hle]

end Contributions

section Own

variable {inventory : InventoryFile}

/-- The App's entries take their keys out of the provenance. -/
lemma provenance_layer (state : Expansion) (plugins : List PluginInventoryEntry) :
    (plugins.foldl layerEntry state).provenance =
      state.provenance.filter fun e => e.1 ∉ plugins.map keyOf := by
  induction plugins generalizing state with
  | nil => simp
  | cons entry plugins ih =>
    have hstep : (layerEntry state entry).provenance =
        state.provenance.filter fun e => e.1 ≠ keyOf entry := by
      simp only [layerEntry]
      cases hget : InsertionMap.get state.provenance (keyOf entry) with
      | some packageName => rfl
      | none =>
        rw [get_eq_none] at hget
        refine (List.filter_eq_self.mpr fun e he => decide_eq_true ?_).symm
        rintro heq
        exact hget (heq ▸ List.mem_map_of_mem he)
    rw [List.foldl_cons, ih, hstep, List.filter_filter]
    refine List.filter_congr fun e _ => ?_
    rw [← Bool.decide_and, decide_eq_decide, List.map_cons, List.mem_cons, not_or, and_comm]

lemma provenance_expandPresets : (expandPresets readPreset inventory).provenance =
    (contributions readPreset inventory).provenance.filter
      fun e => e.1 ∉ inventory.plugins.map keyOf := provenance_layer _ _

/-- Provenance names the first contributor of every key the App leaves to the presets. -/
lemma get_provenance_expandPresets
    (hnames : ∀ name ∈ inventory.presets.getD [], name ≠ []) (key owner : JsString) :
    InsertionMap.get (expandPresets readPreset inventory).provenance key = some owner ↔
      key ∉ inventory.plugins.map keyOf ∧
        FirstContributor readPreset (inventory.presets.getD []) key owner := by
  have hlayered := @contributions_layered readPreset _ hnames
  rw [provenance_expandPresets]
  by_cases hkey : key ∈ inventory.plugins.map keyOf
  · have hnone : InsertionMap.get ((contributions readPreset inventory).provenance.filter
        fun e => e.1 ∉ inventory.plugins.map keyOf) key = none := by
      rw [get_eq_none]
      intro hmem
      obtain ⟨e, he, rfl⟩ := List.mem_map.mp hmem
      exact of_decide_eq_true (List.mem_filter.mp he).2 hkey
    rw [hnone]
    exact iff_of_false nofun fun h => h.1 hkey
  · rw [get_filter_key (fun k => decide (k ∉ inventory.plugins.map keyOf)) _ (decide_eq_true hkey),
      hlayered.owner, find_sorted_iff]
    exact (and_iff_right hkey).symm

/-- The entries of an expansion, by where they come from. -/
lemma mem_expandPresets (hkeys : (inventory.plugins.map keyOf).Nodup)
    (hnames : ∀ name ∈ inventory.presets.getD [], name ≠ []) (entry : PluginInventoryEntry) :
    entry ∈ (expandPresets readPreset inventory).entries ↔ entry ∈ inventory.plugins ∨
      (keyOf entry ∉ inventory.plugins.map keyOf ∧
        ∃ owner, FirstContributor readPreset (inventory.presets.getD []) (keyOf entry) owner ∧
          lastEntry readPreset owner (keyOf entry) = some entry) := by
  have hcontributed := contributions_contributed readPreset inventory
  have hlayered := @contributions_layered readPreset _ hnames
  rw [(expandPresets_perm hkeys).mem_iff, List.mem_append]
  refine or_congr_right ?_
  have hget : ∀ key, InsertionMap.get (contributions readPreset inventory).byKey key = some entry ↔
      ∃ owner, FirstContributor readPreset (inventory.presets.getD []) key owner ∧
        lastEntry readPreset owner key = some entry := by
    intro key
    rw [hlayered.entry, Option.bind_eq_some_iff]
    exact exists_congr fun owner => and_congr_left' find_sorted_iff
  rw [← hget, unnamedContributions, List.mem_map]
  constructor
  · rintro ⟨e, he, rfl⟩
    obtain ⟨hmem, hnot⟩ := List.mem_filter.mp he
    rw [← hcontributed.keyed e hmem]
    exact ⟨of_decide_eq_true hnot, get_of_mem hcontributed.nodup hmem⟩
  · rintro ⟨hnot, hentry⟩
    exact ⟨_, List.mem_filter.mpr ⟨mem_of_get hentry, decide_eq_true hnot⟩, rfl⟩

/-- One entry for each key that the App or a preset names. -/
lemma keys_expandPresets (hkeys : (inventory.plugins.map keyOf).Nodup) :
    ((expandPresets readPreset inventory).entries.map keyOf).Nodup ∧
      ∀ key, key ∈ (expandPresets readPreset inventory).entries.map keyOf ↔
        key ∈ inventory.plugins.map keyOf ∨ key ∈ contributedKeys readPreset inventory := by
  have hcontributed := contributions_contributed readPreset inventory
  have hunnamed : (unnamedContributions readPreset inventory).map keyOf =
      (keys (contributions readPreset inventory).byKey).filter
        fun key => key ∉ inventory.plugins.map keyOf := by
    rw [unnamedContributions, keys, List.map_map, List.filter_map]
    refine List.map_congr_left fun e he => ?_
    exact (hcontributed.keyed e (List.mem_of_mem_filter he)).symm
  have hperm := (@expandPresets_perm readPreset _ hkeys).map keyOf
  rw [List.map_append, hunnamed] at hperm
  constructor
  · rw [hperm.nodup_iff]
    refine hkeys.append (hcontributed.nodup.filter _) ?_
    intro key hkey hfiltered
    exact of_decide_eq_true (List.mem_filter.mp hfiltered).2 hkey
  · intro key
    rw [hperm.mem_iff, List.mem_append, List.mem_filter, hcontributed.complete, decide_eq_true_eq]
    by_cases hkey : key ∈ inventory.plugins.map keyOf
    · simp [hkey]
    · simp [hkey]

end Own

section Order

variable {inventory inventory' : InventoryFile}

/-- The App's references hold no blank, and every preset has a name: what the shipped schema asks
of an inventory. -/
structure PlainNames (inventory : InventoryFile) : Prop where
  references : ∀ entry ∈ inventory.plugins, unit ' ' ∉ entry.plugin
  presets : ∀ name ∈ inventory.presets.getD [], name ≠ []

lemma mem_of_mem_pluginIdOf {c : CodeUnit} {pluginRef : JsString} (h : c ∈ pluginIdOf pluginRef) :
    c ∈ pluginRef := by
  rw [pluginIdOf, afterLast, List.mem_reverse] at h
  exact List.mem_reverse.mp ((List.takeWhile_sublist _).mem h)

/-- Where plugin ids hold no blank, the sort key tells the instances apart. -/
lemma keyOf_eq_of_sortKey {a b : PluginInventoryEntry} (ha : unit ' ' ∉ a.plugin)
    (hb : unit ' ' ∉ b.plugin) (h : inventorySortKey a = inventorySortKey b) : keyOf a = keyOf b := by
  have hblank : ∀ {e : PluginInventoryEntry}, unit ' ' ∉ e.plugin →
      (inventorySortKey e).takeWhile (· ≠ unit ' ') = pluginIdOf e.plugin := by
    intro e he
    rw [inventorySortKey, List.takeWhile_append_of_pos]
    · simp
    · intro c hc
      rw [decide_eq_true_eq]
      rintro rfl
      exact he (mem_of_mem_pluginIdOf hc)
  have hid : pluginIdOf a.plugin = pluginIdOf b.plugin := by rw [← hblank ha, ← hblank hb, h]
  rw [inventorySortKey, inventorySortKey, hid] at h
  have hinstance := (List.cons.inj (List.append_cancel_left h)).2
  rw [keyOf, keyOf, hid, hinstance]

lemma nodup_sortKeys (hkeys : (inventory.plugins.map keyOf).Nodup) (hplain : PlainNames inventory) :
    (inventory.plugins.map inventorySortKey).Nodup := by
  refine List.Nodup.map_on ?_ (List.Nodup.of_map _ hkeys)
  intro a ha b hb heq
  exact List.inj_on_of_nodup_map hkeys ha hb
    (keyOf_eq_of_sortKey (hplain.references a ha) (hplain.references b hb) heq)

/-- What the presets contribute does not depend on the order they are named in. -/
lemma contributions_perm (h : (inventory'.presets.getD []).Perm (inventory.presets.getD [])) :
    contributions readPreset inventory' = contributions readPreset inventory := by
  rw [contributions, contributions, sorted_eq_of_perm h]

lemma provenance_perm (hplugins : inventory'.plugins.Perm inventory.plugins)
    (hpresets : (inventory'.presets.getD []).Perm (inventory.presets.getD [])) :
    (expandPresets readPreset inventory').provenance =
      (expandPresets readPreset inventory).provenance := by
  rw [provenance_expandPresets, provenance_expandPresets, contributions_perm hpresets]
  exact List.filter_congr fun e _ => decide_eq_decide.mpr (hplugins.map keyOf).mem_iff.not

lemma filter_keyed_sublist (p : JsString × PluginInventoryEntry → Bool)
    (plugins : List PluginInventoryEntry) :
    (((plugins.map fun entry => (keyOf entry, entry)).filter p).map Prod.snd).Sublist plugins := by
  have hmap : (plugins.map fun entry => (keyOf entry, entry)).map Prod.snd = plugins := by
    rw [List.map_map]
    exact List.map_id _
  have hsub := (List.filter_sublist (p := p)
    (l := plugins.map fun entry => (keyOf entry, entry))).map Prod.snd
  rwa [hmap] at hsub

/-- The entries do not depend on the order of either list. -/
lemma entries_perm (hkeys : (inventory.plugins.map keyOf).Nodup) (hplain : PlainNames inventory)
    (hplugins : inventory'.plugins.Perm inventory.plugins)
    (hpresets : (inventory'.presets.getD []).Perm (inventory.presets.getD [])) :
    (expandPresets readPreset inventory').entries = (expandPresets readPreset inventory).entries := by
  have hnodup : ∀ {plugins : List PluginInventoryEntry}, (plugins.map keyOf).Nodup →
      (keys (plugins.map fun entry => (keyOf entry, entry))).Nodup := by
    intro plugins h
    rw [keys, List.map_map]
    exact h
  have hkeys' : (inventory'.plugins.map keyOf).Nodup := (hplugins.map keyOf).nodup_iff.mpr hkeys
  have hpairs := hplugins.map fun entry => (keyOf entry, entry)
  rw [expandPresets, expandPresets]
  dsimp only
  rw [byKey_layer, byKey_layer, overlay_eq _ (hnodup hkeys'), overlay_eq _ (hnodup hkeys),
    contributions_perm hpresets]
  have hfirst : (contributions readPreset inventory).byKey.map (fun e => (e.1, (InsertionMap.get
        (inventory'.plugins.map fun entry => (keyOf entry, entry)) e.1).getD e.2)) =
      (contributions readPreset inventory).byKey.map fun e => (e.1, (InsertionMap.get
        (inventory.plugins.map fun entry => (keyOf entry, entry)) e.1).getD e.2) := by
    refine List.map_congr_left fun e _ => ?_
    rw [get_perm (hnodup hkeys') hpairs]
  rw [hfirst, List.map_append, List.map_append]
  refine sortBy_congr fun k => ?_
  rw [List.filter_append, List.filter_append]
  congr 1
  -- the keys the App adds are told apart by the sort key, so their order of arrival is lost
  refine filter_key_eq_of_perm ((hpairs.filter _).map Prod.snd) ?_ k
  exact ((filter_keyed_sublist _ inventory'.plugins).map inventorySortKey).nodup
    ((hplugins.map inventorySortKey).nodup_iff.mpr (nodup_sortKeys hkeys hplain))

/-- What an expansion is, key by key. -/
structure ExpansionSpec (readPreset : JsString → Option LoadedPreset) (inventory : InventoryFile) :
    Prop where
  once : ((expandPresets readPreset inventory).entries.map keyOf).Nodup
  complete : ∀ key, key ∈ (expandPresets readPreset inventory).entries.map keyOf ↔
    key ∈ inventory.plugins.map keyOf ∨
      ∃ name ∈ inventory.presets.getD [], key ∈ keysOfPreset readPreset name
  entries : ∀ entry, entry ∈ (expandPresets readPreset inventory).entries ↔
    entry ∈ inventory.plugins ∨ (keyOf entry ∉ inventory.plugins.map keyOf ∧
      ∃ owner, FirstContributor readPreset (inventory.presets.getD []) (keyOf entry) owner ∧
        lastEntry readPreset owner (keyOf entry) = some entry)
  provenance : ∀ key owner,
    InsertionMap.get (expandPresets readPreset inventory).provenance key = some owner ↔
      key ∉ inventory.plugins.map keyOf ∧
        FirstContributor readPreset (inventory.presets.getD []) key owner
  order : ∀ inventory' : InventoryFile, inventory'.plugins.Perm inventory.plugins →
    (inventory'.presets.getD []).Perm (inventory.presets.getD []) →
      (expandPresets readPreset inventory').entries = (expandPresets readPreset inventory).entries ∧
        (expandPresets readPreset inventory').provenance =
          (expandPresets readPreset inventory).provenance

lemma mem_contributedKeys {key : JsString} :
    key ∈ contributedKeys readPreset inventory ↔
      ∃ name ∈ inventory.presets.getD [], key ∈ keysOfPreset readPreset name := by
  have hsplit : presetEntries readPreset (inventory.presets.getD []) =
      (inventory.presets.getD []).flatMap fun name => presetEntries readPreset [name] := by
    simp [presetEntries]
  simp only [contributedKeys, hsplit, keysOfPreset, List.mem_map, List.mem_flatMap]
  constructor
  · rintro ⟨entry, ⟨name, hname, hentry⟩, hkey⟩
    exact ⟨name, hname, entry, hentry, hkey⟩
  · rintro ⟨name, hname, entry, hentry, hkey⟩
    exact ⟨entry, ⟨name, hname, hentry⟩, hkey⟩

/-- Expansion does what it says for every inventory of distinct instances with plain names. -/
theorem expandPresets_spec (readPreset : JsString → Option LoadedPreset) (inventory : InventoryFile)
    (hkeys : (inventory.plugins.map keyOf).Nodup) (hplain : PlainNames inventory) :
    ExpansionSpec readPreset inventory where
  once := (keys_expandPresets hkeys).1
  complete key := by rw [(keys_expandPresets hkeys).2, mem_contributedKeys]
  entries := mem_expandPresets hkeys hplain.presets
  provenance := get_provenance_expandPresets hplain.presets
  order _ hplugins hpresets := ⟨entries_perm hkeys hplain hplugins hpresets,
    provenance_perm hplugins hpresets⟩

end Order

section Example

def inventoryEntry (plugin instanceId : JsString) : PluginInventoryEntry :=
  { plugin := plugin, instanceId := instanceId, enabled := true, required := true, configRef := none }

/-- Every name is a preset of one entry, for the `default` instance of plugin `k`. -/
def presetOfK (name : JsString) : Option LoadedPreset :=
  some
    { packageName := name
      packageVersion := js "1.0.0"
      document :=
        { schemaVersion := PRESET_SCHEMA_VERSION
          id := name
          plugins := [⟨js "k", js "default", true, none⟩] } }

theorem expandPresets_spec_overlap :
    ExpansionSpec presetOfK
      { presets := some [js "q", js "p"], plugins := [inventoryEntry (js "@s/k") (js "two")] } :=
  expandPresets_spec presetOfK _ (by decide) ⟨by decide, by decide⟩

/-- Two instances whose names run together through a blank come out in the order of the list, and
a preset without a name loses its keys to the next one. -/
theorem expandPresets_unplain :
    (∃ inventory inventory' : InventoryFile, (inventory.plugins.map keyOf).Nodup ∧
        inventory'.plugins.Perm inventory.plugins ∧ inventory'.presets = inventory.presets ∧
        (expandPresets presetOfK inventory').entries ≠ (expandPresets presetOfK inventory).entries) ∧
      ∃ (inventory : InventoryFile) (key owner : JsString), (inventory.plugins.map keyOf).Nodup ∧
        key ∉ inventory.plugins.map keyOf ∧
        FirstContributor presetOfK (inventory.presets.getD []) key owner ∧
        InsertionMap.get (expandPresets presetOfK inventory).provenance key ≠ some owner := by
  constructor
  · refine ⟨⟨none, [inventoryEntry (js "a b") (js "c"), inventoryEntry (js "a") (js "b c")]⟩,
      ⟨none, [inventoryEntry (js "a") (js "b c"), inventoryEntry (js "a b") (js "c")]⟩,
      by decide, List.Perm.swap _ _ _, rfl, ?_⟩
    intro heq
    have hids := congrArg (List.map (·.instanceId)) heq
    revert hids
    decide +kernel
  · refine ⟨⟨some [[], js "p"], []⟩, js "k", [], by decide, by decide, ⟨by decide, by decide, ?_⟩,
      by decide +kernel⟩
    exact fun other _ _ => not_lt.mp (List.not_lt_nil other)

end Example

section Overlap

/-- With all presets supported, and whatever the App names itself, expansion reports no error
exactly when no two presets share a key in the first place. -/
theorem explicit_entry_settles_iff (readPreset : JsString → Option LoadedPreset)
    (inventory : InventoryFile)
    (hsupported : ∀ name ∈ inventory.presets.getD [], ∃ preset, readPreset name = some preset ∧
      preset.document.schemaVersion = PRESET_SCHEMA_VERSION) :
    hasErrors (expandPresets readPreset inventory).diagnostics = false ↔
      ∀ name ∈ inventory.presets.getD [], ∀ other ∈ inventory.presets.getD [],
        name ≠ [] → other ≠ [] → name ≠ other →
          ∀ key ∈ keysOfPreset readPreset name, key ∉ keysOfPreset readPreset other := by
  rw [hasErrors_expandPresets]
  constructor
  · intro h name hname other hother hne hne' hdifferent key hkey hkey'
    exact hdifferent (h.disjoint name hname other hother hne hne' key hkey hkey')
  · intro h
    refine ⟨hsupported, fun name hname other hother hne hne' key hkey hkey' => ?_⟩
    by_contra hdifferent
    exact h name hname other hother hne hne' hdifferent key hkey hkey'

/-- Two presets share an instance that the App names itself. -/
def namedOverlap : InventoryFile :=
  { presets := some [js "p", js "q"], plugins := [inventoryEntry (js "k") (js "default")] }

theorem explicit_entry_settles_named :
    hasErrors (expandPresets presetOfK namedOverlap).diagnostics = false ↔
      ∀ name ∈ namedOverlap.presets.getD [], ∀ other ∈ namedOverlap.presets.getD [],
        name ≠ [] → other ≠ [] → name ≠ other →
          ∀ key ∈ keysOfPreset presetOfK name, key ∉ keysOfPreset presetOfK other :=
  explicit_entry_settles_iff presetOfK namedOverlap fun _ _ => ⟨_, rfl, rfl⟩

theorem explicit_entry_leaves_overlap :
    (∀ name ∈ namedOverlap.presets.getD [], ∃ preset, presetOfK name = some preset ∧
        preset.document.schemaVersion = PRESET_SCHEMA_VERSION) ∧
      (∀ name ∈ namedOverlap.presets.getD [], ∀ other ∈ namedOverlap.presets.getD [], name ≠ other →
        ∀ key ∈ keysOfPreset presetOfK name, key ∈ keysOfPreset presetOfK other →
          key ∈ namedOverlap.plugins.map keyOf) ∧
      hasErrors (expandPresets presetOfK namedOverlap).diagnostics = true :=
  ⟨fun _ _ => ⟨_, rfl, rfl⟩, by decide, by decide +kernel⟩

end Overlap

end Appspine.Inventory
