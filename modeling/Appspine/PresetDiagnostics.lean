import Appspine.Presets

/-!
# When preset expansion reports no error

A preset that cannot be read, one of another schema version, and an instance that two presets
contribute are errors. An entry of the App that takes over a contributed key is not.
-/
namespace Appspine.Inventory
open JsText StableSort InsertionMap PluginManifest ConfigBoundary

variable {readPreset : JsString → Option LoadedPreset}

/-- The keys of a preset that can be expanded. -/
def keysOfPreset (readPreset : JsString → Option LoadedPreset) (name : JsString) : List JsString :=
  (presetEntries readPreset [name]).map (fun entry => keyOf entry.expanded)

/-- Every named preset can be expanded, and no two of them contribute one key. -/
structure PresetsUsable (readPreset : JsString → Option LoadedPreset) (names : List JsString) :
    Prop where
  supported : ∀ name ∈ names, ∃ preset, readPreset name = some preset ∧
    preset.document.schemaVersion = PRESET_SCHEMA_VERSION
  disjoint : ∀ name ∈ names, ∀ other ∈ names, name ≠ [] → other ≠ [] →
    ∀ key ∈ keysOfPreset readPreset name, key ∈ keysOfPreset readPreset other → name = other

lemma PresetsUsable.perm {names names' : List JsString} (h : PresetsUsable readPreset names)
    (hperm : names.Perm names') : PresetsUsable readPreset names' := by
  refine ⟨fun name hname => h.supported name (hperm.mem_iff.mpr hname), ?_⟩
  intro name hname other hother
  exact h.disjoint name (hperm.mem_iff.mpr hname) other (hperm.mem_iff.mpr hother)

section Overlaps

/-- Another preset has contributed the key. -/
def Taken (provenance : Entries JsString JsString) (packageName key : JsString) : Prop :=
  ∃ previous, InsertionMap.get provenance key = some previous ∧ previous ≠ [] ∧
    previous ≠ packageName

lemma taken_iff {provenance : Entries JsString JsString} {packageName key : JsString} :
    Taken provenance packageName key ↔
      (InsertionMap.get provenance key).filter (fun previous =>
        previous ≠ [] ∧ previous ≠ packageName) ≠ none := by
  rw [Option.ne_none_iff_exists']
  simp [Taken, Option.filter_eq_some_iff]

/-- What the entries of one preset change: keys that are not taken become its own. -/
structure AddedBy (packageName : JsString) (before after : Entries JsString JsString)
    (added : List JsString) : Prop where
  free : ∀ key ∈ added, ¬Taken before packageName key →
    InsertionMap.get after key = some packageName
  other : ∀ key, key ∉ added ∨ Taken before packageName key →
    InsertionMap.get after key = InsertionMap.get before key

lemma AddedBy.taken_iff {packageName key : JsString} {before after : Entries JsString JsString}
    {added : List JsString} (h : AddedBy packageName before after added) :
    Taken after packageName key ↔ Taken before packageName key := by
  by_cases hother : key ∉ added ∨ Taken before packageName key
  · rw [Taken, Taken, h.other key hother]
  · rw [not_or, not_not] at hother
    have hget := h.free key hother.1 hother.2
    refine iff_of_false ?_ hother.2
    rintro ⟨previous, hprevious, _, hne⟩
    exact hne (Option.some.inj (hprevious.symm.trans hget))

lemma contribute_added {packageName : JsString} {before : Entries JsString JsString}
    {state : Expansion} {added : List JsString} {clean : Prop}
    (h : AddedBy packageName before state.provenance added)
    (herrors : hasErrors state.diagnostics = false ↔ clean ∧
      ∀ key ∈ added, ¬Taken before packageName key) (entry : PresetEntry) :
    AddedBy packageName before (contribute packageName state entry).provenance
      (added ++ [keyOf entry.expanded]) ∧
    (hasErrors (contribute packageName state entry).diagnostics = false ↔ clean ∧
      ∀ key ∈ added ++ [keyOf entry.expanded], ¬Taken before packageName key) := by
  have hstep := contribute.eq_def packageName state entry
  simp only at hstep
  cases hprevious : (InsertionMap.get state.provenance (keyOf entry.expanded)).filter (fun previous =>
      previous ≠ [] ∧ previous ≠ packageName) with
  | some previous =>
    have htaken : Taken before packageName (keyOf entry.expanded) := by
      rw [← h.taken_iff, Inventory.taken_iff, hprevious]
      exact Option.some_ne_none _
    rw [hprevious] at hstep
    rw [hstep]
    refine ⟨⟨fun key hkey hfree => ?_, fun key hkey => ?_⟩, ?_⟩
    · rcases List.mem_append.mp hkey with hin | hlast
      · exact h.free key hin hfree
      · exact absurd (List.mem_singleton.mp hlast ▸ htaken) hfree
    · refine h.other key (hkey.imp_left fun hnot hin => hnot (List.mem_append_left _ hin))
    · refine iff_of_false (by simp [presetOverlap, diagnostic, hasErrors]) ?_
      rintro ⟨_, hfree⟩
      exact hfree _ (List.mem_append_right _ (List.mem_singleton_self _)) htaken
  | none =>
    have hfree : ¬Taken before packageName (keyOf entry.expanded) := by
      rw [← h.taken_iff, Inventory.taken_iff, hprevious]
      exact fun hne => hne rfl
    rw [hprevious] at hstep
    rw [hstep]
    refine ⟨⟨fun key hkey hnot => ?_, fun key hkey => ?_⟩, ?_⟩
    · rw [get_set]
      split_ifs with heq
      · rfl
      · refine h.free key ((List.mem_append.mp hkey).resolve_right fun hlast => ?_) hnot
        exact heq (List.mem_singleton.mp hlast)
    · have hne : key ≠ keyOf entry.expanded := by
        rintro rfl
        rcases hkey with hnot | htaken
        · exact hnot (List.mem_append_right _ (List.mem_singleton_self _))
        · exact hfree htaken
      rw [get_set, if_neg hne]
      exact h.other key (hkey.imp_left fun hnot hin => hnot (List.mem_append_left _ hin))
    · rw [herrors]
      simp only [List.forall_mem_append, List.forall_mem_singleton, hfree, not_false_eq_true,
        and_true]

/-- The entries of one preset go without an error exactly when no key of theirs is taken. -/
lemma contribute_all (packageName : JsString) (entries : List PresetEntry) (state : Expansion) :
    let after := entries.foldl (contribute packageName) state
    AddedBy packageName state.provenance after.provenance
      (entries.map (fun entry => keyOf entry.expanded)) ∧
    (hasErrors after.diagnostics = false ↔ hasErrors state.diagnostics = false ∧
      ∀ key ∈ entries.map (fun entry => keyOf entry.expanded),
        ¬Taken state.provenance packageName key) := by
  induction entries using List.reverseRecOn with
  | nil => exact ⟨⟨by simp, fun _ _ => rfl⟩, by simp⟩
  | append_singleton entries entry ih =>
    simp only [List.foldl_append, List.foldl_cons, List.foldl_nil, List.map_append, List.map_cons,
      List.map_nil]
    exact contribute_added ih.1 ih.2 entry

end Overlaps

section Run

/-- What holds after the presets of these names are expanded. -/
structure PresetsExpanded (readPreset : JsString → Option LoadedPreset) (state : Expansion)
    (names : List JsString) : Prop where
  owner : ∀ key name, InsertionMap.get state.provenance key = some name →
    name ∈ names ∧ key ∈ keysOfPreset readPreset name
  owned : ∀ name ∈ names, name ≠ [] → ∀ key ∈ keysOfPreset readPreset name,
    ∃ owner, InsertionMap.get state.provenance key = some owner ∧ owner ≠ []
  errors : hasErrors state.diagnostics = false ↔ PresetsUsable readPreset names

lemma PresetsExpanded.unsupported {state state' : Expansion} {names : List JsString}
    {name : JsString} {d : PluginDiagnostic} (h : PresetsExpanded readPreset state names)
    (hnot : ¬∃ preset, readPreset name = some preset ∧
      preset.document.schemaVersion = PRESET_SCHEMA_VERSION)
    (hprovenance : state'.provenance = state.provenance)
    (hdiagnostics : state'.diagnostics = state.diagnostics ++ [d]) (hd : d.severity = .error) :
    PresetsExpanded readPreset state' (names ++ [name]) := by
  have hnone : keysOfPreset readPreset name = [] := by
    cases hread : readPreset name with
    | none => simp [keysOfPreset, presetEntries, hread]
    | some preset =>
      have hversion : preset.document.schemaVersion ≠ PRESET_SCHEMA_VERSION :=
        fun heq => hnot ⟨preset, hread, heq⟩
      simp [keysOfPreset, presetEntries, hread, hversion]
  refine ⟨?_, ?_, ?_⟩
  · intro key owner howner
    rw [hprovenance] at howner
    obtain ⟨hmem, hkey⟩ := h.owner key owner howner
    exact ⟨List.mem_append_left _ hmem, hkey⟩
  · intro other hother hne key hkey
    rw [hprovenance]
    rcases List.mem_append.mp hother with hin | hlast
    · exact h.owned other hin hne key hkey
    · rw [List.mem_singleton.mp hlast, hnone] at hkey
      cases hkey
  · refine iff_of_false (by simp [hdiagnostics, hasErrors, hd]) ?_
    exact fun husable => hnot (husable.supported name (by simp))

/-- Names are expanded in order, so an empty one comes first. -/
lemma PresetsExpanded.expandPreset {state : Expansion} {names : List JsString} {name : JsString}
    (h : PresetsExpanded readPreset state names) (hfirst : name = [] → ∀ other ∈ names, other = []) :
    PresetsExpanded readPreset (Inventory.expandPreset readPreset state name) (names ++ [name]) := by
  by_cases hsupported : ∃ preset, readPreset name = some preset ∧
      preset.document.schemaVersion = PRESET_SCHEMA_VERSION
  case neg =>
    unfold Inventory.expandPreset
    cases hread : readPreset name with
    | none => exact h.unsupported hsupported rfl rfl rfl
    | some preset =>
      have hversion : preset.document.schemaVersion ≠ PRESET_SCHEMA_VERSION :=
        fun heq => hsupported ⟨preset, hread, heq⟩
      simp only [hversion, ne_eq, not_false_eq_true, if_true]
      exact h.unsupported hsupported rfl rfl rfl
  obtain ⟨preset, hread, hversion⟩ := hsupported
  have hkeys : keysOfPreset readPreset name =
      preset.document.plugins.map (fun entry => keyOf entry.expanded) := by
    simp [keysOfPreset, presetEntries, hread, hversion]
  obtain ⟨hadded, herrors⟩ := contribute_all name preset.document.plugins
    { state with presets := state.presets ++ [preset] }
  rw [← hkeys] at hadded herrors
  simp only [Inventory.expandPreset, hread, hversion, ne_eq, not_true_eq_false, if_false]
  generalize preset.document.plugins.foldl (Inventory.contribute name)
    { state with presets := state.presets ++ [preset] } = after at hadded herrors ⊢
  refine ⟨?_, ?_, herrors.trans ?_⟩
  · intro key owner howner
    by_cases hother : key ∉ keysOfPreset readPreset name ∨ Taken state.provenance name key
    · rw [hadded.other key hother] at howner
      obtain ⟨hmem, hkey⟩ := h.owner key owner howner
      exact ⟨List.mem_append_left _ hmem, hkey⟩
    · rw [not_or, not_not] at hother
      obtain rfl := Option.some.inj (howner.symm.trans (hadded.free key hother.1 hother.2))
      exact ⟨by simp, hother.1⟩
  · intro other hother hne key hkey
    by_cases hkept : key ∉ keysOfPreset readPreset name ∨ Taken state.provenance name key
    · rw [hadded.other key hkept]
      rcases List.mem_append.mp hother with hin | hlast
      · exact h.owned other hin hne key hkey
      · rw [List.mem_singleton.mp hlast] at hkey
        obtain ⟨previous, hprevious, hnil, _⟩ := hkept.resolve_left fun hnot => hnot hkey
        exact ⟨previous, hprevious, hnil⟩
    · rw [not_or, not_not] at hkept
      refine ⟨name, hadded.free key hkept.1 hkept.2, ?_⟩
      rcases List.mem_append.mp hother with hin | hlast
      · -- the key had an owner, which is the preset itself
        obtain ⟨owner, howner, hnil⟩ := h.owned other hin hne key hkey
        rintro rfl
        exact hkept.2 ⟨owner, howner, hnil, hnil⟩
      · exact List.mem_singleton.mp hlast ▸ hne
  · rw [show hasErrors _ = false ↔ PresetsUsable readPreset names from h.errors]
    constructor
    · rintro ⟨husable, hfree⟩
      have hcommon : ∀ other ∈ names, other ≠ [] → ∀ key ∈ keysOfPreset readPreset other,
          key ∈ keysOfPreset readPreset name → other = name := by
        intro other hother hne key hkey hown
        obtain ⟨owner, howner, hnil⟩ := h.owned other hother hne key hkey
        obtain ⟨hmem, hkeyOwner⟩ := h.owner key owner howner
        rw [husable.disjoint other hother owner hmem hne hnil key hkey hkeyOwner]
        by_contra hdifferent
        exact hfree key hown ⟨owner, howner, hnil, hdifferent⟩
      refine ⟨?_, ?_⟩
      · intro other hother
        rcases List.mem_append.mp hother with hin | hlast
        · exact husable.supported other hin
        · rw [List.mem_singleton.mp hlast]
          exact ⟨preset, hread, hversion⟩
      · intro first hfirst' second hsecond hne hne' key hkey hkey'
        rcases List.mem_append.mp hfirst' with hin | hlast <;>
          rcases List.mem_append.mp hsecond with hin' | hlast'
        · exact husable.disjoint first hin second hin' hne hne' key hkey hkey'
        · rw [List.mem_singleton.mp hlast'] at hkey' ⊢
          exact hcommon first hin hne key hkey hkey'
        · rw [List.mem_singleton.mp hlast] at hkey ⊢
          exact (hcommon second hin' hne' key hkey' hkey).symm
        · rw [List.mem_singleton.mp hlast, List.mem_singleton.mp hlast']
    · intro husable
      refine ⟨⟨fun other hother => husable.supported other (by simp [hother]), ?_⟩, ?_⟩
      · intro first hin second hin' hne hne'
        exact husable.disjoint first (by simp [hin]) second (by simp [hin']) hne hne'
      · rintro key hkey ⟨owner, howner, hnil, hne⟩
        obtain ⟨hmem, hkeyOwner⟩ := h.owner key owner howner
        have hname : name ≠ [] := fun hempty => hnil (hfirst hempty owner hmem)
        exact hne (husable.disjoint owner (by simp [hmem]) name (by simp) hnil hname key hkeyOwner
          hkey)

lemma contributions_expanded (readPreset : JsString → Option LoadedPreset)
    (inventory : InventoryFile) :
    PresetsExpanded readPreset (contributions readPreset inventory)
      (sorted (inventory.presets.getD [])) := by
  have hordered := sorted_pairwise (inventory.presets.getD [])
  rw [contributions]
  generalize sorted (inventory.presets.getD []) = names at hordered ⊢
  induction names using List.reverseRecOn with
  | nil => exact ⟨by simp, by simp, iff_of_true rfl ⟨by simp, by simp⟩⟩
  | append_singleton names name ih =>
    rw [List.pairwise_append] at hordered
    rw [List.foldl_append, List.foldl_cons, List.foldl_nil]
    refine (ih hordered.1).expandPreset ?_
    rintro rfl other hother
    exact le_antisymm (hordered.2.2 other hother [] (by simp)) (not_lt.mp (List.not_lt_nil other))

lemma hasErrors_layer (state : Expansion) (plugins : List PluginInventoryEntry) :
    hasErrors (plugins.foldl layerEntry state).diagnostics = hasErrors state.diagnostics := by
  induction plugins generalizing state with
  | nil => rfl
  | cons entry plugins ih =>
    rw [List.foldl_cons, ih]
    simp only [layerEntry]
    split
    · simp [hasErrors, presetEntryOverridden]
    · rfl

/-- Expansion reports no error exactly when the named presets are usable. -/
lemma hasErrors_expandPresets (inventory : InventoryFile) :
    hasErrors (expandPresets readPreset inventory).diagnostics = false ↔
      PresetsUsable readPreset (inventory.presets.getD []) := by
  rw [expandPresets, hasErrors_layer, (contributions_expanded readPreset inventory).errors]
  exact ⟨fun h => h.perm (sorted_perm _), fun h => h.perm (sorted_perm _).symm⟩

end Run

end Appspine.Inventory
