import Appspine.AddCommand
import Appspine.PresetLayers
import Appspine.JsonIndented

/-!
# The inventory as text

`appspine.plugins.json` as the bytes it consists of. What the CLI writes is one text for an
inventory, in whatever order it was handed over, and reads back as that inventory.
-/
namespace Appspine.Inventory
open JsText StableSort InsertionMap JsonText PluginManifest ConfigBoundary
open Generate (entryJson textMember flagMember)
open Generators (documentText parse_documentText)

variable {N : Type}

section Document

def INVENTORY_SCHEMA_VERSION : JsString := js "appspine.plugins/v1"

/-- The document of an inventory, with its members in their fixed order. -/
def inventoryDocument (inventory : InventoryFile) : Json N :=
  .obj ((js "schemaVersion", .str INVENTORY_SCHEMA_VERSION) ::
    (optionalMember (js "presets") (inventory.presets.map strings) ++
      [(js "plugins", .arr (inventory.plugins.map entryJson))]))

/-- The text that `serializeInventory` returns. -/
def serialized (N : Type) [JsonNumber N] (inventory : InventoryFile) : JsString :=
  documentText (N := N) (inventoryDocument (serializeInventory inventory))

def textOf : Json N → Option JsString
  | .str s => some s
  | _ => none

def ENTRY_KEYS : List JsString :=
  [js "plugin", js "instanceId", js "enabled", js "required", js "configRef"]

def FILE_KEYS : List JsString := [js "schemaVersion", js "presets", js "plugins"]

/-- An item of `plugins` as an entry, when it has the members of one and no others. -/
def entryOf : Json N → Option PluginInventoryEntry
  | .obj members =>
    if (keys members).all (· ∈ ENTRY_KEYS) then do
      let plugin ← textMember members (js "plugin")
      let instanceId ← textMember members (js "instanceId")
      let enabled ← flagMember members (js "enabled")
      let required ← flagMember members (js "required")
      match InsertionMap.get members (js "configRef") with
      | none => some ⟨plugin, instanceId, enabled, required, none⟩
      | some j => (textOf j).map fun configRef => ⟨plugin, instanceId, enabled, required, configRef⟩
    else none
  | _ => none

/-- A document as an inventory file, when it has the members of one and no others. -/
def candidateOf : Json N → Option InventoryFile
  | .obj members =>
    if (keys members).all (· ∈ FILE_KEYS) ∧
        textMember members (js "schemaVersion") = some INVENTORY_SCHEMA_VERSION then
      match InsertionMap.get members (js "plugins") with
      | some (.arr items) => do
        let plugins ← items.mapM entryOf
        match InsertionMap.get members (js "presets") with
        | none => some ⟨none, plugins⟩
        | some (.arr names) => (names.mapM textOf).map fun presets => ⟨presets, plugins⟩
        | some _ => none
      | _ => none
    else none
  | _ => none

/-- A JSON Schema validator for the shipped schema, on documents. -/
structure DocumentValidator (N : Type) where
  errors : Json N → List SchemaError
  errors_eq_nil : ∀ value, errors value = [] ↔
    ∃ file, candidateOf value = some file ∧ matchesSchema file = true

/-- A validator with one message for everything. -/
def DocumentValidator.plain (N : Type) : DocumentValidator N where
  errors value :=
    if (candidateOf value).any matchesSchema then [] else [{ message := none, instancePath := [] }]
  errors_eq_nil value := by
    cases candidateOf value with
    | none => simp
    | some file => simp

/-- An item with the texts that name an instance. -/
def looseEntryOf : Json N → Option PluginInventoryEntry
  | .obj members => do
    let plugin ← textMember members (js "plugin")
    let instanceId ← textMember members (js "instanceId")
    some
      { plugin := plugin
        instanceId := instanceId
        enabled := (flagMember members (js "enabled")).getD true
        required := (flagMember members (js "required")).getD true
        configRef := none }
  | _ => none

/-- What the semantic checks see of a document. One of another shape is refused by the validator;
its entries matter for what is reported besides. -/
def checkedOf (value : Json N) : InventoryFile :=
  (candidateOf value).getD
    { presets := none
      plugins :=
        match value with
        | .obj members =>
          match InsertionMap.get members (js "plugins") with
          | some (.arr items) => items.filterMap looseEntryOf
          | _ => []
        | _ => [] }

/-- `parseInventory` on a value that `JSON.parse` gave. -/
def parseDocument (validator : DocumentValidator N) (value : Json N) :
    Except (List PluginDiagnostic) ParsedInventory :=
  parseInventory (validator.errors value) (checkedOf value)

end Document

section RoundTrip

lemma entryOf_entryJson (entry : PluginInventoryEntry) :
    entryOf (entryJson (N := N) entry) = some entry := by
  obtain ⟨plugin, instanceId, enabled, required, configRef⟩ := entry
  cases configRef with
  | none => rfl
  | some configRef => rfl

lemma mapM_map_of_left_inverse {α β : Type} {f : α → β} {g : β → Option α}
    (h : ∀ a, g (f a) = some a) (xs : List α) : (xs.map f).mapM g = some xs := by
  induction xs with
  | nil => rfl
  | cons x xs ih => simp [List.mapM_cons, h, ih]

lemma textOf_strings (names : List JsString) :
    (names.map (Json.str (N := N))).mapM textOf = some names :=
  @mapM_map_of_left_inverse _ _ Json.str textOf (fun _ => rfl) names

/-- A document gives back the inventory it was made of. -/
lemma candidateOf_inventoryDocument (inventory : InventoryFile) :
    candidateOf (inventoryDocument (N := N) inventory) = some inventory := by
  have hplugins := mapM_map_of_left_inverse (@entryOf_entryJson N) inventory.plugins
  have hitems : InsertionMap.get ((js "schemaVersion", .str INVENTORY_SCHEMA_VERSION) ::
      (optionalMember (js "presets") (inventory.presets.map strings) ++
        [(js "plugins", .arr (inventory.plugins.map (entryJson (N := N))))])) (js "plugins") =
      some (.arr (inventory.plugins.map entryJson)) := by
    cases inventory.presets <;> rfl
  have hpresets : InsertionMap.get ((js "schemaVersion", .str INVENTORY_SCHEMA_VERSION) ::
      (optionalMember (js "presets") (inventory.presets.map strings) ++
        [(js "plugins", .arr (inventory.plugins.map (entryJson (N := N))))])) (js "presets") =
      inventory.presets.map strings := by
    cases inventory.presets <;> rfl
  rw [inventoryDocument, candidateOf, if_pos ⟨by cases inventory.presets <;> rfl, rfl⟩]
  simp only [hitems, hpresets, hplugins]
  obtain ⟨presets, plugins⟩ := inventory
  cases presets with
  | none => rfl
  | some names =>
    simp only [Option.map_some, strings, textOf_strings]
    rfl

/-- Members that are created in this order and are no array indices stay as they are. -/
lemma ofEntries_eq {entries : List (JsString × Json N)} (hnodup : (entries.map Prod.fst).Nodup)
    (hnames : ∀ e ∈ entries, isArrayIndex e.1 = false) : ofEntries entries = entries := by
  rw [ofEntries, foldl_set_of_nodup entries [] (by simpa using hnodup), List.nil_append,
    enumerationOrder, List.filter_eq_nil_iff.mpr (by simpa using hnames), sortBy_nil,
    List.nil_append]
  exact List.filter_eq_self.mpr fun e he => by rw [hnames e he]; rfl

lemma rebuild_obj {members : List (JsString × Json N)} (hnodup : (members.map Prod.fst).Nodup)
    (hnames : ∀ k ∈ members.map Prod.fst, isArrayIndex k = false) (hvalues : ∀ m ∈ members, rebuild m.2 = m.2) :
    rebuild (.obj members) = .obj members := by
  have hself : members.map (fun m => (m.1, rebuild m.2)) = members := by
    conv_rhs => rw [← List.map_id members]
    exact List.map_congr_left fun m hm => Prod.ext rfl (hvalues m hm)
  rw [rebuild, rebuildMembers_eq, hself, ofEntries_eq hnodup fun m hm =>
    hnames m.1 (List.mem_map_of_mem hm)]

lemma rebuild_arr {items : List (Json N)} (h : ∀ j ∈ items, rebuild j = j) :
    rebuild (.arr items) = .arr items := by
  rw [rebuild, rebuildItems_eq, List.map_congr_left h, List.map_id']

lemma rebuild_strings (names : List JsString) : rebuild (strings (N := N) names) = strings names := by
  refine rebuild_arr fun j hj => ?_
  obtain ⟨name, -, rfl⟩ := List.mem_map.mp hj
  rfl

lemma rebuild_entryJson (entry : PluginInventoryEntry) :
    rebuild (entryJson (N := N) entry) = entryJson entry := by
  obtain ⟨plugin, instanceId, enabled, required, configRef⟩ := entry
  cases configRef with
  | none => rfl
  | some configRef => rfl

/-- The document has its members in enumeration order. -/
lemma rebuild_inventoryDocument (inventory : InventoryFile) :
    rebuild (inventoryDocument (N := N) inventory) = inventoryDocument inventory := by
  have hplugins : rebuild (.arr (inventory.plugins.map (entryJson (N := N)))) =
      .arr (inventory.plugins.map entryJson) := by
    refine rebuild_arr fun j hj => ?_
    obtain ⟨entry, -, rfl⟩ := List.mem_map.mp hj
    exact rebuild_entryJson entry
  obtain ⟨presets, plugins⟩ := inventory
  cases presets with
  | none =>
    have hkeys : ∀ k ∈ [js "schemaVersion", js "plugins"], isArrayIndex k = false := by decide
    refine rebuild_obj (show [js "schemaVersion", js "plugins"].Nodup by decide) hkeys
      fun m hm => ?_
    fin_cases hm
    · rfl
    · exact hplugins
  | some names =>
    have hkeys : ∀ k ∈ FILE_KEYS, isArrayIndex k = false := by decide
    refine rebuild_obj (show FILE_KEYS.Nodup by decide) hkeys fun m hm => ?_
    fin_cases hm
    · rfl
    · exact rebuild_strings names
    · exact hplugins

/-- The text of an inventory reads back as its document. -/
lemma parse_serialized [JsonNumber N] (inventory : InventoryFile) :
    parse (serialized N inventory) =
      some (inventoryDocument (N := N) (serializeInventory inventory)) := by
  rw [serialized, parse_documentText, rebuild_inventoryDocument]

end RoundTrip

section Canonical

variable {inventory inventory' : InventoryFile}

/-- What the parser accepts: the schema holds, and every instance is named once. -/
structure Accepted (inventory : InventoryFile) : Prop where
  schema : matchesSchema inventory = true
  once : (inventory.plugins.map keyOf).Nodup

lemma blank_not_mem_packagePart {s : JsString} (h : isPackagePart s = true) : unit ' ' ∉ s := by
  cases s with
  | nil => exact List.not_mem_nil
  | cons u us =>
    simp only [isPackagePart, Bool.and_eq_true, List.all_eq_true] at h
    intro hmem
    rcases List.mem_cons.mp hmem with rfl | hmem
    · exact absurd h.1 (by decide)
    · exact absurd (h.2 _ hmem) (by decide)

/-- The schema leaves no room for a blank in a reference. -/
lemma blank_not_mem_pluginRef {ref : JsString} (h : isPluginRef ref = true) : unit ' ' ∉ ref := by
  unfold isPluginRef at h
  split_ifs at h with hscoped
  · split at h
    · next scope name hsplit =>
      rw [Bool.and_eq_true] at h
      have hrest : ref.drop 1 = scope ++ unit '/' :: name := by
        have hjoin := @List.intercalate_splitOn _ (ref.drop 1) _ _ (unit '/')
        rw [hsplit] at hjoin
        rw [← hjoin]
        simp [List.intercalate]
      have hwhole : ref = js "@" ++ (scope ++ unit '/' :: name) := by
        rw [← hrest]
        obtain ⟨rest, hscope⟩ := startsWith_iff.mp hscoped
        rw [← hscope]
        rfl
      rw [hwhole]
      intro hmem
      rcases List.mem_append.mp hmem with hat | hmem
      · exact absurd hat (by decide)
      rcases List.mem_append.mp hmem with hscope | hmem
      · exact blank_not_mem_packagePart h.1 hscope
      rcases List.mem_cons.mp hmem with hslash | hname
      · exact absurd hslash (by decide)
      · exact blank_not_mem_packagePart h.2 hname
    · exact absurd h (by simp)
  · exact blank_not_mem_packagePart h

lemma plainNames_of_matches (h : matchesSchema inventory = true) : PlainNames inventory := by
  simp only [matchesSchema, Bool.and_eq_true, List.all_eq_true, decide_eq_true_eq] at h
  refine ⟨fun entry hentry => ?_, h.1.1⟩
  have hitem := h.2 entry hentry
  rw [isInventoryEntry, Bool.and_eq_true, Bool.and_eq_true] at hitem
  exact blank_not_mem_pluginRef hitem.1.1

/-- The presets as written: none at all, or their names in order. -/
lemma presets_serializeInventory (inventory : InventoryFile) :
    (serializeInventory inventory).presets =
      if inventory.presets.getD [] = [] then none else some (sorted (inventory.presets.getD [])) := by
  obtain ⟨presets, plugins⟩ := inventory
  cases presets with
  | none => rfl
  | some names => by_cases h : names = [] <;> simp [serializeInventory, Option.filter_some, h]

/-- The order of the plugins and the presets does not reach the file. -/
lemma serializeInventory_perm (h : Accepted inventory)
    (hplugins : inventory'.plugins.Perm inventory.plugins)
    (hpresets : (inventory'.presets.getD []).Perm (inventory.presets.getD [])) :
    serializeInventory inventory' = serializeInventory inventory := by
  have hkeys := nodup_sortKeys h.once (plainNames_of_matches h.schema)
  have hsorted : sortBy inventorySortKey inventory'.plugins =
      sortBy inventorySortKey inventory.plugins :=
    (sortBy_eq_of_perm hplugins.symm fun a ha b hb => List.inj_on_of_nodup_map hkeys ha hb).symm
  have hnames : (serializeInventory inventory').presets = (serializeInventory inventory).presets := by
    have hempty : inventory'.presets.getD [] = [] ↔ inventory.presets.getD [] = [] :=
      ⟨fun hnil => by simpa [hnil] using hpresets, fun hnil => by simpa [hnil] using hpresets⟩
    rw [presets_serializeInventory, presets_serializeInventory, sorted_eq_of_perm hpresets]
    simp only [hempty]
  calc serializeInventory inventory'
      = ⟨(serializeInventory inventory').presets, sortBy inventorySortKey inventory'.plugins⟩ := rfl
    _ = ⟨(serializeInventory inventory).presets, sortBy inventorySortKey inventory.plugins⟩ := by
        rw [hnames, hsorted]

lemma presets_serializeInventory_perm (inventory : InventoryFile) :
    ((serializeInventory inventory).presets.getD []).Perm (inventory.presets.getD []) := by
  rw [presets_serializeInventory]
  split_ifs with h
  · rw [h]
    exact List.Perm.refl _
  · exact sorted_perm _

lemma accepted_serializeInventory : Accepted (serializeInventory inventory) ↔ Accepted inventory := by
  have hperm : ((serializeInventory inventory).plugins.map keyOf).Perm
      (inventory.plugins.map keyOf) := (sortBy_perm inventorySortKey inventory.plugins).map keyOf
  constructor
  · rintro ⟨hschema, honce⟩
    exact ⟨matchesSchema_serialize.symm.trans hschema, hperm.nodup_iff.mp honce⟩
  · rintro ⟨hschema, honce⟩
    exact ⟨matchesSchema_serialize.trans hschema, hperm.nodup_iff.mpr honce⟩

lemma serializeInventory_serializeInventory (h : Accepted inventory) :
    serializeInventory (serializeInventory inventory) = serializeInventory inventory :=
  serializeInventory_perm h (sortBy_perm _ _) (presets_serializeInventory_perm inventory)

variable {validator : DocumentValidator N} {value : Json N}

lemma checkedOf_eq {file : InventoryFile} (h : candidateOf value = some file) :
    checkedOf value = file := by
  unfold checkedOf
  rw [h]
  rfl

/-- What `parseInventory` accepts, and what it returns. -/
lemma parseDocument_eq_ok {parsed : ParsedInventory} (h : parseDocument validator value = .ok parsed) :
    ∃ file, candidateOf value = some file ∧ Accepted file ∧
      parsed.inventory = { presets := file.presets.filter (· ≠ []), plugins := file.plugins } := by
  have hkeys := (parseInventory_ok h).2.1
  simp only [parseDocument, parseInventory] at h
  split at h
  · cases h
  · rename_i hno
    obtain rfl := Except.ok.inj h
    simp only [hasErrors_append, Bool.or_eq_true, not_or, Bool.not_eq_true] at hno
    have hnil : (validator.errors value).map schemaViolation = [] :=
      (hasErrors_eq_false_iff (by simp [schemaViolation, diagnostic])).mp hno.1
    obtain ⟨file, hfile, hschema⟩ := (validator.errors_eq_nil value).mp (List.map_eq_nil_iff.mp hnil)
    rw [checkedOf_eq hfile] at hkeys ⊢
    exact ⟨file, hfile, ⟨hschema, hkeys⟩, rfl⟩

/-- The parsed inventory is accepted again. -/
lemma accepted_of_parse {parsed : ParsedInventory} (h : parseDocument validator value = .ok parsed) :
    Accepted parsed.inventory := by
  obtain ⟨file, -, ⟨hschema, honce⟩, hinventory⟩ := parseDocument_eq_ok h
  have hnames : (parsed.inventory.presets.getD []) = file.presets.getD [] := by
    rw [hinventory]
    obtain ⟨presets, plugins⟩ := file
    cases presets with
    | none => rfl
    | some names => by_cases hnil : names = [] <;> simp [Option.filter_some, hnil]
  refine ⟨?_, by rw [hinventory]; exact honce⟩
  rw [← hschema, matchesSchema, matchesSchema, hnames, hinventory]

/-- The presets that are written are not empty, so reading keeps them. -/
lemma serializeInventory_kept (inventory : InventoryFile) :
    { presets := (serializeInventory inventory).presets.filter (· ≠ [])
      plugins := (serializeInventory inventory).plugins : InventoryFile } =
        serializeInventory inventory := by
  have hkept : (serializeInventory inventory).presets.filter (· ≠ []) =
      (serializeInventory inventory).presets := by
    rw [presets_serializeInventory]
    split_ifs with h
    · rfl
    · have hne : sorted (inventory.presets.getD []) ≠ [] := fun hnil => h (sortBy_eq_nil.mp hnil)
      simp [Option.filter_some, hne]
  rw [hkept]

/-- The document of a written inventory is accepted, as that inventory. -/
lemma parseDocument_written (validator : DocumentValidator N) (h : Accepted inventory) :
    ∃ parsed, parseDocument validator (inventoryDocument (serializeInventory inventory)) =
      .ok parsed ∧ parsed.inventory = serializeInventory inventory := by
  have hcandidate := candidateOf_inventoryDocument (N := N) (serializeInventory inventory)
  have hwritten := accepted_serializeInventory.mpr h
  have hnone : validator.errors (inventoryDocument (serializeInventory inventory)) = [] :=
    (validator.errors_eq_nil _).mpr ⟨_, hcandidate, hwritten.schema⟩
  have hclean : hasErrors ((validator.errors (inventoryDocument (serializeInventory inventory))).map
      schemaViolation ++ semanticDiagnostics (serializeInventory inventory).plugins) = false := by
    rw [hnone]
    exact hasErrors_semanticDiagnostics hwritten.once
  rw [parseDocument, checkedOf_eq hcandidate]
  simp only [parseInventory, hclean, Bool.false_eq_true, if_false]
  exact ⟨_, rfl, serializeInventory_kept inventory⟩

end Canonical

end Appspine.Inventory

namespace Appspine.Commands
open JsText StableSort InsertionMap JsonText PluginManifest Appspine.Composition
open Resolver hiding diagnostic
open Inventory hiding keyOf inventorySortKey duplicateInstance
open Generators (documentText)

variable {N : Type} [JsonNumber N] {sha256Hex : JsString → JsString}

section Text

/-- An inventory file of this text; `syntaxError` is the message that `JSON.parse` throws. -/
def sourceOf (validator : DocumentValidator N) (syntaxError : JsString → JsString)
    (text : JsString) : InventorySource :=
  match parse text with
  | none => .malformed (syntaxError text)
  | some value => .document (validator.errors value) (checkedOf value)

/-- The App with this text in its inventory file. -/
def withText (validator : DocumentValidator N) (syntaxError : JsString → JsString)
    (app : AppRoot N sha256Hex) (text : JsString) : AppRoot N sha256Hex :=
  { app with inventory := sourceOf validator syntaxError text }

/-- The file after the command: the inventory it writes, if it writes one. -/
def textAfter (N : Type) [JsonNumber N] (next : Option InventoryFile) (text : JsString) : JsString :=
  (next.map (serialized N)).getD text

variable {validator : DocumentValidator N} {syntaxError : JsString → JsString}
  {app : AppRoot N sha256Hex} {inventory : InventoryFile}

/-- The file of a written inventory is read as that inventory. -/
lemma readInventory_text (h : Accepted inventory) {read : ParsedInventory}
    (hread : readInventory (withText validator syntaxError app (serialized N inventory)) = .ok read) :
    read.inventory = serializeInventory inventory := by
  obtain ⟨parsed, hparsed, hinventory⟩ := parseDocument_written validator h
  have hsource : sourceOf validator syntaxError (serialized N inventory) =
      .document (validator.errors (inventoryDocument (serializeInventory inventory)))
        (checkedOf (inventoryDocument (N := N) (serializeInventory inventory))) := by
    rw [sourceOf, parse_serialized]
  simp only [withText, readInventory, hsource] at hread
  obtain rfl := Except.ok.inj (hparsed.symm.trans hread)
  exact hinventory

/-- Whatever was written, a file that reads back was an accepted inventory. -/
lemma accepted_of_text {read : ParsedInventory}
    (hread : readInventory (withText validator syntaxError app (serialized N inventory)) = .ok read) :
    Accepted inventory := by
  have hsource : sourceOf validator syntaxError (serialized N inventory) =
      .document (validator.errors (inventoryDocument (serializeInventory inventory)))
        (checkedOf (inventoryDocument (N := N) (serializeInventory inventory))) := by
    rw [sourceOf, parse_serialized]
  simp only [withText, readInventory, hsource] at hread
  obtain ⟨file, hfile, haccepted, -⟩ := @parseDocument_eq_ok N validator _ _ hread
  obtain rfl := Option.some.inj ((candidateOf_inventoryDocument _).symm.trans hfile)
  exact accepted_serializeInventory.mp haccepted

/-- Without presets the expanded inventory is the declared one. -/
lemma expandPresets_plain (hpresets : inventory.presets = none)
    (honce : (inventory.plugins.map Inventory.keyOf).Nodup) :
    (expandPresets app.readPreset inventory).entries.Perm inventory.plugins := by
  have hperm := @expandPresets_perm app.readPreset _ honce
  have hnothing : contributions app.readPreset inventory =
      { byKey := [], provenance := [], presets := [], diagnostics := [] } := by
    rw [contributions, hpresets]
    rfl
  rwa [unnamedContributions, hnothing, List.filter_nil, List.map_nil, List.append_nil] at hperm

/-- The removal names the instance that the addition adds. -/
def NamesAdded (app : AppRoot N sha256Hex) (added : AddArgs) (removed : RemoveArgs) : Prop :=
  ∀ loaded diagnostics, app.readManifestFor (added.ref.getD []) = .ok (loaded, diagnostics) →
    removed.instance = added.instance ∧
      (removed.targetId = loaded.manifest.id ∨ removed.targetId = pluginIdOf loaded.packageName)

variable {packageJson : Except JsString (List JsString)} {added : AddArgs} {removed : RemoveArgs}

lemma filter_ne_perm {plugins plugins' : List PluginInventoryEntry} {entry : PluginInventoryEntry}
    (hperm : plugins'.Perm (plugins ++ [entry])) (hnodup : plugins'.Nodup) :
    (plugins'.filter (· ≠ entry)).Perm plugins := by
  have hnew : entry ∉ plugins := fun hmem =>
    (List.nodup_append.mp (hperm.nodup_iff.mp hnodup)).2.2 entry hmem entry
      (List.mem_singleton_self entry) rfl
  have hold : plugins.filter (· ≠ entry) = plugins :=
    List.filter_eq_self.mpr fun e he => decide_eq_true (ne_of_mem_of_not_mem he hnew)
  have hrest := hperm.filter (· ≠ entry)
  rwa [List.filter_append, List.filter_cons_of_neg (by simp), List.filter_nil, List.append_nil,
    hold] at hrest

/-- The instance that is found under the name of the added one is the added one. -/
lemma eq_addedEntry {plugins : List PluginInventoryEntry}
    {loaded : LoadedPluginManifest N sha256Hex} {target : PluginInventoryEntry}
    (hnodup : ((plugins ++ [addedEntry loaded added]).map Inventory.keyOf).Nodup)
    (habsent : plugins.any (isTarget loaded.manifest.id added.instance) = false)
    (hinstance : removed.instance = added.instance)
    (hname : removed.targetId = loaded.manifest.id ∨ removed.targetId = pluginIdOf loaded.packageName)
    (htarget : isTarget removed.targetId removed.instance target = true)
    (hmem : target ∈ plugins ++ [addedEntry loaded added]) : target = addedEntry loaded added := by
  rcases List.mem_append.mp hmem with hold | hnew
  · rcases hname with hid | hpackage
    · rw [hid, hinstance] at htarget
      exact absurd htarget (by simp [List.any_eq_false.mp habsent target hold])
    · refine List.inj_on_of_nodup_map hnodup hmem (by simp) ?_
      rw [keyOf_of_isTarget htarget, hpackage, hinstance]
      rfl
  · exact List.mem_singleton.mp hnew

/-- An addition and the removal of what it added leave the file as it was. -/
lemma add_remove_restores (h : Accepted inventory) (hpresets : inventory.presets = none)
    (hadd : (add packageJson (withText validator syntaxError app (serialized N inventory))
      added).added = some true)
    {text : JsString} (htext : text = textAfter N (add packageJson
      (withText validator syntaxError app (serialized N inventory)) added).next
        (serialized N inventory))
    (hremove : (remove (withText validator syntaxError app text) removed).removed = some true)
    (hsame : NamesAdded app added removed) :
    textAfter N (remove (withText validator syntaxError app text) removed).next text =
      serialized N inventory := by
  obtain ⟨read, loaded, hadded⟩ := add_added hadd
  have hread := readInventory_text h hadded.readOk
  have hnone : read.inventory.presets = none := by
    rw [hread, presets_serializeInventory, hpresets]
    rfl
  have hplugins : read.inventory.plugins.Perm inventory.plugins := by
    rw [hread]
    exact sortBy_perm _ _
  have habsent : read.inventory.plugins.any (isTarget loaded.manifest.id added.instance) = false := by
    rw [← hadded.absent]
    exact ((expandPresets_plain hnone (readInventory_ok hadded.readOk).1).any_eq).symm
  rw [hadded.next] at htext
  obtain rfl : text = serialized N (withEntry read.inventory (addedEntry loaded added)) := htext
  obtain ⟨read', target, hread', hfound, -, hnext⟩ := remove_removed hremove
  have hreread := readInventory_text (accepted_of_text hread') hread'
  have hnone' : read'.inventory.presets = none := by
    rw [hreread, presets_serializeInventory, withEntry, hnone]
    rfl
  have hgrown : read'.inventory.plugins.Perm
      (read.inventory.plugins ++ [addedEntry loaded added]) := by
    rw [hreread]
    exact sortBy_perm _ _
  have honce := (readInventory_ok hread').1
  obtain ⟨diagnostics, hmanifest⟩ := hadded.manifest
  obtain ⟨hinstance, hname⟩ := hsame loaded diagnostics hmanifest
  have hmem : target ∈ read.inventory.plugins ++ [addedEntry loaded added] :=
    hgrown.mem_iff.mp ((expandPresets_plain hnone' honce).mem_iff.mp
      (List.mem_of_find?_eq_some hfound))
  obtain rfl := eq_addedEntry ((hgrown.map _).nodup_iff.mp honce) habsent hinstance hname
    (List.find?_some hfound) hmem
  have hback := (filter_ne_perm hgrown (List.Nodup.of_map _ honce)).trans hplugins
  rw [hnext, textAfter, Option.map_some, Option.getD_some, serialized, serialized,
    serializeInventory_perm h hback]
  rw [withoutTarget, hnone', hpresets]

/-- One text for an inventory, which reads back as that inventory; adding an instance to the file
and removing it again gives the text back. -/
theorem inventory_round_trip {value : Json N} {parsed : ParsedInventory}
    (hparse : parseDocument validator value = .ok parsed) :
    (∀ inventory' : InventoryFile, inventory'.plugins.Perm parsed.inventory.plugins →
        (inventory'.presets.getD []).Perm (parsed.inventory.presets.getD []) →
          serialized N inventory' = serialized N parsed.inventory) ∧
      Utf16.wellFormed (serialized N parsed.inventory) = true ∧
      (∃ value' parsed', parse (serialized N parsed.inventory) = some value' ∧
        parseDocument validator value' = .ok parsed' ∧
        parsed'.inventory.plugins.Perm parsed.inventory.plugins ∧
        (parsed'.inventory.presets.getD []).Perm (parsed.inventory.presets.getD []) ∧
        serialized N parsed'.inventory = serialized N parsed.inventory) ∧
      ∀ (app : AppRoot N sha256Hex) (packageJson : Except JsString (List JsString))
        (added : AddArgs) (removed : RemoveArgs) (text : JsString),
        parsed.inventory.presets = none →
          (add packageJson (withText validator syntaxError app (serialized N parsed.inventory))
            added).added = some true →
          text = textAfter N (add packageJson (withText validator syntaxError app
            (serialized N parsed.inventory)) added).next (serialized N parsed.inventory) →
          (remove (withText validator syntaxError app text) removed).removed = some true →
          NamesAdded app added removed →
            textAfter N (remove (withText validator syntaxError app text) removed).next text =
              serialized N parsed.inventory := by
  have haccepted := accepted_of_parse hparse
  refine ⟨fun inventory' hplugins hpresets => ?_, Generators.wellFormed_documentText _, ?_, ?_⟩
  · rw [serialized, serialized, serializeInventory_perm haccepted hplugins hpresets]
  · obtain ⟨parsed', hparsed', hinventory⟩ := parseDocument_written validator haccepted
    refine ⟨_, parsed', parse_serialized _, hparsed', ?_, ?_, ?_⟩
    · rw [hinventory]
      exact sortBy_perm _ _
    · rw [hinventory]
      exact presets_serializeInventory_perm _
    · rw [hinventory, serialized, serialized, serializeInventory_serializeInventory haccepted]
  · intro app packageJson added removed text hpresets hadd htext hremove hsame
    exact add_remove_restores haccepted hpresets hadd htext hremove hsame

end Text

section Cycle

def addA : AddArgs := { ref := some (js "@x/a"), instanceId := none, optional := false, dryRun := false }

def noPlugins : InventoryFile := { presets := none, plugins := [] }

/-- The App whose file has this text. -/
def textApp (text : JsString) : AppRoot ℤ (fun text => text) :=
  withText (DocumentValidator.plain ℤ) (fun _ => []) (standardApp [] true) text

def textOfA : JsString :=
  textAfter ℤ (add (.ok []) (textApp (serialized ℤ noPlugins)) addA).next (serialized ℤ noPlugins)

theorem inventory_round_trip_a :
    (add (.ok []) (textApp (serialized ℤ noPlugins)) addA).added = some true ∧
      textOfA = serialized ℤ { presets := none, plugins := [enabledEntry (js "@x/a")] } ∧
      (remove (textApp textOfA) removeA).removed = some true ∧
      textAfter ℤ (remove (textApp textOfA) removeA).next textOfA = serialized ℤ noPlugins := by
  have hadd : (add (.ok []) (textApp (serialized ℤ noPlugins)) addA).added = some true := by
    decide +kernel
  have hremove : (remove (textApp textOfA) removeA).removed = some true := by decide +kernel
  have hcycle := (@inventory_round_trip ℤ _ (fun text => text) (DocumentValidator.plain ℤ)
    (fun _ => []) (inventoryDocument noPlugins) { inventory := noPlugins, diagnostics := [] } rfl).2.2.2
    (standardApp [] true) (.ok []) addA removeA textOfA rfl hadd rfl hremove
  refine ⟨hadd, by decide +kernel, hremove, hcycle ?_⟩
  intro loaded diagnostics hmanifest
  obtain ⟨rfl, -⟩ := Prod.mk.inj (Except.ok.inj
    ((show Except.ok _ = (standardApp [] true).readManifestFor _ from rfl).trans hmanifest))
  exact ⟨rfl, Or.inl rfl⟩

end Cycle

end Appspine.Commands
