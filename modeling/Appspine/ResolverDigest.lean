import Appspine.CompositionDigest

/-!
# What the resolution digest determines

Everything the digest covers is read back from the canonical text. The providers and the
declared `configRef` of an instance are recovered from its manifest, which the digest of the
instance covers. What an inventory entry says of its own `configRef` is not.
-/
namespace Appspine.Resolver
open JsText StableSort InsertionMap JsonText PluginManifest
open Appspine.Composition (digest_graph)

variable {N : Type}

section Reading

/-- What the digest covers of an instance. -/
structure CoveredInstance where
  key : JsString
  packageName : JsString
  packageVersion : JsString
  digest : JsString
  required : Bool
  dependsOn : List JsString
  unresolvedOptional : List JsString
  deriving DecidableEq

def ResolvedPluginInstance.covered (i : ResolvedPluginInstance N) : CoveredInstance :=
  { i with }

lemma canonicalReading_strings (xs : List JsString) :
    canonicalReading (strings xs : Json N) = strings xs := by
  rw [strings, canonicalReading_arr, List.map_map]
  rfl

lemma strings_inj {xs ys : List JsString} (h : (strings xs : Json N) = strings ys) : xs = ys := by
  rw [strings, strings, Json.arr.injEq] at h
  exact List.map_injective_iff.mpr (fun a b hab => Json.str.inj hab) h

lemma field_instanceJson (i : ResolvedPluginInstance N) {k : JsString} (hk : k ≠ js "__proto__") :
    field k (canonicalReading (instanceJson i)) =
      (InsertionMap.get [(js "key", Json.str i.key), (js "packageName", .str i.packageName),
        (js "packageVersion", .str i.packageVersion), (js "digest", .str i.digest),
        (js "required", .bool i.required), (js "dependsOn", strings i.dependsOn),
        (js "unresolvedOptional", strings i.unresolvedOptional)] k).map canonicalReading := by
  rw [instanceJson, field_canonicalReading _ hk]
  simp only [List.map_cons, List.map_nil]
  decide

lemma covered_eq {i j : ResolvedPluginInstance N}
    (h : canonicalReading (instanceJson i) = canonicalReading (instanceJson j)) :
    i.covered = j.covered := by
  have hfield : ∀ k, k ≠ js "__proto__" → _ = _ := fun k hk =>
    (field_instanceJson i hk).symm.trans ((congrArg (field k) h).trans (field_instanceJson j hk))
  have hkey := Json.str.inj (Option.some.inj (hfield (js "key") (by decide)))
  have hname := Json.str.inj (Option.some.inj (hfield (js "packageName") (by decide)))
  have hversion := Json.str.inj (Option.some.inj (hfield (js "packageVersion") (by decide)))
  have hdigest := Json.str.inj (Option.some.inj (hfield (js "digest") (by decide)))
  have hrequired := Json.bool.inj (Option.some.inj (hfield (js "required") (by decide)))
  have hdepends := Option.some.inj (hfield (js "dependsOn") (by decide))
  have hoptional := Option.some.inj (hfield (js "unresolvedOptional") (by decide))
  simp only [canonicalReading_strings] at hdepends hoptional
  simp only [ResolvedPluginInstance.covered, CoveredInstance.mk.injEq]
  exact ⟨hkey, hname, hversion, hdigest, hrequired, strings_inj hdepends, strings_inj hoptional⟩

lemma field_resolutionJson (g : ResolutionGraph N) {k : JsString} (hk : k ≠ js "__proto__") :
    field k (canonicalReading (resolutionJson g.order g.hostCapabilities g.providers g.disabled
      g.instances)) =
      (InsertionMap.get [(js "order", strings g.order),
        (js "hostCapabilities", strings g.hostCapabilities),
        (js "providers", .obj (g.providers.map (fun e => (e.1, strings e.2)))),
        (js "disabled", strings (g.disabled.map (·.key))),
        (js "instances", .arr (g.instances.map instanceJson))] k).map canonicalReading := by
  rw [resolutionJson, field_canonicalReading _ hk]
  simp only [List.map_cons, List.map_nil]
  decide

/-- Graphs that agree on everything the digest covers, providers apart. -/
structure SameCovered (g h : ResolutionGraph N) : Prop where
  order : g.order = h.order
  hostCapabilities : g.hostCapabilities = h.hostCapabilities
  disabled : g.disabled.map (·.key) = h.disabled.map (·.key)
  instances : List.Forall₂ (fun i j => i.covered = j.covered) g.instances h.instances

lemma sameCovered_of_digest [JsonNumber N] {sha256Hex : JsString → JsString}
    (hinj : Injective sha256Hex) {g h : ResolutionGraph N}
    (heq : resolutionDigest sha256Hex g = resolutionDigest sha256Hex h) : SameCovered g h := by
  have hreading := canonicalReading_eq (canonicalJsonString_eq_of_manifestDigest_eq hinj heq)
  have hfield : ∀ k, k ≠ js "__proto__" → _ = _ := fun k hk =>
    (field_resolutionJson g hk).symm.trans
      ((congrArg (field k) hreading).trans (field_resolutionJson h hk))
  have horder := Option.some.inj (hfield (js "order") (by decide))
  have hhosts := Option.some.inj (hfield (js "hostCapabilities") (by decide))
  have hdisabled := Option.some.inj (hfield (js "disabled") (by decide))
  have hinstances := Option.some.inj (hfield (js "instances") (by decide))
  simp only [canonicalReading_strings] at horder hhosts hdisabled
  simp only [canonicalReading_arr, Json.arr.injEq, List.map_map] at hinstances
  refine ⟨strings_inj horder, strings_inj hhosts, strings_inj hdisabled, ?_⟩
  rw [← List.forall₂_eq_eq_eq, List.forall₂_map_left_iff, List.forall₂_map_right_iff] at hinstances
  exact hinstances.imp (fun _ _ hij => covered_eq hij)

end Reading

section Manifests

/-- A document that names each member once, with what the resolver reads not left in `rest`. -/
structure Documented (m : PluginManifestV1 N) : Prop where
  unique : uniqueKeys m.toJson = true
  rest : js "configSchema" ∉ keys m.rest

/-- What the digest of an instance recovers of its manifest. -/
structure SameManifest (m m' : PluginManifestV1 N) : Prop where
  id : m.id = m'.id
  cardinality : m.cardinality = m'.cardinality
  provides : m.provides = m'.provides
  configSchema : m.configSchema = m'.configSchema

def manifestMembers (m : PluginManifestV1 N) : List (JsString × Json N) :=
  [(js "id", .str m.id), (js "cardinality", .str m.cardinality.text)] ++
    optionalMember (js "distribution") (m.distribution.map (fun d => .str d.text)) ++
    [(js "provides", strings m.provides), (js "requires", strings m.requires)] ++
    optionalMember (js "optionalRequires") (m.optionalRequires.map strings) ++
    optionalMember (js "conflicts") (m.conflicts.map strings) ++
    optionalMember (js "replaces") (m.replaces.map
      (fun rs => .arr (rs.map ReplacementDeclaration.toJson))) ++
    optionalMember (js "configSchema") (m.configSchema.map
      (fun c => .obj [(js "configRef", .str c.configRef)])) ++
    optionalMember (js "optionalFailurePolicy") (m.optionalFailurePolicy.map .obj) ++
    [(js "facets", m.facets.toJson)] ++ m.rest

lemma field_toJson {m : PluginManifestV1 N} (h : Documented m) {k : JsString}
    (hk : k ≠ js "__proto__") : field k (canonicalReading m.toJson) =
      (InsertionMap.get (manifestMembers m) k).map canonicalReading :=
  field_canonicalReading (uniqueKeys_obj.mp h.unique).1 hk

lemma get_optionalMember {k k' : JsString} (o : Option (Json N)) :
    InsertionMap.get (optionalMember k o) k' = if k = k' then o else none := by
  cases o <;> simp [optionalMember, get_cons]

lemma get_configSchema {m : PluginManifestV1 N} (h : Documented m) :
    InsertionMap.get (manifestMembers m) (js "configSchema") =
      m.configSchema.map (fun c => .obj [(js "configRef", .str c.configRef)]) := by
  have hrest := get_eq_none.mpr h.rest
  have hne : ∀ k : JsString, k ∈ [js "id", js "cardinality", js "distribution", js "provides",
      js "requires", js "optionalRequires", js "conflicts", js "replaces",
      js "optionalFailurePolicy", js "facets"] → k ≠ js "configSchema" := by decide
  simp only [List.forall_mem_cons] at hne
  obtain ⟨h₁, h₂, h₃, h₄, h₅, h₆, h₇, h₈, h₉, h₁₀, _⟩ := hne
  simp [manifestMembers, get_append, get_cons, get_optionalMember, h₁, h₂, h₃, h₄, h₅, h₆, h₇, h₈,
    h₉, h₁₀, hrest]

lemma get_provides (m : PluginManifestV1 N) :
    InsertionMap.get (manifestMembers m) (js "provides") = some (strings m.provides) := by
  have hne : ∀ k : JsString, k ∈ [js "id", js "cardinality", js "distribution"] →
      k ≠ js "provides" := by decide
  simp only [List.forall_mem_cons] at hne
  obtain ⟨h₁, h₂, h₃, _⟩ := hne
  simp [manifestMembers, get_append, get_cons, get_optionalMember, h₁, h₂, h₃]

lemma text_cardinality_inj {c c' : PluginCardinality} (h : c.text = c'.text) : c = c' := by
  cases c <;> cases c' <;> first | rfl | (revert h; decide)

lemma sameManifest_of_reading {m m' : PluginManifestV1 N} (hm : Documented m) (hm' : Documented m')
    (h : canonicalReading m.toJson = canonicalReading m'.toJson) : SameManifest m m' := by
  have hfield : ∀ k, k ≠ js "__proto__" → _ = _ := fun k hk =>
    (field_toJson hm hk).symm.trans ((congrArg (field k) h).trans (field_toJson hm' hk))
  have hid := Json.str.inj (Option.some.inj (hfield (js "id") (by decide)))
  have hcardinality := Json.str.inj (Option.some.inj (hfield (js "cardinality") (by decide)))
  have hprovides := hfield (js "provides") (by decide)
  have hschema := hfield (js "configSchema") (by decide)
  rw [get_provides, get_provides, Option.map_some, Option.map_some, canonicalReading_strings,
    canonicalReading_strings] at hprovides
  rw [get_configSchema hm, get_configSchema hm', Option.map_map, Option.map_map] at hschema
  refine ⟨hid, text_cardinality_inj hcardinality, strings_inj (Option.some.inj hprovides), ?_⟩
  refine Option.map_injective ?_ hschema
  rintro ⟨a⟩ ⟨b⟩ hab
  have href : ∀ c : JsString, field (js "configRef")
      (canonicalReading (.obj [(js "configRef", .str c)] : Json N)) = some (.str c) := by
    intro c
    rw [field_canonicalReading (by simp) (by decide)]
    rfl
  have hfields := congrArg (field (js "configRef")) hab
  simp only [Function.comp_apply, href] at hfields
  rw [Json.str.inj (Option.some.inj hfields)]

variable [JsonNumber N] {sha256Hex : JsString → JsString}

/-- The digest is left to the resolver, or is what the loader computes of the manifest as resolved
for its package. -/
def Digested (sha256Hex : JsString → JsString) (found : ResolvableManifest N) : Prop :=
  found.digest = none ∨ found.digest =
    some (resolvedManifestDigest sha256Hex found.manifest.toJson found.packageName
      found.packageVersion)

/-- The digest the resolver records of a manifest. -/
def digestOf (sha256Hex : JsString → JsString) (found : ResolvableManifest N) : JsString :=
  found.digest.getD (PluginManifest.manifestDigest sha256Hex found.manifest.toJson)

omit [JsonNumber N] in
lemma field_resolvedManifest (manifest : Json N) (name version : JsString) {k : JsString}
    (hk : k ≠ js "__proto__") :
    field k (canonicalReading (resolvedManifest manifest name version)) =
      (InsertionMap.get [(js "manifest", manifest), (js "packageName", .str name),
        (js "packageVersion", .str version)] k).map canonicalReading := by
  rw [resolvedManifest, field_canonicalReading _ hk]
  simp only [List.map_cons, List.map_nil]
  decide

/-- A manifest is not the document of a resolved manifest: that has no id. -/
lemma manifestDigest_ne_resolved (hinj : Injective sha256Hex) {m : PluginManifestV1 N}
    (hm : Documented m) (manifest : Json N) (name version : JsString) :
    PluginManifest.manifestDigest sha256Hex m.toJson ≠
      resolvedManifestDigest sha256Hex manifest name version := by
  intro h
  have hreading := canonicalReading_eq (canonicalJsonString_eq_of_manifestDigest_eq hinj
    (show PluginManifest.manifestDigest sha256Hex m.toJson =
      PluginManifest.manifestDigest sha256Hex (resolvedManifest manifest name version) from h))
  have hid := congrArg (field (js "id")) hreading
  rw [field_toJson hm (by decide), field_resolvedManifest _ _ _ (by decide)] at hid
  cases hid

lemma sameManifest_of_digest (hinj : Injective sha256Hex) {a b : ResolvableManifest N}
    (ha : Documented a.manifest) (hb : Documented b.manifest) (hda : Digested sha256Hex a)
    (hdb : Digested sha256Hex b) (h : digestOf sha256Hex a = digestOf sha256Hex b) :
    SameManifest a.manifest b.manifest := by
  unfold digestOf at h
  rcases hda with hda | hda <;> rcases hdb with hdb | hdb <;> rw [hda, hdb] at h
  · exact sameManifest_of_reading ha hb
      (canonicalReading_eq (canonicalJsonString_eq_of_manifestDigest_eq hinj h))
  · exact absurd h (manifestDigest_ne_resolved hinj ha _ _ _)
  · exact absurd h.symm (manifestDigest_ne_resolved hinj hb _ _ _)
  · have hreading := canonicalReading_eq (canonicalJsonString_eq_of_manifestDigest_eq hinj
      (show PluginManifest.manifestDigest sha256Hex (resolvedManifest a.manifest.toJson _ _) =
        PluginManifest.manifestDigest sha256Hex (resolvedManifest b.manifest.toJson _ _) from h))
    have hmanifest := congrArg (field (js "manifest")) hreading
    rw [field_resolvedManifest _ _ _ (by decide), field_resolvedManifest _ _ _ (by decide)]
      at hmanifest
    exact sameManifest_of_reading ha hb (Option.some.inj hmanifest)

end Manifests

section Strays

/-- A `configRef` of an entry that its manifest does not account for: any, when the manifest
declares none, and the empty one, which is not compared with the declared one. -/
def strayConfigRef (found : ResolvableManifest N) (entry : PluginInventoryEntry) : Option JsString :=
  match found.manifest.configSchema with
  | none => entry.configRef
  | some schema => entry.configRef.filter (fun configRef => configRef = [] ∧ schema.configRef ≠ [])

def resolvedConfigRef (found : ResolvableManifest N) (entry : PluginInventoryEntry) :
    Option JsString :=
  entry.configRef.or (found.manifest.configSchema.map (·.configRef))

/-- An accepted entry resolves to its stray `configRef`, else to the declared one. -/
lemma resolvedConfigRef_eq {found : ResolvableManifest N} {entry : PluginInventoryEntry}
    (h : configRefMismatch found entry = []) :
    resolvedConfigRef found entry =
      (strayConfigRef found entry).or (found.manifest.configSchema.map (·.configRef)) := by
  unfold resolvedConfigRef strayConfigRef
  cases hschema : found.manifest.configSchema with
  | none => rfl
  | some schema =>
    cases href : entry.configRef with
    | none => rfl
    | some configRef =>
      simp only [configRefMismatch, href, hschema] at h
      split_ifs at h with hmismatch
      simp only [Option.filter_some]
      by_cases hstray : configRef = [] ∧ schema.configRef ≠ []
      · rw [if_pos (decide_eq_true hstray), Option.some_or]
      · have hsame : configRef = schema.configRef := by
          by_contra hne
          refine hmismatch ⟨fun hnil => hstray ⟨hnil, ?_⟩, hne⟩
          rw [← hnil]
          exact fun h => hne h.symm
        rw [if_neg (by simpa using hstray), hsame]
        rfl

lemma resolvedConfigRef_eq_iff {found found' : ResolvableManifest N}
    {entry entry' : PluginInventoryEntry}
    (hschema : found.manifest.configSchema = found'.manifest.configSchema)
    (h : configRefMismatch found entry = []) (h' : configRefMismatch found' entry' = []) :
    resolvedConfigRef found entry = resolvedConfigRef found' entry' ↔
      strayConfigRef found entry = strayConfigRef found' entry' := by
  rw [resolvedConfigRef_eq h, resolvedConfigRef_eq h', ← hschema]
  constructor
  · unfold strayConfigRef
    rw [← hschema]
    cases hdeclared : found.manifest.configSchema with
    | none => simp
    | some schema =>
      -- a stray reference is empty and the declared one is not
      have hstray : ∀ (e : PluginInventoryEntry) (configRef : JsString),
          e.configRef.filter (fun c => c = [] ∧ schema.configRef ≠ []) = some configRef →
          configRef = [] ∧ schema.configRef ≠ [] := fun e configRef h =>
        of_decide_eq_true (Option.filter_eq_some_iff.mp h).2
      change (entry.configRef.filter (fun c => c = [] ∧ schema.configRef ≠ [])).or
          (some schema.configRef) =
        (entry'.configRef.filter (fun c => c = [] ∧ schema.configRef ≠ [])).or
          (some schema.configRef) → _ = _
      cases hs : entry.configRef.filter (fun c => c = [] ∧ schema.configRef ≠ []) with
      | none =>
        cases hs' : entry'.configRef.filter (fun c => c = [] ∧ schema.configRef ≠ []) with
        | none => exact fun _ => hs.trans hs'.symm
        | some configRef =>
          obtain ⟨rfl, hne⟩ := hstray _ _ hs'
          simp [hne]
      | some configRef =>
        obtain ⟨rfl, hne⟩ := hstray _ _ hs
        cases hs' : entry'.configRef.filter (fun c => c = [] ∧ schema.configRef ≠ []) with
        | none => simp [hne.symm]
        | some configRef' =>
          obtain ⟨rfl, _⟩ := hstray _ _ hs'
          exact fun _ => hs.trans hs'.symm
  · intro hstray
    rw [hstray]

lemma instanceKey_inj {id a b : JsString} (h : instanceKey id a = instanceKey id b) : a = b := by
  unfold instanceKey at h
  split_ifs at h with ha hb hb
  · rw [ha, hb]
  · exact absurd h (by simp)
  · exact absurd h (by simp)
  · exact (List.cons.inj (List.append_cancel_left h)).2

variable {Obj Obj' : Type} [DecidableEq Obj] [DecidableEq Obj'] [JsonNumber N]
  {sha256Hex : JsString → JsString}

/-- Manifests are documents, with digests as the loader computes them or none. -/
def Covers (sha256Hex : JsString → JsString) (options : ResolveOptions N Obj) : Prop :=
  ∀ o ∈ options.manifests, Documented (options.read o).manifest ∧
    Digested sha256Hex (options.read o)

omit [JsonNumber N] in
/-- Entries of one instance have the same stray `configRef`. -/
def SameStrays (options : ResolveOptions N Obj) (options' : ResolveOptions N Obj') : Prop :=
  ∀ entry ∈ options.inventory, ∀ entry' ∈ options'.inventory, entry.enabled = true →
    entry'.enabled = true → ∀ found found', options.lookup entry = some found →
    options'.lookup entry' = some found' → Resolver.keyOf found entry = Resolver.keyOf found' entry' →
    strayConfigRef found entry = strayConfigRef found' entry'

/-- What an instance of an accepted graph was built from. -/
structure BuiltFrom (options : ResolveOptions N Obj) (sha256Hex : JsString → JsString)
    (i : ResolvedPluginInstance N) (found : ResolvableManifest N) (entry : PluginInventoryEntry) :
    Prop where
  entry_mem : entry ∈ options.inventory
  enabled : entry.enabled = true
  lookup : options.lookup entry = some found
  key : i.key = Resolver.keyOf found entry
  digest : i.digest = digestOf sha256Hex found
  configRef : i.configRef = resolvedConfigRef found entry
  provides : i.provides = sorted (providedCapabilities found.manifest (instanceIdOf entry))

lemma builtFrom_of_mem {options : ResolveOptions N Obj} (ha : Accepts options sha256Hex)
    {i : ResolvedPluginInstance N} (hi : i ∈ (options.graph sha256Hex).instances) :
    ∃ found entry, BuiltFrom options sha256Hex i found entry := by
  obtain ⟨i', hi', rfl⟩ := List.mem_map.mp ((graph_instances sha256Hex ha).2.mem_iff.mp hi)
  obtain ⟨entry, hentry, henabled, found, hfound, rfl⟩ := mem_enabled.mp hi'
  exact ⟨found, entry, hentry, henabled, hfound, rfl, rfl, rfl, rfl⟩

lemma exists_builtFrom {options : ResolveOptions N Obj} (ha : Accepts options sha256Hex)
    {found : ResolvableManifest N} {entry : PluginInventoryEntry} (hentry : entry ∈ options.inventory)
    (henabled : entry.enabled = true) (hfound : options.lookup entry = some found) :
    ∃ i ∈ (options.graph sha256Hex).instances, BuiltFrom options sha256Hex i found entry :=
  ⟨_, (graph_instances sha256Hex ha).2.mem_iff.mpr (List.mem_map_of_mem
    (mem_enabled.mpr ⟨entry, hentry, henabled, found, hfound, rfl⟩)),
    hentry, henabled, hfound, rfl, rfl, rfl, rfl⟩

lemma BuiltFrom.mismatch {options : ResolveOptions N Obj} (ha : Accepts options sha256Hex)
    {i : ResolvedPluginInstance N} {found : ResolvableManifest N} {entry : PluginInventoryEntry}
    (h : BuiltFrom options sha256Hex i found entry) : configRefMismatch found entry = [] := by
  have hclean := ha.acceptable.clean (found, entry) (mem_resolvedEntries.mpr ⟨h.entry_mem, h.lookup⟩)
    h.enabled
  rw [entryDiagnostics, List.append_eq_nil_iff, List.append_eq_nil_iff] at hclean
  exact hclean.1.2

lemma BuiltFrom.sameManifest (hinj : Injective sha256Hex) {options : ResolveOptions N Obj}
    {options' : ResolveOptions N Obj'} (ha : Accepts options sha256Hex)
    (hb : Accepts options' sha256Hex) (hca : Covers sha256Hex options)
    (hcb : Covers sha256Hex options') {i j : ResolvedPluginInstance N}
    {found found' : ResolvableManifest N} {entry entry' : PluginInventoryEntry}
    (h : BuiltFrom options sha256Hex i found entry) (h' : BuiltFrom options' sha256Hex j found' entry')
    (hdigest : i.digest = j.digest) : SameManifest found.manifest found'.manifest := by
  obtain ⟨o, ho, rfl⟩ := lookup_eq_some ha.unambiguous h.lookup
  obtain ⟨o', ho', rfl⟩ := lookup_eq_some hb.unambiguous h'.lookup
  rw [h.digest, h'.digest] at hdigest
  exact sameManifest_of_digest hinj (hca o ho).1 (hcb o' ho').1 (hca o ho).2 (hcb o' ho').2 hdigest

end Strays

section Determined

variable {Obj Obj' : Type} [DecidableEq Obj] [DecidableEq Obj'] [JsonNumber N]
  {sha256Hex : JsString → JsString}

/-- The effective configuration of two graphs is the same. -/
structure SameConfiguration (g h : ResolutionGraph N) : Prop where
  order : g.order = h.order
  hostCapabilities : g.hostCapabilities = h.hostCapabilities
  providers : g.providers = h.providers
  disabled : g.disabled.map (·.key) = h.disabled.map (·.key)
  instances : g.instances.map (·.covered) = h.instances.map (·.covered)
  configRefs : g.instances.map (·.configRef) = h.instances.map (·.configRef)

omit [JsonNumber N] in
lemma provisions_map (is : List (ResolvedPluginInstance N)) :
    provisions is = (is.map (fun i => (i.key, i.provides))).flatMap
      (fun e => e.2.map (fun capability => (capability, e.1))) := by
  rw [List.flatMap_map]
  rfl

/-- The providers of a graph are those of its instances. -/
lemma providers_graph {options : ResolveOptions N Obj} (ha : Accepts options sha256Hex) :
    (options.graph sha256Hex).providers =
      ofEntries ((sortBy Prod.fst (providersOf (options.graph sha256Hex).instances)).map
        (fun e => (e.1, sorted e.2))) := by
  have hperm : (provisions (options.enabled sha256Hex)).Perm
      (provisions (options.graph sha256Hex).instances) := by
    have hwired : provisions (wired options.hosts (options.enabled sha256Hex)) =
        provisions (options.enabled sha256Hex) := by
      rw [provisions, wired, List.flatMap_map]
      rfl
    rw [← hwired]
    exact ((graph_instances sha256Hex ha).2.flatMap_right _).symm
  rw [← providers_of_provisions hperm]
  rfl

/-- Graphs with one digest differ at most in stray `configRef`s. -/
theorem resolutionDigest_determines (hinj : Injective sha256Hex)
    {options : ResolveOptions N Obj} {options' : ResolveOptions N Obj'}
    (hca : Covers sha256Hex options) (hcb : Covers sha256Hex options') {g h : ResolutionGraph N}
    (hg : resolvePlugins sha256Hex options = .ok g) (hh : resolvePlugins sha256Hex options' = .ok h)
    (hdigest : g.digest = h.digest) : SameConfiguration g h ↔ SameStrays options options' := by
  obtain ⟨ha, rfl⟩ := (resolvePlugins_eq_ok sha256Hex).mp hg
  obtain ⟨hb, rfl⟩ := (resolvePlugins_eq_ok sha256Hex).mp hh
  rw [digest_graph, digest_graph] at hdigest
  have hcovered := sameCovered_of_digest hinj hdigest
  obtain ⟨hlength, hpairs⟩ := List.forall₂_iff_zip.mp hcovered.instances
  have hmanifest : ∀ i j, (i, j) ∈ (options.graph sha256Hex).instances.zip
      (options'.graph sha256Hex).instances → ∀ found entry found' entry',
      BuiltFrom options sha256Hex i found entry → BuiltFrom options' sha256Hex j found' entry' →
      SameManifest found.manifest found'.manifest := by
    intro i j hij found entry found' entry' hi hj
    exact hi.sameManifest hinj ha hb hca hcb hj (congrArg (·.digest) (hpairs hij))
  have hconfig : ∀ i j, (i, j) ∈ (options.graph sha256Hex).instances.zip
      (options'.graph sha256Hex).instances → ∀ found entry found' entry',
      BuiltFrom options sha256Hex i found entry → BuiltFrom options' sha256Hex j found' entry' →
      (i.configRef = j.configRef ↔ strayConfigRef found entry = strayConfigRef found' entry') := by
    intro i j hij found entry found' entry' hi hj
    rw [hi.configRef, hj.configRef]
    exact resolvedConfigRef_eq_iff (hmanifest i j hij _ _ _ _ hi hj).configSchema (hi.mismatch ha)
      (hj.mismatch hb)
  constructor
  · intro hsame entry hentry entry' hentry' hen hen' found found' hfound hfound' hkey
    obtain ⟨i, hi, hbuilt⟩ := exists_builtFrom ha hentry hen hfound
    obtain ⟨j, hj, hbuilt'⟩ := exists_builtFrom hb hentry' hen' hfound'
    -- the instance paired with `i` has the key of `j`
    obtain ⟨n, hn⟩ := List.mem_iff_getElem?.mp hi
    have hn' := (List.getElem?_eq_some_iff.mp hn).1
    obtain ⟨j', hj'⟩ : ∃ j', (options'.graph sha256Hex).instances[n]? = some j' :=
      ⟨_, List.getElem?_eq_getElem (hlength ▸ hn')⟩
    have hzip : (i, j') ∈ (options.graph sha256Hex).instances.zip
        (options'.graph sha256Hex).instances :=
      List.mem_iff_getElem?.mpr ⟨n, List.getElem?_zip_eq_some.mpr ⟨hn, hj'⟩⟩
    have hpair : i.key = j'.key := congrArg (·.key) (hpairs hzip)
    have hsamekey : j'.key = j.key := by
      rw [← hpair, hbuilt.key, hkey, hbuilt'.key]
    have hnodup : ((options'.graph sha256Hex).instances.map (·.key)).Nodup := by
      rw [(graph_instances sha256Hex hb).1, (order_perm sha256Hex hb).nodup_iff]
      exact nodup_enabled sha256Hex hb
    obtain rfl := List.inj_on_of_nodup_map hnodup (List.mem_of_getElem? hj') hj hsamekey
    refine (hconfig i j' hzip _ _ _ _ hbuilt hbuilt').mp ?_
    have hrefs := hsame.configRefs
    rw [← List.forall₂_eq_eq_eq, List.forall₂_map_left_iff, List.forall₂_map_right_iff] at hrefs
    exact (List.forall₂_iff_zip.mp hrefs).2 hzip
  · intro hstrays
    have hrefs : List.Forall₂ (fun i j => i.configRef = j.configRef ∧ i.provides = j.provides)
        (options.graph sha256Hex).instances (options'.graph sha256Hex).instances := by
      refine List.forall₂_iff_zip.mpr ⟨hlength, ?_⟩
      intro i j hij
      obtain ⟨hi, hj⟩ := List.of_mem_zip hij
      obtain ⟨found, entry, hbuilt⟩ := builtFrom_of_mem ha hi
      obtain ⟨found', entry', hbuilt'⟩ := builtFrom_of_mem hb hj
      have hkey : Resolver.keyOf found entry = Resolver.keyOf found' entry' :=
        hbuilt.key.symm.trans ((congrArg (·.key) (hpairs hij)).trans hbuilt'.key)
      have hsame := hmanifest i j hij _ _ _ _ hbuilt hbuilt'
      refine ⟨(hconfig i j hij _ _ _ _ hbuilt hbuilt').mpr (hstrays _ hbuilt.entry_mem _
        hbuilt'.entry_mem hbuilt.enabled hbuilt'.enabled _ _ hbuilt.lookup hbuilt'.lookup hkey), ?_⟩
      rw [keyOf, keyOf, hsame.id] at hkey
      rw [hbuilt.provides, hbuilt'.provides, instanceKey_inj hkey, providedCapabilities,
        providedCapabilities, hsame.cardinality, hsame.provides]
    have hlists : ∀ {β : Type} (f : ResolvedPluginInstance N → β),
        (∀ i j, i.covered = j.covered → i.configRef = j.configRef ∧ i.provides = j.provides →
          f i = f j) →
        (options.graph sha256Hex).instances.map f = (options'.graph sha256Hex).instances.map f := by
      intro β f hf
      rw [← List.forall₂_eq_eq_eq, List.forall₂_map_left_iff, List.forall₂_map_right_iff]
      refine List.forall₂_iff_zip.mpr ⟨hlength, fun hij => hf _ _ (hpairs hij) ?_⟩
      exact (List.forall₂_iff_zip.mp hrefs).2 hij
    refine ⟨hcovered.order, hcovered.hostCapabilities, ?_, hcovered.disabled,
      hlists (·.covered) (fun i j h _ => h), hlists (·.configRef) (fun i j _ h => h.1)⟩
    have hprovisions : (provisions (options.graph sha256Hex).instances).Perm
        (provisions (options'.graph sha256Hex).instances) := by
      rw [provisions_map, provisions_map, hlists (fun i => (i.key, i.provides)) (fun i j h h' => by
        rw [show i.key = j.key from congrArg (·.key) h, h'.2])]
    rw [providers_graph ha, providers_graph hb, providers_of_provisions hprovisions]

end Determined

section Example

/-- One plugin that declares no config, whose entry may have a `configRef` all the same. -/
def unconfigured (configRef : Option JsString) (hostCapabilities : List JsString) :
    ResolveOptions ℤ Unit :=
  { inventory := [{ enabledEntry (js "a") with configRef := configRef }]
    manifests := [()]
    read := fun _ => published (plainManifest (js "a") [] [])
    hostCapabilities := some hostCapabilities
    officialScope := none }

lemma unconfigured_covers (configRef : Option JsString) (hostCapabilities : List JsString) :
    Covers (fun text => text) (unconfigured configRef hostCapabilities) := by
  have hdocumented : Documented (plainManifest (js "a") [] []) := ⟨by decide +kernel, by decide⟩
  exact fun _ _ => ⟨hdocumented, Or.inl rfl⟩

lemma unconfigured_accepts : Accepts (unconfigured none [js "h"]) (fun text => text) ∧
    Accepts (unconfigured none [js "h", js "h"]) (fun text => text) ∧
    Accepts (unconfigured (some (js "hr")) [js "h"]) (fun text => text) :=
  ⟨(hasErrors_diagnostics_eq_false _ _).mp (by decide +kernel),
    (hasErrors_diagnostics_eq_false _ _).mp (by decide +kernel),
    (hasErrors_diagnostics_eq_false _ _).mp (by decide +kernel)⟩

/-- A repeated host capability changes nothing. -/
theorem resolutionDigest_determines_unconfigured :
    SameConfiguration ((unconfigured none [js "h"]).graph (fun text => text))
      ((unconfigured none [js "h", js "h"]).graph (fun text => text)) := by
  refine (resolutionDigest_determines Composition.injective_text
    (unconfigured_covers none [js "h"]) (unconfigured_covers none [js "h", js "h"])
    (resolvePlugins_of_accepts _ unconfigured_accepts.1)
    (resolvePlugins_of_accepts _ unconfigured_accepts.2.1) (by decide +kernel)).mpr ?_
  intro entry hentry entry' hentry' _ _ found found' hfound hfound' _
  obtain rfl := List.mem_singleton.mp hentry
  obtain rfl := List.mem_singleton.mp hentry'
  have hlookup : (unconfigured none [js "h"]).lookup { enabledEntry (js "a") with configRef := none } =
      (unconfigured none [js "h", js "h"]).lookup
        { enabledEntry (js "a") with configRef := none } := by rfl
  obtain rfl : found = found' := Option.some.inj (hfound.symm.trans (hlookup.trans hfound'))
  rfl

/-- A `configRef` on a plugin that declares no config moves, and the digest does not. -/
theorem resolutionDigest_misses_configRef : ∃ g h : ResolutionGraph ℤ,
    resolvePlugins (fun text => text) (unconfigured none [js "h"]) = .ok g ∧
    resolvePlugins (fun text => text) (unconfigured (some (js "hr")) [js "h"]) = .ok h ∧
    g.digest = h.digest ∧ g.instances.map (·.configRef) = [none] ∧
    h.instances.map (·.configRef) = [some (js "hr")] :=
  ⟨_, _, resolvePlugins_of_accepts _ unconfigured_accepts.1,
    resolvePlugins_of_accepts _ unconfigured_accepts.2.2, by decide +kernel, by decide +kernel,
    by decide +kernel⟩

end Example

end Appspine.Resolver
