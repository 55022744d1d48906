import Appspine.PrismaSchema

/-!
# Declarations that clash

Nothing is declared twice in the composed schema exactly when the fragments do not declare a model
or an enum twice between them, and what is written into a block are new fields, each once.
-/
namespace Appspine.Prisma
open JsText StableSort InsertionMap JsonText PluginManifest Resolver Commands Generate
open Appspine.BracedLines
open ConfigBoundary (isSpaceUnit isWordUnit)

section Declared

/-- The name in `^\s*(\w+)\s`: the field that a line of a block declares. -/
def declaredField (line : JsString) : Option JsString :=
  let text := line.dropWhile isSpaceUnit
  let name := text.takeWhile isWordUnit
  if name ≠ [] ∧ (text.drop name.length).takeWhile isSpaceUnit ≠ [] then some name else none

/-- The name in `^\s*enum\s+(\w+)\s*\{`. -/
def enumNameOf (line : JsString) : Option JsString :=
  let rest := (line.dropWhile isSpaceUnit).drop 4
  let text := rest.dropWhile isSpaceUnit
  let name := text.takeWhile isWordUnit
  if startsWith (line.dropWhile isSpaceUnit) (js "enum") ∧ rest.takeWhile isSpaceUnit ≠ [] ∧
      name ≠ [] ∧ opensBrace (text.drop name.length) then some name else none

/-- The fields declared in the blocks of a model. -/
def declaredIn (model : JsString) (inside : List (JsString × JsString)) : List JsString :=
  (inside.filter (fun e => e.1 = model)).filterMap (fun e => declaredField e.2)

/-- No model twice, and no field twice in one model. -/
structure ModelsOnce (lines : List JsString) : Prop where
  models : (opened lineKind lines).Nodup
  fields : ∀ model ∈ opened lineKind lines,
    (declaredIn model (contents lineKind none lines)).Nodup

instance (lines : List JsString) : Decidable (ModelsOnce lines) :=
  decidable_of_iff (_ ∧ ∀ model ∈ opened lineKind lines,
      (declaredIn model (contents lineKind none lines)).Nodup)
    ⟨fun h => ⟨h.1, h.2⟩, fun h => ⟨h.models, h.fields⟩⟩

/-- A schema that declares nothing twice. -/
structure ClashFree (schema : JsString) : Prop where
  modelsOnce : ModelsOnce (textLines schema)
  enums : ((textLines schema).filterMap enumNameOf).Nodup

instance (schema : JsString) : Decidable (ClashFree schema) :=
  decidable_of_iff (ModelsOnce (textLines schema) ∧
      ((textLines schema).filterMap enumNameOf).Nodup)
    ⟨fun h => ⟨h.1, h.2⟩, fun h => ⟨h.modelsOnce, h.enums⟩⟩

/-- The fields that plugins add to a model. -/
def addedFields (contributions : List PrismaContribution) (model : JsString) : List JsString :=
  ((contributions.flatMap (·.augments)).filter (fun a => a.targetModel = model)).map (·.field)

/-- The fragments declare nothing twice between them, and where fields are added to a block, they
are distinct and new to it. -/
structure NoClash (contributions : List PrismaContribution) : Prop where
  models : ((fragments contributions).flatMap (fun e =>
    opened lineKind (fragmentLines e.2))).Nodup
  enums : ((fragments contributions).flatMap (fun e =>
    (fragmentLines e.2).filterMap enumNameOf)).Nodup
  fields : ∀ e ∈ fragments contributions, ∀ model ∈ e.1.owns,
    model ∈ opened lineKind (fragmentLines e.2) →
      (addedFields contributions model ++
        declaredIn model (contents lineKind none (fragmentLines e.2))).Nodup

instance (contributions : List PrismaContribution) : Decidable (NoClash contributions) :=
  decidable_of_iff (_ ∧ _ ∧ ∀ e ∈ fragments contributions, ∀ model ∈ e.1.owns,
      model ∈ opened lineKind (fragmentLines e.2) →
        (addedFields contributions model ++
          declaredIn model (contents lineKind none (fragmentLines e.2))).Nodup)
    ⟨fun h => ⟨h.1, h.2.1, h.2.2⟩, fun h => ⟨h.models, h.enums, h.fields⟩⟩

/-- Types make one line of the field, which is no head of a block. -/
def OneFieldLines (contributions : List PrismaContribution) : Prop :=
  ∀ c ∈ contributions, ∀ augment ∈ c.augments, OneFieldLine augment ∧
    ∀ type ∈ augment.type, enumNameOf (augmentationLine augment type) = none

instance (contributions : List PrismaContribution) : Decidable (OneFieldLines contributions) :=
  inferInstanceAs (Decidable (∀ c ∈ contributions, ∀ augment ∈ c.augments, _))

end Declared

section Written

variable {localeCompare : JsString → JsString → Ordering}
  {contributions : List PrismaContribution}

lemma declaredIn_append {model : JsString} (inside inside' : List (JsString × JsString)) :
    declaredIn model (inside ++ inside') = declaredIn model inside ++ declaredIn model inside' := by
  simp [declaredIn]

lemma declaredIn_perm {model : JsString} {inside inside' : List (JsString × JsString)}
    (h : inside.Perm inside') : (declaredIn model inside).Perm (declaredIn model inside') :=
  (h.filter _).filterMap _

lemma declaredIn_flatMap {α : Type*} {model : JsString} (f : α → List (JsString × JsString))
    (items : List α) :
    declaredIn model (items.flatMap f) = items.flatMap (fun item => declaredIn model (f item)) := by
  induction items with
  | nil => rfl
  | cons item items ih => rw [List.flatMap_cons, List.flatMap_cons, declaredIn_append, ih]

lemma declaredIn_eq_nil {model : JsString} {inside : List (JsString × JsString)}
    (h : ∀ e ∈ inside, e.1 ≠ model) : declaredIn model inside = [] := by
  have hnone : inside.filter (fun e => e.1 = model) = [] := by simpa using h
  rw [declaredIn, hnone, List.filterMap_nil]

lemma declaredIn_map {model : JsString} (lines : List JsString) :
    declaredIn model (lines.map (fun line => (model, line))) = lines.filterMap declaredField := by
  have hall : (lines.map (fun line => (model, line))).filter (fun e => e.1 = model) =
      lines.map (fun line => (model, line)) := by simp
  rw [declaredIn, hall, List.filterMap_map]
  rfl

/-- A comment declares no field. -/
lemma declaredField_contributedBy (entry : InjectedField) :
    declaredField (contributedBy entry) = none := by
  have hword : ∀ text : JsString,
      (js "/// Contributed by @appspine/" ++ text).takeWhile isWordUnit = [] :=
    fun text => List.takeWhile_cons_of_neg (by decide)
  simp only [declaredField, dropWhile_contributedBy, hword, ne_eq, not_true_eq_false, false_and,
    if_false]

lemma declaredField_fieldLine {entry : InjectedField} (h : IsName entry.field) :
    declaredField (fieldLine entry) = some entry.field := by
  have hspace : (js " " ++ entry.type).takeWhile isWordUnit = [] :=
    List.takeWhile_cons_of_neg (by decide)
  have hname : (entry.field ++ (js " " ++ entry.type)).takeWhile isWordUnit = entry.field := by
    rw [List.takeWhile_append_of_pos (List.all_eq_true.mp h.2), hspace, List.append_nil]
  have hfollow : (js " " ++ entry.type).takeWhile isSpaceUnit ≠ [] := by
    have hcons : (js " " ++ entry.type).takeWhile isSpaceUnit =
        unit ' ' :: entry.type.takeWhile isSpaceUnit := List.takeWhile_cons_of_pos (by decide)
    rw [hcons]
    exact List.cons_ne_nil _ _
  rw [declaredField, dropWhile_fieldLine h, List.append_assoc]
  simp only [hname, List.drop_left]
  exact if_pos ⟨h.1, hfollow⟩

lemma declaredField_injectedBlock {fields : List InjectedField}
    (h : ∀ entry ∈ fields, IsName entry.field) :
    (injectedBlock fields).filterMap declaredField = fields.map (·.field) := by
  have hblank : declaredField [] = none := by decide
  rw [injectedBlock, List.filterMap_cons_none hblank]
  induction fields with
  | nil => rfl
  | cons entry fields ih =>
    rw [List.flatMap_cons, List.filterMap_append, ih (fun e he => h e (by simp [he])),
      List.filterMap_cons_none (declaredField_contributedBy entry),
      List.filterMap_cons_some (declaredField_fieldLine (h entry (by simp)))]
    rfl

/-- A text that begins otherwise is no head of an enum. -/
lemma enumNameOf_eq_none {line : JsString}
    (h : startsWith (line.dropWhile isSpaceUnit) (js "enum") = false) : enumNameOf line = none := by
  rw [enumNameOf]
  exact if_neg (fun hcond => by rw [h] at hcond; cases hcond.1)

lemma ignoresComments_enumNameOf : IgnoresComments enumNameOf := by
  refine ⟨by decide, fun rest => enumNameOf_eq_none ?_⟩
  have hline : (js "//" ++ rest).dropWhile isSpaceUnit = js "//" ++ rest :=
    List.dropWhile_cons_of_neg (by decide)
  rw [hline]
  rfl

lemma enumNameOf_contributedBy (entry : InjectedField) : enumNameOf (contributedBy entry) = none := by
  refine enumNameOf_eq_none ?_
  rw [dropWhile_contributedBy]
  rfl

lemma fieldsFor_fields_perm (model : JsString) :
    ((fieldsFor localeCompare contributions model).map (·.field)).Perm
      (addedFields contributions model) := by
  have hplanned := (List.perm_insertionSort
    (fun a b => compareAugmentations localeCompare a b ≠ .gt)
    (contributions.flatMap (fun c => c.augments.map (fun augment =>
      ({ targetModel := augment.targetModel, field := augment.field, plugin := c.plugin,
         type := augment.type.getD (js "undefined") } : PlannedAugmentation))))).filter
    (fun a => a.targetModel = model)
  have hsource : ∀ cs : List PrismaContribution,
      ((cs.flatMap (fun c => c.augments.map (fun augment =>
        ({ targetModel := augment.targetModel, field := augment.field, plugin := c.plugin,
           type := augment.type.getD (js "undefined") } : PlannedAugmentation)))).filter
        (fun a => a.targetModel = model)).map (·.field) = addedFields cs model := by
    intro cs
    induction cs with
    | nil => rfl
    | cons c cs ih =>
      rw [addedFields] at ih ⊢
      rw [List.flatMap_cons, List.filter_append, List.map_append, ih, List.flatMap_cons,
        List.filter_append, List.map_append, List.filter_map, List.map_map]
      rfl
  rw [fieldsFor, List.map_map, ← hsource]
  exact hplanned.map _

/-- What is written for a model into a fragment: the fields added to it, where it is owned. -/
lemma declaredIn_writtenInto (h : PrismaText contributions)
    {e : PrismaContribution × JsString} (he : e ∈ fragments contributions) {model : JsString}
    (hopened : model ∈ opened lineKind (fragmentLines e.2)) :
    (declaredIn model (writtenInto localeCompare contributions e)).Perm
      (if model ∈ e.1.owns then addedFields contributions model else []) := by
  have hnames : ∀ entry ∈ fieldsFor localeCompare contributions model, IsName entry.field := by
    intro entry hentry
    obtain ⟨c, hc, augment, haugment, _, rfl⟩ := mem_fieldsFor.mp hentry
    exact h.fields c hc augment haugment
  have hself : declaredIn model (writtenLines (fragmentLines e.2) model
      (fieldsFor localeCompare contributions model)) =
      (fieldsFor localeCompare contributions model).map (·.field) := by
    by_cases hnil : fieldsFor localeCompare contributions model = []
    · rw [hnil, writtenLines, if_neg (fun hcond => hcond.2 rfl)]
      rfl
    · rw [writtenLines, if_pos ⟨hopened, hnil⟩, declaredIn_map, declaredField_injectedBlock hnames]
  have hother : ∀ other, other ≠ model → declaredIn model (writtenLines (fragmentLines e.2) other
      (fieldsFor localeCompare contributions other)) = [] := by
    intro other hne
    refine declaredIn_eq_nil ?_
    intro w hw
    rw [writtenLines] at hw
    split_ifs at hw with hcond
    · obtain ⟨line, _, rfl⟩ := List.mem_map.mp hw
      exact hne
    · simp at hw
  have hmodels : ∀ models : List JsString, models.Nodup →
      models.flatMap (fun m => declaredIn model (writtenLines (fragmentLines e.2) m
        (fieldsFor localeCompare contributions m))) =
      if model ∈ models then (fieldsFor localeCompare contributions model).map (·.field) else [] := by
    intro models hnodup
    induction models with
    | nil => rfl
    | cons m models ih =>
      obtain ⟨hm, hrest⟩ := List.nodup_cons.mp hnodup
      rw [List.flatMap_cons, ih hrest]
      by_cases heq : m = model
      · subst heq
        rw [hself, if_neg hm, List.append_nil, if_pos (by simp)]
      · rw [hother m heq, List.nil_append]
        simp [Ne.symm heq]
  have hnodup : (sorted e.1.owns).Nodup :=
    (sorted_perm _).nodup_iff.mpr (h.once e.1 (mem_fragments.mp he).1)
  rw [writtenInto, declaredIn_flatMap, hmodels _ hnodup]
  simp only [(sorted_perm e.1.owns).mem_iff]
  split_ifs
  · exact fieldsFor_fields_perm model
  · exact List.Perm.refl _

end Written

section Schema

variable {N : Type} [JsonNumber N] {sha256Hex : JsString → JsString}
  {localeCompare : JsString → JsString → Ordering} {contributions : List PrismaContribution}
  {input : GeneratorInput N sha256Hex} {schema : JsString}

/-- Of lists that share no name, only the one that has the name adds anything for it. -/
lemma flatMap_eq_of_nodup {α β γ : Type*} {items : List α} {names : α → List β} {f : α → List γ}
    {name : β} (h : (items.flatMap names).Nodup) {x : α} (hx : x ∈ items) (hname : name ∈ names x)
    (hf : ∀ y ∈ items, name ∉ names y → f y = []) : items.flatMap f = f x := by
  induction items with
  | nil => cases hx
  | cons item items ih =>
    rw [List.flatMap_cons, List.nodup_append'] at h
    obtain ⟨_, hrest, hdisjoint⟩ := h
    rw [List.flatMap_cons]
    rcases List.mem_cons.mp hx with rfl | hx
    · have hothers : items.flatMap f = [] := by
        rw [List.flatMap_eq_nil_iff]
        intro y hy
        refine hf y (by simp [hy]) fun hy' => ?_
        exact hdisjoint hname (List.mem_flatMap.mpr ⟨y, hy, hy'⟩)
      rw [hothers, List.append_nil]
    · have hfirst : f item = [] := by
        refine hf item (by simp) fun hitem => ?_
        exact hdisjoint hitem (List.mem_flatMap.mpr ⟨x, hx, hname⟩)
      rw [hfirst, List.nil_append]
      exact ih hrest hx (fun y hy => hf y (by simp [hy]))

lemma allWritable_of_lines (h : PrismaText contributions) (hlines : OneFieldLines contributions)
    (htypes : ∀ c ∈ contributions, ∀ augment ∈ c.augments, ∃ type, augment.type = some type) :
    AllWritable contributions := by
  intro c hc augment haugment
  obtain ⟨type, htype⟩ := htypes c hc augment haugment
  obtain ⟨hline, hplain⟩ := (hlines c hc augment haugment).1 type htype
  rw [htype]
  exact ⟨h.fields c hc augment haugment, hline, (h.oneLine c hc).1, hplain⟩

/-- The enums of a fragment are not touched. -/
lemma enums_fragment (h : PrismaText contributions) (hlines : OneFieldLines contributions)
    (htypes : ∀ c ∈ contributions, ∀ augment ∈ c.augments, ∃ type, augment.type = some type)
    {e : PrismaContribution × JsString} (he : e ∈ fragments contributions) :
    (textLines (fragmentWithFields localeCompare contributions e.1 e.2)).filterMap enumNameOf =
      (fragmentLines e.2).filterMap enumNameOf := by
  have hinjected := @injected_fragment localeCompare _ h (allWritable_of_lines h hlines htypes) e he
  refine hinjected.others enumNameOf ?_
  rintro ⟨model, line⟩ hwritten
  obtain ⟨_, _, _, hline⟩ := mem_writtenInto.mp hwritten
  rcases mem_injectedBlock.mp hline with rfl | ⟨entry, hentry, rfl | rfl⟩
  · exact ignoresComments_enumNameOf.blank
  · exact enumNameOf_contributedBy entry
  · obtain ⟨c, hc, augment, haugment, _, rfl⟩ := mem_fieldsFor.mp hentry
    obtain ⟨type, htype⟩ := htypes c hc augment haugment
    have hnone := (hlines c hc augment haugment).2 type htype
    rwa [htype]

/-- The fields of a model in the schema are those of the fragment that has it, and what is added. -/
lemma declaredIn_schema (hhex : ∀ text, lineFeed ∉ sha256Hex text) (h : PrismaText contributions)
    (hwritable : AllWritable contributions)
    (hmodels : ((fragments contributions).flatMap (fun e =>
      opened lineKind (fragmentLines e.2))).Nodup)
    {e : PrismaContribution × JsString} (he : e ∈ fragments contributions) {model : JsString}
    (hopened : model ∈ opened lineKind (fragmentLines e.2)) :
    (declaredIn model (contents lineKind none
        (textLines (schemaText localeCompare input contributions)))).Perm
      ((if model ∈ e.1.owns then addedFields contributions model else []) ++
        declaredIn model (contents lineKind none (fragmentLines e.2))) := by
  have hreads := @reads_schema _ _ _ localeCompare _ _ ignoresComments_none hhex input h hwritable
  have hnone : ∀ e' ∈ fragments contributions, model ∉ opened lineKind (fragmentLines e'.2) →
      declaredIn model (contents lineKind none
        (textLines (fragmentWithFields localeCompare contributions e'.1 e'.2))) = [] := by
    intro e' he' hopened'
    refine declaredIn_eq_nil ?_
    rintro ⟨model', line⟩ hline rfl
    rcases mem_opened_of_contents hline with hopen | hopen
    · cases hopen
    · rw [(@injected_fragment localeCompare _ h hwritable e' he').opened] at hopen
      exact hopened' hopen
  rw [hreads.contents, declaredIn_flatMap, flatMap_eq_of_nodup hmodels he hopened hnone]
  have hinjected := @injected_fragment localeCompare _ h hwritable e he
  refine (declaredIn_perm hinjected.contents).trans ?_
  rw [declaredIn_append]
  exact (declaredIn_writtenInto h he hopened).append_right _

/-- Where compose gives a schema from fragments that declare each model and each of its fields once,
the schema declares nothing twice exactly when the contributions do not clash. -/
theorem composition_clashFree_iff (hhex : ∀ text, lineFeed ∉ sha256Hex text)
    (h : PrismaText (collectContributions input))
    (hlines : OneFieldLines (collectContributions input))
    (honce : ∀ e ∈ fragments (collectContributions input), ModelsOnce (fragmentLines e.2))
    (hschema : (compose localeCompare input).schema = some schema) :
    ClashFree schema ↔ NoClash (collectContributions input) := by
  obtain ⟨hvalid, rfl⟩ := compose_schema hschema
  have htypes := exists_type hvalid
  have hwritable := allWritable_of_lines h hlines htypes
  have hreads := @reads_schema _ _ _ localeCompare _ _ ignoresComments_enumNameOf hhex input h
    hwritable
  have hopened := hreads.opened
  have henums := hreads.others
  rw [List.flatMap_congr (fun e he => (@injected_fragment localeCompare _ h hwritable e he).opened)]
    at hopened
  rw [List.flatMap_congr (fun e he => enums_fragment h hlines htypes he)] at henums
  constructor
  · rintro ⟨⟨hmodels, hfields⟩, hnodup⟩
    rw [hopened] at hmodels hfields
    refine ⟨hmodels, henums ▸ hnodup, ?_⟩
    intro e he model howns hmodel
    have hperm := @declaredIn_schema _ _ _ localeCompare _ input hhex h hwritable hmodels e he _ hmodel
    rw [if_pos howns] at hperm
    exact hperm.nodup_iff.mp (hfields model (List.mem_flatMap.mpr ⟨e, he, hmodel⟩))
  · rintro ⟨hmodels, hnodup, hfields⟩
    refine ⟨⟨hopened ▸ hmodels, ?_⟩, henums ▸ hnodup⟩
    intro model hmodel
    rw [hopened] at hmodel
    obtain ⟨e, he, hmodel⟩ := List.mem_flatMap.mp hmodel
    have hperm := @declaredIn_schema _ _ _ localeCompare _ input hhex h hwritable hmodels e he _ hmodel
    rw [hperm.nodup_iff]
    split_ifs with howns
    · exact hfields e he model howns hmodel
    · exact (honce e he).fields model hmodel

theorem composition_clashFree_user : ∃ input ∈ (generatorInput
    (extendedApp (some (js "user.prisma")) [js "b"]) (fun _ _ => some userFragment)
    (js "1")).toOption, ∃ schema ∈ (compose compareUnits input).schema, ClashFree schema := by
  obtain ⟨input, hinput, htext, hlines, honce, hsome, hcondition⟩ : ∃ input ∈ (generatorInput
      (extendedApp (some (js "user.prisma")) [js "b"]) (fun _ _ => some userFragment)
      (js "1")).toOption, PrismaText (collectContributions input) ∧
      OneFieldLines (collectContributions input) ∧
      (∀ e ∈ fragments (collectContributions input), ModelsOnce (fragmentLines e.2)) ∧
      (compose compareUnits input).schema.isSome = true ∧
      NoClash (collectContributions input) := by
    decide +kernel
  obtain ⟨schema, hschema⟩ := Option.isSome_iff_exists.mp hsome
  refine ⟨input, hinput, schema, hschema, ?_⟩
  exact (composition_clashFree_iff (fun _ => by decide) htext hlines honce hschema).mpr hcondition

/-- Two plugins add the same field to `User`. -/
theorem composition_clash : ∃ input ∈ (generatorInput
    (extendedApp (some (js "user.prisma")) [js "b", js "c"]) (fun _ _ => some userFragment)
    (js "1")).toOption, ∃ schema ∈ (compose compareUnits input).schema,
      (∀ e ∈ fragments (collectContributions input), ModelsOnce (fragmentLines e.2)) ∧
      ¬ ClashFree schema := by
  decide +kernel

end Schema

end Appspine.Prisma
