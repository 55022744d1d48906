import Appspine.PrismaText

/-!
# The composed schema

The lines of the schema are the lines of the fragments, with what injection wrote into them, and
plain lines around. So an augmentation is in the schema exactly when some owner's fragment has a
place for it, and declarations clash exactly when they do in the fragments or in what is written.
-/
namespace Appspine.Prisma
open JsText StableSort InsertionMap JsonText PluginManifest Resolver Commands Generate
open Appspine.BracedLines
open ConfigBoundary (isSpaceUnit isWordUnit)

variable {N : Type} [JsonNumber N] {sha256Hex : JsString → JsString}
  {localeCompare : JsString → JsString → Ordering} {contributions : List PrismaContribution}

section Fragments

/-- The lines of a fragment as the composer takes it: LF line ends, one line feed at the end. -/
def fragmentLines (fragment : JsString) : List JsString :=
  textLines (endWithNewline (normalizeNewlines fragment))

/-- The contributions that ship a fragment, with its text. -/
def fragments (contributions : List PrismaContribution) : List (PrismaContribution × JsString) :=
  contributions.filterMap (fun c => (c.fragment.filter (· ≠ [])).map (fun text => (c, text)))

lemma mem_fragments {c : PrismaContribution} {text : JsString} :
    (c, text) ∈ fragments contributions ↔ c ∈ contributions ∧ c.fragment = some text ∧ text ≠ [] := by
  simp only [fragments, List.mem_filterMap, Option.map_eq_some_iff, Option.filter_eq_some_iff,
    Prod.mk.injEq, decide_eq_true_eq]
  constructor
  · rintro ⟨c', hc', text', ⟨hfragment, hne⟩, rfl, rfl⟩
    exact ⟨hc', hfragment, hne⟩
  · rintro ⟨hc, hfragment, hne⟩
    exact ⟨c, hc, text, ⟨hfragment, hne⟩, rfl, rfl⟩

/-- What is asked of the contributions: names as the manifest schema has them, and fragments in
which the closing brace of every model block stands on a line of its own. -/
structure PrismaText (contributions : List PrismaContribution) : Prop where
  oneLine : ∀ c ∈ contributions, lineFeed ∉ c.plugin ∧ lineFeed ∉ c.packageName ∧
    ∀ path ∈ c.fragmentPath, lineFeed ∉ path
  models : ∀ c ∈ contributions, ∀ model ∈ c.owns, IsName model
  once : ∀ c ∈ contributions, c.owns.Nodup
  fields : ∀ c ∈ contributions, ∀ augment ∈ c.augments, IsName augment.field
  balanced : ∀ e ∈ fragments contributions, Balanced lineKind none (fragmentLines e.2)

instance (contributions : List PrismaContribution) : Decidable (PrismaText contributions) :=
  decidable_of_iff
    ((∀ c ∈ contributions, (lineFeed ∉ c.plugin ∧ lineFeed ∉ c.packageName ∧
        ∀ path ∈ c.fragmentPath, lineFeed ∉ path) ∧ (∀ model ∈ c.owns, IsName model) ∧
        c.owns.Nodup ∧ ∀ augment ∈ c.augments, IsName augment.field) ∧
      ∀ e ∈ fragments contributions, Balanced lineKind none (fragmentLines e.2))
    ⟨fun h => ⟨fun c hc => (h.1 c hc).1, fun c hc => (h.1 c hc).2.1, fun c hc => (h.1 c hc).2.2.1,
        fun c hc => (h.1 c hc).2.2.2, h.2⟩,
      fun h => ⟨fun c hc => ⟨h.oneLine c hc, h.models c hc, h.once c hc, h.fields c hc⟩,
        h.balanced⟩⟩

lemma mem_fieldsFor {model : JsString} {entry : InjectedField} :
    entry ∈ fieldsFor localeCompare contributions model ↔
      ∃ c ∈ contributions, ∃ augment ∈ c.augments, augment.targetModel = model ∧
        entry = { field := augment.field, type := augment.type.getD (js "undefined"),
                  plugin := c.plugin } := by
  simp only [fieldsFor, List.mem_map, List.mem_filter, plannedAugmentations, sortWith,
    (List.perm_insertionSort _ _).mem_iff, List.mem_flatMap, decide_eq_true_eq]
  constructor
  · rintro ⟨planned, ⟨⟨c, hc, augment, haugment, rfl⟩, hmodel⟩, rfl⟩
    exact ⟨c, hc, augment, haugment, hmodel, rfl⟩
  · rintro ⟨c, hc, augment, haugment, hmodel, rfl⟩
    exact ⟨_, ⟨⟨c, hc, augment, haugment, rfl⟩, hmodel⟩, rfl⟩

/-- The fields of every augmentation can be written as lines of a block. -/
def AllWritable (contributions : List PrismaContribution) : Prop :=
  ∀ c ∈ contributions, ∀ augment ∈ c.augments,
    Writable { field := augment.field, type := augment.type.getD (js "undefined"),
               plugin := c.plugin }

lemma writable_fieldsFor (h : AllWritable contributions) (model : JsString) :
    ∀ entry ∈ fieldsFor localeCompare contributions model, Writable entry := by
  intro entry hentry
  obtain ⟨c, hc, augment, haugment, _, rfl⟩ := mem_fieldsFor.mp hentry
  exact h c hc augment haugment

/-- What is written into a fragment. -/
def writtenInto (localeCompare : JsString → JsString → Ordering)
    (contributions : List PrismaContribution) (e : PrismaContribution × JsString) :
    List (JsString × JsString) :=
  (sorted e.1.owns).flatMap (fun model =>
    writtenLines (fragmentLines e.2) model (fieldsFor localeCompare contributions model))

lemma injected_fragment (h : PrismaText contributions) (hwritable : AllWritable contributions)
    {e : PrismaContribution × JsString} (he : e ∈ fragments contributions) :
    Injected (fragmentLines e.2)
      (textLines (fragmentWithFields localeCompare contributions e.1 e.2))
      (writtenInto localeCompare contributions e) := by
  refine injected_foldl (h.balanced e he) ?_ ?_
  · intro model hmodel
    exact h.models e.1 (mem_fragments.mp he).1 model ((sorted_perm _).mem_iff.mp hmodel)
  · intro model _
    exact writable_fieldsFor hwritable model

end Fragments

section Assembly

/-- Dropping line feeds at the end of a text drops empty lines. -/
lemma textLines_rdropWhile (text : JsString) : ∃ count,
    textLines text = textLines (text.rdropWhile (· = lineFeed)) ++ List.replicate count [] := by
  have hsplit : text.rdropWhile (· = lineFeed) ++ text.rtakeWhile (· = lineFeed) = text :=
    List.rdropWhile_append_rtakeWhile
  have hfeeds : text.rtakeWhile (· = lineFeed) =
      List.replicate (text.rtakeWhile (· = lineFeed)).length lineFeed := by
    rw [List.eq_replicate_iff]
    refine ⟨rfl, fun u hu => ?_⟩
    simpa using List.mem_rtakeWhile_imp hu
  refine ⟨(text.rtakeWhile (· = lineFeed)).length, ?_⟩
  have hlines : ∀ (s : JsString) count, textLines (s ++ List.replicate count lineFeed) =
      textLines s ++ List.replicate count [] := by
    intro s count
    induction count with
    | zero => simp
    | succ count ih =>
      have hone : s ++ List.replicate (count + 1) lineFeed =
          (s ++ List.replicate count lineFeed) ++ lineFeed :: [] := by
        rw [List.replicate_succ', List.append_assoc]
      rw [hone, textLines_append_cons, ih, List.replicate_succ', List.append_assoc]
      rfl
  conv_lhs => rw [← hsplit, hfeeds]
  exact hlines _ _

lemma plain_replicate_nil (count : ℕ) : AllPlain lineKind (List.replicate count []) := by
  intro line hline
  rw [List.eq_of_mem_replicate hline]
  exact plain_nil

/-- A declaration that neither empty lines nor comments make. -/
structure IgnoresComments (declared : JsString → Option JsString) : Prop where
  blank : declared [] = none
  comment : ∀ rest, declared (js "//" ++ rest) = none

/-- What is read off lines: that they are balanced, their blocks, and other declarations. -/
structure Reads (declared : JsString → Option JsString) (lines names : List JsString)
    (inside : List (JsString × JsString)) (others : List JsString) : Prop where
  balanced : Balanced lineKind none lines
  opened : opened lineKind lines = names
  contents : contents lineKind none lines = inside
  others : lines.filterMap declared = others

variable {declared : JsString → Option JsString}

lemma Reads.append {lines lines' names names' others others' : List JsString}
    {inside inside' : List (JsString × JsString)} (h : Reads declared lines names inside others)
    (h' : Reads declared lines' names' inside' others') :
    Reads declared (lines ++ lines') (names ++ names') (inside ++ inside') (others ++ others') where
  balanced := h.balanced.append h'.balanced
  opened := by rw [opened_append, h.opened, h'.opened]
  contents := by rw [contents_append, openAfter_balanced h.balanced, h.contents, h'.contents]
  others := by rw [List.filterMap_append, h.others, h'.others]

lemma reads_plain {lines : List JsString} (h : AllPlain lineKind lines)
    (hdeclared : ∀ line ∈ lines, declared line = none) : Reads declared lines [] [] [] :=
  ⟨balanced_of_plain h, opened_plain h, contents_plain_none h,
    List.filterMap_eq_nil_iff.mpr hdeclared⟩

lemma reads_blank (h : IgnoresComments declared) : Reads declared [[]] [] [] [] := by
  refine reads_plain ?_ ?_
  · intro line hline
    rw [List.mem_singleton.mp hline]
    exact plain_nil
  · intro line hline
    rw [List.mem_singleton.mp hline]
    exact h.blank

lemma plain_comment (rest : JsString) : lineKind (js "//" ++ rest) = .plain := by
  have hline : (js "//" ++ rest).dropWhile isSpaceUnit = js "//" ++ rest :=
    List.dropWhile_cons_of_neg (by decide)
  refine lineKind_plain.mpr ⟨isClosing_of_word hline (by decide), ?_⟩
  rw [modelNameOf, afterModelKeyword, if_neg]
  · rfl
  · rw [hline, startsWith_iff]
    rintro ⟨⟨tail, htail⟩, _⟩
    exact absurd (List.cons.inj htail).1 (by decide)

lemma reads_comments (h : IgnoresComments declared) {lines : List JsString}
    (hlines : ∀ line ∈ lines, startsWith line (js "//") = true) : Reads declared lines [] [] [] := by
  refine reads_plain ?_ ?_
  · intro line hline
    obtain ⟨rest, rfl⟩ := startsWith_iff.mp (hlines line hline)
    exact plain_comment rest
  · intro line hline
    obtain ⟨rest, rfl⟩ := startsWith_iff.mp (hlines line hline)
    exact h.comment rest

/-- Empty lines at the end of a balanced text say nothing. -/
lemma reads_rdropWhile (hdeclared : IgnoresComments declared) {text : JsString}
    (h : Balanced lineKind none (textLines text)) :
    Reads declared (textLines (text.rdropWhile (· = lineFeed))) (opened lineKind (textLines text))
      (contents lineKind none (textLines text)) ((textLines text).filterMap declared) := by
  obtain ⟨count, hlines⟩ := textLines_rdropWhile text
  have hblank := plain_replicate_nil count
  have hnone : (List.replicate count ([] : JsString)).filterMap declared = [] := by
    rw [List.filterMap_eq_nil_iff]
    intro line hline
    rw [List.eq_of_mem_replicate hline]
    exact hdeclared.blank
  have hopen : openAfter lineKind none (textLines (text.rdropWhile (· = lineFeed))) = none := by
    have hafter := openAfter_balanced h
    rwa [hlines, openAfter_append, openAfter_plain hblank] at hafter
  rw [hlines] at h ⊢
  refine ⟨balanced_take h hopen, ?_, ?_, ?_⟩
  · rw [opened_append, opened_plain hblank, List.append_nil]
  · rw [contents_append, hopen, contents_plain_none hblank, List.append_nil]
  · rw [List.filterMap_append, hnone, List.append_nil]

lemma notMem_sectionComment {c : PrismaContribution} (hname : lineFeed ∉ c.packageName)
    (hpath : ∀ path ∈ c.fragmentPath, lineFeed ∉ path) : lineFeed ∉ sectionComment c := by
  have hfixed : lineFeed ∉ js "// ---- " ∧ lineFeed ∉ js " (" ∧ lineFeed ∉ js ") ----" ∧
      lineFeed ∉ js "inline" := by decide
  have hpath' : lineFeed ∉ c.fragmentPath.getD (js "inline") := by
    cases hfragment : c.fragmentPath with
    | none => exact hfixed.2.2.2
    | some path => exact hpath path hfragment
  simp only [sectionComment, List.mem_append, not_or]
  exact ⟨⟨⟨⟨hfixed.1, hname⟩, hfixed.2.1⟩, hpath'⟩, hfixed.2.2.1⟩

/-- A section reads as the fragment with its fields. -/
lemma reads_section (hdeclared : IgnoresComments declared) (h : PrismaText contributions)
    (hwritable : AllWritable contributions) {e : PrismaContribution × JsString}
    (he : e ∈ fragments contributions) :
    let lines := textLines (fragmentWithFields localeCompare contributions e.1 e.2)
    Reads declared (textLines (sectionText localeCompare contributions e.1 e.2))
      (opened lineKind lines) (contents lineKind none lines) (lines.filterMap declared) := by
  intro lines
  obtain ⟨_, hname, hpath⟩ := h.oneLine e.1 (mem_fragments.mp he).1
  have hlines : textLines (sectionText localeCompare contributions e.1 e.2) =
      [sectionComment e.1] ++ (textLines ((fragmentWithFields localeCompare contributions e.1
        e.2).rdropWhile (· = lineFeed)) ++ [[]]) := by
    rw [sectionText, join_cons_cons, join_cons_cons, join_singleton, List.append_assoc,
      List.singleton_append, textLines_append_cons, List.append_assoc, List.singleton_append,
      textLines_append_cons, textLines_of_notMem (notMem_sectionComment hname hpath)]
    rfl
  have hcomment : Reads declared [sectionComment e.1] [] [] [] := by
    refine reads_comments hdeclared ?_
    intro line hline
    rw [List.mem_singleton.mp hline]
    rfl
  have hfragment := reads_rdropWhile hdeclared
    (@injected_fragment localeCompare _ h hwritable e he).balanced
  have hsection := hcomment.append (hfragment.append (reads_blank hdeclared))
  rw [← hlines] at hsection
  simpa using hsection

lemma textLines_joined {texts : List JsString} (hne : texts ≠ []) :
    textLines (join [lineFeed] texts) = texts.flatMap textLines := by
  induction texts with
  | nil => exact absurd rfl hne
  | cons text texts ih =>
    cases texts with
    | nil => simp
    | cons next rest =>
      rw [join_cons_cons, List.append_assoc, List.singleton_append, textLines_append_cons,
        ih (List.cons_ne_nil _ _)]
      simp only [List.flatMap_cons]

lemma reads_flatMap {α : Type*} {items : List α} {linesOf namesOf othersOf : α → List JsString}
    {insideOf : α → List (JsString × JsString)}
    (h : ∀ item ∈ items, Reads declared (linesOf item) (namesOf item) (insideOf item)
      (othersOf item)) :
    Reads declared (items.flatMap linesOf) (items.flatMap namesOf) (items.flatMap insideOf)
      (items.flatMap othersOf) := by
  induction items with
  | nil => exact reads_plain (by simp [AllPlain]) (by simp)
  | cons item items ih =>
    simp only [List.flatMap_cons]
    exact (h item (by simp)).append (ih (fun i hi => h i (by simp [hi])))

lemma sections_eq : sections localeCompare contributions =
    (fragments contributions).map (fun e => sectionText localeCompare contributions e.1 e.2) := by
  rw [sections, fragments, List.map_filterMap]
  simp only [Option.map_map, Function.comp_def]

lemma schemaHeader_lines {source digest : JsString} (hsource : lineFeed ∉ source)
    (hdigest : lineFeed ∉ digest) : ∀ line ∈ schemaHeader source digest,
      startsWith line (js "//") = true ∧ lineFeed ∉ line := by
  have hfixed : ∀ line ∈ schemaHeader [] [], startsWith line (js "//") = true ∧ lineFeed ∉ line :=
    List.forall_iff_forall_mem.mp (by decide)
  have hsplit : schemaHeader source digest = (schemaHeader [] []).take 6 ++
      ([js "// sourceDigest: " ++ source, js "// schemaDigest: " ++ digest] ++
        (schemaHeader [] []).drop 8) := rfl
  have hlabels : lineFeed ∉ js "// sourceDigest: " ∧ lineFeed ∉ js "// schemaDigest: " := by decide
  intro line hline
  rw [hsplit, List.mem_append, List.mem_append] at hline
  rcases hline with hline | hline | hline
  · exact hfixed line (List.mem_of_mem_take hline)
  · simp only [List.mem_cons, List.not_mem_nil, or_false] at hline
    rcases hline with rfl | rfl
    · exact ⟨rfl, by simp [hlabels.1, hsource]⟩
    · exact ⟨rfl, by simp [hlabels.2, hdigest]⟩
  · exact hfixed line (List.mem_of_mem_drop hline)

/-- The schema reads as its fragments do, one after the other. -/
lemma reads_schema (hdeclared : IgnoresComments declared) (hhex : ∀ text, lineFeed ∉ sha256Hex text)
    (input : GeneratorInput N sha256Hex) (h : PrismaText contributions)
    (hwritable : AllWritable contributions) :
    let linesOf := fun e : PrismaContribution × JsString =>
      textLines (fragmentWithFields localeCompare contributions e.1 e.2)
    Reads declared (textLines (schemaText localeCompare input contributions))
      ((fragments contributions).flatMap (fun e => opened lineKind (linesOf e)))
      ((fragments contributions).flatMap (fun e => contents lineKind none (linesOf e)))
      ((fragments contributions).flatMap (fun e => (linesOf e).filterMap declared)) := by
  intro linesOf
  set header := schemaHeader (sourceDigest input)
    (schemaDigest localeCompare sha256Hex contributions)
  have hheader : ∀ line ∈ header, startsWith line (js "//") = true ∧ lineFeed ∉ line :=
    schemaHeader_lines (notMem_hash hhex _) (notMem_hash hhex _)
  have hne : header ≠ [] := List.cons_ne_nil _ _
  have hlines : textLines (schemaText localeCompare input contributions) =
      header ++ textLines (join [lineFeed] (sections localeCompare contributions)) := by
    have htext : schemaText localeCompare input contributions =
        join [lineFeed] header ++
          lineFeed :: join [lineFeed] (sections localeCompare contributions) := by
      rw [schemaText, join_append_singleton hne]
      simp
    rw [htext, textLines_append_cons, textLines_join hne (fun line hline => (hheader line hline).2)]
  have hbody : Reads declared (textLines (join [lineFeed] (sections localeCompare contributions)))
      ((fragments contributions).flatMap (fun e => opened lineKind (linesOf e)))
      ((fragments contributions).flatMap (fun e => contents lineKind none (linesOf e)))
      ((fragments contributions).flatMap (fun e => (linesOf e).filterMap declared)) := by
    rw [sections_eq]
    by_cases hnil : fragments contributions = []
    · rw [hnil]
      exact reads_blank hdeclared
    · rw [textLines_joined (by simpa using hnil), List.flatMap_map]
      exact reads_flatMap (fun e he => reads_section hdeclared h hwritable he)
  have hreads := (reads_comments hdeclared (fun line hline => (hheader line hline).1)).append hbody
  rw [← hlines] at hreads
  simpa using hreads

end Assembly

section Augmentations

variable {input : GeneratorInput N sha256Hex} {schema : JsString}

/-- The line that is written for an augmentation. -/
def augmentationLine (augment : PrismaAugmentation) (type : JsString) : JsString :=
  js "  " ++ augment.field ++ js " " ++ type

/-- The augmentation is a line in the block of its target. -/
def Appears (schema : JsString) (augment : PrismaAugmentation) : Prop :=
  ∃ type ∈ augment.type, (augment.targetModel, augmentationLine augment type) ∈
    contents lineKind none (textLines schema)

instance (schema : JsString) (augment : PrismaAugmentation) : Decidable (Appears schema augment) :=
  inferInstanceAs (Decidable (∃ type ∈ augment.type, _))

/-- Its type makes one line of the field, which does not look like the head of a model. -/
def OneFieldLine (augment : PrismaAugmentation) : Prop :=
  ∀ type ∈ augment.type, lineFeed ∉ type ∧ modelNameOf (augmentationLine augment type) = none

instance (augment : PrismaAugmentation) : Decidable (OneFieldLine augment) :=
  inferInstanceAs (Decidable (∀ type ∈ augment.type, _))

/-- A package that owns the target ships a fragment with a block for it. -/
def HasPlace (contributions : List PrismaContribution) (augment : PrismaAugmentation) : Prop :=
  ∃ e ∈ fragments contributions, augment.targetModel ∈ e.1.owns ∧
    augment.targetModel ∈ opened lineKind (fragmentLines e.2)

instance (contributions : List PrismaContribution) (augment : PrismaAugmentation) :
    Decidable (HasPlace contributions augment) :=
  inferInstanceAs (Decidable (∃ e ∈ fragments contributions, _))

/-- Some fragment has the very line in a block of that model already. -/
def AlreadyThere (contributions : List PrismaContribution) (augment : PrismaAugmentation) : Prop :=
  ∃ e ∈ fragments contributions, ∃ type ∈ augment.type,
    (augment.targetModel, augmentationLine augment type) ∈
      contents lineKind none (fragmentLines e.2)

instance (contributions : List PrismaContribution) (augment : PrismaAugmentation) :
    Decidable (AlreadyThere contributions augment) :=
  inferInstanceAs (Decidable (∃ e ∈ fragments contributions, ∃ type ∈ augment.type, _))

lemma compose_schema (h : (compose localeCompare input).schema = some schema) :
    hasErrors (validateContributions (collectContributions input)) = false ∧
      schema = schemaText localeCompare input (collectContributions input) := by
  simp only [compose] at h
  split_ifs at h with herrors
  exact ⟨Bool.not_eq_true _ ▸ herrors, (Option.some.inj h).symm⟩

/-- Every augmentation of a valid set has a type. -/
lemma exists_type (h : hasErrors (validateContributions contributions) = false) :
    ∀ c ∈ contributions, ∀ augment ∈ c.augments, ∃ type, augment.type = some type := by
  intro c hc augment haugment
  by_contra hnone
  have htype : augment.type = none := Option.eq_none_iff_forall_ne_some.mpr
    (fun type heq => hnone ⟨type, heq⟩)
  have herror : ∃ d ∈ augmentDiagnostics contributions c augment, d.severity = .error := by
    rw [augmentDiagnostics]
    split
    · exact ⟨_, List.mem_singleton_self _, rfl⟩
    · have hreport : ∃ d, augmentationWithoutType c augment = [d] ∧ d.severity = .error :=
        ⟨_, if_pos (by rw [htype]; rfl), rfl⟩
      obtain ⟨d, hd, hseverity⟩ := hreport
      refine ⟨d, List.mem_append_left _ (List.mem_append_right _ ?_), hseverity⟩
      rw [hd]
      exact List.mem_singleton_self _
  obtain ⟨d, hd, hseverity⟩ := herror
  rw [validateContributions, hasErrors_perm (sortBy_perm _ _), hasErrors, List.any_eq_false] at h
  refine h d (List.mem_append_right _ (List.mem_flatMap.mpr ⟨c, hc, ?_⟩)) (by simpa using hseverity)
  exact List.mem_flatMap.mpr ⟨augment, haugment, hd⟩

lemma ignoresComments_none : IgnoresComments (fun _ => none) := ⟨rfl, fun _ => rfl⟩

lemma mem_writtenInto {e : PrismaContribution × JsString} {model line : JsString} :
    (model, line) ∈ writtenInto localeCompare contributions e ↔
      model ∈ e.1.owns ∧ model ∈ opened lineKind (fragmentLines e.2) ∧
        fieldsFor localeCompare contributions model ≠ [] ∧
        line ∈ injectedBlock (fieldsFor localeCompare contributions model) := by
  simp only [writtenInto, List.mem_flatMap, writtenLines]
  constructor
  · rintro ⟨model', hmodel', hline⟩
    split_ifs at hline with hcond
    · obtain ⟨line', hline', heq⟩ := List.mem_map.mp hline
      obtain ⟨rfl, rfl⟩ := Prod.mk.inj heq
      exact ⟨(sorted_perm _).mem_iff.mp hmodel', hcond.1, hcond.2, hline'⟩
    · simp at hline
  · rintro ⟨howns, hopened, hne, hline⟩
    refine ⟨model, (sorted_perm _).mem_iff.mpr howns, ?_⟩
    rw [if_pos ⟨hopened, hne⟩]
    exact List.mem_map.mpr ⟨line, hline, rfl⟩

/-- The blocks of the schema have what those of the fragments have, and what is written. -/
lemma mem_contents_schema (hhex : ∀ text, lineFeed ∉ sha256Hex text) (h : PrismaText contributions)
    (hwritable : AllWritable contributions) {model line : JsString} :
    (model, line) ∈ contents lineKind none (textLines (schemaText localeCompare input contributions)) ↔
      ∃ e ∈ fragments contributions, (model, line) ∈ writtenInto localeCompare contributions e ∨
        (model, line) ∈ contents lineKind none (fragmentLines e.2) := by
  rw [(@reads_schema _ _ _ localeCompare _ _ ignoresComments_none hhex input h hwritable).contents,
    List.mem_flatMap]
  refine exists_congr fun e => and_congr_right fun he => ?_
  rw [(@injected_fragment localeCompare _ h hwritable e he).contents.mem_iff,
    List.mem_append]

/-- Where compose gives a schema, every augmentation is in it exactly when each is one field line
and has a place in a fragment of an owner, or stands in some fragment anyway. -/
theorem augmentations_appear_iff (hhex : ∀ text, lineFeed ∉ sha256Hex text)
    (h : PrismaText (collectContributions input))
    (hschema : (compose localeCompare input).schema = some schema) :
    (∀ c ∈ collectContributions input, ∀ augment ∈ c.augments, Appears schema augment) ↔
      ∀ c ∈ collectContributions input, ∀ augment ∈ c.augments, OneFieldLine augment ∧
        (HasPlace (collectContributions input) augment ∨
          AlreadyThere (collectContributions input) augment) := by
  obtain ⟨hvalid, rfl⟩ := compose_schema hschema
  have htypes := exists_type hvalid
  have hlines : (∀ c ∈ collectContributions input, ∀ augment ∈ c.augments, OneFieldLine augment) →
      AllWritable (collectContributions input) := by
    intro hone c hc augment haugment
    obtain ⟨type, htype⟩ := htypes c hc augment haugment
    rw [htype]
    exact ⟨h.fields c hc augment haugment, (hone c hc augment haugment type htype).1,
      (h.oneLine c hc).1, (hone c hc augment haugment type htype).2⟩
  constructor
  · intro happears
    have hone : ∀ c ∈ collectContributions input, ∀ augment ∈ c.augments,
        OneFieldLine augment := by
      intro c hc augment haugment type htype
      obtain ⟨type', htype', hline⟩ := happears c hc augment haugment
      obtain rfl := Option.some.inj (htype.symm.trans htype')
      obtain ⟨hplain, hmem⟩ := plain_of_contents hline
      refine ⟨?_, (lineKind_plain.mp hplain).2⟩
      have hfeed := notMem_of_mem_textLines hmem
      rw [augmentationLine, List.mem_append, not_or] at hfeed
      exact hfeed.2
    have hwritable := hlines hone
    intro c hc augment haugment
    refine ⟨hone c hc augment haugment, ?_⟩
    obtain ⟨type, htype, hline⟩ := happears c hc augment haugment
    obtain ⟨e, he, hwritten | hraw⟩ := (mem_contents_schema hhex h hwritable).mp hline
    · obtain ⟨howns, hopened, _⟩ := mem_writtenInto.mp hwritten
      exact .inl ⟨e, he, howns, hopened⟩
    · exact .inr ⟨e, he, type, htype, hraw⟩
  · intro hcondition c hc augment haugment
    have hwritable := hlines (fun c hc augment haugment => (hcondition c hc augment haugment).1)
    obtain ⟨_, ⟨e, he, howns, hopened⟩ | ⟨e, he, type, htype, hraw⟩⟩ :=
      hcondition c hc augment haugment
    · obtain ⟨type, htype⟩ := htypes c hc augment haugment
      have hentry : ({ field := augment.field, type := type, plugin := c.plugin } : InjectedField) ∈
          fieldsFor localeCompare (collectContributions input) augment.targetModel :=
        mem_fieldsFor.mpr ⟨c, hc, augment, haugment, rfl, by rw [htype, Option.getD_some]⟩
      refine ⟨type, htype, (mem_contents_schema hhex h hwritable).mpr ⟨e, he, .inl ?_⟩⟩
      refine mem_writtenInto.mpr ⟨howns, hopened, List.ne_nil_of_mem hentry, ?_⟩
      exact mem_injectedBlock.mpr (.inr ⟨_, hentry, .inr rfl⟩)
    · exact ⟨type, htype, (mem_contents_schema hhex h hwritable).mpr ⟨e, he, .inr hraw⟩⟩

def prismaManifest (id : JsString) (facet : List (JsString × Json ℤ)) : PluginManifestV1 ℤ :=
  { plainManifest id [] [] with
    facets := { backend := none, prisma := some facet, operations := none, rest := [] } }

def ownerFacet (fragment : Option JsString) : List (JsString × Json ℤ) :=
  [(js "owns", .arr [.str (js "User")])] ++
    optionalMember (js "schemaFragment") (fragment.map .str)

/-- The field `roles` for the `User` of plugin `a`. -/
def extenderFacet : List (JsString × Json ℤ) :=
  [(js "augments", .arr [.obj [(js "targetModel", .str (js "User")),
    (js "field", .str (js "roles")), (js "owner", .str (js "a")), (js "type", .str (js "Role[]"))]])]

/-- Plugin `a` owns `User`, and these extend it. -/
def extendedApp (fragment : Option JsString) (extenders : List JsString) :
    AppRoot ℤ (fun _ => js "0") :=
  installedApp _
    (prismaManifest (js "a") (ownerFacet fragment) ::
      extenders.map (fun id => prismaManifest id extenderFacet))
    (enabledEntry (js "@x/a") :: extenders.map (fun id => enabledEntry (js "@x/" ++ id)))

def userFragment : JsString := js "model User \x7b\n  id Int @id\n\x7d\n"

theorem augmentations_appear_user : ∃ input ∈ (generatorInput
    (extendedApp (some (js "user.prisma")) [js "b"]) (fun _ _ => some userFragment)
    (js "1")).toOption, ∃ schema ∈ (compose compareUnits input).schema,
      ∀ c ∈ collectContributions input, ∀ augment ∈ c.augments, Appears schema augment := by
  obtain ⟨input, hinput, htext, hsome, hcondition⟩ : ∃ input ∈ (generatorInput
      (extendedApp (some (js "user.prisma")) [js "b"]) (fun _ _ => some userFragment)
      (js "1")).toOption, PrismaText (collectContributions input) ∧
      (compose compareUnits input).schema.isSome = true ∧
      ∀ c ∈ collectContributions input, ∀ augment ∈ c.augments, OneFieldLine augment ∧
        (HasPlace (collectContributions input) augment ∨
          AlreadyThere (collectContributions input) augment) := by
    decide +kernel
  obtain ⟨schema, hschema⟩ := Option.isSome_iff_exists.mp hsome
  refine ⟨input, hinput, schema, hschema, ?_⟩
  exact (augmentations_appear_iff (fun _ => by decide) htext hschema).mpr hcondition

/-- The owner ships no fragment, so there is no place for the field. -/
theorem augmentation_dropped : ∃ input ∈ (generatorInput (extendedApp none [js "b"])
    (fun _ _ => none) (js "1")).toOption, ∃ schema ∈ (compose compareUnits input).schema,
      PrismaText (collectContributions input) ∧
      ¬ ∀ c ∈ collectContributions input, ∀ augment ∈ c.augments, Appears schema augment := by
  decide +kernel

end Augmentations

end Appspine.Prisma
