import Appspine.PrismaComposer

/-!
# What injection does to a text

The lines of a text are taken as those that head a model, those that close a block, and the rest.
Injection puts plain lines into the first block of a model, so the blocks stay what they are and
the block of that model gains the lines.
-/
namespace Appspine.Prisma
open JsText BracedLines
open ConfigBoundary (isSpaceUnit isWordUnit)

section Lines

/-- The lines of a text. -/
def textLines (text : JsString) : List JsString := text.splitOn lineFeed

lemma textLines_ne_nil (text : JsString) : textLines text ≠ [] := List.splitOnP_ne_nil _ _

lemma textLines_of_notMem {text : JsString} (h : lineFeed ∉ text) : textLines text = [text] := by
  refine List.splitOnP_eq_singleton ?_
  intro u hu
  simpa using fun heq : u = lineFeed => h (heq ▸ hu)

lemma textLines_append_cons (s t : JsString) :
    textLines (s ++ lineFeed :: t) = textLines s ++ textLines t :=
  List.splitOnP_append_cons s t (by simp)

lemma textLines_join {lines : List JsString} (hne : lines ≠ [])
    (h : ∀ line ∈ lines, lineFeed ∉ line) : textLines (join [lineFeed] lines) = lines :=
  List.splitOn_intercalate lineFeed h hne

lemma join_textLines (text : JsString) : join [lineFeed] (textLines text) = text :=
  List.intercalate_splitOn lineFeed

/-- A line has no line feed in it. -/
lemma notMem_of_mem_textLines {text line : JsString} (h : line ∈ textLines text) :
    lineFeed ∉ line := by
  induction text generalizing line with
  | nil =>
    obtain rfl : line = [] := by simpa [textLines] using h
    exact List.not_mem_nil
  | cons u text ih =>
    rw [textLines, List.splitOn, List.splitOnP_cons_eq_if_modifyHead] at h
    obtain ⟨first, rest, hsplit⟩ := List.exists_cons_of_ne_nil (textLines_ne_nil text)
    have hlines : text.splitOnP (· == lineFeed) = first :: rest := hsplit
    rw [hlines] at h
    have hmem : ∀ l ∈ first :: rest, lineFeed ∉ l := fun l hl => ih (hsplit ▸ hl)
    split_ifs at h with hu
    · rcases List.mem_cons.mp h with rfl | h
      · exact List.not_mem_nil
      · exact hmem line h
    · rw [List.modifyHead_cons] at h
      rcases List.mem_cons.mp h with rfl | h
      · rw [List.mem_cons, not_or]
        exact ⟨fun heq => hu (by simp [heq]), hmem first (by simp)⟩
      · exact hmem line (by simp [h])

lemma notMem_hash {sha256Hex : JsString → JsString}
    (hhex : ∀ text, lineFeed ∉ sha256Hex text) (text : JsString) :
    lineFeed ∉ PluginManifest.hash sha256Hex text := by
  have hlabel : lineFeed ∉ js "sha256:" := by decide
  rw [PluginManifest.hash, List.mem_append, not_or]
  exact ⟨hlabel, hhex text⟩

end Lines

section Headers

/-- The name in `^\s*model\s+(\w+)\s*\{`. -/
def modelNameOf (line : JsString) : Option JsString :=
  (afterModelKeyword line).bind (fun text =>
    let name := text.takeWhile isWordUnit
    if name ≠ [] ∧ opensBrace (text.drop name.length) then some name else none)

def lineKind (line : JsString) : LineKind JsString :=
  if isClosing line then .closes
  else
    match modelNameOf line with
    | some name => .opens name
    | none => .plain

/-- A name as the manifest schema has it for models and fields. -/
def IsName (name : JsString) : Prop := name ≠ [] ∧ name.all isWordUnit = true

instance (name : JsString) : Decidable (IsName name) := inferInstanceAs (Decidable (_ ∧ _))

lemma not_word_of_space {u : CodeUnit} (h : isSpaceUnit u = true) : isWordUnit u = false := by
  by_contra hword
  simp only [isSpaceUnit, isWordUnit, ConfigBoundary.isLetterUnit, ConfigBoundary.isDigitUnit,
    decide_eq_true_eq, Bool.not_eq_false, Bool.or_eq_true, List.mem_cons, List.not_mem_nil,
    or_false] at h hword
  have hunderscore : (unit '_').val = 95 := rfl
  rcases hword with (hword | hword) | hword
  · omega
  · omega
  · rw [hword] at h
    omega

/-- A text that opens a brace does not go on with a word. -/
lemma takeWhile_of_opensBrace {text : JsString} (h : opensBrace text = true) :
    text.takeWhile isWordUnit = [] := by
  cases text with
  | nil => rfl
  | cons u us =>
    by_cases hspace : isSpaceUnit u = true
    · exact List.takeWhile_cons_of_neg (by simp [not_word_of_space hspace])
    · rw [opensBrace, List.dropWhile_cons_of_neg hspace, startsWith_iff] at h
      obtain ⟨rest, hrest⟩ := h
      obtain ⟨rfl, _⟩ := List.cons.inj hrest
      exact List.takeWhile_cons_of_neg (by decide)

lemma headsModel_iff {model line : JsString} (hmodel : IsName model) :
    headsModel model line = true ↔ modelNameOf line = some model := by
  rw [headsModel, modelNameOf]
  cases afterModelKeyword line with
  | none => simp
  | some text =>
    simp only [Option.any_some, Bool.and_eq_true, startsWith_iff, Option.bind_some]
    constructor
    · rintro ⟨⟨rest, rfl⟩, hbrace⟩
      rw [List.drop_left] at hbrace
      have hname : (model ++ rest).takeWhile isWordUnit = model := by
        rw [List.takeWhile_append_of_pos (List.all_eq_true.mp hmodel.2),
          takeWhile_of_opensBrace hbrace, List.append_nil]
      rw [hname, List.drop_left, if_pos ⟨hmodel.1, hbrace⟩]
    · intro h
      split_ifs at h with hcond
      obtain rfl := Option.some.inj h
      exact ⟨List.takeWhile_prefix _, hcond.2⟩

/-- A closing line heads nothing. -/
lemma modelNameOf_of_isClosing {line : JsString} (h : isClosing line = true) :
    modelNameOf line = none := by
  have hkeyword : afterModelKeyword line = none := by
    rw [afterModelKeyword, if_neg]
    rintro ⟨hmodel, _⟩
    rw [isClosing] at h
    split at h
    · rename_i u us hline
      rw [hline, startsWith_iff] at hmodel
      obtain ⟨rest, hrest⟩ := hmodel
      rw [Bool.and_eq_true, decide_eq_true_eq] at h
      rw [h.1] at hrest
      exact absurd (List.cons.inj hrest).1 (by decide)
    · cases h
  rw [modelNameOf, hkeyword]
  rfl

lemma lineKind_opens {line name : JsString} :
    lineKind line = .opens name ↔ modelNameOf line = some name := by
  rw [lineKind]
  split_ifs with hclosing
  · simp [modelNameOf_of_isClosing hclosing]
  · cases modelNameOf line <;> simp

lemma lineKind_closes {line : JsString} : lineKind line = .closes ↔ isClosing line = true := by
  rw [lineKind]
  split_ifs with hclosing
  · simp [hclosing]
  · cases modelNameOf line <;> simp [hclosing]

lemma lineKind_plain {line : JsString} :
    lineKind line = .plain ↔ isClosing line = false ∧ modelNameOf line = none := by
  rw [lineKind]
  split_ifs with hclosing
  · simp [hclosing]
  · cases modelNameOf line <;> simp [hclosing]

lemma mem_opened {lines : List JsString} {name : JsString} :
    name ∈ opened lineKind lines ↔ ∃ line ∈ lines, modelNameOf line = some name := by
  simp only [opened, List.mem_filterMap]
  refine exists_congr fun line => and_congr_right fun _ => ?_
  rw [← lineKind_opens, opening]
  cases lineKind line <;> simp

end Headers

section Inject

variable {lines : List JsString} {model : JsString} {fields : List InjectedField}

lemma findIdx_of_split {α : Type*} {p : α → Bool} {pre post : List α} {x : α}
    (hpre : ∀ y ∈ pre, p y = false) (hx : p x = true) :
    (pre ++ x :: post).findIdx? p = some pre.length := by
  induction pre with
  | nil => simp [List.findIdx?_cons, hx]
  | cons y pre ih =>
    have hy : p y = false := hpre y (by simp)
    rw [List.cons_append, List.findIdx?_cons, hy, ih (fun z hz => hpre z (by simp [hz]))]
    rfl

/-- The fields go into the first block of the model, wherever that stands. -/
lemma injectLines_some (hlines : Balanced lineKind none lines) (hmodel : IsName model)
    (hopened : model ∈ opened lineKind lines) :
    ∃ p q, lines = p ++ q ∧ openAfter lineKind none p = some model ∧
      injectLines lines model fields = some (p ++ injectedBlock fields ++ q) := by
  obtain ⟨line, hline, hname⟩ := mem_opened.mp hopened
  cases hfind : lines.find? (headsModel model) with
  | none =>
    exact absurd ((headsModel_iff hmodel).mpr hname) (List.find?_eq_none.mp hfind line hline)
  | some header =>
    obtain ⟨hheader, pre, rest, rfl, hpre⟩ := List.find?_eq_some_iff_append.mp hfind
    have hkind : lineKind header = .opens model :=
      lineKind_opens.mpr ((headsModel_iff hmodel).mp hheader)
    have hopen : openAfter lineKind none (pre ++ [header]) = some model := by
      rw [openAfter_append, openAfter, List.foldl_cons, List.foldl_nil, next, hkind]
    have hinside : Balanced lineKind (some model) rest := by
      rw [← hopen]
      exact balanced_drop (by simpa using hlines)
    obtain ⟨body, closing, after, rfl, hbody, hclosing⟩ := exists_close hinside
    have hstart : (pre ++ header :: (body ++ closing :: after)).findIdx? (headsModel model) =
        some pre.length := findIdx_of_split (by simpa using hpre) hheader
    have hlength : (body ++ closing :: after).findIdx? isClosing = some body.length :=
      findIdx_of_split (fun l hl => (lineKind_plain.mp (hbody l hl)).1) (lineKind_closes.mp hclosing)
    have htake : (pre ++ header :: (body ++ closing :: after)).take (pre.length + 1) =
        pre ++ [header] := by simp [List.take_append]
    have hdrop : (pre ++ header :: (body ++ closing :: after)).drop (pre.length + 1) =
        body ++ closing :: after := by simp [List.drop_append]
    refine ⟨pre ++ [header] ++ body.rdropWhile isTrailer,
      body.rtakeWhile isTrailer ++ closing :: after, ?_, ?_, ?_⟩
    · have hbody' : body.rdropWhile isTrailer ++ body.rtakeWhile isTrailer = body :=
        List.rdropWhile_append_rtakeWhile
      simp only [List.append_assoc, List.cons_append, List.nil_append]
      rw [← List.append_assoc (body.rdropWhile isTrailer), hbody']
    · rw [openAfter_append, hopen]
      exact openAfter_plain (fun l hl => hbody l ((List.rdropWhile_prefix _ _).subset hl))
    · simp only [injectLines, hstart, Option.bind_some, htake, hdrop, hlength, Option.map_some,
        List.take_left, List.drop_left]

lemma injectLines_none (hmodel : IsName model) (hopened : model ∉ opened lineKind lines) :
    injectLines lines model fields = none := by
  have hfind : lines.findIdx? (headsModel model) = none := by
    rw [List.findIdx?_eq_none_iff]
    intro line hline
    rw [Bool.eq_false_iff]
    intro hheads
    exact hopened (mem_opened.mpr ⟨line, hline, (headsModel_iff hmodel).mp hheads⟩)
  rw [injectLines, hfind, Option.bind_none]

/-- A field that is written as one line, and that as a line of a block. -/
structure Writable (entry : InjectedField) : Prop where
  field : IsName entry.field
  type : lineFeed ∉ entry.type
  plugin : lineFeed ∉ entry.plugin
  plain : modelNameOf (fieldLine entry) = none

lemma isClosing_of_word {line : JsString} {u : CodeUnit} {us : JsString}
    (h : line.dropWhile isSpaceUnit = u :: us) (hu : u ≠ unit '\x7d') : isClosing line = false := by
  rw [isClosing, h]
  simp [hu]

lemma indent_spaces : ∀ u ∈ js "  ", isSpaceUnit u = true := List.all_eq_true.mp (by decide)

lemma dropWhile_fieldLine {entry : InjectedField} (h : IsName entry.field) :
    (fieldLine entry).dropWhile isSpaceUnit = entry.field ++ js " " ++ entry.type := by
  obtain ⟨u, us, hfield⟩ := List.exists_cons_of_ne_nil h.1
  have hu : isWordUnit u = true := List.all_eq_true.mp h.2 u (by simp [hfield])
  have hspace : isSpaceUnit u = false := by
    by_contra hspace
    rw [Bool.not_eq_false] at hspace
    rw [not_word_of_space hspace] at hu
    cases hu
  rw [fieldLine, List.append_assoc, List.append_assoc, List.dropWhile_append_of_pos indent_spaces,
    hfield, List.cons_append, List.dropWhile_cons_of_neg (by simp [hspace])]
  simp

lemma plain_fieldLine {entry : InjectedField} (h : Writable entry) :
    lineKind (fieldLine entry) = .plain := by
  refine lineKind_plain.mpr ⟨?_, h.plain⟩
  obtain ⟨u, us, hfield⟩ := List.exists_cons_of_ne_nil h.field.1
  have hu : isWordUnit u = true := List.all_eq_true.mp h.field.2 u (by simp [hfield])
  have hline := dropWhile_fieldLine h.field
  rw [hfield, List.append_assoc, List.cons_append] at hline
  refine isClosing_of_word hline ?_
  rintro rfl
  exact absurd hu (by decide)

lemma dropWhile_contributedBy (entry : InjectedField) :
    (contributedBy entry).dropWhile isSpaceUnit =
      js "/// Contributed by @appspine/" ++ (entry.plugin ++ js " (PL2-06 augmentation).") := by
  have hspaces : js "  /// Contributed by @appspine/" =
      js "  " ++ js "/// Contributed by @appspine/" := by decide
  rw [contributedBy, hspaces, List.append_assoc, List.append_assoc,
    List.dropWhile_append_of_pos indent_spaces]
  exact List.dropWhile_cons_of_neg (by decide)

lemma plain_contributedBy (entry : InjectedField) : lineKind (contributedBy entry) = .plain := by
  have hline := dropWhile_contributedBy entry
  refine lineKind_plain.mpr ⟨isClosing_of_word hline (by decide), ?_⟩
  rw [modelNameOf, afterModelKeyword, if_neg]
  · rfl
  · rw [hline, startsWith_iff]
    rintro ⟨⟨rest, hrest⟩, _⟩
    exact absurd (List.cons.inj hrest).1 (by decide)

lemma plain_nil : lineKind [] = .plain := lineKind_plain.mpr ⟨by decide, by decide⟩

lemma mem_injectedBlock {line : JsString} : line ∈ injectedBlock fields ↔
    line = [] ∨ ∃ entry ∈ fields, line = contributedBy entry ∨ line = fieldLine entry := by
  simp [injectedBlock]

lemma plain_injectedBlock (h : ∀ entry ∈ fields, Writable entry) :
    AllPlain lineKind (injectedBlock fields) := by
  intro line hline
  rcases mem_injectedBlock.mp hline with rfl | ⟨entry, hentry, rfl | rfl⟩
  · exact plain_nil
  · exact plain_contributedBy entry
  · exact plain_fieldLine (h entry hentry)

lemma notMem_injectedBlock (h : ∀ entry ∈ fields, Writable entry) :
    ∀ line ∈ injectedBlock fields, lineFeed ∉ line := by
  intro line hline
  rcases mem_injectedBlock.mp hline with rfl | ⟨entry, hentry, rfl | rfl⟩
  · exact List.not_mem_nil
  · have hfixed : lineFeed ∉ js "  /// Contributed by @appspine/" ∧
        lineFeed ∉ js " (PL2-06 augmentation)." := by decide
    simp only [contributedBy, List.mem_append, not_or]
    exact ⟨⟨hfixed.1, (h entry hentry).plugin⟩, hfixed.2⟩
  · have hfixed : lineFeed ∉ js "  " ∧ lineFeed ∉ js " " := by decide
    have hfield : lineFeed ∉ entry.field := fun hmem =>
      absurd (List.all_eq_true.mp (h entry hentry).field.2 lineFeed hmem) (by decide)
    simp only [fieldLine, List.mem_append, not_or]
    exact ⟨⟨⟨hfixed.1, hfield⟩, hfixed.2⟩, (h entry hentry).type⟩

end Inject

section Written

/-- The lines that were written between those of a text, each with its block. -/
structure Injected (lines lines' : List JsString) (written : List (JsString × JsString)) : Prop where
  balanced : Balanced lineKind none lines'
  opened : opened lineKind lines' = opened lineKind lines
  contents : (contents lineKind none lines').Perm (written ++ contents lineKind none lines)
  others : ∀ g : JsString → Option JsString, (∀ e ∈ written, g e.2 = none) →
    lines'.filterMap g = lines.filterMap g

lemma Injected.refl {lines : List JsString} (h : Balanced lineKind none lines) :
    Injected lines lines [] := ⟨h, rfl, List.Perm.refl _, fun _ _ => rfl⟩

lemma Injected.trans {lines lines' lines'' : List JsString}
    {written written' : List (JsString × JsString)} (h : Injected lines lines' written)
    (h' : Injected lines' lines'' written') : Injected lines lines'' (written ++ written') where
  balanced := h'.balanced
  opened := h'.opened.trans h.opened
  contents := by
    refine h'.contents.trans ((h.contents.append_left written').trans ?_)
    rw [← List.append_assoc]
    exact List.perm_append_comm.append_right _
  others g hg := by
    rw [h'.others g (fun e he => hg e (by simp [he])), h.others g (fun e he => hg e (by simp [he]))]

/-- What injection writes into the block of a model. -/
def writtenLines (lines : List JsString) (model : JsString) (fields : List InjectedField) :
    List (JsString × JsString) :=
  if model ∈ opened lineKind lines ∧ fields ≠ [] then
    (injectedBlock fields).map (fun line => (model, line))
  else []

lemma injected_injectAugmentations {text model : JsString} {fields : List InjectedField}
    (hlines : Balanced lineKind none (textLines text)) (hmodel : IsName model)
    (hfields : ∀ entry ∈ fields, Writable entry) :
    Injected (textLines text) (textLines (injectAugmentations text model fields).1)
      (writtenLines (textLines text) model fields) := by
  by_cases hnil : fields = []
  · simp only [injectAugmentations, hnil, if_true, writtenLines, ne_eq, not_true_eq_false, and_false,
      if_false]
    exact .refl hlines
  · by_cases hopened : model ∈ opened lineKind (textLines text)
    · obtain ⟨p, q, hsplit, hopen, hinject⟩ :=
        @injectLines_some _ _ fields hlines hmodel hopened
      have hblock := plain_injectedBlock hfields
      have hlines' : textLines (injectAugmentations text model fields).1 =
          p ++ injectedBlock fields ++ q := by
        have hinject' : injectLines (text.splitOn lineFeed) model fields =
            some (p ++ injectedBlock fields ++ q) := hinject
        rw [injectAugmentations, if_neg hnil, hinject']
        refine textLines_join (by simp [injectedBlock]) ?_
        intro line hline
        rw [List.mem_append, List.mem_append] at hline
        rcases hline with (hline | hline) | hline
        · exact notMem_of_mem_textLines (hsplit ▸ List.mem_append_left q hline)
        · exact notMem_injectedBlock hfields line hline
        · exact notMem_of_mem_textLines (hsplit ▸ List.mem_append_right p hline)
      rw [writtenLines, if_pos ⟨hopened, hnil⟩, hlines', hsplit]
      rw [hsplit] at hlines
      refine ⟨balanced_insert hblock hlines, opened_insert hblock, contents_insert hblock hopen, ?_⟩
      intro g hg
      have hnone : (injectedBlock fields).filterMap g = [] := by
        rw [List.filterMap_eq_nil_iff]
        exact fun line hline => hg (model, line) (List.mem_map.mpr ⟨line, hline, rfl⟩)
      simp [List.filterMap_append, hnone]
    · have hinject : injectLines (text.splitOn lineFeed) model fields = none :=
        injectLines_none hmodel hopened
      rw [injectAugmentations, if_neg hnil, hinject, writtenLines, if_neg (fun h => hopened h.1)]
      exact .refl hlines

/-- All the models of a package, one after the other. -/
lemma injected_foldl {models : List JsString} {fieldsOf : JsString → List InjectedField}
    {text : JsString} (hlines : Balanced lineKind none (textLines text))
    (hmodels : ∀ model ∈ models, IsName model)
    (hfields : ∀ model ∈ models, ∀ entry ∈ fieldsOf model, Writable entry) :
    Injected (textLines text)
      (textLines (models.foldl (fun text model =>
        (injectAugmentations text model (fieldsOf model)).1) text))
      (models.flatMap (fun model => writtenLines (textLines text) model (fieldsOf model))) := by
  induction models generalizing text with
  | nil => exact .refl hlines
  | cons model models ih =>
    have hfirst := injected_injectAugmentations hlines (hmodels model (by simp))
      (hfields model (by simp))
    have hrest := ih hfirst.balanced (fun m hm => hmodels m (by simp [hm]))
      (fun m hm => hfields m (by simp [hm]))
    have hsame : ∀ m, writtenLines (textLines (injectAugmentations text model (fieldsOf model)).1) m
        (fieldsOf m) = writtenLines (textLines text) m (fieldsOf m) := by
      intro m
      rw [writtenLines, writtenLines, hfirst.opened]
    simp only [hsame] at hrest
    exact hfirst.trans hrest

end Written

end Appspine.Prisma
