import Appspine.PrismaComposer

/-!
# Reports in any order

Who owns a model is settled by the order of the contributions, and what an owner lists is read from
the first contribution of its plugin. The report is one for every order exactly when neither
matters: every name has one claimant, and contributions of one plugin leave the same additions out.
-/
namespace Appspine.Prisma
open JsText StableSort InsertionMap JsonText PluginManifest Resolver Commands Generate

variable {contributions contributions' : List PrismaContribution}

section Claims

variable {collision : JsString → JsString → JsString → PluginDiagnostic}
  {made : List (JsString × JsString)}

/-- The plugin whose claim on a name comes first. -/
def firstClaimer (made : List (JsString × JsString)) (name : JsString) : Option JsString :=
  (made.find? (fun claim => claim.2 = name)).map Prod.fst

lemma firstClaimer_append (made made' : List (JsString × JsString)) (name : JsString) :
    firstClaimer (made ++ made') name = (firstClaimer made name).or (firstClaimer made' name) := by
  rw [firstClaimer, List.find?_append, Option.map_or]
  rfl

lemma firstClaimer_singleton (claim : JsString × JsString) (name : JsString) :
    firstClaimer [claim] name = if claim.2 = name then some claim.1 else none := by
  by_cases h : claim.2 = name <;> simp [firstClaimer, h]

lemma mem_of_firstClaimer {name plugin : JsString} (h : firstClaimer made name = some plugin) :
    (plugin, name) ∈ made := by
  obtain ⟨claim, hfound, rfl⟩ := Option.map_eq_some_iff.mp h
  have hname : claim.2 = name := of_decide_eq_true (List.find?_some hfound :)
  exact hname ▸ List.mem_of_find?_eq_some hfound

lemma firstClaimer_isSome {name : JsString} (h : name ∈ made.map Prod.snd) :
    ∃ plugin, firstClaimer made name = some plugin := by
  obtain ⟨claim, hclaim, rfl⟩ := List.mem_map.mp h
  cases hfound : made.find? (fun c => c.2 = claim.2) with
  | none => exact absurd (List.find?_eq_none.mp hfound claim hclaim) (by simp)
  | some first => exact ⟨first.1, by rw [firstClaimer, hfound, Option.map_some]⟩

/-- Names go to whom claims them first, and every claim of another plugin is reported. -/
structure FirstWins (collision : JsString → JsString → JsString → PluginDiagnostic)
    (made : List (JsString × JsString))
    (state : Entries JsString JsString × List PluginDiagnostic) : Prop where
  owner : ∀ name, InsertionMap.get state.1 name = firstClaimer made name
  reported : ∀ d, d ∈ state.2 ↔ ∃ claim ∈ made, ∃ first, firstClaimer made claim.2 = some first ∧
    first ≠ claim.1 ∧ d = collision claim.2 first claim.1

/-- One more claim leaves the first claimers of the names claimed so far. -/
lemma reported_append {claim : JsString × JsString} {d : PluginDiagnostic} :
    (∃ c ∈ made ++ [claim], ∃ first, firstClaimer (made ++ [claim]) c.2 = some first ∧
      first ≠ c.1 ∧ d = collision c.2 first c.1) ↔
    (∃ c ∈ made, ∃ first, firstClaimer made c.2 = some first ∧ first ≠ c.1 ∧
      d = collision c.2 first c.1) ∨
    ∃ first, firstClaimer made claim.2 = some first ∧ first ≠ claim.1 ∧
      d = collision claim.2 first claim.1 := by
  have hkept : ∀ c ∈ made, firstClaimer (made ++ [claim]) c.2 = firstClaimer made c.2 := by
    intro c hc
    obtain ⟨first, hfirst⟩ := firstClaimer_isSome (List.mem_map_of_mem hc)
    rw [firstClaimer_append, hfirst]
    rfl
  constructor
  · rintro ⟨c, hc, first, hfirst, hne, rfl⟩
    rcases List.mem_append.mp hc with hc | hc
    · exact Or.inl ⟨c, hc, first, hkept c hc ▸ hfirst, hne, rfl⟩
    · obtain rfl := List.mem_singleton.mp hc
      right
      rw [firstClaimer_append, firstClaimer_singleton, if_pos rfl] at hfirst
      cases hold : firstClaimer made c.2 with
      | none =>
        rw [hold] at hfirst
        exact absurd (Option.some.inj hfirst).symm hne
      | some owner =>
        rw [hold] at hfirst
        obtain rfl := Option.some.inj hfirst
        exact ⟨_, rfl, hne, rfl⟩
  · rintro (⟨c, hc, first, hfirst, hne, rfl⟩ | ⟨first, hfirst, hne, rfl⟩)
    · exact ⟨c, List.mem_append_left _ hc, first, hkept c hc ▸ hfirst, hne, rfl⟩
    · refine ⟨claim, by simp, first, ?_, hne, rfl⟩
      rw [firstClaimer_append, hfirst]
      rfl

/-- A loop over claims, none of them by the empty plugin id. -/
lemma firstWins_foldl (h : ∀ claim ∈ made, claim.1 ≠ []) :
    FirstWins collision made (made.foldl (claimName collision) ([], [])) := by
  induction made using List.reverseRecOn with
  | nil => exact ⟨fun _ => rfl, by simp⟩
  | append_singleton made claim ih =>
    obtain ⟨howner, hreported⟩ := ih fun c hc => h c (List.mem_append_left _ hc)
    rw [List.foldl_append, List.foldl_cons, List.foldl_nil]
    generalize made.foldl (claimName collision) ([], []) = state at howner hreported ⊢
    have hget := howner claim.2
    cases hfirst : firstClaimer made claim.2 with
    | none =>
      have hstep : claimName collision state claim =
          (InsertionMap.set state.1 claim.2 claim.1, state.2) := by
        rw [claimName, hget, hfirst]
        rfl
      rw [hstep]
      refine ⟨fun name => ?_, fun d => ?_⟩
      · rw [get_set, howner, firstClaimer_append, firstClaimer_singleton]
        by_cases hname : claim.2 = name
        · rw [if_pos hname.symm, if_pos hname, ← hname, hfirst, Option.none_or]
        · rw [if_neg (Ne.symm hname), if_neg hname, Option.or_none]
      · rw [reported_append, hreported]
        simp [hfirst]
    | some first =>
      have hne : first ≠ [] := h _ (List.mem_append_left _ (mem_of_firstClaimer hfirst))
      have hkept : ∀ name, firstClaimer (made ++ [claim]) name = firstClaimer made name := by
        intro name
        rw [firstClaimer_append, firstClaimer_singleton]
        by_cases hname : claim.2 = name
        · rw [← hname, hfirst]
          rfl
        · rw [if_neg hname, Option.or_none]
      by_cases hsame : first = claim.1
      · have hstep : claimName collision state claim =
            (InsertionMap.set state.1 claim.2 claim.1, state.2) := by
          rw [claimName, hget, hfirst]
          simp [Option.filter_some, hsame]
        rw [hstep]
        refine ⟨fun name => ?_, fun d => ?_⟩
        · rw [get_set, howner, hkept]
          by_cases hname : name = claim.2
          · rw [if_pos hname, hname, hfirst, hsame]
          · rw [if_neg hname]
        · rw [reported_append, hreported]
          simp [hfirst, hsame]
      · have hstep : claimName collision state claim =
            (state.1, state.2 ++ [collision claim.2 first claim.1]) := by
          rw [claimName, hget, hfirst]
          simp [Option.filter_some, hsame, hne]
        rw [hstep]
        refine ⟨fun name => by rw [howner, hkept], fun d => ?_⟩
        rw [reported_append, List.mem_append, hreported, List.mem_singleton]
        simp [hfirst, hsame]

/-- No name is claimed by two plugins. -/
def OneClaimer (made : List (JsString × JsString)) : Prop :=
  ∀ a ∈ made, ∀ b ∈ made, a.2 = b.2 → a.1 = b.1

lemma FirstWins.nothing {state : Entries JsString JsString × List PluginDiagnostic}
    (h : FirstWins collision made state) (hone : OneClaimer made) : state.2 = [] := by
  rw [List.eq_nil_iff_forall_not_mem]
  intro d hd
  obtain ⟨claim, hclaim, first, hfirst, hne, -⟩ := (h.reported d).mp hd
  exact hne (hone _ (mem_of_firstClaimer hfirst) claim hclaim rfl)

lemma firstClaimer_eq_some (hone : OneClaimer made) {name plugin : JsString} :
    firstClaimer made name = some plugin ↔ (plugin, name) ∈ made := by
  refine ⟨mem_of_firstClaimer, fun hmem => ?_⟩
  obtain ⟨first, hfirst⟩ := firstClaimer_isSome (List.mem_map_of_mem (f := Prod.snd) hmem)
  have hsame : first = plugin := hone _ (mem_of_firstClaimer hfirst) _ hmem rfl
  exact hsame ▸ hfirst

lemma OneClaimer.perm {made' : List (JsString × JsString)} (h : OneClaimer made)
    (hperm : made'.Perm made) : OneClaimer made' :=
  fun a ha b hb => h a (hperm.mem_iff.mp ha) b (hperm.mem_iff.mp hb)

lemma firstClaimer_perm {made' : List (JsString × JsString)} (h : OneClaimer made)
    (hperm : made'.Perm made) (name : JsString) : firstClaimer made' name = firstClaimer made name := by
  ext plugin
  rw [firstClaimer_eq_some h, firstClaimer_eq_some (h.perm hperm), hperm.mem_iff]

variable {names : PrismaContribution → List JsString}

lemma mem_claims {claim : JsString × JsString} :
    claim ∈ claims names contributions ↔
      ∃ c ∈ contributions, c.plugin = claim.1 ∧ claim.2 ∈ names c := by
  simp only [claims, List.mem_flatMap, List.mem_map]
  constructor
  · rintro ⟨c, hc, name, hname, rfl⟩
    exact ⟨c, hc, rfl, hname⟩
  · rintro ⟨c, hc, hplugin, hname⟩
    exact ⟨c, hc, claim.2, hname, by rw [hplugin]⟩

lemma claims_perm (h : contributions'.Perm contributions) :
    (claims names contributions').Perm (claims names contributions) := h.flatMap_right _

lemma claims_append (left right : List PrismaContribution) :
    claims names (left ++ right) = claims names left ++ claims names right := List.flatMap_append

end Claims

section Unlisted

/-- Every augmentation with the contribution that makes it. -/
def additions (contributions : List PrismaContribution) :
    List (PrismaContribution × PrismaAugmentation) :=
  contributions.flatMap fun c => c.augments.map fun augment => (c, augment)

lemma additions_perm (h : contributions'.Perm contributions) :
    (additions contributions').Perm (additions contributions) := h.flatMap_right _

lemma mem_additions {c : PrismaContribution} {augment : PrismaAugmentation} :
    (c, augment) ∈ additions contributions ↔ c ∈ contributions ∧ augment ∈ c.augments := by
  simp only [additions, List.mem_flatMap, List.mem_map, Prod.mk.injEq]
  constructor
  · rintro ⟨c', hc, augment', haugment, rfl, rfl⟩
    exact ⟨hc, haugment⟩
  · rintro ⟨hc, haugment⟩
    exact ⟨c, hc, augment, haugment, rfl, rfl⟩

/-- The owner expects the addition. -/
def lists (candidate c : PrismaContribution) (augment : PrismaAugmentation) : Bool :=
  candidate.augmentedBy.any (fun entry => entry.field = augment.field ∧
    (entry.plugin = c.plugin ∨ entry.plugin = c.packageName))

/-- The additions to models of the candidate's plugin that the candidate does not list: the field
and who adds it. -/
def unlisted (contributions : List PrismaContribution) (candidate : PrismaContribution) :
    List (JsString × JsString) :=
  ((additions contributions).filter (fun a =>
    (candidate.plugin, a.2.targetModel) ∈ claims (·.owns) contributions ∧
      lists candidate a.1 a.2 = false)).map (fun a => (a.2.field, a.1.plugin))

/-- Contributions of one plugin leave the same additions unlisted. -/
def ListedAlike (contributions : List PrismaContribution) : Prop :=
  ∀ c ∈ contributions, ∀ c' ∈ contributions, c.plugin = c'.plugin →
    (unlisted contributions c).Perm (unlisted contributions c')

instance (contributions : List PrismaContribution) : Decidable (ListedAlike contributions) :=
  inferInstanceAs (Decidable (∀ c ∈ contributions, ∀ c' ∈ contributions, _ → _))

lemma unlisted_perm (h : contributions'.Perm contributions) (candidate : PrismaContribution) :
    (unlisted contributions' candidate).Perm (unlisted contributions candidate) := by
  unfold unlisted
  simp only [(claims_perm h).mem_iff]
  exact ((additions_perm h).filter _).map _

/-- The warning for an addition that an owner does not list. -/
def unlistedWarning (owner : JsString) (addition : JsString × JsString) : PluginDiagnostic :=
  { diagnostic (js "undeclared-augmentation")
      (quoted owner ++ js " does not list " ++ addition.1 ++
        js " in facets.prisma.augmentedBy, but " ++ quoted addition.2 ++ js " adds it")
      (some owner) none (some (js "facets.prisma.augmentedBy." ++ addition.1)) with
    severity := .warning }

lemma undeclaredAugmentation_eq (c : PrismaContribution) (augment : PrismaAugmentation)
    (owner : JsString) :
    undeclaredAugmentation contributions c augment owner =
      match contributions.find? (fun candidate => candidate.plugin = owner) with
      | none => []
      | some candidate =>
        if lists candidate c augment then []
        else [unlistedWarning owner (augment.field, c.plugin)] := rfl

lemma unlistedWarning_injective (owner : JsString) : Function.Injective (unlistedWarning owner) := by
  rintro ⟨field, plugin⟩ ⟨field', plugin'⟩ h
  have hpath : js "facets.prisma.augmentedBy." ++ field = js "facets.prisma.augmentedBy." ++ field' :=
    Option.some.inj (congrArg PluginDiagnostic.path h)
  obtain rfl := List.append_cancel_left hpath
  have hmessage := congrArg PluginDiagnostic.message h
  simp only [unlistedWarning, diagnostic] at hmessage
  have hquoted := List.append_cancel_left (List.append_cancel_right hmessage)
  obtain rfl : plugin = plugin' := List.append_cancel_right (List.cons.inj hquoted).2
  rfl

end Unlisted

section Augments

/-- The owner that an augmented model is found to have. -/
def ownerOf (contributions : List PrismaContribution) (model : JsString) : Option JsString :=
  (InsertionMap.get (ownerByModel contributions).1 model).filter (· ≠ [])

/-- What is said of an augmentation, but for the warning. -/
def augmentErrors (contributions : List PrismaContribution) (c : PrismaContribution)
    (augment : PrismaAugmentation) : List PluginDiagnostic :=
  match ownerOf contributions augment.targetModel with
  | none => [missingAugmentationTarget c augment]
  | some owner => augmentationOwnerMismatch c augment owner ++ augmentationWithoutType c augment

def augmentWarnings (contributions : List PrismaContribution) (c : PrismaContribution)
    (augment : PrismaAugmentation) : List PluginDiagnostic :=
  match ownerOf contributions augment.targetModel with
  | none => []
  | some owner => undeclaredAugmentation contributions c augment owner

lemma augmentDiagnostics_eq (c : PrismaContribution) (augment : PrismaAugmentation) :
    augmentDiagnostics contributions c augment =
      augmentErrors contributions c augment ++ augmentWarnings contributions c augment := by
  unfold augmentDiagnostics augmentErrors augmentWarnings ownerOf
  cases (InsertionMap.get (ownerByModel contributions).1 augment.targetModel).filter (· ≠ []) with
  | none => rfl
  | some owner => rfl

/-- The errors of all augmentations, and the warnings. -/
def allErrors (contributions : List PrismaContribution) : List PluginDiagnostic :=
  (additions contributions).flatMap fun a => augmentErrors contributions a.1 a.2

def allWarnings (contributions : List PrismaContribution) : List PluginDiagnostic :=
  (additions contributions).flatMap fun a => augmentWarnings contributions a.1 a.2

lemma augmentDiagnostics_perm (contributions : List PrismaContribution) :
    (contributions.flatMap fun c => c.augments.flatMap (augmentDiagnostics contributions c)).Perm
      (allErrors contributions ++ allWarnings contributions) := by
  have hflat : (contributions.flatMap fun c => c.augments.flatMap (augmentDiagnostics contributions c)) =
      (additions contributions).flatMap fun a => augmentErrors contributions a.1 a.2 ++
        augmentWarnings contributions a.1 a.2 := by
    simp only [additions, List.flatMap_assoc, List.flatMap_map, ← augmentDiagnostics_eq]
  rw [hflat]
  exact (List.flatMap_append_perm _ _ _).symm

def AUGMENT_CODES : List JsString :=
  [js "missing-augmentation-target", js "augmentation-owner-mismatch",
    js "augmentation-without-type"]

lemma quoted_append (s t : JsString) : quoted s ++ t = unit '"' :: (s ++ unit '"' :: t) := by
  simp [quoted]

lemma mem_augmentationOwnerMismatch {c : PrismaContribution} {augment : PrismaAugmentation}
    {owner : JsString} {d : PluginDiagnostic} (h : d ∈ augmentationOwnerMismatch c augment owner) :
    d.code = js "augmentation-owner-mismatch" ∧ d.severity = .error ∧ d.pluginId = some c.plugin ∧
      d.instanceId = none ∧ d.path = some (js "facets.prisma.augments." ++ augment.targetModel) ∧
      ∃ rest, d.message = unit '"' :: (c.plugin ++ unit '"' :: rest) := by
  unfold augmentationOwnerMismatch at h
  split_ifs at h
  · rw [List.mem_singleton.mp h]
    refine ⟨rfl, rfl, rfl, rfl, rfl, ?_⟩
    simp only [diagnostic, List.append_assoc]
    exact ⟨_, quoted_append _ _⟩
  · exact absurd h List.not_mem_nil

lemma mem_augmentationWithoutType {c : PrismaContribution} {augment : PrismaAugmentation}
    {d : PluginDiagnostic} (h : d ∈ augmentationWithoutType c augment) :
    d.code = js "augmentation-without-type" ∧ d.severity = .error ∧ d.pluginId = some c.plugin ∧
      d.instanceId = none ∧ d.path = some (augmentsPath augment) ∧
      ∃ rest, d.message = unit '"' :: (c.plugin ++ unit '"' :: rest) := by
  unfold augmentationWithoutType at h
  split_ifs at h
  · rw [List.mem_singleton.mp h]
    refine ⟨rfl, rfl, rfl, rfl, rfl, ?_⟩
    simp only [diagnostic, List.append_assoc]
    exact ⟨_, quoted_append _ _⟩
  · exact absurd h List.not_mem_nil

lemma code_augmentErrors {c : PrismaContribution} {augment : PrismaAugmentation}
    {d : PluginDiagnostic} (h : d ∈ augmentErrors contributions c augment) :
    d.code ∈ AUGMENT_CODES := by
  unfold augmentErrors at h
  split at h
  · rw [List.mem_singleton.mp h]
    exact show js "missing-augmentation-target" ∈ AUGMENT_CODES by decide
  · rcases List.mem_append.mp h with h | h
    · rw [(mem_augmentationOwnerMismatch h).1]
      decide
    · rw [(mem_augmentationWithoutType h).1]
      decide

lemma mem_augmentWarnings {c : PrismaContribution} {augment : PrismaAugmentation}
    {d : PluginDiagnostic} (h : d ∈ augmentWarnings contributions c augment) :
    ∃ owner, ownerOf contributions augment.targetModel = some owner ∧
      d = unlistedWarning owner (augment.field, c.plugin) := by
  unfold augmentWarnings at h
  split at h
  · exact absurd h List.not_mem_nil
  · next owner howner =>
    refine ⟨owner, howner, ?_⟩
    rw [undeclaredAugmentation_eq] at h
    split at h
    · exact absurd h List.not_mem_nil
    · split_ifs at h
      · exact absurd h List.not_mem_nil
      · exact List.mem_singleton.mp h

end Augments

section Report

/-- What the manifest schema asks of the names: no plugin id is empty or holds a quote, and no model
or field holds a blank. -/
structure SchemaNames (contributions : List PrismaContribution) : Prop where
  plugins : ∀ c ∈ contributions, c.plugin ≠ [] ∧ unit '"' ∉ c.plugin
  augments : ∀ c ∈ contributions, ∀ augment ∈ c.augments,
    unit ' ' ∉ augment.targetModel ∧ unit ' ' ∉ augment.field

/-- Every model and every enum is claimed by one plugin. -/
structure OneOwner (contributions : List PrismaContribution) : Prop where
  models : OneClaimer (claims (·.owns) contributions)
  enums : OneClaimer (claims (·.ownsEnums) contributions)

variable (hnames : SchemaNames contributions)
include hnames

lemma SchemaNames.perm (h : contributions'.Perm contributions) : SchemaNames contributions' :=
  ⟨fun c hc => hnames.plugins c (h.mem_iff.mp hc),
    fun c hc => hnames.augments c (h.mem_iff.mp hc)⟩

lemma claimed_not_empty (names : PrismaContribution → List JsString) :
    ∀ claim ∈ claims names contributions, claim.1 ≠ [] := by
  intro claim hclaim
  obtain ⟨c, hc, hplugin, -⟩ := mem_claims.mp hclaim
  exact hplugin ▸ (hnames.plugins c hc).1

lemma firstWins_models : FirstWins ownerCollision (claims (·.owns) contributions)
    (ownerByModel contributions) := firstWins_foldl (claimed_not_empty hnames _)

lemma firstWins_enums : FirstWins enumOwnerCollision (claims (·.ownsEnums) contributions)
    (ownerByEnum contributions) := firstWins_foldl (claimed_not_empty hnames _)

lemma ownerOf_eq (model : JsString) :
    ownerOf contributions model = firstClaimer (claims (·.owns) contributions) model := by
  rw [ownerOf, (firstWins_models hnames).owner]
  cases hfirst : firstClaimer (claims (·.owns) contributions) model with
  | none => rfl
  | some plugin =>
    have hne := claimed_not_empty hnames _ _ (mem_of_firstClaimer hfirst)
    simp [Option.filter_some, hne]

/-- With one owner each, what is reported is about augmentations alone. -/
lemma validateContributions_perm (hone : OneOwner contributions) :
    (validateContributions contributions).Perm
      (allErrors contributions ++ allWarnings contributions) := by
  refine (sortBy_perm _ _).trans ?_
  rw [(firstWins_models hnames).nothing hone.models, (firstWins_enums hnames).nothing hone.enums]
  exact augmentDiagnostics_perm contributions

omit hnames in
lemma OneOwner.perm (hone : OneOwner contributions) (h : contributions'.Perm contributions) :
    OneOwner contributions' :=
  ⟨hone.models.perm (claims_perm h), hone.enums.perm (claims_perm h)⟩

lemma ownerOf_perm (hone : OneOwner contributions) (h : contributions'.Perm contributions)
    (model : JsString) : ownerOf contributions' model = ownerOf contributions model := by
  rw [ownerOf_eq hnames, ownerOf_eq (hnames.perm h), firstClaimer_perm hone.models (claims_perm h)]

lemma allErrors_perm (hone : OneOwner contributions) (h : contributions'.Perm contributions) :
    (allErrors contributions').Perm (allErrors contributions) := by
  have hsame : ∀ a : PrismaContribution × PrismaAugmentation,
      augmentErrors contributions' a.1 a.2 = augmentErrors contributions a.1 a.2 := by
    intro a
    rw [augmentErrors, augmentErrors, ownerOf_perm hnames hone h]
  unfold allErrors
  simp only [hsame]
  exact (additions_perm h).flatMap_right _

omit hnames in
lemma flatMap_ite {α β : Type} (p : α → Bool) (f : α → β) (xs : List α) :
    (xs.flatMap fun x => if p x then [f x] else []) = (xs.filter p).map f := by
  induction xs with
  | nil => rfl
  | cons x xs ih =>
    rw [List.flatMap_cons, ih]
    by_cases h : p x
    · rw [if_pos h, List.filter_cons_of_pos h]
      rfl
    · rw [if_neg h, List.filter_cons_of_neg h]
      rfl

/-- The warnings of one owner are what its first contribution leaves unlisted. -/
lemma allWarnings_owner (hone : OneOwner contributions) {candidate : PrismaContribution}
    {owner : JsString} (hfirst : contributions.find? (fun c => c.plugin = owner) = some candidate) :
    (allWarnings contributions).filter (·.pluginId = some owner) =
      (unlisted contributions candidate).map (unlistedWarning owner) := by
  obtain rfl : candidate.plugin = owner := of_decide_eq_true (List.find?_some hfirst :)
  rw [allWarnings, List.filter_flatMap, unlisted, List.map_map, ← flatMap_ite]
  refine congrArg (fun f => (additions contributions).flatMap f) (funext fun a => ?_)
  rw [augmentWarnings]
  cases howner : ownerOf contributions a.2.targetModel with
  | none =>
    have hnot : (candidate.plugin, a.2.targetModel) ∉ claims (·.owns) contributions := by
      rw [← firstClaimer_eq_some hone.models, ← ownerOf_eq hnames, howner]
      exact nofun
    simp [hnot]
  | some owner =>
    dsimp only
    rw [undeclaredAugmentation_eq]
    have hclaim : (owner, a.2.targetModel) ∈ claims (·.owns) contributions := by
      rw [← firstClaimer_eq_some hone.models, ← ownerOf_eq hnames, howner]
    by_cases hsame : owner = candidate.plugin
    · subst hsame
      rw [hfirst]
      cases hlists : lists candidate a.1 a.2 <;> simp [hlists, hclaim, unlistedWarning, diagnostic]
    · have hnot : (candidate.plugin, a.2.targetModel) ∉ claims (·.owns) contributions :=
        fun hmem => hsame (hone.models _ hclaim _ hmem rfl)
      have hother : ∀ d ∈ (match contributions.find? (fun c => c.plugin = owner) with
          | none => []
          | some c => if lists c a.1 a.2 then [] else [unlistedWarning owner (a.2.field, a.1.plugin)]),
          ¬ (decide (d.pluginId = some candidate.plugin)) = true := by
        intro d hd
        split at hd
        · exact absurd hd List.not_mem_nil
        · split_ifs at hd
          · exact absurd hd List.not_mem_nil
          · rw [List.mem_singleton.mp hd]
            simp [unlistedWarning, diagnostic, hsame]
      rw [List.filter_eq_nil_iff.mpr hother]
      simp [hnot]

omit hnames in
/-- A separator that neither head holds ends both heads. -/
lemma split_eq {sep : CodeUnit} {head head' tail tail' : JsString} (h : sep ∉ head) (h' : sep ∉ head')
    (heq : head ++ sep :: tail = head' ++ sep :: tail') : head = head' ∧ tail = tail' := by
  have hend : ∀ {s t : JsString}, sep ∉ s → (s ++ sep :: t).takeWhile (· ≠ sep) = s := by
    intro s t hs
    rw [List.takeWhile_append_of_pos fun u hu => decide_eq_true (ne_of_mem_of_not_mem hu hs)]
    simp
  have hhead : head = head' := by rw [← hend (t := tail) h, ← hend (t := tail') h', heq]
  subst hhead
  exact ⟨rfl, (List.cons.inj (List.append_cancel_left heq)).2⟩

/-- A diagnostic whose sort key gives its parts back. -/
structure Legible (d : PluginDiagnostic) : Prop where
  code : unit ' ' ∉ d.code
  path : ∃ path, d.path = some path ∧ unit ' ' ∉ path
  plugin : ∃ plugin rest, unit '"' ∉ plugin ∧ d.pluginId = some plugin ∧
    d.message = unit '"' :: (plugin ++ unit '"' :: rest)
  instanceId : d.instanceId = none
  severity : d.severity =
    if d.code = js "undeclared-augmentation" then .warning else .error

omit hnames in
lemma Legible.eq_of_key {d d' : PluginDiagnostic} (h : Legible d) (h' : Legible d')
    (hkey : prismaDiagnosticKey d = prismaDiagnosticKey d') : d = d' := by
  obtain ⟨hcode, ⟨path, hpath, hblank⟩, ⟨plugin, rest, hquote, hplugin, hmessage⟩, hinstance,
    hseverity⟩ := h
  obtain ⟨hcode', ⟨path', hpath', hblank'⟩, ⟨plugin', rest', hquote', hplugin', hmessage'⟩,
    hinstance', hseverity'⟩ := h'
  have hspace : js " " = [unit ' '] := by decide
  simp only [prismaDiagnosticKey, hpath, hpath', Option.getD_some, join_cons_cons, join_singleton,
    hspace, List.append_assoc, List.singleton_append] at hkey
  obtain ⟨hcodes, hrest⟩ := split_eq hcode hcode' hkey
  obtain ⟨hpaths, hmessages⟩ := split_eq hblank hblank' hrest
  have hstarts := hmessages
  rw [hmessage, hmessage'] at hstarts
  obtain ⟨hplugins, -⟩ := split_eq hquote hquote' (List.cons.inj hstarts).2
  obtain ⟨code, severity, message, pluginId, instanceId, path₀⟩ := d
  obtain ⟨code', severity', message', pluginId', instanceId', path₀'⟩ := d'
  obtain rfl : code = code' := hcodes
  obtain rfl : message = message' := hmessages
  obtain rfl : severity = severity' := hseverity.trans hseverity'.symm
  obtain rfl : pluginId = pluginId' := hplugin.trans (hplugins ▸ hplugin'.symm)
  obtain rfl : instanceId = instanceId' := hinstance.trans hinstance'.symm
  obtain rfl : path₀ = path₀' := hpath.trans (hpaths ▸ hpath'.symm)
  rfl

lemma augmentsPath_legible {c : PrismaContribution} {augment : PrismaAugmentation}
    (hc : c ∈ contributions) (haugment : augment ∈ c.augments) : unit ' ' ∉ augmentsPath augment := by
  obtain ⟨htarget, hfield⟩ := hnames.augments c hc augment haugment
  have hlead : unit ' ' ∉ js "facets.prisma.augments." := by decide
  have hdot : unit ' ' ∉ js "." := by decide
  simp [augmentsPath, htarget, hfield, hlead, hdot]

lemma legible_augmentErrors {c : PrismaContribution} {augment : PrismaAugmentation}
    {d : PluginDiagnostic} (hc : c ∈ contributions) (haugment : augment ∈ c.augments)
    (h : d ∈ augmentErrors contributions c augment) : Legible d := by
  have hplugin := (hnames.plugins c hc).2
  have hpath := augmentsPath_legible hnames hc haugment
  unfold augmentErrors at h
  split at h
  · rw [List.mem_singleton.mp h]
    refine ⟨show unit ' ' ∉ js "missing-augmentation-target" by decide, ⟨_, rfl, hpath⟩,
      ⟨c.plugin, ?_⟩, rfl, rfl⟩
    simp only [missingAugmentationTarget, diagnostic, List.append_assoc]
    exact ⟨_, hplugin, trivial, quoted_append _ _⟩
  · rcases List.mem_append.mp h with h | h
    · obtain ⟨hcode, hseverity, hpluginId, hinstance, hat, rest, hmessage⟩ :=
        mem_augmentationOwnerMismatch h
      have htarget : unit ' ' ∉ js "facets.prisma.augments." ++ augment.targetModel := by
        have hlead : unit ' ' ∉ js "facets.prisma.augments." := by decide
        simp [hlead, (hnames.augments c hc augment haugment).1]
      refine ⟨by rw [hcode]; decide, ⟨_, hat, htarget⟩, ⟨c.plugin, rest, hplugin, hpluginId, hmessage⟩,
        hinstance, ?_⟩
      rw [hseverity, hcode]
      rfl
    · obtain ⟨hcode, hseverity, hpluginId, hinstance, hat, rest, hmessage⟩ :=
        mem_augmentationWithoutType h
      refine ⟨by rw [hcode]; decide, ⟨_, hat, hpath⟩, ⟨c.plugin, rest, hplugin, hpluginId, hmessage⟩,
        hinstance, ?_⟩
      rw [hseverity, hcode]
      rfl

lemma legible_augmentWarnings {c : PrismaContribution} {augment : PrismaAugmentation}
    {d : PluginDiagnostic} (hc : c ∈ contributions) (haugment : augment ∈ c.augments)
    (h : d ∈ augmentWarnings contributions c augment) : Legible d := by
  obtain ⟨owner, howner, rfl⟩ := mem_augmentWarnings h
  rw [ownerOf_eq hnames] at howner
  obtain ⟨c', hc', rfl, -⟩ := mem_claims.mp (mem_of_firstClaimer howner)
  have hpath : unit ' ' ∉ js "facets.prisma.augmentedBy." ++ augment.field := by
    have hlead : unit ' ' ∉ js "facets.prisma.augmentedBy." := by decide
    simp [hlead, (hnames.augments c hc augment haugment).2]
  refine ⟨show unit ' ' ∉ js "undeclared-augmentation" by decide, ⟨_, rfl, hpath⟩,
    ⟨c'.plugin, ?_⟩, rfl, rfl⟩
  simp only [unlistedWarning, diagnostic, List.append_assoc]
  exact ⟨_, (hnames.plugins c' hc').2, trivial, quoted_append _ _⟩

lemma legible_report (hone : OneOwner contributions) {d : PluginDiagnostic}
    (h : d ∈ validateContributions contributions) : Legible d := by
  rcases List.mem_append.mp ((validateContributions_perm hnames hone).mem_iff.mp h) with h | h
  · obtain ⟨⟨c, augment⟩, hadded, h⟩ := List.mem_flatMap.mp h
    obtain ⟨hc, haugment⟩ := mem_additions.mp hadded
    exact legible_augmentErrors hnames hc haugment h
  · obtain ⟨⟨c, augment⟩, hadded, h⟩ := List.mem_flatMap.mp h
    obtain ⟨hc, haugment⟩ := mem_additions.mp hadded
    exact legible_augmentWarnings hnames hc haugment h

omit hnames in
/-- Lists with the same values under every key are permutations of one another. -/
lemma perm_of_filter_perm {α κ : Type} [DecidableEq α] [DecidableEq κ] {key : α → κ} {xs ys : List α}
    (h : ∀ k, (xs.filter (fun x => key x = k)).Perm (ys.filter (fun x => key x = k))) : xs.Perm ys := by
  rw [List.perm_iff_count]
  intro x
  have hx := (h (key x)).count_eq x
  rwa [List.count_filter (by simp), List.count_filter (by simp)] at hx

omit hnames in
/-- The contribution that a plugin is first found with. -/
lemma find_plugin {c : PrismaContribution} (hc : c ∈ contributions) :
    ∃ candidate ∈ contributions, candidate.plugin = c.plugin ∧
      contributions.find? (fun x => x.plugin = c.plugin) = some candidate := by
  cases hfound : contributions.find? (fun x => x.plugin = c.plugin) with
  | none => exact absurd (List.find?_eq_none.mp hfound c hc) (by simp)
  | some candidate =>
    exact ⟨candidate, List.mem_of_find?_eq_some hfound, of_decide_eq_true (List.find?_some hfound :),
      rfl⟩

lemma allWarnings_perm (hone : OneOwner contributions) (halike : ListedAlike contributions)
    (h : contributions'.Perm contributions) :
    (allWarnings contributions').Perm (allWarnings contributions) := by
  refine @perm_of_filter_perm _ _ _ _ (·.pluginId) _ _ fun id => ?_
  by_cases hid : ∃ c ∈ contributions, id = some c.plugin
  · obtain ⟨c, hc, rfl⟩ := hid
    obtain ⟨o, ho, hplugin, hfirst⟩ := find_plugin hc
    obtain ⟨o', ho', hplugin', hfirst'⟩ := find_plugin (h.mem_iff.mpr hc)
    rw [allWarnings_owner hnames hone hfirst,
      allWarnings_owner (hnames.perm h) (hone.perm h) hfirst']
    exact ((unlisted_perm h o').trans
      (halike o' (h.mem_iff.mp ho') o ho (hplugin'.trans hplugin.symm))).map _
  · have hnone : ∀ {cs : List PrismaContribution}, SchemaNames cs → cs.Perm contributions →
        (allWarnings cs).filter (fun d => d.pluginId = id) = [] := by
      intro cs hcs hperm
      rw [List.filter_eq_nil_iff]
      intro d hd
      obtain ⟨⟨c, augment⟩, -, hd⟩ := List.mem_flatMap.mp hd
      obtain ⟨owner, howner, rfl⟩ := mem_augmentWarnings hd
      rw [ownerOf_eq hcs] at howner
      obtain ⟨c', hc', rfl, -⟩ := mem_claims.mp (mem_of_firstClaimer howner)
      rw [decide_eq_true_eq]
      exact fun heq => hid ⟨c', hperm.mem_iff.mp hc', heq.symm⟩
    rw [hnone (hnames.perm h) h, hnone hnames (List.Perm.refl _)]

/-- With one owner each and lists that agree, the report is one for every order. -/
lemma report_perm (hone : OneOwner contributions) (halike : ListedAlike contributions)
    (h : contributions'.Perm contributions) :
    validateContributions contributions' = validateContributions contributions := by
  have hperm : (validateContributions contributions').Perm (validateContributions contributions) :=
    (validateContributions_perm (hnames.perm h) (hone.perm h)).trans
      (((allErrors_perm hnames hone h).append (allWarnings_perm hnames hone halike h)).trans
        (validateContributions_perm hnames hone).symm)
  exact @eq_of_perm_of_key_inj _ _ _ prismaDiagnosticKey _ _ hperm (sortBy_pairwise _ _)
    (sortBy_pairwise _ _) fun d hd d' hd' hkey =>
      (legible_report (hnames.perm h) (hone.perm h) hd).eq_of_key
        (legible_report (hnames.perm h) (hone.perm h) hd') hkey

omit hnames in
lemma mem_report {d : PluginDiagnostic} :
    d ∈ validateContributions contributions ↔ d ∈ (ownerByModel contributions).2 ∨
      d ∈ (ownerByEnum contributions).2 ∨ d ∈ allErrors contributions ∨
        d ∈ allWarnings contributions := by
  rw [validateContributions, mem_sortBy, List.mem_append, List.mem_append,
    (augmentDiagnostics_perm contributions).mem_iff, List.mem_append, or_assoc]

omit hnames in
lemma code_allErrors {d : PluginDiagnostic} (h : d ∈ allErrors contributions) :
    d.code ∈ AUGMENT_CODES := by
  obtain ⟨a, -, ha⟩ := List.mem_flatMap.mp h
  exact code_augmentErrors ha

omit hnames in
lemma code_allWarnings {d : PluginDiagnostic} (h : d ∈ allWarnings contributions) :
    d.code = js "undeclared-augmentation" := by
  obtain ⟨a, -, ha⟩ := List.mem_flatMap.mp h
  obtain ⟨owner, -, rfl⟩ := mem_augmentWarnings ha
  rfl

lemma code_models {d : PluginDiagnostic} (h : d ∈ (ownerByModel contributions).2) :
    d.code = js "owner-collision" := by
  obtain ⟨claim, -, first, -, -, rfl⟩ := ((firstWins_models hnames).reported d).mp h
  rfl

lemma code_enums {d : PluginDiagnostic} (h : d ∈ (ownerByEnum contributions).2) :
    d.code = js "enum-owner-collision" := by
  obtain ⟨claim, -, first, -, -, rfl⟩ := ((firstWins_enums hnames).reported d).mp h
  rfl

lemma mem_report_models {d : PluginDiagnostic} (hcode : d.code = js "owner-collision") :
    d ∈ validateContributions contributions ↔ d ∈ (ownerByModel contributions).2 := by
  rw [mem_report]
  constructor
  · rintro (h | h | h | h)
    · exact h
    · exact absurd (hcode.symm.trans (code_enums hnames h)) (by decide)
    · exact absurd (hcode ▸ code_allErrors h) (by decide)
    · exact absurd (hcode.symm.trans (code_allWarnings h)) (by decide)
  · exact Or.inl

lemma mem_report_enums {d : PluginDiagnostic} (hcode : d.code = js "enum-owner-collision") :
    d ∈ validateContributions contributions ↔ d ∈ (ownerByEnum contributions).2 := by
  rw [mem_report]
  constructor
  · rintro (h | h | h | h)
    · exact absurd (hcode.symm.trans (code_models hnames h)) (by decide)
    · exact h
    · exact absurd (hcode ▸ code_allErrors h) (by decide)
    · exact absurd (hcode.symm.trans (code_allWarnings h)) (by decide)
  · exact fun h => Or.inr (Or.inl h)

omit hnames in
lemma firstClaimer_own {made : List (JsString × JsString)} {plugin name : JsString}
    (hown : ∀ claim ∈ made, claim.1 = plugin) (hname : name ∈ made.map Prod.snd) :
    firstClaimer made name = some plugin := by
  obtain ⟨first, hfirst⟩ := firstClaimer_isSome hname
  have hsame : first = plugin := hown _ (mem_of_firstClaimer hfirst)
  exact hsame ▸ hfirst

omit hnames in
/-- Whoever comes first has the names it claims. -/
lemma firstClaimer_ahead {names : PrismaContribution → List JsString}
    {ahead rest : List PrismaContribution} {plugin name : JsString}
    (hown : ∀ c ∈ ahead, c.plugin = plugin) {c : PrismaContribution} (hc : c ∈ ahead)
    (hname : name ∈ names c) : firstClaimer (claims names (ahead ++ rest)) name = some plugin := by
  have hahead : firstClaimer (claims names ahead) name = some plugin := by
    refine firstClaimer_own (fun claim hclaim => ?_)
      (List.mem_map.mpr ⟨(c.plugin, name), mem_claims.mpr ⟨c, hc, rfl, hname⟩, rfl⟩)
    obtain ⟨c', hc', hplugin, -⟩ := mem_claims.mp hclaim
    exact hplugin ▸ hown c' hc'
  rw [claims_append, firstClaimer_append, hahead]
  rfl

/-- A report that is one for every order has no claims of two plugins: the one that comes first is
not reported. -/
lemma oneClaimer_of_report {names : PrismaContribution → List JsString}
    {collision : JsString → JsString → JsString → PluginDiagnostic} {leading : JsString}
    (hcollision : ∀ name first plugin, (collision name first plugin).pluginId = some plugin ∧
      (collision name first plugin).path = some (leading ++ name))
    (hreport : ∀ {cs : List PrismaContribution}, SchemaNames cs → ∀ {name first plugin},
      collision name first plugin ∈ validateContributions cs ↔ collision name first plugin ∈
        ((claims names cs).foldl (claimName collision) ([], [])).2)
    (hsame : ∀ contributions', contributions'.Perm contributions →
      validateContributions contributions' = validateContributions contributions) :
    OneClaimer (claims names contributions) := by
  intro a ha b hb hname
  by_contra hne
  obtain ⟨c, hc, hplugin, hclaimed⟩ := mem_claims.mp ha
  obtain ⟨c', hc', hplugin', hclaimed'⟩ := mem_claims.mp hb
  -- the plugin of `a` ahead of the others, and that of `b`
  have hperm : (contributions.filter (·.plugin = a.1) ++
      contributions.filter fun x => !decide (x.plugin = a.1)).Perm contributions :=
    List.filter_append_perm _ _
  have hperm' : ([c'] ++ contributions.erase c').Perm contributions :=
    (List.perm_cons_erase hc').symm
  have hfirst := @firstClaimer_ahead names (contributions.filter (·.plugin = a.1))
    (contributions.filter fun x => !decide (x.plugin = a.1)) a.1 a.2
    (fun x hx => of_decide_eq_true (List.mem_filter.mp hx).2) c
    (List.mem_filter.mpr ⟨hc, decide_eq_true hplugin⟩) hclaimed
  have hfirst' := @firstClaimer_ahead names [c'] (contributions.erase c') b.1 a.2
    (fun x hx => List.mem_singleton.mp hx ▸ hplugin') c' (List.mem_singleton_self c')
    (hname ▸ hclaimed')
  have hwins := @firstWins_foldl collision _
    (claimed_not_empty (hnames.perm hperm) names)
  have hwins' := @firstWins_foldl collision _
    (claimed_not_empty (hnames.perm hperm') names)
  have hreported : collision a.2 b.1 a.1 ∈ validateContributions ([c'] ++ contributions.erase c') :=
    (hreport (hnames.perm hperm')).mpr ((hwins'.reported _).mpr
      ⟨a, (claims_perm hperm').mem_iff.mpr ha, b.1, hfirst', Ne.symm hne, rfl⟩)
  rw [hsame _ hperm', ← hsame _ hperm] at hreported
  obtain ⟨claim, -, first, hclaim, hother, heq⟩ :=
    (hwins.reported _).mp ((hreport (hnames.perm hperm)).mp hreported)
  obtain ⟨hid, hpath⟩ := hcollision a.2 b.1 a.1
  obtain ⟨hid', hpath'⟩ := hcollision claim.2 first claim.1
  rw [heq] at hid hpath
  have hplugins : claim.1 = a.1 := Option.some.inj (hid'.symm.trans hid)
  have hnamed : claim.2 = a.2 :=
    List.append_cancel_left (Option.some.inj (hpath'.symm.trans hpath))
  rw [hnamed, hfirst] at hclaim
  exact hother ((Option.some.inj hclaim).symm.trans hplugins.symm)

lemma oneOwner_of_report (hsame : ∀ contributions', contributions'.Perm contributions →
    validateContributions contributions' = validateContributions contributions) :
    OneOwner contributions :=
  ⟨oneClaimer_of_report hnames (fun _ _ _ => ⟨rfl, rfl⟩)
      (fun h => mem_report_models h rfl) hsame,
    oneClaimer_of_report hnames (fun _ _ _ => ⟨rfl, rfl⟩)
      (fun h => mem_report_enums h rfl) hsame⟩

/-- What is warned of in the name of an owner does not depend on which of its contributions comes
first. -/
lemma warnings_of_report (hone : OneOwner contributions)
    (hsame : ∀ contributions', contributions'.Perm contributions →
      validateContributions contributions' = validateContributions contributions)
    {c : PrismaContribution} (hc : c ∈ contributions) :
    ((validateContributions contributions).filter (fun d =>
        d.code = js "undeclared-augmentation" ∧ d.pluginId = some c.plugin)).Perm
      ((unlisted contributions c).map (unlistedWarning c.plugin)) := by
  have hperm : (c :: contributions.erase c).Perm contributions := (List.perm_cons_erase hc).symm
  have hnames' := hnames.perm hperm
  have hone' := hone.perm hperm
  have hfirst : (c :: contributions.erase c).find? (fun x => x.plugin = c.plugin) = some c :=
    List.find?_cons_of_pos (by simp)
  have hsplit := (validateContributions_perm hnames' hone').filter (fun d =>
    decide (d.code = js "undeclared-augmentation" ∧ d.pluginId = some c.plugin))
  have hnone : (allErrors (c :: contributions.erase c)).filter (fun d =>
      decide (d.code = js "undeclared-augmentation" ∧ d.pluginId = some c.plugin)) = [] := by
    rw [List.filter_eq_nil_iff]
    intro d hd
    rw [decide_eq_true_eq]
    rintro ⟨hcode, -⟩
    exact absurd (hcode ▸ code_allErrors hd) (by decide)
  have hwarnings : (allWarnings (c :: contributions.erase c)).filter (fun d =>
      decide (d.code = js "undeclared-augmentation" ∧ d.pluginId = some c.plugin)) =
      (allWarnings (c :: contributions.erase c)).filter (·.pluginId = some c.plugin) :=
    List.filter_congr fun d hd => decide_eq_decide.mpr (and_iff_right (code_allWarnings hd))
  rw [List.filter_append, hnone, List.nil_append, hwarnings,
    allWarnings_owner hnames' hone' hfirst, hsame _ hperm] at hsplit
  exact hsplit.trans ((unlisted_perm hperm c).map _)

/-- The report is one for every order exactly when no name is claimed by two plugins and the
contributions of one plugin leave the same additions unlisted. -/
theorem report_order_iff :
    (∀ contributions', contributions'.Perm contributions →
      validateContributions contributions' = validateContributions contributions) ↔
      OneOwner contributions ∧ ListedAlike contributions := by
  constructor
  · intro hsame
    have hone := oneOwner_of_report hnames hsame
    refine ⟨hone, fun c hc c' hc' hplugin => ?_⟩
    have hwarned := warnings_of_report hnames hone hsame hc
    have hwarned' := warnings_of_report hnames hone hsame hc'
    rw [← hplugin] at hwarned'
    exact (List.map_perm_map_iff (unlistedWarning_injective c.plugin)).mp
      (hwarned.symm.trans hwarned')
  · rintro ⟨hone, halike⟩ contributions' hperm
    exact report_perm hnames hone halike hperm

omit hnames

/-- A contribution of this plugin, with the models it owns. -/
def owning (plugin : JsString) (owns : List JsString) : PrismaContribution :=
  { plugin := plugin, packageName := js "@x/" ++ plugin, owns := owns, ownsEnums := [],
    augments := [], augmentedBy := [], fragment := none, fragmentPath := none }

/-- A plugin that adds a field to a model of another. -/
def adding : PrismaContribution :=
  { owning (js "rbac") [js "Role"] with
    augments := [⟨js "User", js "roles", js "identity", some (js "Role[]")⟩] }

theorem report_order_adding :
    validateContributions [adding, owning (js "identity") [js "User"]] =
        validateContributions [owning (js "identity") [js "User"], adding] ∧
      (validateContributions [owning (js "identity") [js "User"], adding]).map (·.code) =
        [js "undeclared-augmentation"] := by
  have hnames : SchemaNames [owning (js "identity") [js "User"], adding] :=
    ⟨by decide, by decide⟩
  refine ⟨(report_order_iff hnames).mpr ⟨⟨?_, ?_⟩, ?_⟩ _ (List.Perm.swap _ _ _), by decide +kernel⟩
  · exact (by decide +kernel : ∀ a ∈ claims (·.owns) [owning (js "identity") [js "User"], adding],
      ∀ b ∈ claims (·.owns) [owning (js "identity") [js "User"], adding], a.2 = b.2 → a.1 = b.1)
  · exact nofun
  · decide +kernel

/-- Of two plugins that claim one model, the one that comes second is named. -/
theorem report_names_second :
    [owning (js "b") [js "User"], owning (js "a") [js "User"]].Perm
        [owning (js "a") [js "User"], owning (js "b") [js "User"]] ∧
      (validateContributions [owning (js "a") [js "User"], owning (js "b") [js "User"]]).map
        (·.pluginId) = [some (js "b")] ∧
      (validateContributions [owning (js "b") [js "User"], owning (js "a") [js "User"]]).map
        (·.pluginId) = [some (js "a")] ∧
      validateContributions [owning (js "b") [js "User"], owning (js "a") [js "User"]] ≠
        validateContributions [owning (js "a") [js "User"], owning (js "b") [js "User"]] :=
  ⟨List.Perm.swap _ _ _, by decide +kernel, by decide +kernel, by decide +kernel⟩

end Report

end Appspine.Prisma
