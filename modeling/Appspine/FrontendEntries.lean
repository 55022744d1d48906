import Appspine.FrontendGenerator
import Appspine.PrismaText

/-!
# Entries of the frontend artefacts

When the loops and the sort of the generators go through, which lines of an artefact are entries of
a name, and when what several packages declare comes out exactly once.
-/
namespace Appspine.Frontend
open JsText InsertionMap JsonText Generate
open Prisma (sortWith textLines lineFeed)

section Copies

variable {α β κ ν : Type*} [DecidableEq κ] [DecidableEq ν] {served packages : List α} {key : α → κ}
  {f : α → List β} {name : β → ν}

omit [DecidableEq κ] in
lemma length_filter_name_iff {xs : List β} :
    (∀ x ∈ xs, (xs.filter (fun y => name y = name x)).length = 1) ↔ (xs.map name).Nodup := by
  have hcount : ∀ x, (xs.map name).count (name x) =
      (xs.filter (fun y => name y = name x)).length := by
    intro x
    rw [List.count, List.countP_map, List.countP_eq_length_filter]
    rfl
  constructor
  · intro h
    rw [List.nodup_iff_count_le_one]
    intro v
    by_cases hv : v ∈ xs.map name
    · obtain ⟨x, hx, rfl⟩ := List.mem_map.mp hv
      rw [hcount, h x hx]
    · rw [List.count_eq_zero_of_not_mem hv]
      exact zero_le_one
  · intro hnodup x hx
    rw [← hcount]
    exact List.count_eq_one_of_mem hnodup (List.mem_map_of_mem hx)

lemma filter_name_eq {xs : List β} {x : β} (hx : x ∈ xs)
    (h : (xs.filter (fun y => name y = name x)).length = 1) :
    xs.filter (fun y => name y = name x) = [x] := by
  obtain ⟨y, hy⟩ := List.length_eq_one_iff.mp h
  have hmem : x ∈ xs.filter (fun y => name y = name x) := List.mem_filter.mpr ⟨hx, by simp⟩
  rw [hy, List.mem_singleton] at hmem
  rw [hy, hmem]

/-- What has the name of something a package declares comes from the copies of that package. -/
lemma filter_flatMap_eq (hserved : ∀ s ∈ served, s ∈ packages)
    (hkeys : ∀ a ∈ packages, ∀ b ∈ packages, key a = key b → a = b)
    (hapart : ∀ a ∈ packages, ∀ b ∈ packages, key a ≠ key b → ∀ x ∈ f a, ∀ y ∈ f b,
      name x ≠ name y) {a : α} (ha : a ∈ packages) {x : β} (hx : x ∈ f a) :
    (served.flatMap f).filter (fun y => name y = name x) =
      (List.replicate (served.filter (fun s => key s = key a)).length
        ((f a).filter (fun y => name y = name x))).flatten := by
  induction served with
  | nil => rfl
  | cons s served ih =>
    rw [List.flatMap_cons, List.filter_append, ih (fun t ht => hserved t (by simp [ht]))]
    have hs := hserved s (by simp)
    by_cases hkey : key s = key a
    · obtain rfl := hkeys s hs a ha hkey
      rw [List.filter_cons_of_pos (by simp), List.length_cons, List.replicate_succ, List.flatten_cons]
    · have hnone : (f s).filter (fun y => name y = name x) = [] := by
        rw [List.filter_eq_nil_iff]
        intro y hy
        rw [decide_eq_true_eq]
        exact hapart s hs a ha hkey y hy x hx
      rw [hnone, List.nil_append, List.filter_cons_of_neg (by simpa using hkey)]

/-- Everything that is declared is there once exactly when what declares something is there once,
and declares no name twice. -/
lemma declared_once_iff (hserved : ∀ s ∈ served, s ∈ packages)
    (hkeys : ∀ a ∈ packages, ∀ b ∈ packages, key a = key b → a = b)
    (hapart : ∀ a ∈ packages, ∀ b ∈ packages, key a ≠ key b → ∀ x ∈ f a, ∀ y ∈ f b,
      name x ≠ name y) :
    (∀ a ∈ packages, ∀ x ∈ f a,
        ((served.flatMap f).filter (fun y => name y = name x)).length = 1) ↔
      ∀ a ∈ packages, f a ≠ [] →
        (served.filter (fun s => key s = key a)).length = 1 ∧ ((f a).map name).Nodup := by
  refine forall_congr' fun a => forall_congr' fun ha => ?_
  have hlength : ∀ x ∈ f a, ((served.flatMap f).filter (fun y => name y = name x)).length =
      (served.filter (fun s => key s = key a)).length *
        ((f a).filter (fun y => name y = name x)).length := by
    intro x hx
    rw [filter_flatMap_eq hserved hkeys hapart ha hx, List.length_flatten, List.map_replicate,
      List.sum_replicate, smul_eq_mul]
  constructor
  · intro h hne
    have hone : ∀ x ∈ f a, (served.filter (fun s => key s = key a)).length = 1 ∧
        ((f a).filter (fun y => name y = name x)).length = 1 := by
      intro x hx
      have hproduct := (hlength x hx).symm.trans (h x hx)
      exact ⟨Nat.eq_one_of_mul_eq_one_right hproduct, Nat.eq_one_of_mul_eq_one_left hproduct⟩
    obtain ⟨x, hx⟩ := List.exists_mem_of_ne_nil _ hne
    exact ⟨(hone x hx).1, length_filter_name_iff.mp (fun y hy => (hone y hy).2)⟩
  · intro h x hx
    obtain ⟨hcopies, hnodup⟩ := h (List.ne_nil_of_mem hx)
    rw [hlength x hx, hcopies, length_filter_name_iff.mpr hnodup x hx]

/-- What a package that is there once declares, is there once. -/
lemma filter_flatMap_singleton (hserved : ∀ s ∈ served, s ∈ packages)
    (hkeys : ∀ a ∈ packages, ∀ b ∈ packages, key a = key b → a = b)
    (hapart : ∀ a ∈ packages, ∀ b ∈ packages, key a ≠ key b → ∀ x ∈ f a, ∀ y ∈ f b,
      name x ≠ name y) {a : α} (ha : a ∈ packages) {x : β} (hx : x ∈ f a)
    (honce : (served.filter (fun s => key s = key a)).length = 1 ∧ ((f a).map name).Nodup) :
    (served.flatMap f).filter (fun y => name y = name x) = [x] := by
  rw [filter_flatMap_eq hserved hkeys hapart ha hx, honce.1, List.replicate_one,
    List.flatten_singleton]
  exact filter_name_eq hx (length_filter_name_iff.mpr honce.2 x hx)

/-- Names are distinct when each package that declares some is there once. -/
lemma nodup_flatMap_of_once (hserved : ∀ s ∈ served, s ∈ packages)
    (hkeys : ∀ a ∈ packages, ∀ b ∈ packages, key a = key b → a = b)
    (hapart : ∀ a ∈ packages, ∀ b ∈ packages, key a ≠ key b → ∀ x ∈ f a, ∀ y ∈ f b,
      name x ≠ name y)
    (honce : ∀ a ∈ packages, f a ≠ [] →
      (served.filter (fun s => key s = key a)).length = 1 ∧ ((f a).map name).Nodup) :
    ((served.flatMap f).map name).Nodup := by
  refine length_filter_name_iff.mp ?_
  intro x hx
  obtain ⟨a, ha, hxa⟩ := List.mem_flatMap.mp hx
  exact (declared_once_iff hserved hkeys hapart).mpr honce a (hserved a ha) x hxa

omit [DecidableEq κ] in
/-- Of the lines of a rearranged list, those of a name are the line of `x` alone exactly when only
`x` has the name. -/
lemma lines_of_singleton {γ : Type*} {line : β → γ} {xs ys : List β} {x : β} (h : ys.Perm xs)
    (hfilter : xs.filter (fun y => name y = name x) = [x]) :
    (ys.filter (fun y => name y = name x)).map line = [line x] := by
  have hperm := h.filter (fun y => name y = name x)
  rw [hfilter, List.perm_singleton] at hperm
  rw [hperm, List.map_singleton]

omit [DecidableEq κ] in
lemma length_of_lines {γ : Type*} {line : β → γ} {xs ys : List β} {x : β} (h : ys.Perm xs)
    (hlines : (ys.filter (fun y => name y = name x)).map line = [line x]) :
    (xs.filter (fun y => name y = name x)).length = 1 := by
  rw [← (h.filter _).length_eq, ← List.length_map line, hlines, List.length_singleton]

end Copies

section Orderable

variable {N α : Type} {localeCompare : JsString → JsString → Ordering} {key : α → SortableItem N}
  {items : List α}

/-- Items that can be put in an order: no two that wait for others have one id, and no ids wait for
more than the items of other ids can give. -/
def Orderable (key : α → SortableItem N) (items : List α) : Prop :=
  items.length ≤ 1 ∨ (((graph key items).waiting.map (fun x => (key x).id)).Nodup ∧
    ∀ ids, ¬ (graph key items).Stuck ids)

lemma sortWith_perm {β : Type} (compare : β → β → Ordering) (xs : List β) :
    (sortWith compare xs).Perm xs := List.perm_insertionSort _ _

lemma sortWithDependencies_isOk [LinearOrder N] [Zero N] :
    (∃ sorted, sortWithDependencies localeCompare key items = .ok sorted) ↔ Orderable key items := by
  have hlength := QueueOrder.length_order_iff (g := graph key items)
    (sortWith_perm (compareReady localeCompare key))
  rw [Orderable]
  simp only [sortWithDependencies]
  split_ifs with hshort hcyclic
  · simp [hshort]
  · refine iff_of_false (by simp) ?_
    rintro (hle | hfine)
    · exact hshort hle
    · exact hcyclic (hlength.mpr hfine)
  · exact iff_of_true ⟨_, rfl⟩ (.inr (hlength.mp (not_not.mp hcyclic)))

lemma sortWithDependencies_perm [LinearOrder N] [Zero N] {sorted : List α}
    (h : sortWithDependencies localeCompare key items = .ok sorted) : sorted.Perm items := by
  simp only [sortWithDependencies] at h
  split_ifs at h with hshort hcyclic
  · obtain rfl := Except.ok.inj h
    exact List.Perm.refl _
  · obtain rfl := Except.ok.inj h
    exact QueueOrder.order_perm (sortWith_perm _) (not_not.mp hcyclic)

/-- Items of distinct ids that cannot be ordered name each other in a circle. -/
lemma orderable_of_acyclic (hnodup : (items.map (fun x => (key x).id)).Nodup)
    (hacyclic : ∀ id, ¬ Relation.TransGen (fun v u => (u, v) ∈ allConstraints key items) id id) :
    Orderable key items := by
  have hids : ((graph key items).items.map (graph key items).id).Nodup := hnodup
  refine .inr ⟨hnodup.sublist (List.filter_sublist.map _), fun ids hstuck => ?_⟩
  obtain ⟨id, hcycle⟩ := FrontierOrder.exists_cycle hstuck.nonempty
    (r := fun v u => (u, v) ∈ allConstraints key items) (fun v hv => by
      obtain ⟨u, hu, hnext⟩ := hstuck.exists_before hids v hv
      exact ⟨u, hu, (mem_adjacency key).mp hnext⟩)
  exact hacyclic id hcycle

/-- Items that can be ordered do not name themselves, unless there is only one. -/
lemma Orderable.not_self (h : Orderable key items)
    (hnodup : (items.map (fun x => (key x).id)).Nodup) :
    items.length ≤ 1 ∨ ∀ id, (id, id) ∉ allConstraints key items := by
  refine h.imp_right fun hfine id hself => ?_
  exact hfine.2 [id] (QueueOrder.stuck_of_loop hnodup ((mem_adjacency key).mpr hself))

end Orderable

section Duplicates

variable {β σ ε ν : Type*} {clash : List β → β → Prop}

/-- Nothing clashes with what comes before it. -/
def Unclashing (clash : List β → β → Prop) : List β → List β → Prop
  | _, [] => True
  | taken, x :: xs => ¬ clash taken x ∧ Unclashing clash (taken ++ [x]) xs

/-- A loop that refuses what clashes goes through exactly when nothing does. -/
lemma foldlM_isOk (clash : List β → β → Prop) (step : σ → β → Except ε σ) (taken : σ → List β)
    (Inv : σ → Prop) (hstep : ∀ state x, Inv state → (clash (taken state) x → ∃ e, step state x = .error e) ∧
      (¬ clash (taken state) x → ∃ state', step state x = .ok state' ∧ Inv state' ∧
        taken state' = taken state ++ [x])) (xs : List β) (state : σ) (hinv : Inv state) :
    ((∃ final, xs.foldlM step state = .ok final) ↔ Unclashing clash (taken state) xs) ∧
      ∀ final, xs.foldlM step state = .ok final → taken final = taken state ++ xs := by
  induction xs generalizing state with
  | nil => simp [Unclashing, pure, Except.pure]
  | cons x xs ih =>
    obtain ⟨herror, hok⟩ := hstep state x hinv
    rw [List.foldlM_cons]
    by_cases hclash : clash (taken state) x
    · obtain ⟨e, he⟩ := herror hclash
      simp [he, Unclashing, hclash, bind, Except.bind]
    · obtain ⟨state', hstate', hinv', htaken⟩ := hok hclash
      obtain ⟨hiff, hfinal⟩ := ih state' hinv'
      rw [htaken] at hiff hfinal
      simp only [hstate', bind, Except.bind, Unclashing, hclash, not_false_eq_true, true_and]
      refine ⟨hiff, fun final h => ?_⟩
      rw [hfinal final h, List.append_assoc, List.singleton_append]

/-- When a clash is a name that was there, nothing clashes when the names are distinct. -/
lemma unclashing_append {name name' : β → ν}
    (hclash : ∀ taken x, clash taken x ↔ name x ∈ taken.map name ∨ name' x ∈ taken.map name')
    (xs : List β) {taken : List β} (h : (taken.map name).Nodup) (h' : (taken.map name').Nodup) :
    Unclashing clash taken xs ↔
      ((taken ++ xs).map name).Nodup ∧ ((taken ++ xs).map name').Nodup := by
  induction xs generalizing taken with
  | nil => simp [Unclashing, h, h']
  | cons x xs ih =>
    have hsplit : taken ++ x :: xs = taken ++ [x] ++ xs := by simp
    rw [Unclashing, hclash, not_or]
    by_cases hx : name x ∈ taken.map name ∨ name' x ∈ taken.map name'
    · refine iff_of_false (fun hfree => hx.elim hfree.1.1 hfree.1.2) ?_
      rintro ⟨hnodup, hnodup'⟩
      rw [List.map_append, List.map_cons, List.nodup_middle, List.nodup_cons, List.mem_append,
        not_or] at hnodup hnodup'
      exact hx.elim hnodup.1.1 hnodup'.1.1
    · obtain ⟨hname, hname'⟩ := not_or.mp hx
      have hone : ∀ n : β → ν, n x ∉ taken.map n → (taken.map n).Nodup →
          ((taken ++ [x]).map n).Nodup := by
        intro n hnot hnodup
        rw [List.map_append, List.map_singleton]
        exact hnodup.append (List.nodup_singleton _) (by simpa using hnot)
      rw [hsplit, ← ih (hone name hname h) (hone name' hname' h')]
      exact and_iff_right ⟨hname, hname'⟩

lemma unclashing_names {name name' : β → ν}
    (hclash : ∀ taken x, clash taken x ↔ name x ∈ taken.map name ∨ name' x ∈ taken.map name')
    (xs : List β) : Unclashing clash [] xs ↔ (xs.map name).Nodup ∧ (xs.map name').Nodup := by
  have hnil : (([] : List β).map name).Nodup ∧ (([] : List β).map name').Nodup := by simp
  simpa using unclashing_append hclash xs hnil.1 hnil.2

end Duplicates

section Loops

variable {N : Type}

/-- What the loop over the pages remembers. -/
structure SeenRoutes (state : AdminRoutes N) : Prop where
  paths : keys state.seenRoutePaths = state.routes.map (·.routePath)
  ids : keys state.seenIds = state.routes.map (·.id)

lemma addRoute_spec (state : AdminRoutes N) (page : AdminRoute N) (h : SeenRoutes state) :
    ((page.routePath ∈ state.routes.map (·.routePath) ∨ page.id ∈ state.routes.map (·.id)) →
        ∃ e, addRoute state page = .error e) ∧
      (¬ (page.routePath ∈ state.routes.map (·.routePath) ∨ page.id ∈ state.routes.map (·.id)) →
        ∃ state', addRoute state page = .ok state' ∧ SeenRoutes state' ∧
          state'.routes = state.routes ++ [page]) := by
  rw [← h.paths, ← h.ids]
  unfold addRoute
  cases hpath : InsertionMap.get state.seenRoutePaths page.routePath with
  | some seen =>
    have hmem := mem_keys_of_get hpath
    exact ⟨fun _ => ⟨_, rfl⟩, fun hnone => absurd (.inl hmem) hnone⟩
  | none =>
    cases hid : InsertionMap.get state.seenIds page.id with
    | some seen =>
      have hmem := mem_keys_of_get hid
      exact ⟨fun _ => ⟨_, rfl⟩, fun hnone => absurd (.inr hmem) hnone⟩
    | none =>
      have hpath' := get_eq_none.mp hpath
      have hid' := get_eq_none.mp hid
      refine ⟨fun hclash => (hclash.elim hpath' hid').elim, fun _ => ⟨_, rfl, ⟨?_, ?_⟩, rfl⟩⟩
      · rw [keys_set, if_neg hpath', h.paths, List.map_append, List.map_singleton]
      · rw [keys_set, if_neg hid', h.ids, List.map_append, List.map_singleton]

/-- The loop over the pages goes through exactly when no route and no id comes twice. -/
lemma foldlM_addRoute (pages : List (AdminRoute N)) :
    ((∃ final, pages.foldlM addRoute { seenRoutePaths := [], seenIds := [], routes := [] } =
        .ok final) ↔ (pages.map (·.routePath)).Nodup ∧ (pages.map (·.id)).Nodup) ∧
      ∀ final, pages.foldlM addRoute { seenRoutePaths := [], seenIds := [], routes := [] } =
        .ok final → final.routes = pages := by
  obtain ⟨hiff, hfinal⟩ := foldlM_isOk
    (fun routes page => page.routePath ∈ routes.map (·.routePath) ∨ page.id ∈ routes.map (·.id))
    addRoute AdminRoutes.routes SeenRoutes addRoute_spec pages
    { seenRoutePaths := [], seenIds := [], routes := [] } ⟨rfl, rfl⟩
  exact ⟨hiff.trans (unclashing_names (fun _ _ => Iff.rfl) pages), hfinal⟩

lemma addNamespace_spec (state : I18nNamespaces) (item : I18nNamespace)
    (h : keys state.seenNamespaces = state.namespaces.map (·.namespace_)) :
    (item.namespace_ ∈ state.namespaces.map (·.namespace_) →
        ∃ e, addNamespace state item = .error e) ∧
      (item.namespace_ ∉ state.namespaces.map (·.namespace_) →
        ∃ state', addNamespace state item = .ok state' ∧
          keys state'.seenNamespaces = state'.namespaces.map (·.namespace_) ∧
          state'.namespaces = state.namespaces ++ [item]) := by
  rw [← h]
  unfold addNamespace
  cases hseen : InsertionMap.get state.seenNamespaces item.namespace_ with
  | some seen => exact ⟨fun _ => ⟨_, rfl⟩, fun hnone => absurd (mem_keys_of_get hseen) hnone⟩
  | none =>
    have hnone := get_eq_none.mp hseen
    refine ⟨fun hmem => absurd hmem hnone, fun _ => ⟨_, rfl, ?_, rfl⟩⟩
    rw [keys_set, if_neg hnone, h, List.map_append, List.map_singleton]

lemma foldlM_addNamespace (namespaces : List I18nNamespace) :
    ((∃ final, namespaces.foldlM addNamespace { seenNamespaces := [], namespaces := [] } =
        .ok final) ↔ (namespaces.map (·.namespace_)).Nodup) ∧
      ∀ final, namespaces.foldlM addNamespace { seenNamespaces := [], namespaces := [] } =
        .ok final → final.namespaces = namespaces := by
  obtain ⟨hiff, hfinal⟩ := foldlM_isOk
    (fun namespaces item => item.namespace_ ∈ namespaces.map (·.namespace_)) addNamespace
    I18nNamespaces.namespaces
    (fun state => keys state.seenNamespaces = state.namespaces.map (·.namespace_))
    addNamespace_spec namespaces { seenNamespaces := [], namespaces := [] } rfl
  have hnames := hiff.trans (unclashing_names (fun _ _ => or_self_iff.symm) namespaces)
  rw [and_self_iff] at hnames
  exact ⟨hnames, hfinal⟩

end Loops

section Text

lemma notMem_join {sep : JsString} {parts : List JsString} (hsep : lineFeed ∉ sep)
    (h : ∀ part ∈ parts, lineFeed ∉ part) : lineFeed ∉ join sep parts := by
  induction parts with
  | nil => exact List.not_mem_nil
  | cons part parts ih =>
    have hrest := ih (fun p hp => h p (by simp [hp]))
    cases parts with
    | nil =>
      rw [join_singleton]
      exact h part (by simp)
    | cons next rest =>
      rw [join_cons_cons]
      simp only [List.mem_append, not_or]
      exact ⟨⟨h part (by simp), hsep⟩, hrest⟩

lemma notMem_quoteUnit (u : CodeUnit) : lineFeed ∉ quoteUnit u := by
  have hhex : ∀ d < 16, hexDigit d ≠ lineFeed := by decide
  unfold quoteUnit
  split_ifs with h₁ h₂ h₃ h₄ h₅ h₆ h₇ h₈
  all_goals first | decide | skip
  · have hlabel : lineFeed ∉ js "\\u" := by decide
    rw [List.mem_append, not_or]
    refine ⟨hlabel, ?_⟩
    simp only [hex4, List.mem_cons, List.not_mem_nil, or_false, not_or]
    exact ⟨(hhex _ (by omega)).symm, (hhex _ (by omega)).symm, (hhex _ (by omega)).symm,
      (hhex _ (by omega)).symm⟩
  · rw [List.mem_singleton]
    rintro rfl
    exact h₅ rfl

/-- A quoted text stands on one line. -/
lemma notMem_quote (s : JsString) : lineFeed ∉ quote s := by
  have hunits : ∀ s : JsString, lineFeed ∉ quoteUnits s := by
    intro s
    induction s using quoteUnits.induct with
    | case1 => exact List.not_mem_nil
    | case2 u => exact notMem_quoteUnit u
    | case3 u v us hpair ih =>
      rw [quoteUnits, if_pos hpair]
      rw [Bool.and_eq_true] at hpair
      simp only [List.mem_cons, not_or]
      refine ⟨?_, ?_, ih⟩
      · rintro rfl
        exact absurd hpair.1 (by decide)
      · rintro rfl
        exact absurd hpair.2 (by decide)
    | case4 u v us hpair ih =>
      rw [quoteUnits, if_neg hpair, List.mem_append, not_or]
      exact ⟨notMem_quoteUnit u, ih⟩
  have hmark : lineFeed ≠ unit '"' := by decide
  simp only [quote, List.mem_cons, List.mem_append, List.not_mem_nil, or_false, not_or]
  exact ⟨hmark, hunits s, hmark⟩

lemma quote_append_inj {s s' rest rest' : JsString} (h : quote s ++ rest = quote s' ++ rest') :
    s = s' := by
  obtain ⟨us, hus, hscan⟩ := scanString_quote s rest
  obtain ⟨us', hus', hscan'⟩ := scanString_quote s' rest'
  rw [h, hus'] at hus
  obtain ⟨_, rfl⟩ := List.cons.inj hus
  rw [hscan] at hscan'
  exact congrArg Prod.fst (Option.some.inj hscan')

lemma notMem_textField {name : JsString} (h : lineFeed ∉ name) (value : JsString) :
    lineFeed ∉ textField name value := by
  have hcolon : lineFeed ∉ js ": " := by decide
  simp only [textField, List.mem_append, not_or]
  exact ⟨⟨h, hcolon⟩, notMem_quote value⟩

lemma notMem_optionalField {name : JsString} (h : lineFeed ∉ name) (value : Option JsString) :
    ∀ field ∈ optionalField name value, lineFeed ∉ field := by
  intro field hfield
  obtain ⟨text, _, rfl⟩ := List.mem_map.mp hfield
  exact notMem_textField h text

lemma notMem_numberField {N : Type} [JsonNumber N] {name : JsString} (h : lineFeed ∉ name)
    (value : N) : lineFeed ∉ numberField name value := by
  have hcolon : lineFeed ∉ js ": " := by decide
  simp only [numberField, List.mem_append, not_or]
  exact ⟨⟨h, hcolon⟩, fun hmem => absurd (JsonNumber.text_units value _ hmem) (by decide)⟩

lemma notMem_entryLine {fields : List JsString} (h : ∀ field ∈ fields, lineFeed ∉ field) :
    lineFeed ∉ entryLine fields := by
  have hfixed : lineFeed ∉ js "  \x7b " ∧ lineFeed ∉ js ", " ∧ lineFeed ∉ js " \x7d," := by decide
  simp only [entryLine, List.mem_append, not_or]
  exact ⟨⟨hfixed.1, notMem_join hfixed.2.1 h⟩, hfixed.2.2⟩

/-- The line of an entry starts with its name. -/
def entryPrefix (name value : JsString) : JsString :=
  js "  \x7b " ++ textField name value ++ js ","

/-- The lines of a generated list that are entries of this name. -/
def entriesNamed (name value contents : JsString) : List JsString :=
  (textLines contents).filter (fun line => startsWith line (entryPrefix name value))

lemma startsWith_entryLine {name value value' : JsString} {fields : List JsString}
    (hne : fields ≠ []) :
    startsWith (entryLine (textField name value :: fields)) (entryPrefix name value') = true ↔
      value = value' := by
  obtain ⟨next, rest, rfl⟩ := List.exists_cons_of_ne_nil hne
  rw [startsWith_iff, entryLine, entryPrefix, join_cons_cons, textField, textField]
  constructor
  · rintro ⟨tail, htail⟩
    simp only [List.append_assoc] at htail
    rw [List.append_right_inj, List.append_right_inj, List.append_right_inj] at htail
    exact (quote_append_inj htail).symm
  · rintro rfl
    have hcomma : js ", " = js "," ++ js " " := by decide
    refine ⟨js " " ++ (join (js ", ") (next :: rest) ++ js " \x7d,"), ?_⟩
    simp only [hcomma, List.append_assoc]

/-- The entries of a name in an artefact are the items of that name. -/
lemma entriesNamed_artifact {α : Type} {path name value : JsString} {before after : List JsString}
    {items : List α} {line : α → JsString} {nameOf : α → JsString}
    (hline : ∀ x, lineFeed ∉ line x ∧
      ∃ fields, fields ≠ [] ∧ line x = entryLine (textField name (nameOf x) :: fields))
    (hfixed : ∀ l ∈ before ++ after, lineFeed ∉ l ∧ startsWith l (js "  \x7b ") = false)
    (hafter : after ≠ []) :
    entriesNamed name value (artifact path (before ++ items.map line ++ after)).contents =
      (items.filter (fun x => nameOf x = value)).map line := by
  have hlines : textLines (artifact path (before ++ items.map line ++ after)).contents =
      before ++ items.map line ++ after := by
    refine Prisma.textLines_join (by simp [hafter]) ?_
    intro l hl
    rw [List.mem_append, List.mem_append] at hl
    rcases hl with (hl | hl) | hl
    · exact (hfixed l (List.mem_append_left _ hl)).1
    · obtain ⟨x, _, rfl⟩ := List.mem_map.mp hl
      exact (hline x).1
    · exact (hfixed l (List.mem_append_right _ hl)).1
  have hnone : ∀ l ∈ before ++ after, startsWith l (entryPrefix name value) = false := by
    intro l hl
    rw [Bool.eq_false_iff]
    intro hstarts
    obtain ⟨tail, htail⟩ := startsWith_iff.mp hstarts
    have hopen : startsWith l (js "  \x7b ") = true := by
      rw [startsWith_iff]
      exact ⟨textField name value ++ (js "," ++ tail), by rw [← htail, entryPrefix]; simp⟩
    rw [(hfixed l hl).2] at hopen
    cases hopen
  rw [entriesNamed, hlines, List.filter_append, List.filter_append, List.filter_map]
  have hempty : ∀ ls : List JsString, (∀ l ∈ ls, startsWith l (entryPrefix name value) = false) →
      ls.filter (fun l => startsWith l (entryPrefix name value)) = [] := by
    intro ls hls
    rw [List.filter_eq_nil_iff]
    exact fun l hl => Bool.eq_false_iff.mp (hls l hl)
  rw [hempty before (fun l hl => hnone l (List.mem_append_left _ hl)),
    hempty after (fun l hl => hnone l (List.mem_append_right _ hl)), List.nil_append, List.append_nil]
  congr 1
  refine List.filter_congr fun x _ => ?_
  obtain ⟨_, fields, hne, heq⟩ := hline x
  rw [Function.comp_apply, heq, Bool.eq_iff_iff, startsWith_entryLine hne, decide_eq_true_eq]

end Text

end Appspine.Frontend
