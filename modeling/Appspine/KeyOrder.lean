import Appspine.JsonCanonical

/-!
# Values up to the order of their keys

When two values differ in the order of object keys only, and what of this the sorted
copies, the copies without `__proto__` and the copies with other numbers keep.
-/
namespace Appspine.JsonText
open JsText StableSort InsertionMap

variable {N : Type}

section Reordering

/-- The second value is the first with the members of its objects in another order. -/
inductive Reordering : Json N → Json N → Prop
  | refl (j : Json N) : Reordering j j
  | trans {i j k : Json N} (hij : Reordering i j) (hjk : Reordering j k) : Reordering i k
  | members {ms ms' : List (JsString × Json N)} (h : ms.Perm ms') : Reordering (.obj ms) (.obj ms')
  | item {i j : Json N} (before after : List (Json N)) (h : Reordering i j) :
      Reordering (.arr (before ++ i :: after)) (.arr (before ++ j :: after))
  | member {i j : Json N} (before after : List (JsString × Json N)) (key : JsString)
      (h : Reordering i j) :
      Reordering (.obj (before ++ (key, i) :: after)) (.obj (before ++ (key, j) :: after))

lemma Reordering.symm {i j : Json N} (h : Reordering i j) : Reordering j i := by
  induction h with
  | refl j => exact .refl j
  | trans _ _ hij hjk => exact .trans hjk hij
  | members h => exact .members h.symm
  | item before after _ ih => exact .item before after ih
  | member before after key _ ih => exact .member before after key ih

lemma reordering_items {f : Json N → Json N} {items : List (Json N)}
    (h : ∀ j ∈ items, Reordering j (f j)) (before : List (Json N)) :
    Reordering (.arr (before ++ items)) (.arr (before ++ items.map f)) := by
  induction items generalizing before with
  | nil => exact .refl _
  | cons j items ih =>
    have hrest := ih (fun i hi => h i (by simp [hi])) (before ++ [f j])
    rw [List.append_assoc, List.append_assoc] at hrest
    exact (Reordering.item before items (h j (by simp))).trans hrest

lemma reordering_values {f : Json N → Json N} {members : List (JsString × Json N)}
    (h : ∀ m ∈ members, Reordering m.2 (f m.2)) (before : List (JsString × Json N)) :
    Reordering (.obj (before ++ members))
      (.obj (before ++ members.map (fun m => (m.1, f m.2)))) := by
  induction members generalizing before with
  | nil => exact .refl _
  | cons m members ih =>
    have hrest := ih (fun m' hm => h m' (by simp [hm])) (before ++ [(m.1, f m.2)])
    rw [List.append_assoc, List.append_assoc] at hrest
    exact (Reordering.member before members m.1 (h m (by simp))).trans hrest

lemma reordering_obj {f : Json N → Json N} {ms ms' : List (JsString × Json N)}
    (h : ∀ m ∈ ms, Reordering m.2 (f m.2)) (hperm : ms'.Perm (ms.map (fun m => (m.1, f m.2)))) :
    Reordering (.obj ms) (.obj ms') :=
  (reordering_values h []).trans (.members hperm.symm)

lemma reordering_sortMembers (j : Json N) : Reordering j (sortMembers j) := by
  induction j with
  | null => exact .refl _
  | bool b => exact .refl _
  | num n => exact .refl _
  | str s => exact .refl _
  | arr items ih =>
    rw [sortMembers, sortMembersItems_eq]
    exact reordering_items ih []
  | obj members ih =>
    rw [sortMembers, sortMembersEntries_eq]
    exact reordering_obj ih (sortBy_perm _ _)

lemma reordering_rebuild {j : Json N} (h : uniqueKeys j = true) : Reordering j (rebuild j) := by
  induction j with
  | null => exact .refl _
  | bool b => exact .refl _
  | num n => exact .refl _
  | str s => exact .refl _
  | arr items ih =>
    rw [uniqueKeys_arr] at h
    rw [rebuild, rebuildItems_eq]
    exact reordering_items (fun j hj => ih j hj (h j hj)) []
  | obj members ih =>
    rw [uniqueKeys_obj] at h
    rw [rebuild, rebuildMembers_eq]
    exact reordering_obj (fun m hm => ih m hm (h.2 m hm))
      (ofEntries_perm (by rw [keys_map_value]; exact h.1))

lemma Reordering.uniqueKeys {i j : Json N} (h : Reordering i j) :
    uniqueKeys i = true ↔ uniqueKeys j = true := by
  induction h with
  | refl j => rfl
  | trans _ _ hij hjk => exact hij.trans hjk
  | members h =>
    rw [uniqueKeys_obj, uniqueKeys_obj, (h.map Prod.fst).nodup_iff]
    simp only [h.mem_iff]
  | item before after _ ih =>
    simp only [uniqueKeys_arr, List.mem_append, List.mem_cons, or_imp, forall_and, forall_eq, ih]
  | member before after key _ ih =>
    simp only [uniqueKeys_obj, List.map_append, List.map_cons, List.mem_append, List.mem_cons,
      or_imp, forall_and, forall_eq, ih]

/-- Sorting forgets the order of the keys. -/
lemma Reordering.sortMembers_eq {i j : Json N} (h : Reordering i j)
    (hunique : JsonText.uniqueKeys i = true) : sortMembers i = sortMembers j := by
  induction h with
  | refl j => rfl
  | trans hij _ ihij ihjk => exact (ihij hunique).trans (ihjk (hij.uniqueKeys.mp hunique))
  | @members ms ms' h =>
    rw [uniqueKeys_obj] at hunique
    simp only [sortMembers, sortMembersEntries_eq]
    refine congrArg Json.obj (sortBy_eq_of_perm (h.map _) ?_)
    have hnodup : ((ms.map (fun m => (m.1, sortMembers m.2))).map Prod.fst).Nodup := by
      rw [keys_map_value]
      exact hunique.1
    intro a ha b hb hab
    exact List.inj_on_of_nodup_map hnodup ha hb hab
  | item before after _ ih =>
    rw [uniqueKeys_arr] at hunique
    have hitem := ih (hunique _ (by simp))
    simp only [sortMembers, sortMembersItems_eq, List.map_append, List.map_cons, hitem]
  | member before after key _ ih =>
    rw [uniqueKeys_obj] at hunique
    have hvalue := ih (hunique.2 (key, _) (by simp))
    simp only [sortMembers, sortMembersEntries_eq, List.map_append, List.map_cons, hvalue]

/-- Values with the same sorted copy differ in the order of keys only. -/
theorem reordering_iff {i j : Json N} (h : uniqueKeys i = true) :
    Reordering i j ↔ sortMembers i = sortMembers j := by
  refine ⟨fun hij => hij.sortMembers_eq h, fun heq => ?_⟩
  exact (reordering_sortMembers i).trans (heq ▸ (reordering_sortMembers j).symm)

end Reordering

section Numbers

variable {M : Type}

mutual

/-- The value with every number in it replaced. -/
def Json.mapNumbers (f : M → N) : Json M → Json N
  | .null => .null
  | .bool b => .bool b
  | .num n => .num (f n)
  | .str s => .str s
  | .arr items => .arr (mapNumbersItems f items)
  | .obj members => .obj (mapNumbersMembers f members)

def Json.mapNumbersItems (f : M → N) : List (Json M) → List (Json N)
  | [] => []
  | j :: items => j.mapNumbers f :: mapNumbersItems f items

def Json.mapNumbersMembers (f : M → N) : List (JsString × Json M) → List (JsString × Json N)
  | [] => []
  | (k, v) :: members => (k, v.mapNumbers f) :: mapNumbersMembers f members

end

lemma mapNumbersItems_eq (f : M → N) (items : List (Json M)) :
    Json.mapNumbersItems f items = items.map (Json.mapNumbers f) := by
  induction items with
  | nil => rfl
  | cons j items ih => rw [Json.mapNumbersItems, ih, List.map_cons]

lemma mapNumbersMembers_eq (f : M → N) (members : List (JsString × Json M)) :
    Json.mapNumbersMembers f members = members.map (fun m => (m.1, m.2.mapNumbers f)) := by
  induction members with
  | nil => rfl
  | cons m members ih => rw [Json.mapNumbersMembers, ih, List.map_cons]

lemma uniqueKeys_mapNumbers (f : M → N) (j : Json M) :
    uniqueKeys (j.mapNumbers f) = uniqueKeys j := by
  induction j with
  | null => rfl
  | bool b => rfl
  | num n => rfl
  | str s => rfl
  | arr items ih =>
    rw [Json.mapNumbers, mapNumbersItems_eq, Bool.eq_iff_iff, uniqueKeys_arr, uniqueKeys_arr]
    simp only [List.forall_mem_map]
    exact forall₂_congr (fun j hj => by rw [ih j hj])
  | obj members ih =>
    rw [Json.mapNumbers, mapNumbersMembers_eq, Bool.eq_iff_iff, uniqueKeys_obj, uniqueKeys_obj]
    simp only [List.forall_mem_map, List.map_map, Function.comp_def]
    exact and_congr_right (fun _ => forall₂_congr (fun m hm => by rw [ih m hm]))

lemma sortMembers_mapNumbers (f : M → N) (j : Json M) :
    sortMembers (j.mapNumbers f) = (sortMembers j).mapNumbers f := by
  induction j with
  | null => rfl
  | bool b => rfl
  | num n => rfl
  | str s => rfl
  | arr items ih =>
    simp only [Json.mapNumbers, mapNumbersItems_eq, sortMembers, sortMembersItems_eq, List.map_map]
    exact congrArg Json.arr (List.map_congr_left ih)
  | obj members ih =>
    simp only [Json.mapNumbers, mapNumbersMembers_eq, sortMembers, sortMembersEntries_eq]
    rw [sortBy_map, sortBy_map, sortBy_map, List.map_map, List.map_map]
    refine congrArg Json.obj (List.map_congr_left fun m hm => ?_)
    simp only [Function.comp_apply, ih m (mem_sortBy.mp hm)]

lemma mapNumbers_injective {f : M → N} (hf : Function.Injective f) :
    Function.Injective (Json.mapNumbers f) := by
  intro i
  induction i with
  | null => intro j h; cases j <;> first | rfl | cases h
  | bool b =>
    intro j h
    cases j with
    | bool b' => exact congrArg Json.bool (Json.bool.inj h)
    | _ => cases h
  | num n =>
    intro j h
    cases j with
    | num n' => exact congrArg Json.num (hf (Json.num.inj h))
    | _ => cases h
  | str s =>
    intro j h
    cases j with
    | str s' => exact congrArg Json.str (Json.str.inj h)
    | _ => cases h
  | arr items ih =>
    intro j h
    cases j with
    | arr items' =>
      simp only [Json.mapNumbers, mapNumbersItems_eq, Json.arr.injEq] at h
      refine congrArg Json.arr ?_
      induction items generalizing items' with
      | nil => cases items' with
        | nil => rfl
        | cons j' items' => cases h
      | cons j items ihitems => cases items' with
        | nil => cases h
        | cons j' items' =>
          rw [List.map_cons, List.map_cons, List.cons.injEq] at h
          rw [ih j (by simp) h.1, ihitems (fun i hi => ih i (by simp [hi])) items' h.2]
    | _ => cases h
  | obj members ih =>
    intro j h
    cases j with
    | obj members' =>
      simp only [Json.mapNumbers, mapNumbersMembers_eq, Json.obj.injEq] at h
      refine congrArg Json.obj ?_
      induction members generalizing members' with
      | nil => cases members' with
        | nil => rfl
        | cons m' members' => cases h
      | cons m members ihmembers => cases members' with
        | nil => cases h
        | cons m' members' =>
          rw [List.map_cons, List.map_cons, List.cons.injEq, Prod.mk.injEq] at h
          have hvalue := ih m (by simp) h.1.2
          rw [Prod.ext h.1.1 hvalue, ihmembers (fun m hm => ih m (by simp [hm])) members' h.2]
    | _ => cases h

lemma reordering_mapNumbers {f : M → N} (hf : Function.Injective f) {i j : Json M}
    (h : uniqueKeys i = true) :
    Reordering (i.mapNumbers f) (j.mapNumbers f) ↔ Reordering i j := by
  rw [reordering_iff h, reordering_iff (by rwa [uniqueKeys_mapNumbers]), sortMembers_mapNumbers,
    sortMembers_mapNumbers, (mapNumbers_injective hf).eq_iff]

lemma set_map (f : M → N) (entries : List (JsString × M)) (key : JsString) (value : M) :
    InsertionMap.set (entries.map (fun e => (e.1, f e.2))) key (f value) =
      (InsertionMap.set entries key value).map (fun e => (e.1, f e.2)) := by
  have hkeys : keys (entries.map (fun e => (e.1, f e.2))) = keys entries := by
    simp [keys, List.map_map, Function.comp_def]
  unfold InsertionMap.set
  rw [hkeys]
  by_cases hkey : key ∈ keys entries
  · rw [if_pos hkey, if_pos hkey, List.map_map, List.map_map]
    refine List.map_congr_left fun e _ => ?_
    simp only [Function.comp_apply]
    split_ifs <;> rfl
  · rw [if_neg hkey, if_neg hkey, List.map_append]
    rfl

lemma ofEntries_map (f : M → N) (entries : List (JsString × M)) :
    ofEntries (entries.map (fun e => (e.1, f e.2))) =
      (ofEntries entries).map (fun e => (e.1, f e.2)) := by
  have hfold : ∀ acc : List (JsString × M),
      (entries.map (fun e => (e.1, f e.2))).foldl (fun ms e => InsertionMap.set ms e.1 e.2)
        (acc.map (fun e => (e.1, f e.2))) =
      (entries.foldl (fun ms e => InsertionMap.set ms e.1 e.2) acc).map (fun e => (e.1, f e.2)) := by
    induction entries with
    | nil => intro acc; rfl
    | cons e entries ih =>
      intro acc
      rw [List.map_cons, List.foldl_cons, List.foldl_cons, ← ih, set_map]
  have hnil := hfold []
  rw [List.map_nil] at hnil
  unfold ofEntries enumerationOrder
  rw [hnil, List.map_append, List.filter_map, List.filter_map, sortBy_map]
  rfl

lemma assignAll_map (f : Json M → Json N) (entries : List (JsString × Json M)) :
    assignAll (entries.map (fun e => (e.1, f e.2))) =
      (assignAll entries).map (fun e => (e.1, f e.2)) := by
  unfold assignAll
  rw [List.filter_map, ← ofEntries_map]
  rfl

end Numbers

section WithoutProto

mutual

/-- The value without the members named `__proto__`. -/
def withoutProto : Json N → Json N
  | .null => .null
  | .bool b => .bool b
  | .num n => .num n
  | .str s => .str s
  | .arr items => .arr (withoutProtoItems items)
  | .obj members => .obj (withoutProtoMembers members)

def withoutProtoItems : List (Json N) → List (Json N)
  | [] => []
  | j :: items => withoutProto j :: withoutProtoItems items

def withoutProtoMembers : List (JsString × Json N) → List (JsString × Json N)
  | [] => []
  | (k, v) :: members =>
    if k = js "__proto__" then withoutProtoMembers members
    else (k, withoutProto v) :: withoutProtoMembers members

end

lemma withoutProtoItems_eq (items : List (Json N)) :
    withoutProtoItems items = items.map withoutProto := by
  induction items with
  | nil => rfl
  | cons j items ih => rw [withoutProtoItems, ih, List.map_cons]

lemma withoutProtoMembers_eq (members : List (JsString × Json N)) :
    withoutProtoMembers members =
      (members.filter (fun m => m.1 ≠ js "__proto__")).map (fun m => (m.1, withoutProto m.2)) := by
  induction members with
  | nil => rfl
  | cons m members ih =>
    rw [withoutProtoMembers, ih, List.filter_cons]
    by_cases hkey : m.1 = js "__proto__"
    · simp [hkey]
    · simp [hkey]

lemma uniqueKeys_withoutProto {j : Json N} (h : uniqueKeys j = true) :
    uniqueKeys (withoutProto j) = true := by
  induction j with
  | null => rfl
  | bool b => rfl
  | num n => rfl
  | str s => rfl
  | arr items ih =>
    rw [uniqueKeys_arr] at h
    rw [withoutProto, withoutProtoItems_eq, uniqueKeys_arr, List.forall_mem_map]
    exact fun j hj => ih j hj (h j hj)
  | obj members ih =>
    rw [uniqueKeys_obj] at h
    rw [withoutProto, withoutProtoMembers_eq, uniqueKeys_obj, List.forall_mem_map, keys_map_value]
    refine ⟨h.1.sublist (List.filter_sublist.map _), fun m hm => ?_⟩
    have hmem := (List.mem_filter.mp hm).1
    exact ih m hmem (h.2 m hmem)

lemma Reordering.withoutProto {i j : Json N} (h : Reordering i j) :
    Reordering (withoutProto i) (withoutProto j) := by
  induction h with
  | refl j => exact .refl _
  | trans _ _ hij hjk => exact hij.trans hjk
  | members h =>
    simp only [JsonText.withoutProto, withoutProtoMembers_eq]
    exact .members ((h.filter _).map _)
  | item before after _ ih =>
    simp only [JsonText.withoutProto, withoutProtoItems_eq, List.map_append, List.map_cons]
    exact .item _ _ ih
  | member before after key _ ih =>
    simp only [JsonText.withoutProto, withoutProtoMembers_eq, List.filter_append, List.map_append,
      List.filter_cons]
    by_cases hkey : key = js "__proto__"
    · simp only [hkey, ne_eq, not_true_eq_false, decide_false, Bool.false_eq_true, if_false]
      exact .refl _
    · simp only [hkey, ne_eq, not_false_eq_true, decide_true, if_true, List.map_cons]
      exact .member _ _ key ih

lemma withoutProto_mapNumbers {M : Type} (f : M → N) (j : Json M) :
    withoutProto (j.mapNumbers f) = (withoutProto j).mapNumbers f := by
  induction j with
  | null => rfl
  | bool b => rfl
  | num n => rfl
  | str s => rfl
  | arr items ih =>
    simp only [Json.mapNumbers, mapNumbersItems_eq, withoutProto, withoutProtoItems_eq,
      List.map_map]
    exact congrArg Json.arr (List.map_congr_left ih)
  | obj members ih =>
    simp only [Json.mapNumbers, mapNumbersMembers_eq, withoutProto, withoutProtoMembers_eq,
      List.filter_map, List.map_map]
    refine congrArg Json.obj (List.map_congr_left fun m hm => ?_)
    simp only [Function.comp_apply, ih m (List.mem_filter.mp hm).1]

lemma Reordering.mapNumbers {M : Type} (f : M → N) {i j : Json M} (h : Reordering i j) :
    Reordering (i.mapNumbers f) (j.mapNumbers f) := by
  induction h with
  | refl j => exact .refl _
  | trans _ _ hij hjk => exact hij.trans hjk
  | members h =>
    simp only [Json.mapNumbers, mapNumbersMembers_eq]
    exact .members (h.map _)
  | item before after _ ih =>
    simp only [Json.mapNumbers, mapNumbersItems_eq, List.map_append, List.map_cons]
    exact .item _ _ ih
  | member before after key _ ih =>
    simp only [Json.mapNumbers, mapNumbersMembers_eq, List.map_append, List.map_cons]
    exact .member _ _ key ih

/-- The loader's copy: sorted, in enumeration order, and without `__proto__`. -/
lemma canonicalize_eq (j : Json N) : canonicalize j = canonicalJsonValue (withoutProto j) := by
  unfold canonicalJsonValue
  induction j with
  | null => rfl
  | bool b => rfl
  | num n => rfl
  | str s => rfl
  | arr items ih =>
    simp only [canonicalize, withoutProto, sortMembers, rebuild, canonicalizeItems_eq,
      withoutProtoItems_eq, sortMembersItems_eq, rebuildItems_eq, List.map_map]
    exact congrArg Json.arr (List.map_congr_left ih)
  | obj members ih =>
    simp only [canonicalize, withoutProto, sortMembers, rebuild, canonicalizeMembers_eq,
      withoutProtoMembers_eq, sortMembersEntries_eq, rebuildMembers_eq, assignAll]
    refine congrArg (fun entries => Json.obj (ofEntries entries)) ?_
    rw [sortBy_map, sortBy_map, sortBy_map, List.map_map, List.map_map, List.filter_map,
      ← sortBy_filter]
    refine List.map_congr_left fun m hm => ?_
    have hmem := (List.mem_filter.mp (mem_sortBy.mp hm)).1
    simp only [Function.comp_apply, ih m hmem]

end WithoutProto

section Texts

variable [JsonNumber N]

/-- Printed texts determine values up to the order of keys. -/
lemma reordering_of_stringify_eq {i j : Json N} (hi : uniqueKeys i = true)
    (hj : uniqueKeys j = true) (h : stringify i = stringify j) : Reordering i j := by
  have hrebuild := reordering_rebuild hi
  rw [rebuild_eq_of_stringify_eq h] at hrebuild
  exact hrebuild.trans (reordering_rebuild hj).symm

/-- The contracts' canonical text sees values up to the order of keys. -/
theorem canonicalJson_eq_iff_reordering {i j : Json N} (hi : uniqueKeys i = true)
    (hj : uniqueKeys j = true) : canonicalJson i = canonicalJson j ↔ Reordering i j := by
  rw [canonicalJson_eq_stringify, canonicalJson_eq_stringify]
  constructor
  · intro h
    have hsorted := reordering_of_stringify_eq (uniqueKeys_sortMembers hi)
      (uniqueKeys_sortMembers hj) h
    exact (reordering_sortMembers i).trans (hsorted.trans (reordering_sortMembers j).symm)
  · intro h
    rw [h.sortMembers_eq hi]

/-- The loader's canonical text sees values up to the order of keys, without `__proto__`. -/
theorem canonicalJsonString_eq_iff {i j : Json N} (hi : uniqueKeys i = true)
    (hj : uniqueKeys j = true) : canonicalJsonString i = canonicalJsonString j ↔
      Reordering (withoutProto i) (withoutProto j) := by
  have hcopy : ∀ k : Json N, uniqueKeys k = true →
      Reordering (withoutProto k) (canonicalJsonValue (withoutProto k)) := fun k hk =>
    (reordering_sortMembers _).trans
      (reordering_rebuild (uniqueKeys_sortMembers (uniqueKeys_withoutProto hk)))
  rw [canonicalJsonString, canonicalJsonString, canonicalize_eq, canonicalize_eq]
  constructor
  · intro h
    have hunique : ∀ k : Json N, uniqueKeys k = true →
        uniqueKeys (canonicalJsonValue (withoutProto k)) = true := fun k hk =>
      uniqueKeys_canonicalJsonValue (uniqueKeys_withoutProto hk)
    have hcopies := reordering_of_stringify_eq (hunique i hi) (hunique j hj) h
    exact (hcopy i hi).trans (hcopies.trans (hcopy j hj).symm)
  · intro h
    rw [canonicalJsonValue, canonicalJsonValue, h.sortMembers_eq (uniqueKeys_withoutProto hi)]

end Texts

end Appspine.JsonText
