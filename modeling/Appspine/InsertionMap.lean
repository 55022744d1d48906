import Appspine.StableSort

/-!
# Insertion-ordered maps

A JavaScript `Map` is its list of entries in insertion order: setting an existing
key keeps its place, a new key goes to the end. `group` is the idiom that
collects the values of a sequence of pairs under their keys.
-/
namespace Appspine.InsertionMap
open StableSort

variable {κ α : Type*} [DecidableEq κ]

abbrev Entries (κ α : Type*) := List (κ × α)

def get (m : Entries κ α) (k : κ) : Option α := (m.find? (fun e => e.1 = k)).map Prod.snd

def keys (m : Entries κ α) : List κ := m.map Prod.fst

def has (m : Entries κ α) (k : κ) : Bool := decide (k ∈ keys m)

def set (m : Entries κ α) (k : κ) (v : α) : Entries κ α :=
  if k ∈ keys m then m.map (fun e => if e.1 = k then (k, v) else e) else m ++ [(k, v)]

/-- Changes the value under `k` in place, when there is one. -/
def modify (m : Entries κ α) (k : κ) (f : α → α) : Entries κ α :=
  m.map (fun e => if e.1 = k then (e.1, f e.2) else e)

/-- `const list = m.get(k) ?? []; list.push(v); m.set(k, list)`. -/
def push (m : Entries κ (List α)) (k : κ) (v : α) : Entries κ (List α) :=
  set m k ((get m k).getD [] ++ [v])

def group (ps : List (κ × α)) : Entries κ (List α) :=
  ps.foldl (fun m p => push m p.1 p.2) []

/-- The values paired with `k`, in order. -/
def valuesAt (ps : List (κ × α)) (k : κ) : List α := (ps.filter (fun p => p.1 = k)).map Prod.snd

/-- `[...new Set(xs)]`. -/
def distinct (xs : List κ) : List κ := keys (group (xs.map (fun k => (k, ()))))

@[simp] theorem get_nil (k : κ) : get ([] : Entries κ α) k = none := rfl

theorem has_iff {m : Entries κ α} {k : κ} : has m k = true ↔ k ∈ keys m := by
  simp [has]

theorem get_cons (e : κ × α) (m : Entries κ α) (k : κ) :
    get (e :: m) k = if e.1 = k then some e.2 else get m k := by
  by_cases h : e.1 = k <;> simp [get, h]

theorem get_eq_none {m : Entries κ α} {k : κ} : get m k = none ↔ k ∉ keys m := by
  induction m with
  | nil => simp [keys]
  | cons e m ih =>
    rw [get_cons]
    by_cases h : e.1 = k
    · simp [h, keys]
    · simpa [h, keys, Ne.symm h] using ih

theorem mem_keys_of_get {m : Entries κ α} {k : κ} {v : α} (h : get m k = some v) : k ∈ keys m := by
  by_contra hk
  rw [get_eq_none.mpr hk] at h
  cases h

theorem mem_of_get {m : Entries κ α} {k : κ} {v : α} (h : get m k = some v) : (k, v) ∈ m := by
  induction m with
  | nil => simp at h
  | cons e m ih =>
    rw [get_cons] at h
    by_cases he : e.1 = k
    · simp only [he, if_true, Option.some.injEq] at h
      subst he h
      simp
    · simp only [he, if_false] at h
      exact List.mem_cons_of_mem _ (ih h)

/-- With distinct keys, an entry is found under its key. -/
theorem get_of_mem {m : Entries κ α} (hm : (keys m).Nodup) {k : κ} {v : α} (h : (k, v) ∈ m) :
    get m k = some v := by
  induction m with
  | nil => simp at h
  | cons e m ih =>
    simp only [keys, List.map_cons, List.nodup_cons] at hm
    rw [get_cons]
    rcases List.mem_cons.mp h with rfl | h
    · simp
    · have hne : e.1 ≠ k := by
        rintro rfl
        exact hm.1 (List.mem_map.mpr ⟨(e.1, v), h, rfl⟩)
      simp [hne, ih hm.2 h]

/-- Entries with distinct keys are looked up alike in any arrangement. -/
theorem get_perm {m m' : Entries κ α} (hm : (keys m).Nodup) (h : m.Perm m') (k : κ) :
    get m k = get m' k := by
  have hm' : (keys m').Nodup := (h.map Prod.fst).nodup_iff.mp hm
  cases hg : get m k with
  | some v => exact (get_of_mem hm' (h.mem_iff.mp (mem_of_get hg))).symm
  | none =>
    rw [get_eq_none] at hg
    exact (get_eq_none.mpr (fun hk => hg ((h.map Prod.fst).mem_iff.mpr hk))).symm

/-- Entries with the same keys and the same values under them are the same. -/
theorem eq_of_get_eq {m m' : Entries κ α} (hm : (keys m).Nodup) (hkeys : keys m = keys m')
    (hget : ∀ k, get m k = get m' k) : m = m' := by
  have hpairs : ∀ {m : Entries κ α}, (keys m).Nodup →
      m.map some = (keys m).map fun k => (get m k).map fun v => (k, v) := by
    intro m hm
    rw [keys, List.map_map]
    refine List.map_congr_left fun e he => ?_
    rw [Function.comp_apply, get_of_mem hm (show (e.1, e.2) ∈ m from he), Option.map_some]
  refine List.map_injective_iff.mpr (Option.some_injective _) ?_
  rw [hpairs hm, hpairs (hkeys ▸ hm), ← hkeys]
  exact List.map_congr_left fun k _ => by rw [hget k]

theorem get_map {β : Type*} (f : α → β) (m : Entries κ α) (k : κ) :
    get (m.map (fun e => (e.1, f e.2))) k = (get m k).map f := by
  induction m with
  | nil => rfl
  | cons e m ih =>
    rw [List.map_cons, get_cons, get_cons, ih]
    split_ifs <;> rfl

theorem get_filter_key (p : κ → Bool) (m : Entries κ α) {k : κ} (hk : p k = true) :
    get (m.filter (fun e => p e.1)) k = get m k := by
  induction m with
  | nil => rfl
  | cons e m ih =>
    rw [List.filter_cons, get_cons]
    by_cases he : p e.1 = true
    · rw [if_pos he, get_cons, ih]
    · have hne : e.1 ≠ k := by
        rintro rfl
        exact he hk
      rw [if_neg he, if_neg hne, ih]

theorem get_append (m m' : Entries κ α) (k : κ) : get (m ++ m') k = (get m k).or (get m' k) := by
  induction m with
  | nil => simp
  | cons e m ih =>
    rw [List.cons_append, get_cons, get_cons, ih]
    split_ifs <;> rfl

theorem get_replace (m : Entries κ α) (k k' : κ) (v : α) :
    get (m.map (fun e => if e.1 = k then (k, v) else e)) k' =
      if k' = k ∧ k ∈ keys m then some v else get m k' := by
  induction m with
  | nil => simp [keys]
  | cons e m ih =>
    rw [List.map_cons, get_cons, get_cons, ih]
    by_cases he : e.1 = k
    · by_cases hk : k = k'
      · subst hk; simp [he, keys]
      · simp [he, hk, Ne.symm hk]
    · by_cases hk : k' = k
      · have hkeys : k ∈ keys (e :: m) ↔ k ∈ keys m := by simp [keys, Ne.symm he]
        simp [he, hk, hkeys]
      · simp [he, hk]

theorem get_set (m : Entries κ α) (k k' : κ) (v : α) :
    get (set m k v) k' = if k' = k then some v else get m k' := by
  unfold set
  split_ifs with hmem hk hk
  · simp [get_replace, hmem, hk]
  · simp [get_replace, hk]
  · rw [get_append, hk, get_eq_none.mpr hmem]; simp [get_cons]
  · rw [get_append]; simp [get_cons, Ne.symm hk]

lemma get_modify (m : Entries κ α) (k k' : κ) (f : α → α) :
    get (modify m k f) k' = if k' = k then (get m k').map f else get m k' := by
  induction m with
  | nil => simp [modify]
  | cons e m ih =>
    rw [modify, List.map_cons, ← modify, get_cons, get_cons, ih]
    by_cases he : e.1 = k
    · by_cases hk : k' = k
      · simp [he, hk]
      · have hne : ¬ k = k' := fun h => hk h.symm
        simp [he, hk, hne]
    · by_cases hk : k' = k
      · subst hk
        simp [he]
      · simp [he, hk]

theorem keys_set (m : Entries κ α) (k : κ) (v : α) :
    keys (set m k v) = if k ∈ keys m then keys m else keys m ++ [k] := by
  unfold set
  split_ifs with h
  · simp only [keys, List.map_map]
    apply List.map_congr_left
    intro e _
    by_cases he : e.1 = k <;> simp [he]
  · simp [keys]

theorem mem_keys_set {m : Entries κ α} {k k' : κ} {v : α} :
    k' ∈ keys (set m k v) ↔ k' = k ∨ k' ∈ keys m := by
  rw [keys_set]
  split_ifs with h
  · constructor
    · exact Or.inr
    · rintro (rfl | h')
      · exact h
      · exact h'
  · simp [or_comm]

theorem nodup_keys_set {m : Entries κ α} (h : (keys m).Nodup) (k : κ) (v : α) :
    (keys (set m k v)).Nodup := by
  rw [keys_set]
  split_ifs with hk
  · exact h
  · exact h.append (List.nodup_singleton k) (by simpa using hk)

lemma mem_set {m : Entries κ α} {k : κ} {v : α} {e : κ × α}
    (h : e ∈ set m k v) : e = (k, v) ∨ e ∈ m := by
  unfold set at h
  split_ifs at h with hk
  · obtain ⟨e', he', rfl⟩ := List.mem_map.mp h
    by_cases hkey : e'.1 = k
    · exact Or.inl (if_pos hkey)
    · exact Or.inr (by rwa [if_neg hkey])
  · simpa [or_comm] using h

section Overlay

lemma set_perm {m : Entries κ α} (hm : (keys m).Nodup) (k : κ) (v : α) :
    (set m k v).Perm ((k, v) :: m.filter (fun e => e.1 ≠ k)) := by
  induction m with
  | nil => exact List.Perm.refl _
  | cons e m ih =>
    simp only [keys, List.map_cons, List.nodup_cons] at hm
    obtain ⟨hnew, hrest⟩ := hm
    by_cases he : e.1 = k
    · subst he
      have hne : ∀ e' ∈ m, e'.1 ≠ e.1 := by
        intro e' he' heq
        exact hnew (List.mem_map.mpr ⟨e', he', heq⟩)
      have hkeep : m.map (fun e' => if e'.1 = e.1 then (e.1, v) else e') = m := by
        conv_rhs => rw [← List.map_id m]
        refine List.map_congr_left ?_
        intro e' he'
        exact if_neg (hne e' he')
      have hfilter : m.filter (fun e' => e'.1 ≠ e.1) = m :=
        List.filter_eq_self.mpr (fun e' he' => decide_eq_true (hne e' he'))
      rw [List.filter_cons_of_neg (by simp), hfilter]
      simp [set, keys, hkeep]
    · have hcons : set (e :: m) k v = e :: set m k v := by
        unfold set
        have hiff : k ∈ keys (e :: m) ↔ k ∈ keys m := by simp [keys, Ne.symm he]
        by_cases hk : k ∈ keys m
        · rw [if_pos (hiff.mpr hk), if_pos hk, List.map_cons, if_neg he]
        · rw [if_neg (fun h => hk (hiff.mp h)), if_neg hk, List.cons_append]
      rw [hcons, List.filter_cons_of_pos (by simpa using he)]
      exact ((ih hrest).cons e).trans (List.Perm.swap _ _ _)

/-- Entries layered on a map: the entries, and what the map has under other keys. -/
lemma overlay_perm {es m : Entries κ α} (hm : (keys m).Nodup) (hes : (keys es).Nodup) :
    (es.foldl (fun m e => set m e.1 e.2) m).Perm
      (es ++ m.filter (fun e => e.1 ∉ keys es)) := by
  induction es generalizing m with
  | nil => simp [keys]
  | cons e es ih =>
    simp only [keys, List.map_cons, List.nodup_cons] at hes
    obtain ⟨hnew, hrest⟩ := hes
    have hfirst : decide (e.1 ∉ keys es) = true := decide_eq_true hnew
    have hset := (set_perm hm e.1 e.2).filter (fun x => decide (x.1 ∉ keys es))
    rw [List.filter_cons_of_pos (p := fun x : κ × α => decide (x.1 ∉ keys es)) hfirst,
      List.filter_filter] at hset
    have hboth : ∀ x ∈ m, (decide (x.1 ∉ keys es) && decide (x.1 ≠ e.1)) =
        decide (x.1 ∉ keys (e :: es)) := by
      intro x _
      have hcons : keys (e :: es) = e.1 :: keys es := rfl
      rw [← Bool.decide_and, decide_eq_decide, hcons, List.mem_cons, not_or, and_comm]
    rw [List.filter_congr hboth] at hset
    refine (ih (nodup_keys_set hm _ _) hrest).trans ((hset.append_left es).trans ?_)
    exact List.perm_middle

/-- Entries layered on a map, in order: first its own keys in their places, then the new ones. -/
lemma overlay_eq {es : Entries κ α} (m : Entries κ α) (hes : (keys es).Nodup) :
    es.foldl (fun m e => set m e.1 e.2) m =
      m.map (fun e => (e.1, (get es e.1).getD e.2)) ++
        es.filter fun e => e.1 ∉ keys m := by
  induction es generalizing m with
  | nil => simp
  | cons e es ih =>
    have hcons : keys (e :: es) = e.1 :: keys es := rfl
    rw [hcons, List.nodup_cons] at hes
    have hnone : get es e.1 = none := get_eq_none.mpr hes.1
    rw [List.foldl_cons, ih _ hes.2, set]
    by_cases hmem : e.1 ∈ keys m
    · have hkeys : keys (m.map fun x => if x.1 = e.1 then (e.1, e.2) else x) = keys m := by
        rw [keys, List.map_map]
        refine List.map_congr_left fun x _ => ?_
        simp only [Function.comp_apply]
        split_ifs with hx
        · exact hx.symm
        · rfl
      rw [if_pos hmem, hkeys, List.map_map, List.filter_cons_of_neg (by simpa using hmem)]
      congr 1
      refine List.map_congr_left fun x _ => ?_
      simp only [Function.comp_apply, get_cons]
      by_cases hx : x.1 = e.1
      · rw [if_pos hx, if_pos hx.symm, hnone, hx]
        rfl
      · rw [if_neg hx, if_neg (Ne.symm hx)]
    · have hself : keys (m ++ [(e.1, e.2)]) = keys m ++ [e.1] := by simp [keys]
      have hold : m.map (fun x => (x.1, (get es x.1).getD x.2)) =
          m.map fun x => (x.1, (get (e :: es) x.1).getD x.2) := by
        refine List.map_congr_left fun x hx => ?_
        have hne : e.1 ≠ x.1 := fun heq => hmem (heq ▸ List.mem_map_of_mem hx)
        rw [get_cons, if_neg hne]
      have hnew : es.filter (fun x => x.1 ∉ keys m ++ [e.1]) = es.filter fun x => x.1 ∉ keys m := by
        refine List.filter_congr fun x hx => decide_eq_decide.mpr ?_
        have hne : x.1 ≠ e.1 := fun heq => hes.1 (heq ▸ List.mem_map_of_mem hx)
        rw [List.mem_append, not_or, List.mem_singleton]
        exact and_iff_left hne
      rw [if_neg hmem, hself, hnew, List.map_append, List.map_cons, List.map_nil, hnone, hold,
        List.filter_cons_of_pos (by simpa using hmem), List.append_assoc]
      rfl

end Overlay

section Group

/-- Setting distinct new keys one after another appends them. -/
lemma foldl_set_of_nodup (entries acc : Entries κ α)
    (h : ((acc ++ entries).map Prod.fst).Nodup) :
    entries.foldl (fun members e => set members e.1 e.2) acc = acc ++ entries := by
  induction entries generalizing acc with
  | nil => simp
  | cons e entries ih =>
    have hnot : e.1 ∉ keys acc := by
      rw [List.map_append, List.nodup_append] at h
      intro hmem
      exact h.2.2 e.1 hmem e.1 (by simp) rfl
    rw [List.foldl_cons, set, if_neg hnot, ih _ (by simpa using h)]
    simp

theorem valuesAt_append (ps qs : List (κ × α)) (k : κ) :
    valuesAt (ps ++ qs) k = valuesAt ps k ++ valuesAt qs k := by
  simp [valuesAt]

theorem mem_valuesAt {ps : List (κ × α)} {k : κ} {v : α} : v ∈ valuesAt ps k ↔ (k, v) ∈ ps := by
  simp only [valuesAt, List.mem_map, List.mem_filter, decide_eq_true_eq]
  constructor
  · rintro ⟨⟨k', v'⟩, ⟨h, rfl⟩, rfl⟩
    exact h
  · intro h
    exact ⟨(k, v), ⟨h, rfl⟩, rfl⟩

theorem valuesAt_perm {ps qs : List (κ × α)} (h : ps.Perm qs) (k : κ) :
    (valuesAt ps k).Perm (valuesAt qs k) := (h.filter _).map _

theorem group_append_singleton (ps : List (κ × α)) (p : κ × α) :
    group (ps ++ [p]) = push (group ps) p.1 p.2 := by
  simp [group]

/-- A grouped map holds, under each key, exactly the values paired with it. -/
theorem get_group (ps : List (κ × α)) (k : κ) :
    (get (group ps) k).getD [] = valuesAt ps k := by
  induction ps using List.reverseRecOn with
  | nil => rfl
  | append_singleton ps p ih =>
    rw [group_append_singleton, push, get_set, valuesAt_append]
    by_cases h : k = p.1
    · subst h
      simp [ih, valuesAt]
    · simp [h, ih, valuesAt, Ne.symm h]

theorem mem_keys_group {ps : List (κ × α)} {k : κ} :
    k ∈ keys (group ps) ↔ k ∈ ps.map Prod.fst := by
  induction ps using List.reverseRecOn with
  | nil => simp [group, keys]
  | append_singleton ps p ih =>
    rw [group_append_singleton, push, mem_keys_set, ih]
    simp [or_comm]

theorem nodup_keys_group (ps : List (κ × α)) : (keys (group ps)).Nodup := by
  induction ps using List.reverseRecOn with
  | nil => simp [group, keys]
  | append_singleton ps p ih =>
    rw [group_append_singleton, push]
    exact nodup_keys_set ih _ _

/-- The entries of a grouped map. -/
theorem mem_group {ps : List (κ × α)} {k : κ} {vs : List α} :
    (k, vs) ∈ group ps ↔ k ∈ ps.map Prod.fst ∧ vs = valuesAt ps k := by
  constructor
  · intro h
    have hk : k ∈ keys (group ps) := List.mem_map.mpr ⟨(k, vs), h, rfl⟩
    have hg := get_of_mem (nodup_keys_group ps) h
    have hv := get_group ps k
    rw [hg] at hv
    exact ⟨mem_keys_group.mp hk, hv⟩
  · rintro ⟨hk, rfl⟩
    obtain ⟨⟨k', vs⟩, he, rfl⟩ := List.mem_map.mp (mem_keys_group.mpr hk)
    have hg := get_of_mem (nodup_keys_group ps) he
    have hv := get_group ps k'
    rw [hg] at hv
    simpa [← hv] using he

@[simp] theorem mem_distinct {xs : List κ} {k : κ} : k ∈ distinct xs ↔ k ∈ xs := by
  simp [distinct, mem_keys_group]

theorem nodup_distinct (xs : List κ) : (distinct xs).Nodup := nodup_keys_group _

/-- A set of values does not depend on how the values are arranged or repeated. -/
theorem distinct_perm {xs ys : List κ} (h : ∀ k, k ∈ xs ↔ k ∈ ys) :
    (distinct xs).Perm (distinct ys) := by
  apply (List.perm_ext_iff_of_nodup (nodup_distinct xs) (nodup_distinct ys)).mpr
  intro k
  rw [mem_distinct, mem_distinct, h k]

theorem keys_group (ps : List (κ × α)) : keys (group ps) = distinct (ps.map Prod.fst) := by
  unfold distinct
  induction ps using List.reverseRecOn with
  | nil => rfl
  | append_singleton ps p ih =>
    rw [group_append_singleton, push, keys_set, ih]
    simp only [List.map_append, List.map_cons, List.map_nil]
    rw [group_append_singleton, push, keys_set]

end Group

section FirstBy

/-- The first element for each value of `f`: a loop that skips what it has seen. -/
def firstBy (f : α → κ) (xs : List α) : List α :=
  xs.foldl (fun acc x => if f x ∈ acc.map f then acc else acc ++ [x]) []

theorem firstBy_append_singleton (f : α → κ) (xs : List α) (x : α) :
    firstBy f (xs ++ [x]) =
      if f x ∈ (firstBy f xs).map f then firstBy f xs else firstBy f xs ++ [x] := by
  simp [firstBy]

theorem nodup_firstBy (f : α → κ) (xs : List α) : ((firstBy f xs).map f).Nodup := by
  induction xs using List.reverseRecOn with
  | nil => simp [firstBy]
  | append_singleton xs x ih =>
    rw [firstBy_append_singleton]
    split_ifs with h
    · exact ih
    · rw [List.map_append]
      exact ih.append (List.nodup_singleton _) (by simpa using h)

theorem firstBy_subset (f : α → κ) (xs : List α) : firstBy f xs ⊆ xs := by
  induction xs using List.reverseRecOn with
  | nil => simp [firstBy]
  | append_singleton xs x ih =>
    rw [firstBy_append_singleton]
    split_ifs
    · exact List.subset_append_of_subset_left _ ih
    · intro y hy
      rcases List.mem_append.mp hy with hy | hy
      · exact List.mem_append_left _ (ih hy)
      · exact List.mem_append_right _ hy

theorem mem_map_firstBy {f : α → κ} {xs : List α} {k : κ} :
    k ∈ (firstBy f xs).map f ↔ k ∈ xs.map f := by
  induction xs using List.reverseRecOn with
  | nil => simp [firstBy]
  | append_singleton xs x ih =>
    rw [firstBy_append_singleton, List.map_append, List.mem_append, ← ih]
    split_ifs with h
    · simp only [List.map_cons, List.map_nil, List.mem_singleton]
      constructor
      · exact Or.inl
      · rintro (hk | rfl)
        · exact hk
        · exact h
    · simp

end FirstBy

section Sorted

variable [LinearOrder κ]

/-- A grouped map sorted by key: each key with the values paired with it. -/
theorem sortBy_group (ps : List (κ × α)) :
    sortBy Prod.fst (group ps) =
      (sorted (distinct (ps.map Prod.fst))).map (fun k => (k, valuesAt ps k)) := by
  rw [← keys_group, keys, ← map_key_sortBy, List.map_map]
  refine (List.map_id _).symm.trans (List.map_congr_left ?_)
  rintro ⟨k, vs⟩ he
  exact congrArg (Prod.mk k) (mem_group.mp (mem_sortBy.mp he)).2

theorem sorted_distinct_eq {xs ys : List κ} (h : ∀ k, k ∈ xs ↔ k ∈ ys) :
    sorted (distinct xs) = sorted (distinct ys) := sorted_eq_of_perm (distinct_perm h)

/-- What is computed key by key from rearranged pairs is the same, in the same order. -/
theorem flatMap_sortBy_group_eq {β γ : Type*} {F : κ → List α → List γ} {G : κ → List β → List γ}
    {ps : List (κ × α)} {qs : List (κ × β)} (hkeys : ∀ k, k ∈ ps.map Prod.fst ↔ k ∈ qs.map Prod.fst)
    (hF : ∀ k, F k (valuesAt ps k) = G k (valuesAt qs k)) :
    (sortBy Prod.fst (group ps)).flatMap (fun e => F e.1 e.2) =
      (sortBy Prod.fst (group qs)).flatMap (fun e => G e.1 e.2) := by
  rw [sortBy_group, sortBy_group, List.flatMap_map, List.flatMap_map, sorted_distinct_eq hkeys]
  simp only [hF]

end Sorted

end Appspine.InsertionMap
