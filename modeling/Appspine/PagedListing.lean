import Mathlib

/-!
# Paged listings

A database lists rows in an order that may leave rows tied, and puts tied rows as it likes in
each answer. Reading such a list page by page, each page from an answer of its own, shows every
row once exactly when no rows that are tied with each other lie on both sides of a page end.
-/
namespace Appspine.PagedListing

/-- An order that may leave different values tied. -/
structure SortOrder (α : Type*) where
  le : α → α → Prop
  decidable : DecidableRel le
  total : ∀ a b, le a b ∨ le b a
  trans : ∀ a b c, le a b → le b c → le a c

attribute [instance] SortOrder.decidable

variable {α β κ : Type*}

namespace SortOrder

def Ties (o : SortOrder α) (a b : α) : Prop := o.le a b ∧ o.le b a

/-- Ascending order of a key. -/
def byKey [LinearOrder κ] (key : α → κ) : SortOrder α where
  le a b := key a ≤ key b
  decidable _ _ := inferInstance
  total a b := le_total (key a) (key b)
  trans _ _ _ := le_trans

def reverse (o : SortOrder α) : SortOrder α where
  le a b := o.le b a
  decidable a b := o.decidable b a
  total a b := o.total b a
  trans a b c hab hbc := o.trans c b a hbc hab

/-- An order of one part of the values. -/
def comap (o : SortOrder β) (part : α → β) : SortOrder α where
  le a b := o.le (part a) (part b)
  decidable _ _ := inferInstance
  total _ _ := o.total _ _
  trans _ _ _ := o.trans _ _ _

/-- Absent values come last. -/
def withNone (o : SortOrder α) : SortOrder (Option α) where
  le
    | _, none => True
    | none, some _ => False
    | some a, some b => o.le a b
  decidable
    | none, none => isTrue trivial
    | some _, none => isTrue trivial
    | none, some _ => isFalse id
    | some a, some b => o.decidable a b
  total
    | none, none => .inl trivial
    | none, some _ => .inr trivial
    | some _, none => .inl trivial
    | some a, some b => o.total a b
  trans
    | none, none, _, _, h => h
    | none, some _, _, h, _ => h.elim
    | some _, _, none, _, _ => trivial
    | some _, none, some _, _, h => h.elim
    | some a, some b, some c, hab, hbc => o.trans a b c hab hbc

/-- The first order, ties broken by the second. -/
def andThen (o o' : SortOrder α) : SortOrder α where
  le a b := o.le a b ∧ (o.le b a → o'.le a b)
  decidable _ _ := inferInstance
  total a b := by
    by_cases hab : o.le a b
    · by_cases hba : o.le b a
      · exact (o'.total a b).imp (fun h => ⟨hab, fun _ => h⟩) (fun h => ⟨hba, fun _ => h⟩)
      · exact .inl ⟨hab, fun h => absurd h hba⟩
    · exact .inr ⟨(o.total a b).resolve_left hab, fun h => absurd h hab⟩
  trans a b c hab hbc := by
    refine ⟨o.trans a b c hab.1 hbc.1, fun hca => ?_⟩
    exact o'.trans a b c (hab.2 (o.trans b c a hbc.1 hca)) (hbc.2 (o.trans c a b hca hab.1))

variable {o o' : SortOrder α} {a b : α}

lemma refl (o : SortOrder α) (a : α) : o.le a a := (o.total a a).elim id id

@[simp] lemma ties_byKey [LinearOrder κ] {key : α → κ} : (byKey key).Ties a b ↔ key a = key b :=
  ⟨fun h => le_antisymm h.1 h.2, fun h => ⟨h.le, h.ge⟩⟩

@[simp] lemma ties_reverse : o.reverse.Ties a b ↔ o.Ties a b := ⟨And.symm, And.symm⟩

@[simp] lemma ties_comap {o : SortOrder β} {part : α → β} :
    (o.comap part).Ties a b ↔ o.Ties (part a) (part b) := Iff.rfl

@[simp] lemma ties_andThen : (o.andThen o').Ties a b ↔ o.Ties a b ∧ o'.Ties a b := by
  constructor
  · intro h
    exact ⟨⟨h.1.1, h.2.1⟩, h.1.2 h.2.1, h.2.2 h.1.1⟩
  · intro h
    exact ⟨⟨h.1.1, fun _ => h.2.1⟩, h.1.2, fun _ => h.2.2⟩

end SortOrder

/-- What a database may answer when it is asked for all rows in an order. -/
structure Listing (o : SortOrder α) (rows sorted : List α) : Prop where
  perm : sorted.Perm rows
  ordered : sorted.Pairwise o.le

/-- Page `p`, counted from zero. -/
def page (limit p : ℕ) (sorted : List α) : List α := (sorted.drop (p * limit)).take limit

/-- `ceil(total / limit)`. -/
def pageCount (total limit : ℕ) : ℕ := (total + limit - 1) / limit

/-- The number of rows that stand before a row in every answer. -/
def before (o : SortOrder α) (rows : List α) (r : α) : ℕ := rows.countP fun x => ¬ o.le r x

/-- The number of rows that stand before a row or may take its place. -/
def upTo (o : SortOrder α) (rows : List α) (r : α) : ℕ := rows.countP fun x => o.le x r

/-- The places that the row and those tied with it share are on one page. -/
def OnOnePage (o : SortOrder α) (rows : List α) (limit : ℕ) (r : α) : Prop :=
  before o rows r / limit = (upTo o rows r - 1) / limit

instance (o : SortOrder α) (rows : List α) (limit : ℕ) (r : α) :
    Decidable (OnOnePage o rows limit r) := decEq (before o rows r / limit) _

section Places

variable {o : SortOrder α} {rows sorted : List α} {r x : α} {i : ℕ}

lemma exists_listing (o : SortOrder α) (rows : List α) : ∃ sorted, Listing o rows sorted := by
  have : Std.Total o.le := ⟨o.total⟩
  have : IsTrans α o.le := ⟨o.trans⟩
  exact ⟨rows.insertionSort o.le, List.perm_insertionSort o.le rows,
    List.pairwise_insertionSort o.le rows⟩

/-- In an ordered list the values of a property that is closed downwards come first. -/
lemma index_lt_countP {P : α → Prop} [DecidablePred P] (hP : ∀ a b, o.le a b → P b → P a)
    (hsorted : sorted.Pairwise o.le) (hi : sorted[i]? = some x) :
    i < sorted.countP (fun a => P a) ↔ P x := by
  induction sorted generalizing i with
  | nil => simp at hi
  | cons a rest ih =>
    obtain ⟨hhead, hrest⟩ := List.pairwise_cons.mp hsorted
    by_cases ha : P a
    · rw [List.countP_cons_of_pos (by simpa using ha)]
      cases i with
      | zero =>
        obtain rfl : a = x := by simpa using hi
        simp [ha]
      | succ j =>
        rw [Nat.succ_lt_succ_iff]
        exact ih hrest (by simpa using hi)
    · -- nothing has the property from here on
      have hnone : ∀ y ∈ a :: rest, ¬ P y := by
        intro y hy hPy
        rcases List.mem_cons.mp hy with rfl | hy
        · exact ha hPy
        · exact ha (hP a y (hhead y hy) hPy)
      have hcount : (a :: rest).countP (fun a => P a) = 0 := by
        rw [List.countP_eq_zero]
        intro y hy
        simpa using hnone y hy
      rw [hcount]
      exact iff_of_false (Nat.not_lt_zero i) (hnone x (List.mem_of_getElem? hi))

lemma Listing.lt_before_iff (h : Listing o rows sorted) (hi : sorted[i]? = some x) (r : α) :
    i < before o rows r ↔ ¬ o.le r x := by
  rw [before, ← h.perm.countP_eq]
  exact index_lt_countP (P := fun x => ¬ o.le r x)
    (fun a b hab hb ha => hb (o.trans r a b ha hab)) h.ordered hi

lemma Listing.lt_upTo_iff (h : Listing o rows sorted) (hi : sorted[i]? = some x) (r : α) :
    i < upTo o rows r ↔ o.le x r := by
  rw [upTo, ← h.perm.countP_eq]
  exact index_lt_countP (P := fun x => o.le x r)
    (fun a b hab hb => o.trans a b r hab hb) h.ordered hi

/-- The places of the rows tied with a row are those from `before` to `upTo`. -/
lemma Listing.ties_iff (h : Listing o rows sorted) (hi : sorted[i]? = some x) (r : α) :
    o.Ties x r ↔ before o rows r ≤ i ∧ i < upTo o rows r := by
  have hbefore := h.lt_before_iff hi r
  have hupTo := h.lt_upTo_iff hi r
  constructor
  · intro hties
    exact ⟨not_lt.mp fun hlt => hbefore.mp hlt hties.2, hupTo.mpr hties.1⟩
  · rintro ⟨hle, hlt⟩
    exact ⟨hupTo.mp hlt, not_not.mp fun hr => absurd (hbefore.mpr hr) (by omega)⟩

lemma upTo_le_length (o : SortOrder α) (rows : List α) (r : α) : upTo o rows r ≤ rows.length :=
  List.countP_le_length

lemma before_lt_upTo (hr : r ∈ rows) : before o rows r < upTo o rows r := by
  obtain ⟨sorted, hsorted⟩ := exists_listing o rows
  obtain ⟨i, hi⟩ := List.getElem?_of_mem (hsorted.perm.mem_iff.mpr hr)
  have hties := (hsorted.ties_iff hi r).mp ⟨o.refl r, o.refl r⟩
  omega

lemma swap_mem [DecidableEq α] {y : α} (hr : r ∈ rows) (hx : x ∈ rows) (hy : y ∈ rows) :
    Equiv.swap r x y ∈ rows := by
  rw [Equiv.swap_apply_def]
  split_ifs
  · exact hx
  · exact hr
  · exact hy

lemma swap_ties [DecidableEq α] (hx : o.Ties x r) (y : α) : o.Ties (Equiv.swap r x y) y := by
  rw [Equiv.swap_apply_def]
  split_ifs with hyr hyx
  · exact hyr ▸ hx
  · exact hyx ▸ hx.symm
  · exact ⟨o.refl y, o.refl y⟩

/-- A row may stand at any place it shares. -/
lemma exists_listing_at (hrows : rows.Nodup) (hr : r ∈ rows) (hle : before o rows r ≤ i)
    (hlt : i < upTo o rows r) : ∃ sorted, Listing o rows sorted ∧ sorted[i]? = some r := by
  classical
  obtain ⟨sorted, hsorted⟩ := exists_listing o rows
  have hlength : i < sorted.length := by
    have hcount := upTo_le_length o rows r
    have hperm := hsorted.perm.length_eq
    omega
  -- exchange the row with the one that stands there
  obtain ⟨x, hi⟩ : ∃ x, sorted[i]? = some x := ⟨_, List.getElem?_eq_getElem hlength⟩
  have hx : o.Ties x r := (hsorted.ties_iff hi r).mpr ⟨hle, hlt⟩
  have hxmem : x ∈ rows := hsorted.perm.mem_iff.mp (List.mem_of_getElem? hi)
  refine ⟨sorted.map (Equiv.swap r x), ⟨?_, ?_⟩, ?_⟩
  · have hnodup : sorted.Nodup := hsorted.perm.nodup_iff.mpr hrows
    refine (List.perm_ext_iff_of_nodup (hnodup.map (Equiv.injective _)) hrows).mpr fun y => ?_
    rw [List.mem_map]
    constructor
    · rintro ⟨z, hz, rfl⟩
      exact swap_mem hr hxmem (hsorted.perm.mem_iff.mp hz)
    · intro hy
      exact ⟨Equiv.swap r x y, hsorted.perm.mem_iff.mpr (swap_mem hr hxmem hy),
        Equiv.swap_apply_self r x y⟩
  · rw [List.pairwise_map]
    refine hsorted.ordered.imp fun {a b} hab => ?_
    exact o.trans _ a _ (swap_ties hx a).1 (o.trans a b _ hab (swap_ties hx b).2)
  · rw [List.getElem?_map, hi, Option.map_some, Equiv.swap_apply_right]

/-- Rows with no other row tied with them are on one page. -/
lemma onOnePage_of_unique (hrows : rows.Nodup) (hr : r ∈ rows)
    (hunique : ∀ x ∈ rows, o.Ties x r → x = r) (limit : ℕ) : OnOnePage o rows limit r := by
  obtain ⟨sorted, hsorted⟩ := exists_listing o rows
  have hnodup : sorted.Nodup := hsorted.perm.nodup_iff.mpr hrows
  have hlt := before_lt_upTo (o := o) hr
  have hlength : upTo o rows r ≤ sorted.length :=
    hsorted.perm.length_eq ▸ upTo_le_length o rows r
  have hat : ∀ i, before o rows r ≤ i → i < upTo o rows r → sorted[i]? = some r := by
    intro i hle hlt
    obtain ⟨x, hi⟩ : ∃ x, sorted[i]? = some x := ⟨_, List.getElem?_eq_getElem (by omega)⟩
    have hx : x = r := hunique x (hsorted.perm.mem_iff.mp (List.mem_of_getElem? hi))
      ((hsorted.ties_iff hi r).mpr ⟨hle, hlt⟩)
    rw [hi, hx]
  have hsame : before o rows r = upTo o rows r - 1 := by
    refine (List.getElem?_inj (by omega) hnodup).mp ?_
    rw [hat _ le_rfl hlt, hat _ (by omega) (by omega)]
  rw [OnOnePage, hsame]

end Places

section Pages

variable {o : SortOrder α} {rows sorted : List α} {r : α} {limit p : ℕ}

lemma mem_page (hlimit : 0 < limit) :
    r ∈ page limit p sorted ↔ ∃ i, sorted[i]? = some r ∧ i / limit = p := by
  rw [page, List.mem_iff_getElem?]
  constructor
  · rintro ⟨k, hk⟩
    have hkl : k < limit := by
      by_contra hge
      rw [List.getElem?_take_eq_none (by omega)] at hk
      exact absurd hk (by simp)
    rw [List.getElem?_take_of_lt hkl, List.getElem?_drop] at hk
    refine ⟨p * limit + k, hk, ?_⟩
    rw [Nat.mul_comm, Nat.mul_add_div hlimit, Nat.div_eq_of_lt hkl, Nat.add_zero]
  · rintro ⟨i, hi, rfl⟩
    refine ⟨i % limit, ?_⟩
    rw [List.getElem?_take_of_lt (Nat.mod_lt i hlimit), List.getElem?_drop, Nat.div_add_mod', hi]

lemma nodup_page (h : sorted.Nodup) : (page limit p sorted).Nodup :=
  h.sublist ((List.take_sublist _ _).trans (List.drop_sublist _ _))

/-- The pages of one answer are the answer, cut off after the last page. -/
lemma flatMap_page (limit pages : ℕ) (sorted : List α) :
    (List.range pages).flatMap (fun p => page limit p sorted) = sorted.take (pages * limit) := by
  induction pages with
  | zero => simp
  | succ pages ih =>
    rw [List.range_succ, List.flatMap_append, ih, List.flatMap_singleton, page, Nat.succ_mul,
      List.take_add]

lemma div_lt_pageCount {i total : ℕ} (hlimit : 0 < limit) (hi : i < total) :
    i / limit < pageCount total limit := by
  have hnext : i / limit + 1 = (i + limit) / limit := (Nat.add_div_right i hlimit).symm
  have hle : (i + limit) / limit ≤ pageCount total limit := Nat.div_le_div_right (by omega)
  omega

lemma Listing.mem_page_iff (h : Listing o rows sorted) (hlimit : 0 < limit)
    (hone : ∀ r ∈ rows, OnOnePage o rows limit r) :
    r ∈ page limit p sorted ↔ r ∈ rows ∧ before o rows r / limit = p := by
  -- every place of the row is on the page of its first
  have hplace : ∀ i, sorted[i]? = some r → i / limit = before o rows r / limit := by
    intro i hi
    have hr : r ∈ rows := h.perm.mem_iff.mp (List.mem_of_getElem? hi)
    obtain ⟨hle, hlt⟩ := (h.ties_iff hi r).mp ⟨o.refl r, o.refl r⟩
    have hfirst : before o rows r / limit ≤ i / limit := Nat.div_le_div_right hle
    have hlast : i / limit ≤ (upTo o rows r - 1) / limit := Nat.div_le_div_right (by omega)
    have hsame : before o rows r / limit = (upTo o rows r - 1) / limit := hone r hr
    omega
  rw [mem_page hlimit]
  constructor
  · rintro ⟨i, hi, rfl⟩
    exact ⟨h.perm.mem_iff.mp (List.mem_of_getElem? hi), (hplace i hi).symm⟩
  · rintro ⟨hr, rfl⟩
    obtain ⟨i, hi⟩ := List.getElem?_of_mem (h.perm.mem_iff.mpr hr)
    exact ⟨i, hi, hplace i hi⟩

/-- Pages read from answers of their own show every row exactly once. -/
def ListsOnce (o : SortOrder α) (rows : List α) (limit : ℕ) : Prop :=
  ∀ answers : ℕ → List α, (∀ p, Listing o rows (answers p)) →
    ((List.range (pageCount rows.length limit)).flatMap fun p => page limit p (answers p)).Perm rows

lemma listsOnce_of_onOnePage (hrows : rows.Nodup) (hlimit : 0 < limit)
    (hone : ∀ r ∈ rows, OnOnePage o rows limit r) : ListsOnce o rows limit := by
  intro answers hanswers
  have hmem : ∀ p r, r ∈ page limit p (answers p) ↔ r ∈ rows ∧ before o rows r / limit = p :=
    fun p r => (hanswers p).mem_page_iff hlimit hone
  have hnodup : ((List.range (pageCount rows.length limit)).flatMap
      fun p => page limit p (answers p)).Nodup := by
    rw [List.nodup_flatMap]
    refine ⟨fun p _ => nodup_page ((hanswers p).perm.nodup_iff.mpr hrows), ?_⟩
    refine (List.nodup_range (n := pageCount rows.length limit)).imp fun {p q} hpq => ?_
    intro r hp hq
    exact hpq (((hmem p r).mp hp).2.symm.trans ((hmem q r).mp hq).2)
  refine (List.perm_ext_iff_of_nodup hnodup hrows).mpr fun r => ?_
  rw [List.mem_flatMap]
  constructor
  · rintro ⟨p, -, hr⟩
    exact ((hmem p r).mp hr).1
  · intro hr
    have hlt : before o rows r < rows.length :=
      Nat.lt_of_lt_of_le (before_lt_upTo (o := o) hr) (upTo_le_length o rows r)
    exact ⟨_, List.mem_range.mpr (div_lt_pageCount hlimit hlt), (hmem _ r).mpr ⟨hr, rfl⟩⟩

lemma onOnePage_of_listsOnce (hrows : rows.Nodup) (hlimit : 0 < limit)
    (h : ListsOnce o rows limit) (hr : r ∈ rows) : OnOnePage o rows limit r := by
  by_contra hstraddles
  have hlt := before_lt_upTo (o := o) hr
  have hlength := upTo_le_length o rows r
  -- one answer has the row in its first place, the other in its last
  obtain ⟨early, hearly, hfirst⟩ := exists_listing_at hrows hr le_rfl hlt
  obtain ⟨late, hlate, hlast⟩ := exists_listing_at (o := o) (i := upTo o rows r - 1) hrows hr
    (by omega) (by omega)
  let answers : ℕ → List α := fun p => if p = before o rows r / limit then early else late
  have hperm := h answers fun p => by
    by_cases hp : p = before o rows r / limit
    · simpa only [answers, if_pos hp] using hearly
    · simpa only [answers, if_neg hp] using hlate
  have hdisjoint := (List.nodup_flatMap.mp (hperm.nodup_iff.mpr hrows)).2
  have hsymm : Std.Symm (Function.onFun List.Disjoint fun p => page limit p (answers p)) :=
    ⟨fun _ _ hd => hd.symm⟩
  have hpages : ∀ i, i < rows.length → i / limit ∈ List.range (pageCount rows.length limit) :=
    fun _ hi => List.mem_range.mpr (div_lt_pageCount hlimit hi)
  have hboth := hdisjoint.forall (hpages (before o rows r) (by omega))
    (hpages (upTo o rows r - 1) (by omega)) hstraddles
  have hfirstPage : answers (before o rows r / limit) = early := if_pos rfl
  have hlastPage : answers ((upTo o rows r - 1) / limit) = late := if_neg (Ne.symm hstraddles)
  have hmemFirst : r ∈ page limit (before o rows r / limit) (answers (before o rows r / limit)) := by
    rw [hfirstPage]
    exact (mem_page hlimit).mpr ⟨_, hfirst, rfl⟩
  have hmemLast : r ∈ page limit ((upTo o rows r - 1) / limit)
      (answers ((upTo o rows r - 1) / limit)) := by
    rw [hlastPage]
    exact (mem_page hlimit).mpr ⟨_, hlast, rfl⟩
  exact hboth hmemFirst hmemLast

/-- A paged list shows every row exactly once, whatever the answers do with ties, when and only
when no rows that are tied lie on both sides of a page end. -/
theorem listsOnce_iff (hrows : rows.Nodup) (hlimit : 0 < limit) :
    ListsOnce o rows limit ↔ ∀ r ∈ rows, OnOnePage o rows limit r :=
  ⟨fun h _ hr => onOnePage_of_listsOnce hrows hlimit h hr, listsOnce_of_onOnePage hrows hlimit⟩

end Pages

end Appspine.PagedListing
