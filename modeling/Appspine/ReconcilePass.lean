import Appspine.MirrorRaces

/-!
# One reconciliation pass

`reconcileEntity` with no other writer at work. Every item is compared with the rows as they were
before the first write, so of the items listed for one row, those above its `seq` are all written,
and the last of them stays.
-/
namespace Appspine.MasterData
open JsText InsertionMap

variable {P D : Type}

section Source

variable (itemMapper : MasterDataListItem P → Except Thrown (Mapped D))

/-- The loop over the source list; each item stands with the time at which it is mapped. -/
def mergeItems (existing : Mirror D) :
    List (MasterDataListItem P × ℤ) → Mirror D → ReconcileCounts →
      Mirror D × Except Thrown ReconcileCounts
  | [], mirror, counts => (mirror, .ok counts)
  | (item, now) :: rest, mirror, counts =>
    match isCurrent existing item with
    | .error error => (mirror, .error error)
    | .ok true => mergeItems existing rest mirror { counts with skipped := counts.skipped + 1 }
    | .ok false =>
      match mapSourceItem itemMapper item now with
      | .error error => (mirror, .error error)
      | .ok data =>
        match upsert mirror item.sourceId data with
        | .error error => (mirror, .error error)
        | .ok written =>
          mergeItems existing rest written { counts with upserted := counts.upserted + 1 }

/-- The delete-sweep over the rows that were read before the loop. -/
def sweepRows (sourceIds : List JsString) :
    Mirror D → Mirror D → ReconcileCounts → Mirror D × Except Thrown ReconcileCounts
  | [], mirror, counts => (mirror, .ok counts)
  | row :: rest, mirror, counts =>
    if row.1 ∈ sourceIds then sweepRows sourceIds rest mirror counts
    else
      match delete mirror row.1 with
      | .error error => (mirror, .error error)
      | .ok left => sweepRows sourceIds rest left { counts with deleted := counts.deleted + 1 }

def sourceIdsOf (sourceItems : List (MasterDataListItem P × ℤ)) : List JsString :=
  sourceItems.map fun e => e.1.sourceId

def reconcileEntity (mirror : Mirror D) (sourceItems : List (MasterDataListItem P × ℤ)) :
    Mirror D × Except Thrown ReconcileCounts :=
  match mergeItems itemMapper mirror sourceItems mirror {} with
  | (written, .error error) => (written, .error error)
  | (written, .ok counts) =>
    if sourceItems.length = 0 ∧ mirror.length > 0 then (written, .ok { counts with deleted := 0 })
    else sweepRows (sourceIdsOf sourceItems) mirror written counts

end Source

section Intent

variable (itemMapper : MasterDataListItem P → Except Thrown (Mapped D)) (mirror : Mirror D)
  (sourceItems : List (MasterDataListItem P × ℤ))

/-- The integer that a `seq` is compared as. -/
def seqValue (seq : EventSeq) : ℤ := (toComparableSeq seq).toOption.getD 0

/-- The row has the `seq` of the item and the payload mapped. -/
def Carries (item : MasterDataListItem P) (row : MirrorRow D) : Prop :=
  row.seq = item.seq ∧ ∃ mapped, itemMapper item = .ok mapped ∧ row.fields = mapped.fields

/-- The row under `k` is the one with the highest `seq` among the previous one and the listed. -/
structure Highest (k : JsString) (row : MirrorRow D) : Prop where
  previous : ∀ prev, get mirror k = some prev → seqValue prev.seq ≤ seqValue row.seq
  listed : ∀ e ∈ sourceItems, e.1.sourceId = k → seqValue e.1.seq ≤ seqValue row.seq
  source : get mirror k = some row ∨
    ∃ e ∈ sourceItems, e.1.sourceId = k ∧ Carries itemMapper e.1 row

/-- What a pass over a list that is not empty has to reach. -/
structure Converged (written : Mirror D) (counts : ReconcileCounts) : Prop where
  ids : ∀ k, k ∈ keys written ↔ k ∈ sourceIdsOf sourceItems
  rows : ∀ k row, get written k = some row → Highest itemMapper mirror sourceItems k row
  total : counts.upserted + counts.skipped = sourceItems.length
  deleted : counts.deleted =
    mirror.countP fun row => decide (row.1 ∉ sourceIdsOf sourceItems)
  /-- The next pass with the same list, whenever its items are mapped. -/
  again : ∀ next : List (MasterDataListItem P × ℤ), next.map Prod.fst = sourceItems.map Prod.fst →
    ∃ counts', reconcileEntity itemMapper written next = (written, .ok counts') ∧
      counts'.upserted = 0 ∧ counts'.deleted = 0

/-- A pass converges: nothing changes for an empty list. -/
def Converges : Prop :=
  ∃ written counts, reconcileEntity itemMapper mirror sourceItems = (written, .ok counts) ∧
    if sourceItems = [] then written = mirror ∧ counts = {}
    else Converged itemMapper mirror sourceItems written counts

/-- Rows by distinct ids, seqs that can be compared, and a mapper that keeps the id. -/
structure ValidPass : Prop where
  distinct : (keys mirror).Nodup
  listed : ∀ e ∈ sourceItems, ∃ n, toComparableSeq e.1.seq = .ok n
  held : ∀ e ∈ sourceItems, ∀ row, get mirror e.1.sourceId = some row →
    ∃ n, toComparableSeq row.seq = .ok n
  mapped : ∀ e ∈ sourceItems, ∃ mapped, itemMapper e.1 = .ok mapped ∧
    mapped.sourceId = e.1.sourceId

variable {itemMapper mirror sourceItems}

/-- The item is above the row that was read for it. -/
def isNewer (existing : Mirror D) (item : MasterDataListItem P) : Bool :=
  match get existing item.sourceId with
  | none => true
  | some row => decide (seqValue row.seq < seqValue item.seq)

/-- The last item for a row that is above what the row was. -/
def lastNewer (existing : Mirror D) (k : JsString)
    (sourceItems : List (MasterDataListItem P × ℤ)) : Option (MasterDataListItem P × ℤ) :=
  (sourceItems.filter fun e => decide (e.1.sourceId = k) && isNewer existing e.1).getLast?

/-- Of the items above a row, the last has the highest `seq`. -/
def LastIsHighest (existing : Mirror D) (sourceItems : List (MasterDataListItem P × ℤ)) : Prop :=
  ∀ k last, lastNewer existing k sourceItems = some last →
    ∀ e ∈ sourceItems, e.1.sourceId = k → isNewer existing e.1 = true →
      seqValue e.1.seq ≤ seqValue last.1.seq

end Intent

section Merge

variable {itemMapper : MasterDataListItem P → Except Thrown (Mapped D)} {existing : Mirror D}

lemma toComparableSeq_eq {seq : EventSeq} (h : ∃ n, toComparableSeq seq = .ok n) :
    toComparableSeq seq = .ok (seqValue seq) := by
  obtain ⟨n, hn⟩ := h
  simp [seqValue, hn, Except.toOption]

lemma isCurrent_eq {item : MasterDataListItem P} (hlisted : ∃ n, toComparableSeq item.seq = .ok n)
    (hheld : ∀ row, get existing item.sourceId = some row →
      ∃ n, toComparableSeq row.seq = .ok n) :
    isCurrent existing item = .ok (!isNewer existing item) := by
  unfold isCurrent isNewer
  cases hget : get existing item.sourceId with
  | none => rfl
  | some row =>
    simp only [toComparableSeq_eq hlisted, toComparableSeq_eq (hheld row hget)]
    by_cases hlt : seqValue row.seq < seqValue item.seq
    · simp [hlt, not_le.mpr hlt, bind, Except.bind, pure, Except.pure]
    · simp [hlt, not_lt.mp hlt, bind, Except.bind, pure, Except.pure]

lemma lastNewer_cons (existing : Mirror D) (k : JsString) (e : MasterDataListItem P × ℤ)
    (rest : List (MasterDataListItem P × ℤ)) :
    lastNewer existing k (e :: rest) =
      if e.1.sourceId = k ∧ isNewer existing e.1 = true then
        some ((lastNewer existing k rest).getD e)
      else lastNewer existing k rest := by
  unfold lastNewer
  rw [List.filter_cons]
  by_cases h : e.1.sourceId = k ∧ isNewer existing e.1 = true
  · rw [if_pos h, if_pos (by simpa using h), List.getLast?_cons]
  · rw [if_neg h, if_neg (by simpa using h)]

lemma lastNewer_mem {k : JsString} {sourceItems : List (MasterDataListItem P × ℤ)}
    {last : MasterDataListItem P × ℤ} (h : lastNewer existing k sourceItems = some last) :
    last ∈ sourceItems ∧ last.1.sourceId = k ∧ isNewer existing last.1 = true := by
  have hmem := List.mem_filter.mp (List.mem_of_getLast? h)
  simpa using hmem

lemma lastNewer_eq_none {k : JsString} {sourceItems : List (MasterDataListItem P × ℤ)} :
    lastNewer existing k sourceItems = none ↔
      ∀ e ∈ sourceItems, e.1.sourceId = k → isNewer existing e.1 = false := by
  simp only [lastNewer, List.getLast?_eq_none_iff, List.filter_eq_nil_iff, Bool.and_eq_true,
    decide_eq_true_eq, not_and, Bool.not_eq_true]

/-- The loop: the items above what was read are written, the last of a row over the others. -/
lemma mergeItems_spec {sourceItems : List (MasterDataListItem P × ℤ)} (mirror : Mirror D)
    (counts : ReconcileCounts)
    (hlisted : ∀ e ∈ sourceItems, ∃ n, toComparableSeq e.1.seq = .ok n)
    (hheld : ∀ e ∈ sourceItems, ∀ row, get existing e.1.sourceId = some row →
      ∃ n, toComparableSeq row.seq = .ok n)
    (hmapped : ∀ e ∈ sourceItems, ∃ mapped, itemMapper e.1 = .ok mapped ∧
      mapped.sourceId = e.1.sourceId) :
    ∃ written, mergeItems itemMapper existing sourceItems mirror counts = (written, .ok
        { counts with
          upserted := counts.upserted + sourceItems.countP fun e => isNewer existing e.1
          skipped := counts.skipped + sourceItems.countP fun e => !isNewer existing e.1 }) ∧
      ∀ k, (lastNewer existing k sourceItems = none → get written k = get mirror k) ∧
        ∀ last, lastNewer existing k sourceItems = some last →
          ∃ row, get written k = some row ∧ Carries itemMapper last.1 row := by
  induction sourceItems generalizing mirror counts with
  | nil => exact ⟨mirror, rfl, fun k => ⟨fun _ => rfl, fun last h => by cases h⟩⟩
  | cons e rest ih =>
    have hcurrent := isCurrent_eq (hlisted e List.mem_cons_self) (hheld e List.mem_cons_self)
    have hrest := fun mirror counts => ih mirror counts
      (fun e he => hlisted e (List.mem_cons_of_mem _ he))
      (fun e he => hheld e (List.mem_cons_of_mem _ he))
      (fun e he => hmapped e (List.mem_cons_of_mem _ he))
    obtain ⟨item, now⟩ := e
    cases hnewer : isNewer existing item with
    | false =>
      obtain ⟨written, heq, hrows⟩ :=
        hrest mirror { counts with skipped := counts.skipped + 1 }
      refine ⟨written, ?_, fun k => ?_⟩
      · simp only [mergeItems, hcurrent, hnewer, Bool.not_false, heq, List.countP_cons,
          Bool.false_eq_true, if_false, if_true, Prod.mk.injEq, Except.ok.injEq, true_and,
          ReconcileCounts.mk.injEq]
        omega
      · rw [lastNewer_cons, if_neg (by simp [hnewer])]
        exact hrows k
    | true =>
      obtain ⟨mapped, hmap, hid⟩ := hmapped (item, now) List.mem_cons_self
      let row : MirrorRow D := { fields := mapped.fields, seq := item.seq, syncedAt := now }
      have hdata : mapSourceItem itemMapper item now = .ok (item.sourceId, row) := by
        simp only [mapSourceItem, hmap, bind, Except.bind, pure, Except.pure, hid, row]
      obtain ⟨written, heq, hrows⟩ := hrest (set (without mirror item.sourceId) item.sourceId row)
        { counts with upserted := counts.upserted + 1 }
      refine ⟨written, ?_, fun k => ?_⟩
      · simp only [mergeItems, hcurrent, hnewer, Bool.not_true, hdata, upsert_self, heq,
          List.countP_cons, Bool.false_eq_true, if_false, if_true, Prod.mk.injEq,
          Except.ok.injEq, true_and, ReconcileCounts.mk.injEq]
        omega
      · rw [lastNewer_cons]
        obtain ⟨hnone, hsome⟩ := hrows k
        by_cases hk : item.sourceId = k
        · rw [if_pos ⟨hk, hnewer⟩]
          refine ⟨by simp, fun last hlast => ?_⟩
          cases hnext : lastNewer existing k rest with
          | none =>
            rw [hnext] at hlast
            cases hlast
            refine ⟨row, ?_, rfl, mapped, hmap, rfl⟩
            rw [hnone hnext, get_set, if_pos hk.symm]
          | some next =>
            rw [hnext] at hlast
            cases hlast
            exact hsome next hnext
        · rw [if_neg fun h => hk h.1]
          refine ⟨fun h => ?_, hsome⟩
          rw [hnone h, get_set, if_neg (Ne.symm hk), get_without, if_neg (Ne.symm hk)]

/-- Items that are not above the rows read for them are skipped. -/
lemma mergeItems_of_current {sourceItems : List (MasterDataListItem P × ℤ)} (mirror : Mirror D)
    (counts : ReconcileCounts)
    (hcurrent : ∀ e ∈ sourceItems, isCurrent existing e.1 = .ok true) :
    mergeItems itemMapper existing sourceItems mirror counts =
      (mirror, .ok { counts with skipped := counts.skipped + sourceItems.length }) := by
  induction sourceItems generalizing counts with
  | nil => rfl
  | cons e rest ih =>
    obtain ⟨item, now⟩ := e
    have hhead : isCurrent existing item = .ok true := hcurrent (item, now) List.mem_cons_self
    have hrest := ih { counts with skipped := counts.skipped + 1 }
      fun e he => hcurrent e (List.mem_cons_of_mem _ he)
    simp only [mergeItems, hhead, hrest, List.length_cons]
    rw [show counts.skipped + 1 + rest.length = counts.skipped + (rest.length + 1) by omega]

end Merge

section Sweep

variable {sourceIds : List JsString}

/-- The sweep deletes the rows that are not listed, each of which is still there. -/
lemma sweepRows_spec (sourceIds : List JsString) {rows : Mirror D} (mirror : Mirror D)
    (counts : ReconcileCounts)
    (hrows : (keys rows).Nodup)
    (hheld : ∀ k ∈ keys rows, k ∉ sourceIds → k ∈ keys mirror) :
    ∃ left, sweepRows sourceIds rows mirror counts = (left, .ok
        { counts with
          deleted := counts.deleted + rows.countP fun row => decide (row.1 ∉ sourceIds) }) ∧
      ∀ k, get left k = if k ∈ keys rows ∧ k ∉ sourceIds then none else get mirror k := by
  induction rows generalizing mirror counts with
  | nil => exact ⟨mirror, rfl, fun k => by simp [keys]⟩
  | cons row rest ih =>
    have hnot : row.1 ∉ keys rest := (List.nodup_cons.mp hrows).1
    have hnodup : (keys rest).Nodup := (List.nodup_cons.mp hrows).2
    have hkeys : ∀ k, k ∈ keys (row :: rest) ↔ k = row.1 ∨ k ∈ keys rest := by
      simp [keys]
    by_cases hlisted : row.1 ∈ sourceIds
    · obtain ⟨left, heq, hleft⟩ := ih mirror counts hnodup
        fun k hk => hheld k ((hkeys k).mpr (.inr hk))
      refine ⟨left, ?_, fun k => ?_⟩
      · rw [sweepRows, if_pos hlisted, heq]
        simp [hlisted]
      · rw [hleft k]
        by_cases hk : k ∈ keys rest ∧ k ∉ sourceIds
        · rw [if_pos hk, if_pos ⟨(hkeys k).mpr (.inr hk.1), hk.2⟩]
        · rw [if_neg hk, if_neg]
          rintro ⟨hmem, hnotin⟩
          rcases (hkeys k).mp hmem with rfl | hmem
          · exact hnotin hlisted
          · exact hk ⟨hmem, hnotin⟩
    · have hmem : row.1 ∈ keys mirror := hheld row.1 ((hkeys row.1).mpr (.inl rfl)) hlisted
      have hdelete : delete mirror row.1 = .ok (without mirror row.1) := by
        simp [delete, has_iff.mpr hmem]
      obtain ⟨left, heq, hleft⟩ := ih (without mirror row.1)
        { counts with deleted := counts.deleted + 1 } hnodup (by
          intro k hk hnotin
          have hne : k ≠ row.1 := fun h => hnot (h ▸ hk)
          have hin := hheld k ((hkeys k).mpr (.inr hk)) hnotin
          rw [← not_not (a := k ∈ keys (without mirror row.1)), ← get_eq_none, get_without,
            if_neg hne, get_eq_none, not_not]
          exact hin)
      refine ⟨left, ?_, fun k => ?_⟩
      · rw [sweepRows, if_neg hlisted, hdelete]
        simp only [heq, List.countP_cons, hlisted, not_false_eq_true, decide_true, if_true,
          Prod.mk.injEq, Except.ok.injEq, true_and, ReconcileCounts.mk.injEq, and_true]
        omega
      · rw [hleft k, get_without]
        by_cases hk : k = row.1
        · subst hk
          rw [if_neg fun h => hnot h.1, if_pos rfl, if_pos ⟨(hkeys _).mpr (.inl rfl), hlisted⟩]
        · simp [hkeys k, hk]

lemma sweepRows_of_listed {rows : Mirror D} (mirror : Mirror D) (counts : ReconcileCounts)
    (h : ∀ k ∈ keys rows, k ∈ sourceIds) :
    sweepRows sourceIds rows mirror counts = (mirror, .ok counts) := by
  induction rows with
  | nil => rfl
  | cons row rest ih =>
    rw [sweepRows, if_pos (h row.1 (by simp [keys]))]
    exact ih fun k hk => h k (by
      simp only [keys, List.map_cons, List.mem_cons]
      exact .inr hk)

end Sweep

section Pass

variable {itemMapper : MasterDataListItem P → Except Thrown (Mapped D)} {mirror : Mirror D}
  {sourceItems : List (MasterDataListItem P × ℤ)}

/-- What an undisturbed pass leaves: nothing unlisted, and under a listed id the last item above
the previous row, or that row. -/
structure PassOf (itemMapper : MasterDataListItem P → Except Thrown (Mapped D))
    (mirror : Mirror D) (sourceItems : List (MasterDataListItem P × ℤ)) (written : Mirror D) :
    Prop where
  unlisted : ∀ k, k ∉ sourceIdsOf sourceItems → get written k = none
  kept : ∀ k ∈ sourceIdsOf sourceItems, lastNewer mirror k sourceItems = none →
    get written k = get mirror k
  merged : ∀ k last, lastNewer mirror k sourceItems = some last →
    ∃ row, get written k = some row ∧ Carries itemMapper last.1 row

lemma mem_sourceIdsOf {k : JsString} :
    k ∈ sourceIdsOf sourceItems ↔ ∃ e ∈ sourceItems, e.1.sourceId = k := by
  simp [sourceIdsOf]

lemma reconcileEntity_nil (mirror : Mirror D) :
    reconcileEntity itemMapper mirror [] = (mirror, .ok {}) := by
  unfold reconcileEntity
  simp only [mergeItems]
  split_ifs with hguard
  · rfl
  · have hempty : mirror = [] := by
      by_contra hne
      exact hguard ⟨rfl, List.length_pos_of_ne_nil hne⟩
    subst hempty
    rfl

lemma reconcileEntity_spec (hne : sourceItems ≠ [])
    (hvalid : ValidPass itemMapper mirror sourceItems) :
    ∃ written, reconcileEntity itemMapper mirror sourceItems = (written, .ok
        { upserted := sourceItems.countP fun e => isNewer mirror e.1
          deleted := mirror.countP fun row => decide (row.1 ∉ sourceIdsOf sourceItems)
          skipped := sourceItems.countP fun e => !isNewer mirror e.1 }) ∧
      PassOf itemMapper mirror sourceItems written := by
  obtain ⟨merged, hmerge, hmerged⟩ := mergeItems_spec mirror {} hvalid.listed hvalid.held
    hvalid.mapped
  have hunlisted : ∀ k, k ∉ sourceIdsOf sourceItems → lastNewer mirror k sourceItems = none := by
    intro k hk
    rw [lastNewer_eq_none]
    exact fun e he hid => absurd (mem_sourceIdsOf.mpr ⟨e, he, hid⟩) hk
  obtain ⟨left, hsweep, hleft⟩ := sweepRows_spec (sourceIdsOf sourceItems) merged
    { upserted := 0 + sourceItems.countP fun e => isNewer mirror e.1
      deleted := 0
      skipped := 0 + sourceItems.countP fun e => !isNewer mirror e.1 } hvalid.distinct (by
      intro k hk hnot
      have hget := (hmerged k).1 (hunlisted k hnot)
      by_contra hmissing
      rw [get_eq_none.mpr hmissing] at hget
      exact absurd hk (get_eq_none.mp hget.symm))
  refine ⟨left, ?_, ?_, ?_, ?_⟩
  · unfold reconcileEntity
    rw [hmerge]
    simp only
    rw [if_neg fun h => hne (List.length_eq_zero_iff.mp h.1), hsweep]
    simp only [Nat.zero_add]
  · intro k hk
    rw [hleft k]
    split_ifs with hrow
    · rfl
    · rw [(hmerged k).1 (hunlisted k hk), get_eq_none]
      exact fun hmem => hrow ⟨hmem, hk⟩
  · intro k hk hnone
    rw [hleft k, if_neg fun h => h.2 hk, (hmerged k).1 hnone]
  · intro k last hlast
    obtain ⟨hmem, hid, -⟩ := lastNewer_mem hlast
    have hk : k ∈ sourceIdsOf sourceItems := mem_sourceIdsOf.mpr ⟨last, hmem, hid⟩
    rw [hleft k, if_neg fun h => h.2 hk]
    exact (hmerged k).2 last hlast

variable {written : Mirror D}

/-- An item that is not above what was read for its row. -/
lemma exists_row_of_not_newer {item : MasterDataListItem P} (h : isNewer mirror item = false) :
    ∃ row, get mirror item.sourceId = some row ∧ seqValue item.seq ≤ seqValue row.seq := by
  unfold isNewer at h
  cases hget : get mirror item.sourceId with
  | none =>
    rw [hget] at h
    cases h
  | some row =>
    rw [hget] at h
    exact ⟨row, rfl, not_lt.mp (of_decide_eq_false h)⟩

lemma lt_of_isNewer {item : MasterDataListItem P} {row : MirrorRow D}
    (h : isNewer mirror item = true) (hget : get mirror item.sourceId = some row) :
    seqValue row.seq < seqValue item.seq := by
  unfold isNewer at h
  rw [hget] at h
  exact of_decide_eq_true h

lemma PassOf.keys_iff (h : PassOf itemMapper mirror sourceItems written) (k : JsString) :
    k ∈ keys written ↔ k ∈ sourceIdsOf sourceItems := by
  constructor
  · intro hk
    by_contra hnot
    exact get_eq_none.mp (h.unlisted k hnot) hk
  · intro hk
    cases hlast : lastNewer mirror k sourceItems with
    | some last =>
      obtain ⟨row, hrow, -⟩ := h.merged k last hlast
      exact mem_keys_of_get hrow
    | none =>
      obtain ⟨e, he, hid⟩ := mem_sourceIdsOf.mp hk
      obtain ⟨row, hrow, -⟩ := exists_row_of_not_newer (lastNewer_eq_none.mp hlast e he hid)
      rw [hid, ← h.kept k hk hlast] at hrow
      exact mem_keys_of_get hrow

/-- When the last of the items above a row is the highest, the row ends with the highest. -/
lemma PassOf.highest (h : PassOf itemMapper mirror sourceItems written)
    (hlast : LastIsHighest mirror sourceItems) {k : JsString} {row : MirrorRow D}
    (hrow : get written k = some row) : Highest itemMapper mirror sourceItems k row := by
  have hk : k ∈ sourceIdsOf sourceItems := (h.keys_iff k).mp (mem_keys_of_get hrow)
  cases hnext : lastNewer mirror k sourceItems with
  | none =>
    have hkept : get mirror k = some row := (h.kept k hk hnext).symm.trans hrow
    refine ⟨fun prev hprev => ?_, fun e he hid => ?_, .inl hkept⟩
    · rw [hkept] at hprev
      exact (Option.some.inj hprev) ▸ le_rfl
    · obtain ⟨row', hrow', hle⟩ :=
        exists_row_of_not_newer (lastNewer_eq_none.mp hnext e he hid)
      rw [hid, hkept] at hrow'
      exact (Option.some.inj hrow') ▸ hle
  | some last =>
    obtain ⟨row', hrow', hcarries⟩ := h.merged k last hnext
    obtain rfl : row' = row := Option.some.inj (hrow'.symm.trans hrow)
    obtain ⟨hmem, hid, hnewer⟩ := lastNewer_mem hnext
    refine ⟨fun prev hprev => ?_, fun e he hide => ?_, .inr ⟨last, hmem, hid, hcarries⟩⟩
    · rw [hcarries.1]
      exact (lt_of_isNewer hnewer (hid.symm ▸ hprev)).le
    · rw [hcarries.1]
      by_cases hnew : isNewer mirror e.1 = true
      · exact hlast k last hnext e he hide hnew
      · obtain ⟨prev, hprev, hle⟩ := exists_row_of_not_newer (Bool.not_eq_true _ ▸ hnew)
        rw [hide, ← hid] at hprev
        exact hle.trans (lt_of_isNewer hnewer hprev).le

/-- The next pass finds every row at its highest and does nothing. -/
lemma PassOf.again (h : PassOf itemMapper mirror sourceItems written)
    (hvalid : ValidPass itemMapper mirror sourceItems)
    (hrows : ∀ k row, get written k = some row → Highest itemMapper mirror sourceItems k row)
    {next : List (MasterDataListItem P × ℤ)}
    (hnext : next.map Prod.fst = sourceItems.map Prod.fst) (hne : next ≠ []) :
    reconcileEntity itemMapper written next = (written, .ok { skipped := next.length }) := by
  have hids : sourceIdsOf next = sourceIdsOf sourceItems := by
    have hmap := congrArg (List.map MasterDataListItem.sourceId) hnext
    simpa [sourceIdsOf, List.map_map, Function.comp_def] using hmap
  have hcurrent : ∀ e ∈ next, isCurrent written e.1 = .ok true := by
    intro e he
    have hmem : e.1 ∈ sourceItems.map Prod.fst := hnext ▸ List.mem_map_of_mem he
    obtain ⟨e', he', heq⟩ := List.mem_map.mp hmem
    have hid : e'.1.sourceId = e.1.sourceId := by rw [heq]
    have hkey : e.1.sourceId ∈ keys written :=
      (h.keys_iff _).mpr (mem_sourceIdsOf.mpr ⟨e', he', hid⟩)
    obtain ⟨row, hrow⟩ := Option.ne_none_iff_exists'.mp (mt get_eq_none.mp (not_not.mpr hkey))
    have hhighest := hrows _ row hrow
    have hle : seqValue e.1.seq ≤ seqValue row.seq := by
      rw [← heq]
      exact hhighest.listed e' he' hid
    have hreadable : ∃ n, toComparableSeq row.seq = .ok n := by
      rcases hhighest.source with hprev | ⟨e'', he'', -, hcarries⟩
      · exact hvalid.held e' he' row (hid.symm ▸ hprev)
      · rw [hcarries.1]
        exact hvalid.listed e'' he''
    have hlisted : ∃ n, toComparableSeq e.1.seq = .ok n := heq ▸ hvalid.listed e' he'
    rw [isCurrent_eq hlisted fun row' hrow' => by
      rw [hrow] at hrow'
      exact (Option.some.inj hrow') ▸ hreadable]
    simp [isNewer, hrow, not_lt.mpr hle]
  unfold reconcileEntity
  rw [mergeItems_of_current written {} hcurrent]
  simp only
  rw [if_neg fun hguard => hne (List.length_eq_zero_iff.mp hguard.1),
    sweepRows_of_listed written _ fun k hk => hids ▸ (h.keys_iff k).mp hk]
  simp only [Nat.zero_add]

/-- A pass converges exactly when, of the items listed above a row, the last is the highest. -/
theorem converges_iff (itemMapper : MasterDataListItem P → Except Thrown (Mapped D))
    (mirror : Mirror D) (sourceItems : List (MasterDataListItem P × ℤ))
    (hvalid : ValidPass itemMapper mirror sourceItems) :
    Converges itemMapper mirror sourceItems ↔ LastIsHighest mirror sourceItems := by
  by_cases hne : sourceItems = []
  · subst hne
    constructor
    · intro _ k last h
      cases h
    · intro _
      exact ⟨mirror, {}, reconcileEntity_nil mirror, by simp⟩
  obtain ⟨written, heq, hpass⟩ := reconcileEntity_spec hne hvalid
  constructor
  · rintro ⟨written', counts, heq', hconverged⟩ k last hlast e he hid hnewer
    rw [heq] at heq'
    obtain ⟨rfl, -⟩ := Prod.mk.inj heq'
    rw [if_neg hne] at hconverged
    obtain ⟨row, hrow, hcarries⟩ := hpass.merged k last hlast
    rw [← hcarries.1]
    exact (hconverged.rows k row hrow).listed e he hid
  · intro hlast
    refine ⟨written, _, heq, ?_⟩
    rw [if_neg hne]
    have hrows : ∀ k row, get written k = some row →
        Highest itemMapper mirror sourceItems k row :=
      fun k row hrow => hpass.highest hlast hrow
    refine ⟨hpass.keys_iff, hrows, ?_, rfl, fun next hnext => ?_⟩
    · have hsum := List.length_eq_countP_add_countP (l := sourceItems)
        (fun e => isNewer mirror e.1)
      simpa using hsum.symm
    · have hnonempty : next ≠ [] := by
        rintro rfl
        exact hne (List.map_eq_nil_iff.mp hnext.symm)
      exact ⟨_, hpass.again hvalid hrows hnext hnonempty, rfl, rfl⟩

/-- A mapper that keeps the id and takes the payload as it is. -/
def keepPayload (item : MasterDataListItem ℕ) : Except Thrown (Mapped ℕ) :=
  .ok ⟨item.sourceId, item.payload⟩

/-- The item of one row with a `seq`, which is its payload too, mapped at time `0`. -/
def version (seq : ℕ) : MasterDataListItem ℕ × ℤ := (⟨js "unit-1", .bigint seq, seq⟩, 0)

lemma validPass_versions (seqs : List ℕ) :
    ValidPass keepPayload ([] : Mirror ℕ) (seqs.map version) where
  distinct := List.nodup_nil
  listed e he := by
    obtain ⟨seq, -, rfl⟩ := List.mem_map.mp he
    exact ⟨seq, rfl⟩
  held e _ row hrow := by cases hrow
  mapped e he := by
    obtain ⟨seq, -, rfl⟩ := List.mem_map.mp he
    exact ⟨_, rfl, rfl⟩

theorem converges_versions : ValidPass keepPayload ([] : Mirror ℕ) ([3, 5].map version) ∧
    (Converges keepPayload ([] : Mirror ℕ) ([3, 5].map version) ↔
      LastIsHighest ([] : Mirror ℕ) ([3, 5].map version)) :=
  ⟨validPass_versions [3, 5], converges_iff _ _ _ (validPass_versions [3, 5])⟩

/-- The newer version first: the older one overwrites it, and the next pass writes again. -/
theorem older_version_stays : ValidPass keepPayload ([] : Mirror ℕ) ([5, 3].map version) ∧
    reconcileEntity keepPayload ([] : Mirror ℕ) ([5, 3].map version) =
      ([(js "unit-1", ⟨3, .bigint 3, 0⟩)], .ok { upserted := 2 }) ∧
    reconcileEntity keepPayload [(js "unit-1", ⟨3, .bigint 3, 0⟩)] ([5, 3].map version) =
      ([(js "unit-1", ⟨5, .bigint 5, 0⟩)], .ok { upserted := 1, skipped := 1 }) ∧
    ¬ Converges keepPayload ([] : Mirror ℕ) ([5, 3].map version) := by
  have hpass : reconcileEntity keepPayload ([] : Mirror ℕ) ([5, 3].map version) =
      ([(js "unit-1", ⟨3, .bigint 3, 0⟩)], .ok { upserted := 2 }) := by decide +kernel
  refine ⟨validPass_versions [5, 3], hpass, by decide +kernel, ?_⟩
  rintro ⟨written, counts, heq, hconverged⟩
  rw [hpass] at heq
  obtain ⟨rfl, -⟩ := Prod.mk.inj heq
  rw [if_neg (by simp)] at hconverged
  have hhighest := hconverged.rows (js "unit-1") ⟨3, .bigint 3, 0⟩ (by decide +kernel)
  have hle := hhighest.listed (version 5) (by simp) rfl
  exact absurd hle (by decide +kernel)

end Pass

section Alone

open Transitions

variable {W : Type} [DecidableEq W] {options : MasterDataSyncHandlerOptions}
  {mapper : MasterDataMirrorMapper P D}
  {itemMapper : MasterDataListItem P → Except Thrown (Mapped D)} {jobs : W → Job P} {w : W}
  {items : List (MasterDataListItem P)} {knownSeq : ℤ}

/-- The writer gets from one state to another by model calls of its own. -/
def Reaches (step : MirrorState W P D → W × ℤ → Option (MirrorState W P D)) (w : W)
    (s t : MirrorState W P D) : Prop :=
  ∃ times : List ℤ, run step s (times.map fun now => (w, now)) = some t

omit [DecidableEq W] in
lemma Reaches.refl {step : MirrorState W P D → W × ℤ → Option (MirrorState W P D)}
    (s : MirrorState W P D) : Reaches step w s s := ⟨[], rfl⟩

omit [DecidableEq W] in
lemma Reaches.head {step : MirrorState W P D → W × ℤ → Option (MirrorState W P D)}
    {s t u : MirrorState W P D} (now : ℤ) (hstep : step s (w, now) = some t)
    (h : Reaches step w t u) : Reaches step w s u := by
  obtain ⟨times, hrun⟩ := h
  exact ⟨now :: times, run_cons.mpr ⟨t, hstep, hrun⟩⟩

variable (options mapper itemMapper) in
/-- The loop over the list, model call by model call. -/
lemma reaches_merged {s : MirrorState W P D} (hjob : jobs w = .reconcile items knownSeq)
    (existing : Mirror D) (readAt : ℕ) (sourceItems : List (MasterDataListItem P × ℤ))
    (counts : ReconcileCounts)
    (hphase : s.phase w = .merging existing (sourceItems.map Prod.fst) readAt counts) :
    ∃ t, Reaches (step options mapper itemMapper jobs) w s t ∧
      t.mirror = (mergeItems itemMapper existing sourceItems s.mirror counts).1 ∧
      t.phase w =
        match (mergeItems itemMapper existing sourceItems s.mirror counts).2 with
        | .error error => .reconciled (.error error)
        | .ok counts' => .merging existing [] readAt counts' := by
  induction sourceItems generalizing s counts with
  | nil => exact ⟨s, .refl s, rfl, hphase⟩
  | cons e rest ih =>
    obtain ⟨item, now⟩ := e
    have hstep : step options mapper itemMapper jobs s (w, now) = some (mergeItem itemMapper s w
        existing item (rest.map Prod.fst) readAt counts now) := by
      simp [step, hjob, hphase]
    unfold mergeItem at hstep
    simp only [mergeItems]
    cases hcurrent : isCurrent existing item with
    | error error =>
      rw [hcurrent] at hstep
      exact ⟨_, .head now hstep (.refl _), rfl, Function.update_self _ _ _⟩
    | ok current =>
      rw [hcurrent] at hstep
      cases current with
      | true =>
        obtain ⟨t, hreach, hmirror, hend⟩ := ih (s := s.setPhase w (.merging existing
          (rest.map Prod.fst) readAt { counts with skipped := counts.skipped + 1 }))
          { counts with skipped := counts.skipped + 1 } (Function.update_self _ _ _)
        exact ⟨t, .head now hstep hreach, hmirror, hend⟩
      | false =>
        simp only at hstep ⊢
        cases hdata : mapSourceItem itemMapper item now with
        | error error =>
          rw [hdata] at hstep
          exact ⟨_, .head now hstep (.refl _), rfl, Function.update_self _ _ _⟩
        | ok data =>
          rw [hdata] at hstep
          simp only at hstep ⊢
          cases hwritten : upsert s.mirror item.sourceId data with
          | error error =>
            rw [hwritten] at hstep
            exact ⟨_, .head now hstep (.refl _), rfl, Function.update_self _ _ _⟩
          | ok written =>
            rw [hwritten] at hstep
            obtain ⟨t, hreach, hmirror, hend⟩ := ih (s := s.write w (.merging existing
              (rest.map Prod.fst) readAt { counts with upserted := counts.upserted + 1 })
              written (upsertEntries item.sourceId data))
              { counts with upserted := counts.upserted + 1 } (Function.update_self _ _ _)
            exact ⟨t, .head now hstep hreach, hmirror, hend⟩

variable (options mapper itemMapper) in
/-- The sweep, row by row. -/
lemma reaches_swept {s : MirrorState W P D} (hjob : jobs w = .reconcile items knownSeq)
    (existing : Mirror D) (readAt : ℕ) (rows : Mirror D) (counts : ReconcileCounts)
    (hphase : s.phase w = .sweeping existing rows readAt counts) :
    ∃ t, Reaches (step options mapper itemMapper jobs) w s t ∧
      t.mirror = (sweepRows (items.map (·.sourceId)) rows s.mirror counts).1 ∧
      t.phase w = .reconciled (sweepRows (items.map (·.sourceId)) rows s.mirror counts).2 := by
  induction rows generalizing s counts with
  | nil =>
    have hstep : step options mapper itemMapper jobs s (w, 0) =
        some (s.setPhase w (.reconciled (.ok counts))) := by
      simp [step, hjob, hphase]
    exact ⟨_, .head 0 hstep (.refl _), rfl, Function.update_self _ _ _⟩
  | cons row rest ih =>
    have hstep : step options mapper itemMapper jobs s (w, 0) =
        some (sweepRow s w items existing row rest readAt counts) := by
      simp [step, hjob, hphase]
    unfold sweepRow at hstep
    simp only [sweepRows]
    by_cases hlisted : row.1 ∈ items.map (·.sourceId)
    · rw [if_pos hlisted] at hstep
      rw [if_pos hlisted]
      obtain ⟨t, hreach, hmirror, hend⟩ := ih
        (s := s.setPhase w (.sweeping existing rest readAt counts)) counts
        (Function.update_self _ _ _)
      exact ⟨t, .head 0 hstep hreach, hmirror, hend⟩
    · rw [if_neg hlisted] at hstep
      rw [if_neg hlisted]
      cases hleft : delete s.mirror row.1 with
      | error error =>
        rw [hleft] at hstep
        exact ⟨_, .head 0 hstep (.refl _), rfl, Function.update_self _ _ _⟩
      | ok left =>
        rw [hleft] at hstep
        obtain ⟨t, hreach, hmirror, hend⟩ := ih (s := s.write w (.sweeping existing rest readAt
          { counts with deleted := counts.deleted + 1 }) left [(row.1, none)])
          { counts with deleted := counts.deleted + 1 } (Function.update_self _ _ _)
        exact ⟨t, .head 0 hstep hreach, hmirror, hend⟩

omit [DecidableEq W] in
lemma Reaches.trans {step : MirrorState W P D → W × ℤ → Option (MirrorState W P D)}
    {s t u : MirrorState W P D} (hst : Reaches step w s t) (htu : Reaches step w t u) :
    Reaches step w s u := by
  obtain ⟨times, hrun⟩ := hst
  obtain ⟨times', hrun'⟩ := htu
  refine ⟨times ++ times', ?_⟩
  rw [List.map_append, run_append]
  exact ⟨t, hrun, hrun'⟩

/-- Undisturbed, a writer that reconciles does what `reconcileEntity` does. -/
theorem reaches_reconciled {s : MirrorState W P D}
    (sourceItems : List (MasterDataListItem P × ℤ))
    (hjob : jobs w = .reconcile (sourceItems.map Prod.fst) knownSeq)
    (hphase : s.phase w = .notStarted) :
    ∃ t, Reaches (step options mapper itemMapper jobs) w s t ∧
      t.mirror = (reconcileEntity itemMapper s.mirror sourceItems).1 ∧
      t.phase w = .reconciled (reconcileEntity itemMapper s.mirror sourceItems).2 := by
  have hstart : step options mapper itemMapper jobs s (w, 0) = some (s.setPhase w
      (.merging s.mirror (sourceItems.map Prod.fst) s.journal.length {})) := by
    simp [step, hjob, hphase]
  obtain ⟨merged, hmerge, hmirror, hend⟩ := reaches_merged options mapper itemMapper
    (s := s.setPhase w (.merging s.mirror (sourceItems.map Prod.fst) s.journal.length {}))
    hjob s.mirror s.journal.length sourceItems {} (Function.update_self _ _ _)
  have hmirror' : merged.mirror =
      (mergeItems itemMapper s.mirror sourceItems s.mirror {}).1 := hmirror
  have hend' : merged.phase w =
      match (mergeItems itemMapper s.mirror sourceItems s.mirror {}).2 with
      | .error error => .reconciled (.error error)
      | .ok counts => .merging s.mirror [] s.journal.length counts := hend
  unfold reconcileEntity
  cases hloop : mergeItems itemMapper s.mirror sourceItems s.mirror {} with
  | mk written outcome =>
    rw [hloop] at hmirror' hend'
    cases outcome with
    | error error => exact ⟨merged, .head 0 hstart hmerge, hmirror', hend'⟩
    | ok counts =>
      have hguard : step options mapper itemMapper jobs merged (w, 0) = some (startSweep merged w
          (sourceItems.map Prod.fst) s.mirror s.journal.length counts) := by
        simp [step, hjob, hend']
      unfold startSweep at hguard
      simp only [List.map_eq_nil_iff] at hguard
      simp only [List.length_eq_zero_iff, gt_iff_lt, List.length_pos_iff]
      by_cases hempty : sourceItems = [] ∧ s.mirror ≠ []
      · rw [if_pos hempty] at hguard
        rw [if_pos hempty]
        exact ⟨_, .head 0 hstart (hmerge.trans (.head 0 hguard (.refl _))), hmirror',
          Function.update_self _ _ _⟩
      · rw [if_neg hempty] at hguard
        rw [if_neg hempty]
        obtain ⟨t, hsweep, hleft, hdone⟩ := reaches_swept options mapper itemMapper
          (s := merged.setPhase w (.sweeping s.mirror s.mirror s.journal.length counts))
          hjob s.mirror s.journal.length s.mirror counts (Function.update_self _ _ _)
        have hids : (sourceItems.map Prod.fst).map (·.sourceId) = sourceIdsOf sourceItems := by
          simp [sourceIdsOf, List.map_map, Function.comp_def]
        have hheld : (merged.setPhase w
            (.sweeping s.mirror s.mirror s.journal.length counts)).mirror = written := hmirror'
        rw [hids, hheld] at hleft hdone
        exact ⟨t, .head 0 hstart (hmerge.trans (.head 0 hguard hsweep)), hleft, hdone⟩

end Alone

end Appspine.MasterData
