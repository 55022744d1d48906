import Appspine.MirrorSync
import Appspine.Transitions

/-!
# Writers of one mirror, interleaved

Calls of a sync handler and runs of `reconcileEntity` over one mirror model, one model call at a
time. Beside the rows the state keeps a journal of the rows that were written and removed, so
that a step can be asked what happened to a row since its writer last read it.
-/
namespace Appspine.MasterData
open JsText InsertionMap Transitions

variable {P D W : Type}

structure MasterDataListItem (P : Type) where
  sourceId : JsString
  seq : EventSeq
  payload : P

/-- The counters `reconcileEntity` returns. -/
structure ReconcileCounts where
  upserted : ℕ := 0
  deleted : ℕ := 0
  skipped : ℕ := 0
  deriving DecidableEq

/-- What a writer is for: one event, or one fetched list with the last `seq` the source had
issued when it answered. -/
inductive Job (P : Type) where
  | handle (event : MasterDataEventRecord P)
  | reconcile (sourceItems : List (MasterDataListItem P)) (knownSeq : ℤ)

/-- Where a writer is. What it read is kept with the length of the journal at that time. -/
inductive Phase (P D : Type) where
  | notStarted
  | decided (existing : Option (MirrorRow D)) (decision : Decision D) (readAt : ℕ)
  | merging (existing : Mirror D) (rest : List (MasterDataListItem P)) (readAt : ℕ)
      (counts : ReconcileCounts)
  | sweeping (existing rest : Mirror D) (readAt : ℕ) (counts : ReconcileCounts)
  | handled (result : Except Thrown SyncOutcome)
  | reconciled (result : Except Thrown ReconcileCounts)

/-- A row that was removed, or written with a `seq`. -/
abbrev JournalEntry := JsString × Option EventSeq

structure MirrorState (W P D : Type) where
  mirror : Mirror D
  journal : List JournalEntry
  phase : W → Phase P D

section Journal

/-- The last entry for a row. -/
def lastEntry (journal : List JournalEntry) (sourceId : JsString) : Option (Option EventSeq) :=
  ((journal.filter (fun entry => decide (entry.1 = sourceId))).getLast?).map Prod.snd

/-- What an entry says the row is now. -/
def Reflects (before : Option (MirrorRow D)) (entry : Option (Option EventSeq))
    (row : Option (MirrorRow D)) : Prop :=
  match entry with
  | none => row = before
  | some none => row = none
  | some (some seq) => ∃ written, row = some written ∧ written.seq = seq

@[simp] lemma lastEntry_nil (sourceId : JsString) : lastEntry [] sourceId = none := rfl

lemma lastEntry_append (journal entries : List JournalEntry) (sourceId : JsString) :
    lastEntry (journal ++ entries) sourceId =
      (lastEntry entries sourceId).or (lastEntry journal sourceId) := by
  simp only [lastEntry, List.filter_append, List.getLast?_append, Option.map_or]

lemma Reflects.trans {a b c : Option (MirrorRow D)} {first second : Option (Option EventSeq)}
    (hab : Reflects a first b) (hbc : Reflects b second c) : Reflects a (second.or first) c := by
  cases second with
  | none =>
    obtain rfl : c = b := hbc
    exact hab
  | some entry => cases entry <;> exact hbc

lemma lastEntry_eq_none {journal : List JournalEntry} {sourceId : JsString} :
    lastEntry journal sourceId = none ↔ ∀ entry, (sourceId, entry) ∉ journal := by
  simp only [lastEntry, Option.map_eq_none_iff, List.getLast?_eq_none_iff, List.filter_eq_nil_iff,
    decide_eq_true_eq]
  exact ⟨fun h entry hmem => h _ hmem rfl, fun h entry hmem hkey => h entry.2 (hkey ▸ hmem)⟩

lemma mem_of_lastEntry {journal : List JournalEntry} {sourceId : JsString} {entry : Option EventSeq}
    (h : lastEntry journal sourceId = some entry) : (sourceId, entry) ∈ journal := by
  obtain ⟨found, hfound, rfl⟩ := Option.map_eq_some_iff.mp h
  have hmem := List.mem_filter.mp (List.mem_of_getLast? hfound)
  have hkey : found.1 = sourceId := by simpa using hmem.2
  exact hkey ▸ hmem.1

end Journal

section Step

variable [DecidableEq W]

def MirrorState.setPhase (s : MirrorState W P D) (w : W) (phase : Phase P D) :
    MirrorState W P D :=
  { s with phase := Function.update s.phase w phase }

/-- The mirror and the journal after a write of writer `w`. -/
def MirrorState.write (s : MirrorState W P D) (w : W) (phase : Phase P D) (mirror : Mirror D)
    (entries : List JournalEntry) : MirrorState W P D :=
  { s.setPhase w phase with mirror := mirror, journal := s.journal ++ entries }

def upsertEntries (sourceId : JsString) (data : JsString × MirrorRow D) : List JournalEntry :=
  [(sourceId, none), (data.1, some data.2.seq)]

/-- The journal entries of the write a `handle` call made, by its outcome. -/
def handleEntries (sourceId : JsString) :
    Decision D → Except Thrown SyncOutcome → List JournalEntry
  | .delete, .ok .deleted => [(sourceId, none)]
  | .upsert data, .ok .upserted => upsertEntries sourceId data
  | _, _ => []

variable (options : MasterDataSyncHandlerOptions) (mapper : MasterDataMirrorMapper P D)
  (itemMapper : MasterDataListItem P → Except Thrown (Mapped D))

/-- The first half of `handle`: an event of another type is ignored without a look-up. -/
def lookUp (s : MirrorState W P D) (w : W) (event : MasterDataEventRecord P) (now : ℤ) :
    MirrorState W P D :=
  let existing := findUnique s.mirror event.aggregateId
  match decideHandle options mapper event now existing with
  | .finish result => s.setPhase w (.handled result)
  | decision => s.setPhase w (.decided existing decision s.journal.length)

/-- The second half of `handle`. -/
def handleWrite (s : MirrorState W P D) (w : W) (event : MasterDataEventRecord P)
    (decision : Decision D) : MirrorState W P D :=
  let outcome := carryOut s.mirror event.aggregateId decision
  s.write w (.handled outcome.1) outcome.2 (handleEntries event.aggregateId decision outcome.1)

/-- `{ ...entity.mapper(item), seq: item.seq, syncedAt: new Date() }`. -/
def mapSourceItem (item : MasterDataListItem P) (now : ℤ) :
    Except Thrown (JsString × MirrorRow D) := do
  let mapped ← itemMapper item
  pure (mapped.sourceId, { fields := mapped.fields, seq := item.seq, syncedAt := now })

/-- `current && current.seq >= item.seq`. -/
def isCurrent (existing : Mirror D) (item : MasterDataListItem P) : Except Thrown Bool :=
  match get existing item.sourceId with
  | none => .ok false
  | some row => do
    let held ← toComparableSeq row.seq
    let seq ← toComparableSeq item.seq
    pure (decide (seq ≤ held))

/-- One item of the source list. -/
def mergeItem (s : MirrorState W P D) (w : W) (existing : Mirror D) (item : MasterDataListItem P)
    (rest : List (MasterDataListItem P)) (readAt : ℕ) (counts : ReconcileCounts) (now : ℤ) :
    MirrorState W P D :=
  match isCurrent existing item with
  | .error error => s.setPhase w (.reconciled (.error error))
  | .ok true =>
    s.setPhase w (.merging existing rest readAt { counts with skipped := counts.skipped + 1 })
  | .ok false =>
    match mapSourceItem itemMapper item now with
    | .error error => s.setPhase w (.reconciled (.error error))
    | .ok data =>
      match upsert s.mirror item.sourceId data with
      | .error error => s.setPhase w (.reconciled (.error error))
      | .ok written =>
        s.write w (.merging existing rest readAt { counts with upserted := counts.upserted + 1 })
          written (upsertEntries item.sourceId data)

/-- The guard between the two loops. -/
def startSweep (s : MirrorState W P D) (w : W) (sourceItems : List (MasterDataListItem P))
    (existing : Mirror D) (readAt : ℕ) (counts : ReconcileCounts) : MirrorState W P D :=
  if sourceItems = [] ∧ existing ≠ [] then
    s.setPhase w (.reconciled (.ok { counts with deleted := 0 }))
  else s.setPhase w (.sweeping existing existing readAt counts)

/-- One row of the snapshot in the delete-sweep. -/
def sweepRow (s : MirrorState W P D) (w : W) (sourceItems : List (MasterDataListItem P))
    (existing : Mirror D) (row : JsString × MirrorRow D) (rest : Mirror D) (readAt : ℕ)
    (counts : ReconcileCounts) : MirrorState W P D :=
  if row.1 ∈ sourceItems.map (·.sourceId) then
    s.setPhase w (.sweeping existing rest readAt counts)
  else
    match delete s.mirror row.1 with
    | .error error => s.setPhase w (.reconciled (.error error))
    | .ok left =>
      s.write w (.sweeping existing rest readAt { counts with deleted := counts.deleted + 1 })
        left [(row.1, none)]

variable (jobs : W → Job P)

/-- The next model call of a writer, with what it does up to the one after it. -/
def step (s : MirrorState W P D) (a : W × ℤ) : Option (MirrorState W P D) :=
  match jobs a.1, s.phase a.1 with
  | .handle event, .notStarted => some (lookUp options mapper s a.1 event a.2)
  | .handle event, .decided _ decision _ => some (handleWrite s a.1 event decision)
  | .reconcile sourceItems _, .notStarted =>
    some (s.setPhase a.1 (.merging s.mirror sourceItems s.journal.length {}))
  | .reconcile _ _, .merging existing (item :: rest) readAt counts =>
    some (mergeItem itemMapper s a.1 existing item rest readAt counts a.2)
  | .reconcile sourceItems _, .merging existing [] readAt counts =>
    some (startSweep s a.1 sourceItems existing readAt counts)
  | .reconcile sourceItems _, .sweeping existing (row :: rest) readAt counts =>
    some (sweepRow s a.1 sourceItems existing row rest readAt counts)
  | .reconcile _ _, .sweeping _ [] _ counts => some (s.setPhase a.1 (.reconciled (.ok counts)))
  | _, _ => none

end Step

section Runs

variable [DecidableEq W] {options : MasterDataSyncHandlerOptions} {mapper : MasterDataMirrorMapper P D}
  {itemMapper : MasterDataListItem P → Except Thrown (Mapped D)} {jobs : W → Job P}
  {s t : MirrorState W P D}

/-- What a write does to every row, and that it keeps the rows unique. -/
structure Written (mirror : Mirror D) (entries : List JournalEntry) (written : Mirror D) : Prop where
  rows : ∀ k, Reflects (get mirror k) (lastEntry entries k) (get written k)
  unique : (keys mirror).Nodup → (keys written).Nodup

lemma Written.refl (mirror : Mirror D) : Written mirror [] mirror := ⟨fun _ => rfl, id⟩

lemma nodup_without {mirror : Mirror D} (h : (keys mirror).Nodup) (sourceId : JsString) :
    (keys (without mirror sourceId)).Nodup :=
  h.sublist (List.filter_sublist.map Prod.fst)

lemma written_upsert {mirror written : Mirror D} {sourceId : JsString}
    {data : JsString × MirrorRow D} (h : upsert mirror sourceId data = .ok written) :
    Written mirror (upsertEntries sourceId data) written := by
  constructor
  · intro k
    rw [get_upsert h]
    by_cases hdata : k = data.1
    · have hlast : lastEntry (upsertEntries sourceId data) k = some (some data.2.seq) := by
        rw [upsertEntries, ← List.singleton_append, lastEntry_append]
        simp [lastEntry, hdata]
      rw [if_pos hdata, hlast]
      exact ⟨data.2, rfl, rfl⟩
    · rw [if_neg hdata]
      by_cases hid : k = sourceId
      · have hlast : lastEntry (upsertEntries sourceId data) k = some none := by
          rw [upsertEntries, ← List.singleton_append, lastEntry_append]
          simp [lastEntry, hid, Ne.symm (hid ▸ hdata)]
        rw [if_pos hid, hlast]
        exact rfl
      · have hlast : lastEntry (upsertEntries sourceId data) k = none := by
          rw [lastEntry_eq_none]
          intro entry hmem
          simp only [upsertEntries, List.mem_cons, Prod.mk.injEq, List.not_mem_nil, or_false] at hmem
          exact hmem.elim (fun h => hid h.1) (fun h => hdata h.1)
        rw [if_neg hid, hlast]
        exact rfl
  · intro hunique
    unfold upsert at h
    split_ifs at h
    rw [← Except.ok.inj h]
    exact nodup_keys_set (nodup_without hunique sourceId) _ _

lemma written_delete {mirror left : Mirror D} {sourceId : JsString}
    (h : delete mirror sourceId = .ok left) : Written mirror [(sourceId, none)] left := by
  constructor
  · intro k
    rw [get_delete h]
    by_cases hid : k = sourceId
    · have hlast : lastEntry [(sourceId, none)] k = some none := by simp [lastEntry, hid]
      rw [if_pos hid, hlast]
      exact rfl
    · have hlast : lastEntry [(sourceId, none)] k = none := by simp [lastEntry, Ne.symm hid]
      rw [if_neg hid, hlast]
      exact rfl
  · intro hunique
    unfold delete at h
    split_ifs at h
    rw [← Except.ok.inj h]
    exact nodup_without hunique sourceId

lemma written_carryOut (mirror : Mirror D) (sourceId : JsString) (decision : Decision D) :
    Written mirror (handleEntries sourceId decision (carryOut mirror sourceId decision).1)
      (carryOut mirror sourceId decision).2 := by
  cases decision with
  | finish result => exact .refl mirror
  | delete =>
    simp only [carryOut]
    cases hdelete : delete mirror sourceId with
    | ok left => exact written_delete hdelete
    | error error =>
      simp only
      split_ifs
      · exact .refl mirror
      · exact .refl mirror
  | upsert data =>
    simp only [carryOut]
    cases hupsert : upsert mirror sourceId data with
    | ok written => exact written_upsert hupsert
    | error error => exact .refl mirror

@[simp] lemma setPhase_self (s : MirrorState W P D) (w : W) (phase : Phase P D) :
    (s.setPhase w phase).phase w = phase := by simp [MirrorState.setPhase]

lemma setPhase_of_ne {w w' : W} (h : w' ≠ w) (phase : Phase P D) :
    (s.setPhase w phase).phase w' = s.phase w' := by simp [MirrorState.setPhase, h]

@[simp] lemma setPhase_mirror (s : MirrorState W P D) (w : W) (phase : Phase P D) :
    (s.setPhase w phase).mirror = s.mirror := rfl

@[simp] lemma write_mirror (s : MirrorState W P D) (w : W) (phase : Phase P D) (mirror : Mirror D)
    (entries : List JournalEntry) : (s.write w phase mirror entries).mirror = mirror := rfl

@[simp] lemma write_self (s : MirrorState W P D) (w : W) (phase : Phase P D) (mirror : Mirror D)
    (entries : List JournalEntry) : (s.write w phase mirror entries).phase w = phase :=
  setPhase_self s w phase

lemma write_of_ne {w w' : W} (h : w' ≠ w) (phase : Phase P D) (mirror : Mirror D)
    (entries : List JournalEntry) : (s.write w phase mirror entries).phase w' = s.phase w' :=
  setPhase_of_ne h phase

/-- The rows as a writer read them, and what happened to them since. -/
structure Since (s : MirrorState W P D) (readAt : ℕ) (k : JsString) (before : Option (MirrorRow D)) :
    Prop where
  bounded : readAt ≤ s.journal.length
  reflects : Reflects before (lastEntry (s.journal.drop readAt) k) (get s.mirror k)

/-- What is known of a writer that has read the mirror. -/
def SnapshotOf (options : MasterDataSyncHandlerOptions) (mapper : MasterDataMirrorMapper P D)
    (s : MirrorState W P D) (job : Job P) : Phase P D → Prop
  | .decided existing decision readAt => ∃ event now, job = .handle event ∧
      decision = decideHandle options mapper event now existing ∧
      Since s readAt event.aggregateId existing
  | .merging existing _ readAt _ => (keys existing).Nodup ∧ ∀ k, Since s readAt k (get existing k)
  | .sweeping existing rest readAt _ => (keys existing).Nodup ∧ rest ⊆ existing ∧
      ∀ k, Since s readAt k (get existing k)
  | _ => True

structure Coherent (options : MasterDataSyncHandlerOptions) (mapper : MasterDataMirrorMapper P D)
    (jobs : W → Job P) (s : MirrorState W P D) : Prop where
  unique : (keys s.mirror).Nodup
  snapshots : ∀ w, SnapshotOf options mapper s (jobs w) (s.phase w)

/-- How a phase follows from the one before without a look at the mirror. -/
inductive Next : Phase P D → Phase P D → Prop
  | handled (before : Phase P D) (result : Except Thrown SyncOutcome) : Next before (.handled result)
  | reconciled (before : Phase P D) (result : Except Thrown ReconcileCounts) :
      Next before (.reconciled result)
  | merging {existing : Mirror D} {items rest : List (MasterDataListItem P)} {readAt : ℕ}
      {counts counts' : ReconcileCounts} :
      Next (.merging existing items readAt counts) (.merging existing rest readAt counts')
  | sweep {existing : Mirror D} {items : List (MasterDataListItem P)} {readAt : ℕ}
      {counts : ReconcileCounts} :
      Next (.merging existing items readAt counts) (.sweeping existing existing readAt counts)
  | sweeping {existing rest : Mirror D} {row : JsString × MirrorRow D} {readAt : ℕ}
      {counts counts' : ReconcileCounts} :
      Next (.sweeping existing (row :: rest) readAt counts) (.sweeping existing rest readAt counts')

/-- A phase that starts from the mirror as it is. -/
inductive Fresh (options : MasterDataSyncHandlerOptions) (mapper : MasterDataMirrorMapper P D)
    (s : MirrorState W P D) : Job P → Phase P D → Prop
  | decided (event : MasterDataEventRecord P) (now : ℤ) :
      Fresh options mapper s (.handle event) (.decided (findUnique s.mirror event.aggregateId)
        (decideHandle options mapper event now (findUnique s.mirror event.aggregateId))
        s.journal.length)
  | merging (sourceItems : List (MasterDataListItem P)) (knownSeq : ℤ)
      (counts : ReconcileCounts) :
      Fresh options mapper s (.reconcile sourceItems knownSeq)
        (.merging s.mirror sourceItems s.journal.length counts)

/-- All a step can do: read the mirror, or go on with at most one write. -/
inductive Moves (options : MasterDataSyncHandlerOptions) (mapper : MasterDataMirrorMapper P D)
    (jobs : W → Job P) (s : MirrorState W P D) (w : W) : MirrorState W P D → Prop
  | read {phase : Phase P D} (fresh : Fresh options mapper s (jobs w) phase) :
      Moves options mapper jobs s w (s.setPhase w phase)
  | go {phase : Phase P D} {mirror : Mirror D} {entries : List JournalEntry}
      (written : Written s.mirror entries mirror) (next : Next (s.phase w) phase) :
      Moves options mapper jobs s w (s.write w phase mirror entries)

lemma Moves.stay {w : W} {phase : Phase P D} (next : Next (s.phase w) phase) :
    Moves options mapper jobs s w (s.setPhase w phase) := by
  have h : Moves options mapper jobs s w (s.write w phase s.mirror []) :=
    .go (.refl s.mirror) next
  simpa [MirrorState.write, MirrorState.setPhase] using h

lemma moves_lookUp {w : W} {event : MasterDataEventRecord P} (hjob : jobs w = .handle event)
    (now : ℤ) : Moves options mapper jobs s w (lookUp options mapper s w event now) := by
  unfold lookUp
  simp only
  have hfresh : Fresh options mapper s (jobs w)
      (.decided (findUnique s.mirror event.aggregateId)
        (decideHandle options mapper event now (findUnique s.mirror event.aggregateId))
        s.journal.length) := hjob ▸ .decided event now
  split
  · exact .stay (.handled _ _)
  · exact .read hfresh

lemma moves_mergeItem {w : W} {existing : Mirror D} {item : MasterDataListItem P}
    {rest : List (MasterDataListItem P)} {readAt : ℕ} {counts : ReconcileCounts}
    (hphase : s.phase w = .merging existing (item :: rest) readAt counts) (now : ℤ) :
    Moves options mapper jobs s w (mergeItem itemMapper s w existing item rest readAt counts now) := by
  unfold mergeItem
  split
  · exact .stay (.reconciled _ _)
  · exact .stay (hphase ▸ .merging)
  · split
    · exact .stay (.reconciled _ _)
    · split
      · exact .stay (.reconciled _ _)
      · rename_i hupsert
        exact .go (written_upsert hupsert) (hphase ▸ .merging)

lemma moves_sweepRow {w : W} {sourceItems : List (MasterDataListItem P)} {existing rest : Mirror D}
    {row : JsString × MirrorRow D} {readAt : ℕ} {counts : ReconcileCounts}
    (hphase : s.phase w = .sweeping existing (row :: rest) readAt counts) :
    Moves options mapper jobs s w (sweepRow s w sourceItems existing row rest readAt counts) := by
  unfold sweepRow
  split_ifs
  · exact .stay (hphase ▸ .sweeping)
  · split
    · exact .stay (.reconciled _ _)
    · rename_i hdelete
      exact .go (written_delete hdelete) (hphase ▸ .sweeping)

lemma step_moves {a : W × ℤ} (h : step options mapper itemMapper jobs s a = some t) :
    Moves options mapper jobs s a.1 t := by
  unfold step at h
  split at h
  · rename_i event hjob hphase
    rw [← Option.some.inj h]
    exact moves_lookUp hjob a.2
  · rw [← Option.some.inj h]
    exact .go (written_carryOut _ _ _) (.handled _ _)
  · rename_i sourceItems knownSeq hjob hphase
    rw [← Option.some.inj h]
    exact .read (hjob ▸ .merging sourceItems knownSeq {})
  · rename_i hjob hphase
    rw [← Option.some.inj h]
    exact moves_mergeItem hphase a.2
  · rename_i hjob hphase
    rw [← Option.some.inj h, startSweep]
    split_ifs
    · exact .stay (.reconciled _ _)
    · exact .stay (hphase ▸ .sweep)
  · rename_i hjob hphase
    rw [← Option.some.inj h]
    exact moves_sweepRow hphase
  · rw [← Option.some.inj h]
    exact .stay (.reconciled _ _)
  · cases h

lemma Since.write {readAt : ℕ} {k : JsString} {before : Option (MirrorRow D)} {w : W}
    {phase : Phase P D} {mirror : Mirror D} {entries : List JournalEntry}
    (h : Since s readAt k before) (hw : Written s.mirror entries mirror) :
    Since (s.write w phase mirror entries) readAt k before := by
  refine ⟨h.bounded.trans (by simp [MirrorState.write]), ?_⟩
  have hdrop : (s.write w phase mirror entries).journal.drop readAt =
      s.journal.drop readAt ++ entries := by
    simp [MirrorState.write, List.drop_append_of_le_length h.bounded]
  rw [hdrop, lastEntry_append]
  exact h.reflects.trans (hw.rows k)

omit [DecidableEq W] in
lemma since_now (s : MirrorState W P D) (k : JsString) :
    Since s s.journal.length k (get s.mirror k) :=
  ⟨le_rfl, by simp [Reflects]⟩

lemma SnapshotOf.write {w : W} {phase : Phase P D} {mirror : Mirror D}
    {entries : List JournalEntry} {job : Job P} {p : Phase P D}
    (h : SnapshotOf options mapper s job p) (hw : Written s.mirror entries mirror) :
    SnapshotOf options mapper (s.write w phase mirror entries) job p := by
  cases p with
  | decided existing decision readAt =>
    obtain ⟨event, now, hjob, hdecision, hsince⟩ := h
    exact ⟨event, now, hjob, hdecision, hsince.write hw⟩
  | merging existing rest readAt counts => exact ⟨h.1, fun k => (h.2 k).write hw⟩
  | sweeping existing rest readAt counts => exact ⟨h.1, h.2.1, fun k => (h.2.2 k).write hw⟩
  | _ => trivial

lemma SnapshotOf.setPhase {w : W} {phase : Phase P D} {job : Job P} {p : Phase P D}
    (h : SnapshotOf options mapper s job p) :
    SnapshotOf options mapper (s.setPhase w phase) job p := by
  cases p with
  | decided existing decision readAt =>
    obtain ⟨event, now, hjob, hdecision, hsince⟩ := h
    exact ⟨event, now, hjob, hdecision, hsince.bounded, hsince.reflects⟩
  | merging existing rest readAt counts =>
    exact ⟨h.1, fun k => ⟨(h.2 k).bounded, (h.2 k).reflects⟩⟩
  | sweeping existing rest readAt counts =>
    exact ⟨h.1, h.2.1, fun k => ⟨(h.2.2 k).bounded, (h.2.2 k).reflects⟩⟩
  | _ => trivial

omit [DecidableEq W] in
lemma SnapshotOf.next {job : Job P} {p q : Phase P D} (h : SnapshotOf options mapper s job p)
    (hnext : Next p q) : SnapshotOf options mapper s job q := by
  cases hnext with
  | handled => trivial
  | reconciled => trivial
  | merging => exact h
  | sweep => exact ⟨h.1, List.Subset.refl _, h.2⟩
  | sweeping => exact ⟨h.1, fun row hrow => h.2.1 (List.mem_cons_of_mem _ hrow), h.2.2⟩

omit [DecidableEq W] in
lemma SnapshotOf.fresh {job : Job P} {p : Phase P D} (hunique : (keys s.mirror).Nodup)
    (h : Fresh options mapper s job p) : SnapshotOf options mapper s job p := by
  cases h with
  | decided event now => exact ⟨event, now, rfl, rfl, since_now s _⟩
  | merging => exact ⟨hunique, fun k => since_now s k⟩

lemma coherent_step {a : W × ℤ} (hs : Coherent options mapper jobs s)
    (h : step options mapper itemMapper jobs s a = some t) : Coherent options mapper jobs t := by
  cases step_moves h with
  | read fresh =>
    refine ⟨hs.unique, fun w => ?_⟩
    by_cases hw : w = a.1
    · subst hw
      rw [setPhase_self]
      exact (SnapshotOf.fresh hs.unique fresh).setPhase
    · rw [setPhase_of_ne hw]
      exact (hs.snapshots w).setPhase
  | go written next =>
    refine ⟨written.unique hs.unique, fun w => ?_⟩
    by_cases hw : w = a.1
    · subst hw
      rw [write_self]
      exact ((hs.snapshots a.1).next next).write written
    · rw [write_of_ne hw]
      exact (hs.snapshots w).write written

end Runs

section Safety

variable {options : MasterDataSyncHandlerOptions} {mapper : MasterDataMirrorMapper P D}
  {itemMapper : MasterDataListItem P → Except Thrown (Mapped D)} {jobs : W → Job P}
  {s t : MirrorState W P D}

/-- `a` is not above `b`, where the two compare. -/
def SeqLe (a b : EventSeq) : Prop :=
  ∀ m n, toComparableSeq a = .ok m → toComparableSeq b = .ok n → m ≤ n

def SeqLt (a b : EventSeq) : Prop :=
  ∀ m n, toComparableSeq a = .ok m → toComparableSeq b = .ok n → m < n

lemma SeqLe.refl (a : EventSeq) : SeqLe a a := fun _ _ hm hn => (Except.ok.inj (hm.symm.trans hn)).le

lemma SeqLt.le {a b : EventSeq} (h : SeqLt a b) : SeqLe a b := fun m n hm hn => (h m n hm hn).le

/-- No step of `w` puts older data in place of newer data. -/
structure StepSafe (options : MasterDataSyncHandlerOptions) (jobs : W → Job P)
    (s t : MirrorState W P D) (w : W) : Prop where
  /-- a row that stays does not go down -/
  kept : ∀ k before after, findUnique s.mirror k = some before →
    findUnique t.mirror k = some after → SeqLe before.seq after.seq
  /-- a delete event removes older rows only -/
  deleted : ∀ event, jobs w = .handle event → IsDelete options event → ∀ k row,
    findUnique s.mirror k = some row → findUnique t.mirror k = none → SeqLt row.seq event.seq
  /-- the sweep removes rows that were not written since it read them, and that its list knew -/
  swept : ∀ sourceItems knownSeq existing rest readAt counts,
    jobs w = .reconcile sourceItems knownSeq → s.phase w = .sweeping existing rest readAt counts →
    ∀ k row, findUnique s.mirror k = some row → findUnique t.mirror k = none →
      (∀ seq, (k, some seq) ∉ s.journal.drop readAt) ∧ SeqLe row.seq (.bigint knownSeq)

/-- The row was last written, if it was since the writer read it, with a `seq` that `ok` admits. -/
def LastWritten (s : MirrorState W P D) (readAt : ℕ) (k : JsString) (ok : EventSeq → Prop) : Prop :=
  ∀ seq, lastEntry (s.journal.drop readAt) k = some (some seq) → ok seq

/-- What was done to the row a step of `w` writes, between the writer's reading call and the step,
does no harm: nothing newer was written, and a row to be swept was not written at all, nor
was it newer than the fetched list when it was read. -/
def RaceFree (itemMapper : MasterDataListItem P → Except Thrown (Mapped D)) (jobs : W → Job P)
    (s : MirrorState W P D) (w : W) : Prop :=
  match jobs w, s.phase w with
  | .handle event, .decided _ (.upsert data) readAt =>
    data.1 = event.aggregateId →
      LastWritten s readAt event.aggregateId (fun seq => SeqLe seq data.2.seq)
  | .handle event, .decided _ .delete readAt =>
    LastWritten s readAt event.aggregateId (fun seq => SeqLt seq event.seq)
  | .reconcile _ _, .merging existing (item :: _) readAt _ =>
    isCurrent existing item = .ok false → ∀ mapped, itemMapper item = .ok mapped →
      mapped.sourceId = item.sourceId →
      LastWritten s readAt item.sourceId (fun seq => SeqLe seq item.seq)
  | .reconcile sourceItems knownSeq, .sweeping _ (row :: _) readAt _ =>
    row.1 ∉ sourceItems.map (·.sourceId) → LastWritten s readAt row.1 (fun _ => False) ∧
      (lastEntry (s.journal.drop readAt) row.1 = none → SeqLe row.2.seq (.bigint knownSeq))
  | _, _ => True

lemma stepSafe_of_eq {w : W} (h : t.mirror = s.mirror) : StepSafe options jobs s t w := by
  refine ⟨?_, ?_, ?_⟩
  · intro k before after hbefore hafter
    rw [h] at hafter
    rw [Option.some.inj (hbefore.symm.trans hafter)]
    exact .refl _
  · intro event _ _ k row hrow hnone
    rw [h] at hnone
    exact absurd (hrow.symm.trans hnone) (by simp)
  · intro _ _ _ _ _ _ _ _ k row hrow hnone
    rw [h] at hnone
    exact absurd (hrow.symm.trans hnone) (by simp)

/-- The row as it is now, by what was last done to it. -/
lemma Since.row {readAt : ℕ} {k : JsString} {before : Option (MirrorRow D)} {row : MirrorRow D}
    (h : Since s readAt k before) (hrow : findUnique s.mirror k = some row) :
    (lastEntry (s.journal.drop readAt) k = none ∧ before = some row) ∨
      lastEntry (s.journal.drop readAt) k = some (some row.seq) := by
  have hreflects := h.reflects
  have hget : get s.mirror k = some row := hrow
  cases hlast : lastEntry (s.journal.drop readAt) k with
  | none =>
    rw [hlast] at hreflects
    have hsame : get s.mirror k = before := hreflects
    exact Or.inl ⟨rfl, hsame.symm.trans hget⟩
  | some entry =>
    rw [hlast] at hreflects
    cases entry with
    | none =>
      have hgone : get s.mirror k = none := hreflects
      exact absurd (hgone.symm.trans hget) (by simp)
    | some seq =>
      obtain ⟨written, hwritten, hseq⟩ := hreflects
      rw [hget] at hwritten
      rw [Option.some.inj hwritten, hseq]
      exact Or.inr rfl

lemma Since.written {readAt : ℕ} {k : JsString} {before : Option (MirrorRow D)} {seq : EventSeq}
    (h : Since s readAt k before)
    (hlast : lastEntry (s.journal.drop readAt) k = some (some seq)) :
    ∃ row, findUnique s.mirror k = some row ∧ row.seq = seq := by
  have hreflects := h.reflects
  rw [hlast] at hreflects
  exact hreflects

/-- A write under the `sourceId` that was looked up: it is safe exactly when nothing newer was
written since. -/
lemma kept_upsert_iff {readAt : ℕ} {sourceId : JsString} {data : JsString × MirrorRow D}
    {written : Mirror D} {before : Option (MirrorRow D)} (hsince : Since s readAt sourceId before)
    (hbefore : ∀ row, before = some row → SeqLe row.seq data.2.seq)
    (h : upsert s.mirror sourceId data = .ok written) :
    (∀ k row after, findUnique s.mirror k = some row → get written k = some after →
        SeqLe row.seq after.seq) ↔
      (data.1 = sourceId → LastWritten s readAt sourceId (fun seq => SeqLe seq data.2.seq)) := by
  constructor
  · intro hkept hid seq hlast
    obtain ⟨row, hrow, rfl⟩ := hsince.written hlast
    exact hkept sourceId row data.2 hrow (by rw [get_upsert h, if_pos hid.symm])
  · intro hfree k row after hrow hafter
    rw [get_upsert h] at hafter
    by_cases hdata : k = data.1
    · rw [if_pos hdata] at hafter
      obtain rfl := Option.some.inj hafter
      by_cases hid : data.1 = sourceId
      · have hk : k = sourceId := hdata.trans hid
        subst hk
        rcases hsince.row hrow with ⟨-, hsame⟩ | hlast
        · exact hbefore row hsame
        · exact hfree hid row.seq hlast
      · -- the row moves to another `sourceId`, which was free
        have hfree' : ¬ has (without s.mirror sourceId) data.1 = true := by
          intro hhas
          simp [upsert, hhas] at h
        rw [has_iff, ← get_eq_none, get_without, if_neg hid, ← hdata] at hfree'
        exact absurd (hrow.symm.trans hfree') (by simp)
    · rw [if_neg hdata] at hafter
      split_ifs at hafter
      rw [Option.some.inj (hrow.symm.trans hafter)]
      exact .refl _

/-- A row that was looked up is gone after a delete, and no other row changed. -/
lemma of_gone_delete {mirror left : Mirror D} {sourceId k : JsString} {row : MirrorRow D}
    (h : delete mirror sourceId = .ok left) (hrow : findUnique mirror k = some row)
    (hnone : findUnique left k = none) : k = sourceId := by
  rw [findUnique, get_delete h] at hnone
  by_contra hk
  rw [if_neg hk] at hnone
  exact absurd (hrow.symm.trans hnone) (by simp)

lemma kept_delete {mirror left : Mirror D} {sourceId : JsString}
    (h : delete mirror sourceId = .ok left) (k : JsString) (before after : MirrorRow D)
    (hbefore : findUnique mirror k = some before) (hafter : findUnique left k = some after) :
    SeqLe before.seq after.seq := by
  rw [findUnique, get_delete h] at hafter
  split_ifs at hafter
  rw [Option.some.inj (hbefore.symm.trans hafter)]
  exact .refl _

lemma seqLt_of_isStale {row : MirrorRow D} {event : MasterDataEventRecord P}
    (h : isStale row event = .ok false) : SeqLt row.seq event.seq := by
  intro m n hm hn
  simp only [isStale, hm, hn, bind, Except.bind, pure, Except.pure, Except.ok.injEq,
    decide_eq_false_iff_not, not_le] at h
  exact h

lemma seqLt_of_isCurrent {existing : Mirror D} {item : MasterDataListItem P} {row : MirrorRow D}
    (h : isCurrent existing item = .ok false) (hrow : get existing item.sourceId = some row) :
    SeqLt row.seq item.seq := by
  intro m n hm hn
  simp only [isCurrent, hrow, hm, hn, bind, Except.bind, pure, Except.pure, Except.ok.injEq,
    decide_eq_false_iff_not, not_le] at h
  exact h

lemma decideUpsert_ne_delete (event : MasterDataEventRecord P) (now : ℤ) :
    decideUpsert mapper event now ≠ .delete := by
  unfold decideUpsert
  split <;> simp

lemma decideHandle_delete {event : MasterDataEventRecord P} {now : ℤ}
    {existing : Option (MirrorRow D)}
    (h : decideHandle options mapper event now existing = .delete) :
    IsDelete options event ∧ ∀ row, existing = some row → SeqLt row.seq event.seq := by
  unfold decideHandle at h
  split_ifs at h with hdelete hchange
  · refine ⟨hdelete, ?_⟩
    rintro row rfl
    simp only [decideDelete] at h
    split at h
    · cases h
    · cases h
    · exact seqLt_of_isStale ‹_›
  · unfold decideChange at h
    split at h
    · exact absurd h (decideUpsert_ne_delete event now)
    · split at h
      · cases h
      · cases h
      · exact absurd h (decideUpsert_ne_delete event now)

lemma decideUpsert_seq {event : MasterDataEventRecord P} {now : ℤ} {data : JsString × MirrorRow D}
    (h : decideUpsert mapper event now = .upsert data) : data.2.seq = event.seq := by
  unfold decideUpsert mappedRow at h
  split at h
  · cases h
  · rename_i hmapped
    obtain rfl := Decision.upsert.inj h
    split at hmapped
    · cases hmapped
    · rename_i payload hpayload
      cases hm : mapper payload event with
      | error error => simp [hm, bind, Except.bind] at hmapped
      | ok mapped =>
        simp only [hm, bind, Except.bind, pure, Except.pure, Except.ok.injEq] at hmapped
        rw [← hmapped]

lemma decideHandle_upsert {event : MasterDataEventRecord P} {now : ℤ}
    {existing : Option (MirrorRow D)} {data : JsString × MirrorRow D}
    (h : decideHandle options mapper event now existing = .upsert data) :
    ¬ IsDelete options event ∧ data.2.seq = event.seq ∧
      ∀ row, existing = some row → SeqLt row.seq event.seq := by
  unfold decideHandle at h
  split_ifs at h with hdelete hchange
  · exfalso
    unfold decideDelete at h
    split at h
    · cases h
    · split at h <;> cases h
  · unfold decideChange at h
    split at h
    · exact ⟨hdelete, decideUpsert_seq h, by simp⟩
    · split at h
      · cases h
      · cases h
      · refine ⟨hdelete, decideUpsert_seq h, ?_⟩
        rintro row hrow
        obtain rfl := Option.some.inj hrow
        exact seqLt_of_isStale ‹_›

variable [DecidableEq W]

lemma handleDelete_safe_iff {w : W} {event : MasterDataEventRecord P} {readAt : ℕ}
    {existing : Option (MirrorRow D)} (hjob : jobs w = .handle event)
    (hdelete : IsDelete options event)
    (hold : ∀ row, existing = some row → SeqLt row.seq event.seq)
    (hsince : Since s readAt event.aggregateId existing) :
    StepSafe options jobs s (handleWrite s w event .delete) w ↔
      LastWritten s readAt event.aggregateId (fun seq => SeqLt seq event.seq) := by
  cases hdel : delete s.mirror event.aggregateId with
  | error error =>
    have hsame : (handleWrite s w event .delete).mirror = s.mirror := by
      simp only [handleWrite, carryOut, hdel, write_mirror]
      split_ifs <;> rfl
    refine iff_of_true (stepSafe_of_eq hsame) ?_
    intro seq hlast
    obtain ⟨row, hrow, -⟩ := hsince.written hlast
    rw [delete_eq_ok hrow] at hdel
    cases hdel
  | ok left =>
    have hleft : (handleWrite s w event .delete).mirror = left := by
      simp [handleWrite, carryOut, hdel]
    constructor
    · intro hsafe seq hlast
      obtain ⟨row, hrow, rfl⟩ := hsince.written hlast
      refine hsafe.deleted event hjob hdelete event.aggregateId row hrow ?_
      rw [hleft, findUnique, get_delete hdel, if_pos rfl]
    · intro hfree
      refine ⟨?_, ?_, ?_⟩
      · rw [hleft]
        exact kept_delete hdel
      · intro event' hjob' _ k row hrow hnone
        obtain rfl : event = event' := Job.handle.inj (hjob.symm.trans hjob')
        rw [hleft] at hnone
        obtain rfl := of_gone_delete hdel hrow hnone
        rcases hsince.row hrow with ⟨-, hsame⟩ | hlast
        · exact hold row hsame
        · exact hfree row.seq hlast
      · intro sourceItems knownSeq _ _ _ _ hjob'
        rw [hjob] at hjob'
        cases hjob'

lemma handleUpsert_safe_iff {w : W} {event : MasterDataEventRecord P} {readAt : ℕ}
    {existing : Option (MirrorRow D)} {data : JsString × MirrorRow D}
    (hjob : jobs w = .handle event) (hchange : ¬ IsDelete options event)
    (hold : ∀ row, existing = some row → SeqLe row.seq data.2.seq)
    (hsince : Since s readAt event.aggregateId existing) :
    StepSafe options jobs s (handleWrite s w event (.upsert data)) w ↔
      (data.1 = event.aggregateId →
        LastWritten s readAt event.aggregateId (fun seq => SeqLe seq data.2.seq)) := by
  cases hup : upsert s.mirror event.aggregateId data with
  | error error =>
    have hsame : (handleWrite s w event (.upsert data)).mirror = s.mirror := by
      simp [handleWrite, carryOut, hup]
    refine iff_of_true (stepSafe_of_eq hsame) ?_
    intro hid
    obtain ⟨id, row⟩ := data
    obtain rfl : id = event.aggregateId := hid
    rw [upsert_self] at hup
    cases hup
  | ok written =>
    have hwritten : (handleWrite s w event (.upsert data)).mirror = written := by
      simp [handleWrite, carryOut, hup]
    rw [← kept_upsert_iff hsince hold hup]
    constructor
    · intro hsafe
      rw [← hwritten]
      exact hsafe.kept
    · intro hkept
      refine ⟨by rw [hwritten]; exact hkept, ?_, ?_⟩
      · intro event' hjob' hdelete
        obtain rfl : event = event' := Job.handle.inj (hjob.symm.trans hjob')
        exact absurd hdelete hchange
      · intro sourceItems knownSeq _ _ _ _ hjob'
        rw [hjob] at hjob'
        cases hjob'

lemma mapSourceItem_eq_ok {item : MasterDataListItem P} {now : ℤ} {data : JsString × MirrorRow D}
    (h : mapSourceItem itemMapper item now = .ok data) :
    ∃ mapped, itemMapper item = .ok mapped ∧ data.1 = mapped.sourceId ∧ data.2.seq = item.seq := by
  unfold mapSourceItem at h
  cases hm : itemMapper item with
  | error error => simp [hm, bind, Except.bind] at h
  | ok mapped =>
    simp only [hm, bind, Except.bind, pure, Except.pure, Except.ok.injEq] at h
    exact ⟨mapped, rfl, by rw [← h], by rw [← h]⟩

lemma merge_safe_iff {w : W} {sourceItems rest : List (MasterDataListItem P)} {knownSeq : ℤ}
    {existing : Mirror D} {item : MasterDataListItem P} {readAt : ℕ} {counts : ReconcileCounts}
    (hjob : jobs w = .reconcile sourceItems knownSeq)
    (hphase : s.phase w = .merging existing (item :: rest) readAt counts)
    (hsince : Since s readAt item.sourceId (get existing item.sourceId)) (now : ℤ) :
    StepSafe options jobs s (mergeItem itemMapper s w existing item rest readAt counts now) w ↔
      (isCurrent existing item = .ok false → ∀ mapped, itemMapper item = .ok mapped →
        mapped.sourceId = item.sourceId →
        LastWritten s readAt item.sourceId (fun seq => SeqLe seq item.seq)) := by
  have hsame : ∀ phase, StepSafe options jobs s (s.setPhase w phase) w :=
    fun phase => stepSafe_of_eq rfl
  unfold mergeItem
  cases hcurrent : isCurrent existing item with
  | error error => simp [hsame]
  | ok current =>
    cases current with
    | true => simp [hsame]
    | false =>
      cases hdata : mapSourceItem itemMapper item now with
      | error error =>
        refine iff_of_true (hsame _) ?_
        intro _ mapped hmapped
        simp [mapSourceItem, hmapped, bind, Except.bind, pure, Except.pure] at hdata
      | ok data =>
        obtain ⟨mapped, hmapped, hid, hseq⟩ := mapSourceItem_eq_ok hdata
        simp only [hmapped, Except.ok.injEq, forall_eq', true_implies, ← hid, ← hseq]
        cases hup : upsert s.mirror item.sourceId data with
        | error error =>
          refine iff_of_true (hsame _) ?_
          intro hself
          obtain ⟨id, row⟩ := data
          obtain rfl : id = item.sourceId := hself
          rw [upsert_self] at hup
          cases hup
        | ok written =>
          have hold : ∀ row, get existing item.sourceId = some row → SeqLe row.seq data.2.seq :=
            fun row hrow => hseq ▸ (seqLt_of_isCurrent hcurrent hrow).le
          rw [← kept_upsert_iff hsince hold hup]
          constructor
          · exact fun hsafe => hsafe.kept
          · intro hkept
            refine ⟨hkept, ?_, ?_⟩
            · intro event hjob'
              rw [hjob] at hjob'
              cases hjob'
            · intro _ _ _ _ _ _ _ hphase'
              rw [hphase] at hphase'
              cases hphase'

lemma sweep_safe_iff {w : W} {sourceItems : List (MasterDataListItem P)} {knownSeq : ℤ}
    {existing rest : Mirror D} {row : JsString × MirrorRow D} {readAt : ℕ}
    {counts : ReconcileCounts} (hjob : jobs w = .reconcile sourceItems knownSeq)
    (hphase : s.phase w = .sweeping existing (row :: rest) readAt counts)
    (hsince : Since s readAt row.1 (some row.2)) :
    StepSafe options jobs s (sweepRow s w sourceItems existing row rest readAt counts) w ↔
      (row.1 ∉ sourceItems.map (·.sourceId) → LastWritten s readAt row.1 (fun _ => False) ∧
        (lastEntry (s.journal.drop readAt) row.1 = none → SeqLe row.2.seq (.bigint knownSeq))) := by
  have hsame : ∀ phase, StepSafe options jobs s (s.setPhase w phase) w :=
    fun phase => stepSafe_of_eq rfl
  unfold sweepRow
  by_cases hnamed : row.1 ∈ sourceItems.map (·.sourceId)
  · simp [hnamed, hsame]
  · simp only [hnamed, if_false, not_false_eq_true, true_implies]
    cases hdel : delete s.mirror row.1 with
    | error error =>
      have hgone : ¬ ∃ held, findUnique s.mirror row.1 = some held := by
        rintro ⟨held, hheld⟩
        rw [delete_eq_ok hheld] at hdel
        cases hdel
      refine iff_of_true (hsame _) ⟨?_, ?_⟩
      · intro seq hlast
        obtain ⟨held, hheld, -⟩ := hsince.written hlast
        exact hgone ⟨held, hheld⟩
      · intro hlast
        have hreflects := hsince.reflects
        rw [hlast] at hreflects
        exact absurd ⟨row.2, hreflects⟩ hgone
    | ok left =>
      constructor
      · intro hsafe
        have hremoved : ∀ held, findUnique s.mirror row.1 = some held →
            (∀ seq, (row.1, some seq) ∉ s.journal.drop readAt) ∧
              SeqLe held.seq (.bigint knownSeq) := by
          intro held hheld
          refine hsafe.swept sourceItems knownSeq existing (row :: rest) readAt counts hjob hphase
            row.1 held hheld ?_
          simp [findUnique, get_delete hdel]
        constructor
        · intro seq hlast
          obtain ⟨held, hheld, -⟩ := hsince.written hlast
          exact (hremoved held hheld).1 seq (mem_of_lastEntry hlast)
        · intro hlast
          have hreflects := hsince.reflects
          rw [hlast] at hreflects
          exact (hremoved row.2 hreflects).2
      · rintro ⟨hwritten, hknown⟩
        refine ⟨kept_delete hdel, ?_, ?_⟩
        · intro event hjob'
          rw [hjob] at hjob'
          cases hjob'
        · intro sourceItems' knownSeq' existing' rest' readAt' counts' hjob' hphase' k held hheld
            hnone
          rw [hjob] at hjob'
          rw [hphase] at hphase'
          cases hjob'
          cases hphase'
          obtain rfl := of_gone_delete hdel hheld hnone
          rcases hsince.row hheld with ⟨hlast, hrow⟩ | hlast
          · obtain rfl := Option.some.inj hrow
            exact ⟨fun seq => lastEntry_eq_none.mp hlast _, hknown hlast⟩
          · exact (hwritten _ hlast).elim

/-- In a state whose writers hold what they read, the next step of a writer is safe exactly when
it is free of a race. -/
lemma stepSafe_iff_raceFree (hs : Coherent options mapper jobs s) (a : W × ℤ) :
    (∀ t, step options mapper itemMapper jobs s a = some t → StepSafe options jobs s t a.1) ↔
      RaceFree itemMapper jobs s a.1 := by
  have hsnapshot := hs.snapshots a.1
  unfold RaceFree step
  cases hjob : jobs a.1 with
  | handle event =>
    cases hphase : s.phase a.1 with
    | notStarted =>
      simp only [Option.some.injEq, forall_eq', iff_true]
      refine stepSafe_of_eq ?_
      unfold lookUp
      simp only
      split <;> rfl
    | decided existing decision readAt =>
      rw [hphase] at hsnapshot
      obtain ⟨event', now, hjob', hdecision, hsince⟩ := hsnapshot
      obtain rfl : event = event' := Job.handle.inj (hjob.symm.trans hjob')
      simp only [Option.some.injEq, forall_eq']
      cases decision with
      | finish result => exact iff_of_true (stepSafe_of_eq rfl) trivial
      | delete =>
        obtain ⟨hdelete, hold⟩ := decideHandle_delete hdecision.symm
        exact handleDelete_safe_iff hjob hdelete hold hsince
      | upsert data =>
        obtain ⟨hchange, hseq, hold⟩ := decideHandle_upsert hdecision.symm
        exact handleUpsert_safe_iff hjob hchange (fun row hrow => hseq ▸ (hold row hrow).le) hsince
    | _ => simp
  | reconcile sourceItems knownSeq =>
    cases hphase : s.phase a.1 with
    | notStarted =>
      simp only [Option.some.injEq, forall_eq', iff_true]
      exact stepSafe_of_eq rfl
    | merging existing rest readAt counts =>
      rw [hphase] at hsnapshot
      cases rest with
      | nil =>
        simp only [Option.some.injEq, forall_eq', iff_true]
        refine stepSafe_of_eq ?_
        unfold startSweep
        split_ifs <;> rfl
      | cons item rest =>
        simp only [Option.some.injEq, forall_eq']
        exact merge_safe_iff hjob hphase (hsnapshot.2 item.sourceId) a.2
    | sweeping existing rest readAt counts =>
      rw [hphase] at hsnapshot
      cases rest with
      | nil =>
        simp only [Option.some.injEq, forall_eq', iff_true]
        exact stepSafe_of_eq rfl
      | cons row rest =>
        obtain ⟨hunique, hsubset, hsince⟩ := hsnapshot
        have hrow : get existing row.1 = some row.2 := get_of_mem hunique (hsubset (by simp))
        simp only [Option.some.injEq, forall_eq']
        exact sweep_safe_iff hjob hphase (hrow ▸ hsince row.1)
    | _ => simp

/-- Over any table whose rows are unique, in any interleaving of any number of handler calls and
reconciliation runs: every step keeps newer data exactly when every step is free of a race. -/
theorem mirror_writers_safe_iff (hunique : (keys s.mirror).Nodup)
    (hstart : ∀ w, s.phase w = .notStarted) (run : List (W × ℤ)) :
    Steps (step options mapper itemMapper jobs)
        (fun s a => ∀ t, step options mapper itemMapper jobs s a = some t →
          StepSafe options jobs s t a.1) s run ↔
      Steps (step options mapper itemMapper jobs) (fun s a => RaceFree itemMapper jobs s a.1)
        s run := by
  have hcoherent : Coherent options mapper jobs s := ⟨hunique, fun w => by rw [hstart w]; trivial⟩
  exact steps_congr (fun _ _ _ hs h => coherent_step hs h)
    (fun _ a hs => stepSafe_iff_raceFree hs a) hcoherent run

end Safety

section LateWriter

/-- Two changes of one unit, handled at once. -/
def unitJobs : Bool → Job JsString
  | false => .handle { unitChanged with seq := .bigint 10, after := some (js "Finance") }
  | true => .handle { unitChanged with seq := .bigint 20, after := some (js "Treasury") }

def emptyMirror : MirrorState Bool JsString JsString :=
  { mirror := [], journal := [], phase := fun _ => .notStarted }

def unitItemMapper : MasterDataListItem JsString → Except Thrown (Mapped JsString) :=
  fun item => .ok { sourceId := item.sourceId, fields := item.payload }

/-- Both calls look the row up before either writes it; the older event writes last. -/
theorem late_writer_overwrites :
    ∃ s t, run (step unitOptions unitMapper unitItemMapper unitJobs) emptyMirror
        [(false, 0), (true, 1), (true, 2)] = some s ∧
      step unitOptions unitMapper unitItemMapper unitJobs s (false, 3) = some t ∧
      ¬ StepSafe unitOptions unitJobs s t false := by
  refine ⟨_, _, rfl, rfl, fun hsafe => ?_⟩
  have hle : (20 : ℤ) ≤ 10 :=
    hsafe.kept (js "unit-1") { fields := js "Treasury", seq := .bigint 20, syncedAt := 1 }
      { fields := js "Finance", seq := .bigint 10, syncedAt := 0 }
      (by decide +kernel) (by decide +kernel) 20 10 rfl rfl
  omega

theorem mirror_writers_safe_iff_empty :
    Steps (step unitOptions unitMapper unitItemMapper unitJobs)
        (fun s a => ∀ t, step unitOptions unitMapper unitItemMapper unitJobs s a = some t →
          StepSafe unitOptions unitJobs s t a.1) emptyMirror [(false, 0), (false, 1), (true, 2)] ↔
      Steps (step unitOptions unitMapper unitItemMapper unitJobs)
        (fun s a => RaceFree unitItemMapper unitJobs s a.1) emptyMirror
          [(false, 0), (false, 1), (true, 2)] :=
  mirror_writers_safe_iff (s := emptyMirror) List.nodup_nil (fun _ => rfl) _

end LateWriter

end Appspine.MasterData
