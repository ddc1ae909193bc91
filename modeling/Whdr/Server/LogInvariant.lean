import Whdr.Server.Reopen

/-! The counters in memory mirror the table, between any two operations on the log and
across any number of opens. -/
namespace Whdr.DeliveryLog

section
variable (valueLen : StoredEvent → Nat)

/-- What the counters say about the rows. -/
structure Mirrors (log : Shared) : Prop where
  contiguous : log.db.entries ≠ [] → Spans log.db log.floor log.head
  empty : log.db.entries = [] → log.floor = 0
  count : log.retainedCount = log.db.size
  bytes : log.retainedBytes = (log.db.values.map valueLen).sum

/-- A u64 subtraction; `none` is an underflow. -/
def checkedSub (a b : Nat) : Option Nat := if b ≤ a then some (a - b) else none

/-- The prune loop with both its subtractions checked. -/
def pruneLoopChecked (limits : Limits) (nowMs : Nat) : Nat → Pruning → Option Pruning
  | 0, p => some p
  | passes + 1, p =>
    match p.table.first? with
    | none => some p
    | some (seq, front) =>
      if shed limits nowMs front p then
        (checkedSub p.count 1).bind fun count =>
          (checkedSub p.bytes (valueLen front)).bind fun bytes =>
            pruneLoopChecked limits nowMs passes ⟨p.table.erase seq, count, bytes, p.pruned + 1⟩
      else some p

def NoUnderflow (log : Shared) : Prop :=
  ∀ nowMs, pruneLoopChecked valueLen log.limits nowMs log.db.size
    ⟨log.db, log.retainedCount, log.retainedBytes, 0⟩ = some (log.pruning valueLen nowMs)

/-- The counters that do not depend on which seqs were ever assigned. -/
structure Counts (log : Shared) : Prop where
  floor : log.floor = lowest log.db
  count : log.retainedCount = log.db.size
  bytes : log.retainedBytes = (log.db.values.map valueLen).sum

end

variable {valueLen : StoredEvent → Nat} {table : Table} {log log' : Shared} {low last : Nat}

theorem counts_mirror (counts : Counts valueLen log) (spans : Spans log.db low log.head) :
    Mirrors valueLen log := by
  constructor
  · intro rows
    obtain ⟨⟨k, e⟩, rest, eq⟩ := List.exists_cons_of_ne_nil rows
    obtain ⟨above, below⟩ := (spans k).mp ⟨e, (log.db.get?_eq_some_iff k e).mpr (by simp [eq])⟩
    have nonempty : low ≤ log.head := Nat.le_trans above below
    rw [counts.floor, spans.lowest, if_pos nonempty]
    exact spans
  · intro none
    simp [counts.floor, lowest, OrdMap.first?, none]
  · exact counts.count
  · exact counts.bytes

/-! ## Prune -/

/-- The locals of the loop count the rows of its table. -/
structure Pruning.Counts (valueLen : StoredEvent → Nat) (p : Pruning) : Prop where
  count : p.count = p.table.size
  bytes : p.bytes = (p.table.values.map valueLen).sum

/-- One pass subtracts exactly what the front row added. -/
theorem Pruning.Counts.pass {p : Pruning} {seq : Nat} {front : StoredEvent}
    (counts : p.Counts valueLen) (first : p.table.first? = some (seq, front)) (n : Nat) :
    1 ≤ p.count ∧ valueLen front ≤ p.bytes ∧
      Pruning.Counts valueLen ⟨p.table.erase seq, p.count - 1, p.bytes - valueLen front, n⟩ := by
  obtain ⟨rest, eq⟩ := List.head?_eq_some_iff.mp first
  have erased := p.table.erase_first eq
  have count : p.count = rest.length + 1 := by rw [counts.count, OrdMap.size, eq, List.length_cons]
  have bytes : p.bytes = valueLen front + ((rest.map Prod.snd).map valueLen).sum := by
    rw [counts.bytes, OrdMap.values, eq, List.map_cons, List.map_cons, List.sum_cons]
  refine ⟨by omega, by omega, ?_, ?_⟩
  · simp only [OrdMap.size, erased]
    omega
  · simp only [OrdMap.values, erased]
    omega

theorem pruneLoop_counts (limits : Limits) (nowMs passes : Nat) {p : Pruning}
    (counts : p.Counts valueLen) :
    pruneLoopChecked valueLen limits nowMs passes p =
        some (pruneLoop valueLen limits nowMs passes p) ∧
      (pruneLoop valueLen limits nowMs passes p).Counts valueLen := by
  induction passes generalizing p with
  | zero => exact ⟨rfl, counts⟩
  | succ passes ih =>
    unfold pruneLoopChecked pruneLoop
    cases first : p.table.first? with
    | none => exact ⟨rfl, counts⟩
    | some row =>
      obtain ⟨seq, front⟩ := row
      obtain ⟨some, enough, rest⟩ := counts.pass first (p.pruned + 1)
      dsimp only
      split
      · simp only [checkedSub, if_pos some, if_pos enough, Option.bind_some]
        exact ih rest
      · exact ⟨rfl, counts⟩

theorem Counts.noUnderflow (counts : Counts valueLen log) : NoUnderflow valueLen log := by
  intro nowMs
  have locals : Pruning.Counts valueLen ⟨log.db, log.retainedCount, log.retainedBytes, 0⟩ :=
    ⟨counts.count, counts.bytes⟩
  exact (pruneLoop_counts log.limits nowMs log.db.size locals).1

theorem pruneBlocking_counts (fault : Option PruneFault) (nowMs : Nat)
    (counts : Counts valueLen log) :
    Counts valueLen (log.pruneBlocking valueLen fault nowMs).2 := by
  unfold Shared.pruneBlocking
  dsimp only
  split
  · exact counts
  · have locals : Pruning.Counts valueLen ⟨log.db, log.retainedCount, log.retainedBytes, 0⟩ :=
      ⟨counts.count, counts.bytes⟩
    obtain ⟨_, after⟩ := pruneLoop_counts log.limits nowMs log.db.size locals
    exact ⟨rfl, after.count, after.bytes⟩

/-! ## Append -/

/-- Rows above every key go to the end. -/
theorem insertRows_entries (rows : List StampedEvent)
    (asc : rows.Pairwise (fun a b => a.seq < b.seq))
    (above : ∀ e ∈ table.entries, ∀ row ∈ rows, e.1 < row.seq) :
    (insertRows table rows).entries =
      table.entries ++ rows.map fun row => (row.seq, stored row) := by
  induction rows generalizing table with
  | nil => simp [insertRows]
  | cons row rest ih =>
    obtain ⟨below, asc⟩ := List.pairwise_cons.mp asc
    have inserted := table.insert_above (stored row)
      fun e he => above e he row List.mem_cons_self
    have above' : ∀ e ∈ (table.insert row.seq (stored row)).entries, ∀ r ∈ rest, e.1 < r.seq := by
      intro e he r hr
      rw [inserted, List.mem_append, List.mem_singleton] at he
      obtain he | rfl := he
      · exact above e he r (List.mem_cons_of_mem _ hr)
      · exact below r hr
    change (insertRows (table.insert row.seq (stored row)) rest).entries = _
    rw [ih asc above', inserted, List.append_assoc]
    rfl

theorem raiseFloor_floor (s : Shared) (rows : List StampedEvent) :
    (s.raiseFloor rows).floor =
      if s.floor = 0 then (rows.head?.map StampedEvent.seq).getD 0 else s.floor := by
  cases rows with
  | nil => simp [Shared.raiseFloor]
  | cons row rest =>
    simp only [Shared.raiseFloor]
    split
    · rfl
    · rfl

theorem raiseFloor_retained (s : Shared) (rows : List StampedEvent) :
    (s.raiseFloor rows).retainedCount = s.retainedCount ∧
      (s.raiseFloor rows).retainedBytes = s.retainedBytes := by
  unfold Shared.raiseFloor
  split
  · exact ⟨rfl, rfl⟩
  · split
    · exact ⟨rfl, rfl⟩
    · exact ⟨rfl, rfl⟩

/-- The floor is 0 exactly while the table is empty, so the first row sets it. -/
theorem lowest_appended {rows : List StampedEvent} (spans : Spans table low last)
    (start : 1 ≤ low) (entries : (insertRows table rows).entries =
      table.entries ++ rows.map fun row => (row.seq, stored row)) :
    lowest (insertRows table rows) =
      if lowest table = 0 then (rows.head?.map StampedEvent.seq).getD 0 else lowest table := by
  simp only [lowest, OrdMap.first?, entries]
  by_cases empty : table.entries = []
  · simp [empty, Option.map_map, Function.comp_def]
  · obtain ⟨⟨k, e⟩, rest, before⟩ := List.exists_cons_of_ne_nil empty
    have bound := (spans k).mp ⟨e, (table.get?_eq_some_iff k e).mpr (by simp [before])⟩
    have positive : k ≠ 0 := by omega
    simp [before, positive]

theorem append_counts {fault : Option AppendFault} {mint : Nat → Uuid} {events : List Event}
    {tsMs : Nat} {rows : List StampedEvent} (counts : Counts valueLen log)
    (spans : Spans log.db low log.head) (start : 1 ≤ low)
    (ok : log.append valueLen fault mint events tsMs = (.ok rows, log')) :
    Counts valueLen log' := by
  unfold Shared.append at ok
  split at ok
  · cases ok
    exact counts
  · unfold Shared.appendBlocking at ok
    dsimp only at ok
    split at ok
    · cases ok
    · cases ok
      have above : ∀ e ∈ log.db.entries, ∀ row ∈ stampRows log.head tsMs mint events,
          e.1 < row.seq := by
        rintro ⟨k, e⟩ he row hr
        have inTable := (spans k).mp ⟨e, (log.db.get?_eq_some_iff k e).mpr he⟩
        have new := stampRows_bounds hr
        omega
      have entries := insertRows_entries _ (stampRows_ascending log.head tsMs mint events) above
      constructor
      · change Shared.floor (Shared.raiseFloor _ _) = lowest (Shared.db (Shared.raiseFloor _ _))
        rw [raiseFloor_floor, raiseFloor_db]
        change (if log.floor = 0 then _ else log.floor) = lowest (insertRows log.db _)
        rw [lowest_appended spans start entries, counts.floor]
      · simp [Shared.addRetained, Shared.storeHead, Shared.commitRows, raiseFloor_retained,
          OrdMap.size, entries, counts.count]
      · simp [Shared.addRetained, Shared.storeHead, Shared.commitRows, raiseFloor_retained,
          OrdMap.values, entries, counts.bytes, Function.comp_def]

/-! ## Recovery -/

theorem scan_retained (es : List (Nat × StoredEvent)) (s : Shared) :
    (es.foldl (scanRow valueLen) s).retainedCount = s.retainedCount + es.length ∧
      (es.foldl (scanRow valueLen) s).retainedBytes =
        s.retainedBytes + ((es.map Prod.snd).map valueLen).sum := by
  induction es generalizing s with
  | nil => exact ⟨rfl, rfl⟩
  | cons e rest ih =>
    obtain ⟨count, bytes⟩ := ih (scanRow valueLen s e)
    rw [List.foldl_cons, count, bytes]
    simp only [scanRow, List.length_cons, List.map_cons, List.sum_cons]
    omega

/-- Once the floor is set, the scan keeps it. -/
theorem scan_floor (es : List (Nat × StoredEvent)) (s : Shared) (set : s.floor ≠ 0) :
    (es.foldl (scanRow valueLen) s).floor = s.floor := by
  induction es generalizing s with
  | nil => rfl
  | cons e rest ih =>
    have same : (scanRow valueLen s e).floor = s.floor := by simp [scanRow, set]
    rw [List.foldl_cons, ih _ (same ▸ set), same]

theorem recover_counts (limits : Limits) (spans : Spans table low last) (start : 1 ≤ low) :
    Counts valueLen (recover valueLen limits table) := by
  obtain ⟨count, bytes⟩ := @scan_retained valueLen table.entries ⟨table, 0, 0, 0, 0, limits⟩
  constructor
  · rw [recover_db, lowest, OrdMap.first?]
    unfold recover
    cases rows : table.entries with
    | nil => rfl
    | cons e rest =>
      obtain ⟨k, e⟩ := e
      have bound := (spans k).mp ⟨e, (table.get?_eq_some_iff k e).mpr (by simp [rows])⟩
      have positive : k ≠ 0 := by omega
      rw [List.foldl_cons, scan_floor]
      · rfl
      · exact positive
  · rw [recover_db]
    exact count.trans (Nat.zero_add _)
  · rw [recover_db]
    exact bytes.trans (Nat.zero_add _)

end Whdr.DeliveryLog

namespace Whdr.DeliveryLog.Reopen

open Runs (Reaches exec guarded reaches_of_exec)

variable {valueLen : StoredEvent → Nat} {s t : State} {low last : Nat}

/-- `low..last` are the rows of the file; an open log has numbered its last row `last`. -/
structure Sound (valueLen : StoredEvent → Nat) (s : State) (low last : Nat) : Prop where
  start : 1 ≤ low
  bound : low ≤ last + 1
  spans : Spans s.handle.table low last
  log : ∀ log, s.handle = .opened log → log.head = last ∧ Counts valueLen log

theorem created_sound : Sound valueLen created 1 0 := by
  constructor
  · exact Nat.le_refl _
  · exact Nat.le_refl _
  · exact created_valid.spans
  · intro log h
    cases h

theorem openLog_sound (inv : Sound valueLen s low last) {file : Table}
    (closed : s.handle = .closed file) {limits : Limits} {fault : Option OpenFault} {nowMs : Nat}
    {log : Shared} (ok : DeliveryLog.openLog valueLen limits fault nowMs file = .ok log) :
    ∃ low last, Sound valueLen { s with handle := .opened log } low last := by
  have spans : Spans file low last := by simpa [closed, Handle.table] using inv.spans
  obtain rfl := openLog_ok ok
  have counts := @recover_counts valueLen file low last limits spans inv.start
  have head := recover_head_spans valueLen limits spans
  have opened : ∀ l, Handle.opened ((recover valueLen limits file).pruneBlocking valueLen none
      nowMs).2 = .opened l → l.head = (recover valueLen limits file).head ∧ Counts valueLen l := by
    rintro l ⟨⟩
    exact ⟨pruneBlocking_head _ _ _ _, pruneBlocking_counts none nowMs counts⟩
  by_cases rows : low ≤ last
  · -- The file has a row, and the head is the number of the last one.
    rw [if_pos rows] at head
    rw [head] at opened
    have spans' : Spans (recover valueLen limits file).db low last := by
      rw [recover_db]; exact spans
    obtain ⟨cut, lo, hi, cutSpans⟩ := pruneBlocking_spans valueLen none nowMs spans' inv.bound
    exact ⟨cut, last, Nat.le_trans inv.start lo, hi, cutSpans, opened⟩
  · -- An empty file starts the numbering again.
    rw [if_neg rows] at head
    rw [head] at opened
    have spans' : Spans (recover valueLen limits file).db 1 0 := by
      rw [recover_db]
      intro k
      rw [spans k]
      omega
    obtain ⟨cut, lo, hi, cutSpans⟩ :=
      pruneBlocking_spans valueLen none nowMs spans' (Nat.le_refl _)
    exact ⟨cut, 0, lo, hi, cutSpans, opened⟩

theorem step_sound (inv : Sound valueLen s low last) {op : Op} (hs : step valueLen s op = some t) :
    ∃ low last, Sound valueLen t low last := by
  cases step_cases hs with
  | opened closed ok => exact openLog_sound inv closed ok
  | @appended fault mint events tsMs log rows log' opened ok =>
    obtain ⟨head, counts⟩ := inv.log log opened
    have spans : Spans log.db low last := by simpa [opened, Handle.table] using inv.spans
    have counts' := append_counts counts (head ▸ spans) inv.start ok
    obtain ⟨rfl, db, head'⟩ := append_ok ok
    have bound := inv.bound
    rw [head] at db head'
    have spans' : Spans log'.db low (last + events.length) := by
      rw [db]
      exact insertRows_spans spans bound
    refine ⟨low, last + events.length, inv.start, by omega, spans', ?_⟩
    rintro l ⟨⟩
    exact ⟨head', counts'⟩
  | @pruned fault nowMs log opened =>
    obtain ⟨head, counts⟩ := inv.log log opened
    have spans : Spans log.db low last := by simpa [opened, Handle.table] using inv.spans
    obtain ⟨cut, lo, hi, cutSpans⟩ := pruneBlocking_spans valueLen fault nowMs spans inv.bound
    refine ⟨cut, last, Nat.le_trans inv.start lo, hi, cutSpans, ?_⟩
    rintro l ⟨⟩
    rw [pruneBlocking_head]
    exact ⟨head, pruneBlocking_counts fault nowMs counts⟩
  | closed opened =>
    refine ⟨low, last, inv.start, inv.bound, by simpa [opened, Handle.table] using inv.spans, ?_⟩
    rintro l ⟨⟩
  | refused | failed => exact ⟨low, last, inv⟩

section
variable (valueLen)

/-- The operation returns an error in this state. -/
def ReturnsErr (s : State) : Op → Prop
  | .openLog limits fault nowMs => ∃ file e, s.handle = .closed file ∧
      DeliveryLog.openLog valueLen limits fault nowMs file = .error e
  | .append fault mint events tsMs => ∃ log f, s.handle = .opened log ∧
      (log.append valueLen fault mint events tsMs).1 = .error f
  | .prune fault nowMs => ∃ log f, s.handle = .opened log ∧
      (log.pruneBlocking valueLen fault nowMs).1 = .error f
  | .close => False

end

theorem pruneBlocking_error {log : Shared} {fault : Option PruneFault} {nowMs : Nat}
    {f : PruneFault} (failed : (log.pruneBlocking valueLen fault nowMs).1 = .error f) :
    (log.pruneBlocking valueLen fault nowMs).2 = log := by
  unfold Shared.pruneBlocking at failed ⊢
  dsimp only at failed ⊢
  split
  · rfl
  · rename_i none
    rw [none] at failed
    cases failed

/-- An operation that returns an error leaves the table and every counter alone. -/
theorem error_changes_nothing {op : Op} (failed : ReturnsErr valueLen s op)
    (hs : step valueLen s op = some t) : t = s := by
  cases step_cases hs with
  | opened closed ok =>
    obtain ⟨file, e, closed', err⟩ := failed
    cases closed.symm.trans closed'
    cases ok.symm.trans err
  | appended opened ok =>
    obtain ⟨log, f, opened', err⟩ := failed
    cases opened.symm.trans opened'
    rw [ok] at err
    cases err
  | pruned opened =>
    obtain ⟨log, f, opened', err⟩ := failed
    cases opened.symm.trans opened'
    rw [pruneBlocking_error err, ← opened]
  | closed => exact failed.elim
  | refused | failed => rfl

theorem reaches_sound {ok : State → Op → Prop} (run : Reaches (· = created) (step valueLen) ok s) :
    ∃ low last, Sound valueLen s low last := by
  apply run.invariant fun s => ∃ low last, Sound valueLen s low last
  · rintro _ rfl
    exact ⟨1, 0, created_sound⟩
  · rintro s op t _ ⟨low, last, inv⟩ _ hs
    exact step_sound inv hs

/-- Between any two operations of any history: the rows are `floor..head` and the counters
count them, no prune that may follow underflows (the one of the next open included), and
an operation that returns an error changes nothing. -/
theorem log_mirrors_table
    (run : Reaches (· = created) (step valueLen) (fun _ _ => True) s) :
    (∀ log, s.handle = .opened log → Mirrors valueLen log ∧ NoUnderflow valueLen log) ∧
    (∀ file limits, s.handle = .closed file →
      NoUnderflow valueLen (recover valueLen limits file)) ∧
    ∀ op t, ReturnsErr valueLen s op → step valueLen s op = some t → t = s := by
  obtain ⟨low, last, inv⟩ := reaches_sound run
  refine ⟨?_, ?_, fun op t failed hs => error_changes_nothing failed hs⟩
  · intro log opened
    obtain ⟨head, counts⟩ := inv.log log opened
    have spans : Spans log.db low log.head := by
      simpa [opened, Handle.table, head] using inv.spans
    exact ⟨counts_mirror counts spans, counts.noUnderflow⟩
  · intro file limits closed
    have spans : Spans file low last := by simpa [closed, Handle.table] using inv.spans
    exact (recover_counts limits spans inv.start).noUnderflow

/-- Two rows are appended, the caps leave one of them, and the file is opened again. -/
def pruneAndReopen : List Op :=
  [.openLog ⟨60, 100, 1⟩ none 0, .append none id [⟨"a", ""⟩, ⟨"b", ""⟩] 5, .prune none 7, .close,
    .openLog ⟨60, 100, 1⟩ none 8]

theorem log_mirrors_table_reopened :
    ∃ log, exec (guarded (fun _ _ => True) (step fun _ => 10)) created pruneAndReopen =
        some ⟨.opened log, [1, 2]⟩ ∧
      log.floor = 2 ∧ log.head = 2 ∧ Mirrors (fun _ => 10) log := by
  let log : Shared := ⟨⟨[(2, ⟨1, 5, "b", ""⟩)], by simp⟩, 2, 2, 1, 10, ⟨60, 100, 1⟩⟩
  have run : exec (guarded (fun _ _ => True) (step fun _ => 10)) created pruneAndReopen =
      some ⟨.opened log, [1, 2]⟩ := by decide
  have law := log_mirrors_table (reaches_of_exec _ (.start rfl) run)
  exact ⟨log, run, rfl, rfl, (law.1 log rfl).1⟩

end Whdr.DeliveryLog.Reopen
