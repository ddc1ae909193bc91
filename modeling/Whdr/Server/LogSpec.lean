import Whdr.Server.DeliveryLog
import Mathlib.Data.List.Range

/-! What append, prune, recovery and the range scan do to the rows of the log. -/
namespace Whdr.DeliveryLog

/-- The seqs present are exactly `low..last`; none when `last < low`. -/
def Spans (table : Table) (low last : Nat) : Prop :=
  ∀ k, (∃ e, table.get? k = some e) ↔ low ≤ k ∧ k ≤ last

/-- `after` is `table` without its rows below `low`. -/
def Trimmed (table : Table) (low : Nat) (after : Table) : Prop :=
  ∀ k, after.get? k = if low ≤ k then table.get? k else none

/-! ## Stamping and inserting -/

theorem stampRows_length (base tsMs : Nat) (mint : Nat → Uuid) (events : List Event) :
    (stampRows base tsMs mint events).length = events.length := by
  simp [stampRows]

/-- A batch gets the next run of numbers. -/
theorem stampRows_seq (base tsMs : Nat) (mint : Nat → Uuid) (events : List Event) :
    (stampRows base tsMs mint events).map StampedEvent.seq =
      List.range' (base + 1) events.length := by
  apply List.ext_getElem
  · simp [stampRows]
  · intro i h₁ h₂
    simp [stampRows]

theorem stampRows_bounds {base tsMs : Nat} {mint : Nat → Uuid} {events : List Event}
    {row : StampedEvent} (h : row ∈ stampRows base tsMs mint events) :
    base < row.seq ∧ row.seq ≤ base + events.length := by
  have mem := List.mem_map_of_mem (f := StampedEvent.seq) h
  rw [stampRows_seq, List.mem_range'_1] at mem
  omega

theorem stampRows_cover {base tsMs : Nat} {mint : Nat → Uuid} {events : List Event} {k : Nat}
    (lo : base < k) (hi : k ≤ base + events.length) :
    ∃ row ∈ stampRows base tsMs mint events, row.seq = k := by
  have mem : k ∈ (stampRows base tsMs mint events).map StampedEvent.seq := by
    rw [stampRows_seq, List.mem_range'_1]
    omega
  exact List.mem_map.mp mem

theorem stampRows_ascending (base tsMs : Nat) (mint : Nat → Uuid) (events : List Event) :
    (stampRows base tsMs mint events).Pairwise (fun a b => a.seq < b.seq) := by
  have h := stampRows_seq base tsMs mint events
  rw [← List.pairwise_map (f := StampedEvent.seq) (R := (· < ·)), h]
  exact List.pairwise_lt_range'

theorem get?_insertRows_other (table : Table) (rows : List StampedEvent) (k : Nat)
    (h : ∀ row ∈ rows, row.seq ≠ k) : (insertRows table rows).get? k = table.get? k := by
  induction rows generalizing table with
  | nil => rfl
  | cons row rest ih =>
    have hk : k ≠ row.seq := (h row List.mem_cons_self).symm
    change (insertRows (table.insert row.seq (stored row)) rest).get? k = _
    rw [ih _ fun r hr => h r (List.mem_cons_of_mem _ hr), OrdMap.get?_insert_ne _ _ hk]

theorem get?_insertRows_mem (table : Table) (rows : List StampedEvent)
    (asc : rows.Pairwise (fun a b => a.seq < b.seq)) {row : StampedEvent} (h : row ∈ rows) :
    (insertRows table rows).get? row.seq = some (stored row) := by
  induction rows generalizing table with
  | nil => cases h
  | cons first rest ih =>
    obtain ⟨below, asc⟩ := List.pairwise_cons.mp asc
    change (insertRows (table.insert first.seq (stored first)) rest).get? row.seq = _
    obtain rfl | h := List.mem_cons.mp h
    · rw [get?_insertRows_other _ _ _ fun r hr => (below r hr).ne', OrdMap.get?_insert_self]
    · exact ih _ asc h

theorem insertRows_spans {table : Table} {low last tsMs : Nat} {mint : Nat → Uuid}
    {events : List Event} (h : Spans table low last) (hl : low ≤ last + 1) :
    Spans (insertRows table (stampRows last tsMs mint events)) low (last + events.length) := by
  intro k
  by_cases hk : last < k ∧ k ≤ last + events.length
  · obtain ⟨row, hrow, rfl⟩ := @stampRows_cover last tsMs mint events k hk.1 hk.2
    have := get?_insertRows_mem table _ (stampRows_ascending last tsMs mint events) hrow
    exact ⟨fun _ => ⟨by omega, hk.2⟩, fun _ => ⟨_, this⟩⟩
  · rw [get?_insertRows_other, h k]
    · omega
    · intro row hrow eq
      have := stampRows_bounds hrow
      omega

/-- After a commit exactly the old rows and those of the batch are found. -/
theorem get?_commit {table : Table} {low last tsMs : Nat} {mint : Nat → Uuid}
    {events : List Event} (h : Spans table low last) (row : StampedEvent) :
    (insertRows table (stampRows last tsMs mint events)).get? row.seq = some (stored row) ↔
      row ∈ stampRows last tsMs mint events ∨ table.get? row.seq = some (stored row) := by
  have asc := stampRows_ascending last tsMs mint events
  by_cases batch : ∃ r ∈ stampRows last tsMs mint events, r.seq = row.seq
  · obtain ⟨r, mem, eq⟩ := batch
    have found := get?_insertRows_mem table _ asc mem
    have above := stampRows_bounds mem
    rw [← eq, found]
    constructor
    · intro same
      have same : stored r = stored row := Option.some.inj same
      rw [← stamp_stored row, ← eq, ← same]
      exact .inl mem
    · rintro (mem' | old)
      · have found' := get?_insertRows_mem table _ asc mem'
        rw [← eq, found] at found'
        exact found'
      · have := (h r.seq).mp ⟨_, old⟩
        omega
  · rw [get?_insertRows_other table _ row.seq fun r hr eq => batch ⟨r, hr, eq⟩]
    constructor
    · exact .inr
    · rintro (mem | old)
      · exact absurd ⟨row, mem, rfl⟩ batch
      · exact old

@[simp] theorem raiseFloor_db (s : Shared) (rows : List StampedEvent) :
    (s.raiseFloor rows).db = s.db := by
  unfold Shared.raiseFloor
  split
  · rfl
  · split <;> rfl

@[simp] theorem raiseFloor_head (s : Shared) (rows : List StampedEvent) :
    (s.raiseFloor rows).head = s.head := by
  unfold Shared.raiseFloor
  split
  · rfl
  · split <;> rfl

/-- What a successful append returns and leaves behind. -/
theorem append_ok {valueLen : StoredEvent → Nat} {fault : Option AppendFault} {mint : Nat → Uuid}
    {events : List Event} {tsMs : Nat} {s s' : Shared} {rows : List StampedEvent}
    (h : s.append valueLen fault mint events tsMs = (.ok rows, s')) :
    rows = stampRows s.head tsMs mint events ∧ s'.db = insertRows s.db rows ∧
      s'.head = s.head + events.length := by
  unfold Shared.append at h
  split at h
  · rename_i empty
    cases h
    simp [empty, stampRows, insertRows]
  · unfold Shared.appendBlocking at h
    dsimp only at h
    split at h
    · cases h
    · cases h
      simp [Shared.addRetained, Shared.storeHead, Shared.commitRows, stampRows_length]

/-- A failed append changes nothing. -/
theorem append_error {valueLen : StoredEvent → Nat} {fault : Option AppendFault}
    {mint : Nat → Uuid} {events : List Event} {tsMs : Nat} {s s' : Shared} {f : AppendFault}
    (h : s.append valueLen fault mint events tsMs = (.error f, s')) : s' = s := by
  unfold Shared.append at h
  split at h
  · cases h
  · unfold Shared.appendBlocking at h
    dsimp only at h
    split at h <;> cases h
    rfl

/-! ## Pruning -/

theorem Spans.lowest {table : Table} {low last : Nat} (h : Spans table low last) :
    DeliveryLog.lowest table = if low ≤ last then low else 0 := by
  unfold DeliveryLog.lowest
  cases hf : table.first? with
  | none =>
    have none := (table.first?_eq_none hf low)
    have empty : ¬ low ≤ last := fun le => by
      obtain ⟨e, he⟩ := (h low).mpr ⟨Nat.le_refl _, le⟩
      rw [none] at he
      cases he
    simp [empty]
  | some b =>
    obtain ⟨k, e⟩ := b
    obtain ⟨he, least⟩ := table.first?_eq_some hf
    have hk := (h k).mp ⟨e, he⟩
    obtain ⟨f, hf⟩ := (h low).mpr ⟨Nat.le_refl _, by omega⟩
    have := least low f hf
    simp only [Option.map_some, Option.getD_some, show low ≤ last by omega, ↓reduceIte]
    omega

theorem Trimmed.refl {table : Table} {low last : Nat} (h : Spans table low last) :
    Trimmed table low table := by
  intro k
  split
  · rfl
  · rename_i lt
    cases hk : table.get? k with
    | none => rfl
    | some e => exact absurd ((h k).mp ⟨e, hk⟩).1 lt

theorem Trimmed.spans {table after : Table} {low low' last : Nat}
    (ht : Trimmed table low' after) (h : Spans table low last) (le : low ≤ low') :
    Spans after low' last := by
  intro k
  rw [ht k]
  split
  · rw [h k]; omega
  · simp; omega

/-- The prune loop only removes rows from the front. -/
theorem pruneLoop_trims (valueLen : StoredEvent → Nat) (limits : Limits) (nowMs : Nat)
    {table : Table} {low last : Nat} (h : Spans table low last) (passes : Nat) (p : Pruning)
    (cut : Nat) (lo : low ≤ cut) (hi : cut ≤ last + 1) (ht : Trimmed table cut p.table) :
    ∃ cut', cut ≤ cut' ∧ cut' ≤ last + 1 ∧
      Trimmed table cut' (pruneLoop valueLen limits nowMs passes p).table := by
  induction passes generalizing p cut with
  | zero => exact ⟨cut, Nat.le_refl _, hi, ht⟩
  | succ passes ih =>
    simp only [pruneLoop]
    cases hf : p.table.first? with
    | none => exact ⟨cut, Nat.le_refl _, hi, ht⟩
    | some b =>
      obtain ⟨seq, front⟩ := b
      dsimp only
      split
      · have spans := ht.spans h lo
        have hs := spans.lowest
        simp only [DeliveryLog.lowest, hf, Option.map_some, Option.getD_some] at hs
        obtain ⟨inLo, inHi⟩ := (spans seq).mp ⟨front, (p.table.first?_eq_some hf).1⟩
        have eq : seq = cut := by rw [hs, if_pos (by omega)]
        have trims : Trimmed table (cut + 1) (p.table.erase seq) := by
          intro k
          rw [OrdMap.get?_erase, ht k, eq]
          by_cases hk : k = cut
          · simp [hk]
          · have : cut ≤ k ↔ cut + 1 ≤ k := by omega
            simp [hk, this]
        obtain ⟨cut', hc, hl, hr⟩ := ih
          ⟨p.table.erase seq, p.count - 1, p.bytes - valueLen front, p.pruned + 1⟩
          (cut + 1) (by omega) (by omega) trims
        exact ⟨cut', by omega, hl, hr⟩
      · exact ⟨cut, Nat.le_refl _, hi, ht⟩

theorem pruning_trims (valueLen : StoredEvent → Nat) (nowMs : Nat) {s : Shared} {low last : Nat}
    (h : Spans s.db low last) (hl : low ≤ last + 1) :
    ∃ cut, low ≤ cut ∧ cut ≤ last + 1 ∧ Trimmed s.db cut (s.pruning valueLen nowMs).table :=
  pruneLoop_trims valueLen s.limits nowMs h s.db.size _ low (Nat.le_refl _) hl (.refl h)

theorem pruneBlocking_head (valueLen : StoredEvent → Nat) (fault : Option PruneFault) (nowMs : Nat)
    (s : Shared) : (s.pruneBlocking valueLen fault nowMs).2.head = s.head := by
  unfold Shared.pruneBlocking
  dsimp only
  split <;> rfl

/-- A prune, failed or not, leaves the same last seq and no hole. -/
theorem pruneBlocking_spans (valueLen : StoredEvent → Nat) (fault : Option PruneFault)
    (nowMs : Nat) {s : Shared} {low last : Nat} (h : Spans s.db low last) (hl : low ≤ last + 1) :
    ∃ cut, low ≤ cut ∧ cut ≤ last + 1 ∧
      Spans (s.pruneBlocking valueLen fault nowMs).2.db cut last := by
  unfold Shared.pruneBlocking
  dsimp only
  split
  · exact ⟨low, Nat.le_refl _, hl, h⟩
  · obtain ⟨cut, lo, hi, ht⟩ := pruning_trims valueLen nowMs h hl
    exact ⟨cut, lo, hi, ht.spans h lo⟩

/-! ## Recovery -/

theorem scan_db (valueLen : StoredEvent → Nat) (es : List (Nat × StoredEvent)) (s : Shared) :
    (es.foldl (scanRow valueLen) s).db = s.db := by
  induction es generalizing s with
  | nil => rfl
  | cons e rest ih => exact ih _

/-- The last row scanned is the head. -/
theorem scan_head (valueLen : StoredEvent → Nat) (es : List (Nat × StoredEvent)) (s : Shared) :
    (es.foldl (scanRow valueLen) s).head = (es.getLast?.map Prod.fst).getD s.head := by
  induction es generalizing s with
  | nil => rfl
  | cons e rest ih =>
    rw [List.foldl_cons, ih]
    cases rest with
    | nil => rfl
    | cons f rest =>
      rw [List.getLast?_cons_cons]
      cases hl : (f :: rest).getLast? with
      | none => simp at hl
      | some b => rfl

theorem recover_db (valueLen : StoredEvent → Nat) (limits : Limits) (table : Table) :
    (recover valueLen limits table).db = table :=
  scan_db valueLen table.entries _

/-- The head is recovered exactly when a row survives. -/
theorem recover_head_spans (valueLen : StoredEvent → Nat) (limits : Limits) {table : Table}
    {low last : Nat} (h : Spans table low last) :
    (recover valueLen limits table).head = if low ≤ last then last else 0 := by
  rw [recover, scan_head]
  cases hl : table.entries.getLast? with
  | none =>
    have nil : table.entries = [] := List.getLast?_eq_none_iff.mp hl
    have empty : ¬ low ≤ last := fun le => by
      obtain ⟨e, he⟩ := (h low).mpr ⟨Nat.le_refl _, le⟩
      simp [OrdMap.get?, nil] at he
    simp [empty]
  | some b =>
    obtain ⟨k, e⟩ := b
    obtain ⟨he, most⟩ := table.last_eq_some hl
    have hk := (h k).mp ⟨e, he⟩
    obtain ⟨f, hf⟩ := (h last).mpr ⟨by omega, Nat.le_refl _⟩
    have := most last f hf
    simp only [Option.map_some, Option.getD_some, show low ≤ last by omega, ↓reduceIte]
    omega

/-- A successful open is the recovery scan and one successful prune. -/
theorem openLog_ok {valueLen : StoredEvent → Nat} {limits : Limits} {fault : Option OpenFault}
    {nowMs : Nat} {table : Table} {s : Shared}
    (h : openLog valueLen limits fault nowMs table = .ok s) :
    s = ((recover valueLen limits table).pruneBlocking valueLen none nowMs).2 := by
  unfold openLog at h
  split at h
  · cases h
  · cases h
  · rename_i f
    unfold Shared.pruneBlocking at h ⊢
    dsimp only at h ⊢
    cases hf : (some f).filter
        (PruneFault.reached ((recover valueLen limits table).pruning valueLen nowMs).pruned) <;>
      rw [hf] at h <;> cases h
    rfl
  · cases h
    rfl

/-! ## Range scan -/

theorem mem_readAfter {table : Table} {afterSeq : Nat} {patterns : List Pattern}
    {row : StampedEvent} :
    row ∈ readAfter table afterSeq (some patterns) ↔
      table.get? row.seq = some (stored row) ∧ min (afterSeq + 1) (u64Size - 1) ≤ row.seq ∧
        anyMatches patterns row.channel = true := by
  simp only [readAfter, OrdMap.startingAt, List.mem_filterMap, List.mem_filter, Option.all_some,
    Option.ite_none_right_eq_some, Option.some.injEq, decide_eq_true_eq]
  constructor
  · rintro ⟨⟨seq, e⟩, ⟨hm, hs⟩, hp, rfl⟩
    exact ⟨(table.get?_eq_some_iff _ _).mpr hm, hs, hp⟩
  · rintro ⟨hm, hs, hp⟩
    exact ⟨(row.seq, stored row), ⟨(table.get?_eq_some_iff _ _).mp hm, hs⟩, hp, stamp_stored row⟩

theorem readAfter_ascending (table : Table) (afterSeq : Nat) (patterns : Option (List Pattern)) :
    (readAfter table afterSeq patterns).Pairwise (fun a b => a.seq < b.seq) := by
  have asc := table.ascending.filter
    (fun e => decide (min (afterSeq + 1) (u64Size - 1) ≤ e.1))
  refine asc.filterMap _ ?_
  rintro ⟨k, e⟩ ⟨j, f⟩ lt a ha b hb
  obtain ⟨_, ha⟩ := Option.ite_none_right_eq_some.mp ha
  obtain ⟨_, hb⟩ := Option.ite_none_right_eq_some.mp hb
  cases ha; cases hb
  exact lt

end Whdr.DeliveryLog
