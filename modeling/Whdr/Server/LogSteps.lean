import Whdr.Lib.Runs
import Whdr.Server.LogSpec

/-! The log as concurrent readers see it. A writer holds the lock from its commit to
its last counter store, and a reader may load between any two of these. -/
namespace Whdr.DeliveryLog

/-- What the holder of the writer lock has still to store. -/
inductive Writer
  | idle
  | committed (rows : List StampedEvent)
  | headStored (rows : List StampedEvent)
  | pruned (p : Pruning)
  deriving DecidableEq

structure Live where
  shared : Shared
  writer : Writer
  deriving DecidableEq

inductive LogAction
  | commitRows (mint : Nat → Uuid) (events : List Event) (tsMs : Nat)
  | storeHead
  | raiseFloor
  | commitPrune (nowMs : Nat)
  | storePruned

variable (valueLen : StoredEvent → Nat)

/-- The successful paths of `append_blocking` and `prune_blocking`, one shared write
at a time. A failed one writes nothing and is no step. -/
def Live.step (l : Live) : LogAction → Option Live
  | .commitRows mint events tsMs =>
    match l.writer with
    | .idle =>
      if events = [] then none
      else
        let rows := stampRows l.shared.head tsMs mint events
        some ⟨l.shared.commitRows rows, .committed rows⟩
    | _ => none
  | .storeHead =>
    match l.writer with
    | .committed rows => some ⟨l.shared.storeHead (l.shared.head + rows.length), .headStored rows⟩
    | _ => none
  | .raiseFloor =>
    match l.writer with
    | .headStored rows => some ⟨(l.shared.raiseFloor rows).addRetained valueLen rows, .idle⟩
    | _ => none
  | .commitPrune nowMs =>
    match l.writer with
    | .idle =>
      let p := l.shared.pruning valueLen nowMs
      some ⟨l.shared.commitPrune p, .pruned p⟩
    | _ => none
  | .storePruned =>
    match l.writer with
    | .pruned p => some ⟨l.shared.storePruned p, .idle⟩
    | _ => none

/-- The steps of one append compose to the append. -/
theorem append_steps (s : Shared) (mint : Nat → Uuid) (events : List Event) (tsMs : Nat)
    (nonempty : events ≠ []) :
    Runs.exec (Live.step valueLen) ⟨s, .idle⟩ [.commitRows mint events tsMs, .storeHead, .raiseFloor] =
      some ⟨(s.append valueLen none mint events tsMs).2, .idle⟩ := by
  simp [Runs.exec, Live.step, nonempty, Shared.append, Shared.appendBlocking, Shared.commitRows]

theorem prune_steps (s : Shared) (nowMs : Nat) :
    Runs.exec (Live.step valueLen) ⟨s, .idle⟩ [.commitPrune nowMs, .storePruned] =
      some ⟨(s.pruneBlocking valueLen none nowMs).2, .idle⟩ := by
  simp [Runs.exec, Live.step, Shared.pruneBlocking]

/-- What each step does, and when it is taken. -/
inductive Live.Stepped : Live → LogAction → Live → Prop
  | commitRows (s : Shared) (mint : Nat → Uuid) (events : List Event) (tsMs : Nat)
      (nonempty : events ≠ []) :
      Stepped ⟨s, .idle⟩ (.commitRows mint events tsMs)
        ⟨s.commitRows (stampRows s.head tsMs mint events),
          .committed (stampRows s.head tsMs mint events)⟩
  | storeHead (s : Shared) (rows : List StampedEvent) :
      Stepped ⟨s, .committed rows⟩ .storeHead ⟨s.storeHead (s.head + rows.length), .headStored rows⟩
  | raiseFloor (s : Shared) (rows : List StampedEvent) :
      Stepped ⟨s, .headStored rows⟩ .raiseFloor ⟨(s.raiseFloor rows).addRetained valueLen rows, .idle⟩
  | commitPrune (s : Shared) (nowMs : Nat) :
      Stepped ⟨s, .idle⟩ (.commitPrune nowMs)
        ⟨s.commitPrune (s.pruning valueLen nowMs), .pruned (s.pruning valueLen nowMs)⟩
  | storePruned (s : Shared) (p : Pruning) :
      Stepped ⟨s, .pruned p⟩ .storePruned ⟨s.storePruned p, .idle⟩

variable {valueLen} {l l' : Live} {low last : Nat} {s : Shared} {rows : List StampedEvent}

theorem Live.stepped {a : LogAction} (hs : l.step valueLen a = some l') :
    Live.Stepped valueLen l a l' := by
  obtain ⟨s, w⟩ := l
  cases a <;> cases w <;> simp only [Live.step, reduceCtorEq] at hs
  case commitRows.idle =>
    split at hs
    · cases hs
    · rename_i nonempty
      cases hs
      exact .commitRows _ _ _ _ nonempty
  case storeHead.committed => cases hs; exact .storeHead _ _
  case raiseFloor.headStored => cases hs; exact .raiseFloor _ _
  case commitPrune.idle => cases hs; exact .commitPrune _ _
  case storePruned.pruned => cases hs; exact .storePruned _ _

/-- What the writer's unfinished stores leave behind. -/
def Writer.Consistent (s : Shared) (last : Nat) : Writer → Prop
  | .idle => s.head = last
  | .committed rows => rows ≠ [] ∧
      rows.map StampedEvent.seq = List.range' (s.head + 1) rows.length ∧
      last = s.head + rows.length
  | .headStored rows => s.head = last ∧ ∀ row ∈ rows, row.seq ≤ s.head
  | .pruned p => s.head = last ∧ s.db = p.table

/-- `low..last` are the seqs retained, `last` the last one committed. The head
trails the commit by one store, the floor never passes the head. -/
structure Live.Valid (l : Live) (low last : Nat) : Prop where
  pos : 1 ≤ low
  bound : low ≤ last + 1
  spans : Spans l.shared.db low last
  floor : l.shared.floor ≤ l.shared.head
  writer : l.writer.Consistent l.shared last

theorem Live.Valid.head_le (hv : l.Valid low last) : l.shared.head ≤ last := by
  have h := hv.writer
  cases hw : l.writer <;> simp only [hw, Writer.Consistent] at h <;> omega

theorem commitRows_valid (hv : Live.Valid ⟨s, .idle⟩ low last) (mint : Nat → Uuid)
    {events : List Event} (tsMs : Nat) (nonempty : events ≠ []) :
    Live.Valid ⟨s.commitRows (stampRows s.head tsMs mint events),
      .committed (stampRows s.head tsMs mint events)⟩ low (last + events.length) := by
  have head : s.head = last := hv.writer
  have bound := hv.bound
  refine ⟨hv.pos, by omega, ?_, hv.floor, ?_, ?_, ?_⟩
  · rw [head]; exact insertRows_spans hv.spans bound
  · intro nil
    have length := stampRows_length s.head tsMs mint events
    rw [nil] at length
    exact nonempty (List.length_eq_zero_iff.mp length.symm)
  · rw [stampRows_seq, stampRows_length]; rfl
  · rw [stampRows_length, ← head]; rfl

theorem storeHead_valid (hv : Live.Valid ⟨s, .committed rows⟩ low last) :
    Live.Valid ⟨s.storeHead (s.head + rows.length), .headStored rows⟩ low last := by
  obtain ⟨_, seqs, eq⟩ := hv.writer
  have floor := hv.floor
  simp only at seqs eq floor
  refine ⟨hv.pos, hv.bound, hv.spans, ?_, eq.symm, fun row hr => ?_⟩
  · simp only [Shared.storeHead]; omega
  · have mem := List.mem_map_of_mem (f := StampedEvent.seq) hr
    rw [seqs, List.mem_range'_1] at mem
    simp only [Shared.storeHead]
    omega

theorem raiseFloor_valid (hv : Live.Valid ⟨s, .headStored rows⟩ low last) :
    Live.Valid ⟨(s.raiseFloor rows).addRetained valueLen rows, .idle⟩ low last := by
  obtain ⟨head, below⟩ := hv.writer
  refine ⟨hv.pos, hv.bound, ?_, ?_, ?_⟩
  · simpa [Shared.addRetained] using hv.spans
  · simp only [Shared.addRetained, raiseFloor_head]
    unfold Shared.raiseFloor
    split
    · exact hv.floor
    · split
      · exact below _ List.mem_cons_self
      · exact hv.floor
  · simpa [Writer.Consistent, Shared.addRetained] using head

theorem storePruned_valid {p : Pruning} (hv : Live.Valid ⟨s, .pruned p⟩ low last) :
    Live.Valid ⟨s.storePruned p, .idle⟩ low last := by
  obtain ⟨head, db⟩ := hv.writer
  refine ⟨hv.pos, hv.bound, hv.spans, ?_, head⟩
  have spans : Spans p.table low last := db ▸ hv.spans
  simp only [Shared.storePruned, spans.lowest]
  simp only at head
  split <;> omega

/-- Every step keeps the invariant; nothing committed is forgotten and the retained
range only moves up. -/
theorem step_valid (hv : l.Valid low last) {a : LogAction} (hs : l.step valueLen a = some l') :
    ∃ low' last', l'.Valid low' last' ∧ low ≤ low' ∧ last ≤ last' ∧
      l.shared.head ≤ l'.shared.head := by
  cases Live.stepped hs with
  | commitRows s mint events tsMs nonempty =>
    exact ⟨low, _, commitRows_valid hv mint tsMs nonempty, Nat.le_refl _, by omega, Nat.le_refl _⟩
  | storeHead s rows =>
    exact ⟨low, last, storeHead_valid hv, Nat.le_refl _, Nat.le_refl _, Nat.le_add_right _ _⟩
  | raiseFloor s rows =>
    exact ⟨low, last, raiseFloor_valid hv, Nat.le_refl _, Nat.le_refl _,
      by simp [Shared.addRetained]⟩
  | commitPrune s nowMs =>
    obtain ⟨cut, lo, hi, ht⟩ := pruning_trims valueLen nowMs hv.spans hv.bound
    have pos := hv.pos
    exact ⟨cut, last, ⟨by omega, hi, ht.spans hv.spans lo, hv.floor, hv.writer, rfl⟩,
      lo, Nat.le_refl _, Nat.le_refl _⟩
  | storePruned s p =>
    exact ⟨low, last, storePruned_valid hv, Nat.le_refl _, Nat.le_refl _, Nat.le_refl _⟩

/-- A log just opened on a file of contiguous rows. -/
def Opened (valueLen : StoredEvent → Nat) (s : Shared) : Prop :=
  ∃ (file : Table) (low last : Nat) (limits : Limits) (fault : Option OpenFault) (nowMs : Nat),
    1 ≤ low ∧ Spans file low last ∧ openLog valueLen limits fault nowMs file = .ok s

theorem opened_valid (h : Opened valueLen s) : ∃ low last, Live.Valid ⟨s, .idle⟩ low last := by
  obtain ⟨file, low, last, limits, fault, nowMs, pos, spans, ho⟩ := h
  obtain rfl := openLog_ok ho
  -- An empty file starts again at 1, whatever it held before.
  obtain ⟨low', last', pos', bound', spans', head'⟩ : ∃ low' last', 1 ≤ low' ∧ low' ≤ last' + 1 ∧
      Spans file low' last' ∧ (recover valueLen limits file).head = last' := by
    have head := recover_head_spans valueLen limits spans
    by_cases rows : low ≤ last
    · exact ⟨low, last, pos, by omega, spans, by rw [head, if_pos rows]⟩
    · refine ⟨1, 0, Nat.le_refl _, Nat.le_refl _, ?_, by rw [head, if_neg rows]⟩
      intro k
      rw [spans k]
      omega
  have db := recover_db valueLen limits file
  have spansR : Spans (recover valueLen limits file).db low' last' := by rw [db]; exact spans'
  obtain ⟨cut, lo, hi, ht⟩ := pruning_trims valueLen nowMs spansR bound'
  have cutSpans := ht.spans spansR lo
  refine ⟨cut, last', by omega, hi, cutSpans, ?_, head'⟩
  change lowest _ ≤ (recover valueLen limits file).head
  rw [cutSpans.lowest, head']
  split <;> omega

theorem opened_floor (h : Opened valueLen s) : s.floor = lowest s.db := by
  obtain ⟨file, low, last, limits, fault, nowMs, pos, spans, ho⟩ := h
  obtain rfl := openLog_ok ho
  rfl

end Whdr.DeliveryLog
