import Whdr.Server.Plane

/-! What replay and live delivery depend on, and how each step of the plane changes it:
the rows that are committed, those still to be pushed, and the stored head. -/
namespace Whdr.Plane

open DeliveryLog

variable (valueLen : StoredEvent → Nat) (textLen : SubServerMsg → Nat)

/-! ## What is committed and what is still to be pushed -/

def Committed (p : Plane) (row : StampedEvent) : Prop :=
  ∃ shared, p.registry.delivery = some shared ∧ shared.db.get? row.seq = some (stored row)

/-- The row belongs to a fan-out that has not pushed its frames. -/
def Unpushed (p : Plane) (row : StampedEvent) : Prop :=
  row ∈ p.writer.rows ∨ ∃ rows ∈ p.pending, row ∈ rows

/-- The same, as a list. -/
def unpushedRows (p : Plane) : List StampedEvent := p.writer.rows ++ p.pending.flatten

theorem mem_unpushedRows {p : Plane} {row : StampedEvent} :
    row ∈ p.unpushedRows ↔ p.Unpushed row := by
  simp [unpushedRows, Unpushed]

def head (p : Plane) : Nat := (p.registry.delivery.map Shared.head).getD 0

/-- What replay and live delivery depend on: which rows there are, which of them are
still to be pushed, and how far the head is stored. -/
structure Book where
  committed : StampedEvent → Prop
  unpushed : StampedEvent → Prop
  head : Nat

def book (p : Plane) : Book := ⟨p.Committed, p.Unpushed, p.head⟩

/-- It does not depend on who is connected. -/
theorem book_of_delivery (p : Plane) {r : SubscriberRegistry}
    (delivery : r.delivery = p.registry.delivery) : book { p with registry := r } = p.book := by
  have committed : Committed { p with registry := r } = p.Committed := by
    funext row
    simp only [Committed, delivery]
  have head : head { p with registry := r } = p.head := by
    simp only [Plane.head, delivery]
  unfold book
  rw [committed, head]
  rfl

/-- Rows were added, above all earlier ones. -/
structure Book.Grows (b : Book) (new : List StampedEvent) (b' : Book) : Prop where
  committed : ∀ row, b.committed row → b'.committed row
  fresh : ∀ row, b'.committed row → b.committed row ∨
    (row ∈ new ∧ b'.unpushed row ∧ b.head < row.seq ∧ ∀ old, b.committed old → old.seq < row.seq)
  unpushed : ∀ row, b.unpushed row → b'.unpushed row
  head : b.head ≤ b'.head

/-- The rows of one batch were pushed. -/
structure Book.Pushes (b : Book) (rows : List StampedEvent) (b' : Book) : Prop where
  committed : ∀ row, b'.committed row ↔ b.committed row
  unpushed : ∀ row, b.unpushed row → row ∈ rows ∨ b'.unpushed row
  still : ∀ row, b'.unpushed row → b.unpushed row
  head : b'.head = b.head

/-- A floor loaded earlier: nothing is or will be below it. -/
def Book.FloorSafe (b : Book) (floor : Nat) : Prop :=
  floor ≤ b.head ∧ ∀ row, b.committed row → floor ≤ row.seq

theorem Book.FloorSafe.grow {b b' : Book} {new : List StampedEvent} {floor : Nat}
    (h : b.FloorSafe floor) (grows : b.Grows new b') : b'.FloorSafe floor := by
  refine ⟨Nat.le_trans h.1 grows.head, fun row hc => ?_⟩
  obtain old | ⟨_, _, above, _⟩ := grows.fresh row hc
  · exact h.2 row old
  · have := h.1
    omega

theorem Book.FloorSafe.push {b b' : Book} {rows : List StampedEvent} {floor : Nat}
    (h : b.FloorSafe floor) (pushes : b.Pushes rows b') : b'.FloorSafe floor :=
  ⟨pushes.head.symm ▸ h.1, fun row hc => h.2 row ((pushes.committed row).mp hc)⟩

/-- Without prunes the floor, once stored, is the least retained seq; until then the
rows of the running append are all there is. -/
def FloorMeets (shared : Shared) (writer : Writer) (low last : Nat) : Prop :=
  shared.floor = low ∨ shared.floor = 0 ∧
    match writer with
    | .idle | .pruned _ => low = last + 1
    | .committed rows | .headStored rows => ∃ first rest, rows = first :: rest ∧ first.seq = low

structure Valid (p : Plane) (shared : Shared) (low last : Nat) : Prop where
  delivery : p.registry.delivery = some shared
  log : Live.Valid ⟨shared, p.writer⟩ low last
  floor : FloorMeets shared p.writer low last
  unpushed : ∀ row, p.Unpushed row → shared.db.get? row.seq = some (stored row)
  pending : ∀ rows ∈ p.pending, ∀ row ∈ rows, row.seq ≤ shared.head
  ascending : ∀ rows ∈ p.writer.rows :: p.pending, rows.Pairwise fun a b => a.seq < b.seq

/-- Nothing is pruned in this lifetime. -/
def NoPrune : PlaneAction → Prop
  | .log (.commitPrune _) => False
  | _ => True

instance (a : PlaneAction) : Decidable (NoPrune a) :=
  match a with
  | .log (.commitPrune _) => isFalse id
  | .log (.commitRows _ _ _) | .log .storeHead | .log .raiseFloor | .log .storePruned
  | .stampInMemory _ _ _ | .push _ | .connection _ => isTrue trivial

variable {valueLen textLen} {p p' : Plane} {shared : Shared} {low last : Nat}

theorem opened_valid (h : Opened valueLen shared) :
    ∃ low last, Valid ⟨.withDelivery shared, .idle, []⟩ shared low last := by
  obtain ⟨low, last, log⟩ := DeliveryLog.opened_valid h
  refine ⟨low, last, rfl, log, ?_, ?_, nofun, by simp [Writer.rows]⟩
  · have floor := opened_floor h
    rw [log.spans.lowest] at floor
    have bound := log.bound
    unfold FloorMeets
    split at floor
    · exact .inl floor
    · exact .inr ⟨floor, by simp only; omega⟩
  · rintro row (held | ⟨rows, hr, _⟩)
    · cases held
    · cases hr

theorem Valid.committed_iff (hv : p.Valid shared low last) (row : StampedEvent) :
    p.Committed row ↔ shared.db.get? row.seq = some (stored row) := by
  simp [Committed, hv.delivery]

theorem Valid.head_eq (hv : p.Valid shared low last) : p.head = shared.head := by
  simp [head, hv.delivery]

theorem Valid.committed_le (hv : p.Valid shared low last) {row : StampedEvent}
    (hc : p.Committed row) : low ≤ row.seq ∧ row.seq ≤ last :=
  (hv.log.spans _).mp ⟨_, (hv.committed_iff row).mp hc⟩

/-- A row is found by its seq. -/
theorem Committed.unique {row row' : StampedEvent} (h : p.Committed row) (h' : p.Committed row')
    (seq : row.seq = row'.seq) : row = row' := by
  obtain ⟨shared, hd, hr⟩ := h
  obtain ⟨shared', hd', hr'⟩ := h'
  rw [hd] at hd'
  cases hd'
  rw [seq, hr'] at hr
  have eq : stored row' = stored row := Option.some.inj hr
  rw [← stamp_stored row, ← stamp_stored row', seq, eq]

/-- What the head does not cover yet is in the hands of the writer. -/
theorem Valid.above_head (hv : p.Valid shared low last) {row : StampedEvent}
    (hc : p.Committed row) (above : p.head < row.seq) : row ∈ p.writer.rows := by
  have le := (hv.committed_le hc).2
  have writer := hv.log.writer
  rw [hv.head_eq] at above
  cases hw : p.writer with
  | idle => simp only [hw, Writer.Consistent] at writer; omega
  | headStored rows => simp only [hw, Writer.Consistent] at writer; omega
  | pruned q => simp only [hw, Writer.Consistent] at writer; omega
  | committed rows =>
    simp only [hw, Writer.Consistent] at writer
    obtain ⟨_, seqs, eq⟩ := writer
    have mem : row.seq ∈ rows.map StampedEvent.seq := by
      rw [seqs, List.mem_range'_1]; omega
    obtain ⟨found, hf, same⟩ := List.mem_map.mp mem
    have unpushed : p.Unpushed found := .inl (by rw [hw]; exact hf)
    have found_row := hc.unique ((hv.committed_iff found).mpr (hv.unpushed _ unpushed)) same.symm
    rw [found_row]
    exact hf

theorem Valid.floorSafe (hv : p.Valid shared low last) : p.book.FloorSafe shared.floor := by
  refine ⟨Nat.le_trans hv.log.floor (Nat.le_of_eq hv.head_eq.symm), fun row hc => ?_⟩
  have above := (hv.committed_le hc).1
  rcases hv.floor with eq | ⟨zero, _⟩ <;> omega

/-! ## Steps -/

/-- The rows a log step commits. -/
def newRows (p : Plane) : LogAction → List StampedEvent
  | .commitRows mint events tsMs => stampRows p.head tsMs mint events
  | _ => []

/-- A log step only adds rows and leaves the connections alone. -/
structure Grows (p : Plane) (new : List StampedEvent) (p' : Plane) : Prop where
  subscribers : p'.registry.subscribers = p.registry.subscribers
  nextId : p'.registry.nextId = p.registry.nextId
  book : p.book.Grows new p'.book

/-- A step that leaves the table and adds to what is unpushed. -/
theorem grows_of_same_rows (hv : p.Valid shared low last) {shared' : Shared}
    {new : List StampedEvent}
    (delivery : p'.registry.delivery = some shared') (db : shared'.db = shared.db)
    (subscribers : p'.registry.subscribers = p.registry.subscribers)
    (nextId : p'.registry.nextId = p.registry.nextId)
    (unpushed : ∀ row, p.Unpushed row → p'.Unpushed row)
    (head : shared.head ≤ shared'.head) : p.Grows new p' := by
  have same : ∀ row, p'.Committed row ↔ p.Committed row := by
    intro row
    rw [hv.committed_iff]
    simp [Committed, delivery, db]
  refine ⟨subscribers, nextId, fun row hr => (same row).mpr hr, fun row hr => ?_, unpushed, ?_⟩
  · exact .inl ((same row).mp hr)
  · simpa [book, Plane.head, delivery, hv.delivery] using head

theorem commit_step (hv : p.Valid shared low last) (idle : p.writer = .idle) (mint : Nat → Uuid)
    {events : List Event} (tsMs : Nat) (nonempty : events ≠ []) :
    let rows := stampRows shared.head tsMs mint events
    let p' : Plane := ⟨{ p.registry with delivery := some (shared.commitRows rows) },
      .committed rows, p.pending⟩
    p'.Valid (shared.commitRows rows) low (last + events.length) ∧ p.Grows rows p' := by
  intro rows p'
  have log : Live.Valid ⟨shared, .idle⟩ low last := idle ▸ hv.log
  have head : shared.head = last := log.writer
  have found : ∀ row, (shared.commitRows rows).db.get? row.seq = some (stored row) ↔
      row ∈ rows ∨ shared.db.get? row.seq = some (stored row) := by
    have spans : Spans shared.db low shared.head := head ▸ log.spans
    exact fun row => get?_commit spans row
  have committed : ∀ row, p'.Committed row ↔ row ∈ rows ∨ p.Committed row := by
    intro row
    rw [hv.committed_iff, ← found]
    exact ⟨fun ⟨_, hd, hr⟩ => by cases hd; exact hr, fun hr => ⟨_, rfl, hr⟩⟩
  refine ⟨⟨rfl, commitRows_valid log mint tsMs nonempty, ?_, ?_, hv.pending, ?_⟩, ?_⟩
  · -- The first row is the floor to be when nothing else is retained.
    have floor : FloorMeets shared .idle low last := idle ▸ hv.floor
    obtain floor | ⟨zero, empty⟩ := floor
    · exact .inl floor
    · obtain ⟨event, rest, rfl⟩ := List.exists_cons_of_ne_nil nonempty
      refine .inr ⟨zero, _, _, List.mapIdx_cons, ?_⟩
      simp only at empty ⊢
      omega
  · rintro row (held | returned)
    · exact (found row).mpr (.inl held)
    · exact (found row).mpr (.inr (hv.unpushed row (.inr returned)))
  · intro batch hb
    obtain rfl | old := List.mem_cons.mp hb
    · exact stampRows_ascending _ _ _ _
    · exact hv.ascending batch (List.mem_cons_of_mem _ old)
  · refine ⟨rfl, rfl, fun row hr => (committed row).mpr (.inr hr), ?_, ?_, ?_⟩
    · intro row hr
      obtain new | old := (committed row).mp hr
      · have bounds := stampRows_bounds new
        have above := Nat.lt_of_le_of_lt (Nat.le_of_eq hv.head_eq) bounds.1
        refine .inr ⟨new, .inl new, above, fun old ho => ?_⟩
        have := (hv.committed_le ho).2
        omega
      · exact .inl old
    · rintro row (held | returned)
      · rw [idle] at held
        cases held
      · exact .inr returned
    · exact Nat.le_of_eq hv.head_eq

theorem storeHead_step (hv : p.Valid shared low last) {rows : List StampedEvent}
    (hw : p.writer = .committed rows) :
    let shared' := shared.storeHead (shared.head + rows.length)
    let p' : Plane := ⟨{ p.registry with delivery := some shared' }, .headStored rows, p.pending⟩
    p'.Valid shared' low last ∧ p.Grows [] p' := by
  intro shared' p'
  have log : Live.Valid ⟨shared, .committed rows⟩ low last := hw ▸ hv.log
  have same : ∀ row, p'.Unpushed row ↔ p.Unpushed row := by
    intro row
    simp [Unpushed, hw, p', Writer.rows]
  have le : shared.head ≤ shared'.head := Nat.le_add_right _ _
  refine ⟨⟨rfl, storeHead_valid log, ?_, ?_, ?_, ?_⟩, ?_⟩
  · have floor : FloorMeets shared (.committed rows) low last := hw ▸ hv.floor
    exact floor
  · exact fun row hr => hv.unpushed row ((same row).mp hr)
  · intro batch hb row hr
    exact Nat.le_trans (hv.pending batch hb row hr) le
  · have asc := hv.ascending
    rw [hw] at asc
    exact asc
  · exact grows_of_same_rows hv rfl rfl rfl rfl (fun row hr => (same row).mpr hr) le

theorem raiseFloor_step (hv : p.Valid shared low last) {rows : List StampedEvent}
    (hw : p.writer = .headStored rows) :
    let shared' := (shared.raiseFloor rows).addRetained valueLen rows
    let p' : Plane := ⟨{ p.registry with delivery := some shared' }, .idle, p.pending ++ [rows]⟩
    p'.Valid shared' low last ∧ p.Grows [] p' := by
  intro shared' p'
  have log : Live.Valid ⟨shared, .headStored rows⟩ low last := hw ▸ hv.log
  have db : shared'.db = shared.db := by simp [shared', Shared.addRetained]
  have head : shared'.head = shared.head := by simp [shared', Shared.addRetained]
  have same : ∀ row, p'.Unpushed row ↔ p.Unpushed row := by
    intro row
    simp only [Unpushed, hw, p', Writer.rows, List.mem_append, List.mem_singleton]
    constructor
    · rintro (h | ⟨batch, hb | rfl, hr⟩)
      · cases h
      · exact .inr ⟨batch, hb, hr⟩
      · exact .inl hr
    · rintro (h | ⟨batch, hb, hr⟩)
      · exact .inr ⟨rows, .inr rfl, h⟩
      · exact .inr ⟨batch, .inl hb, hr⟩
  refine ⟨⟨rfl, raiseFloor_valid log, ?_, ?_, ?_, ?_⟩, ?_⟩
  · have floor : FloorMeets shared (.headStored rows) low last := hw ▸ hv.floor
    have pos := hv.log.pos
    obtain floor | ⟨zero, first, rest, rfl, eq⟩ := floor
    · have nonzero : shared.floor ≠ 0 := by omega
      refine .inl ?_
      simp only [shared', Shared.addRetained, Shared.raiseFloor]
      split
      · exact floor
      · rw [if_neg nonzero]; exact floor
    · exact .inl (by simp [shared', Shared.addRetained, Shared.raiseFloor, zero, eq])
  · intro row hr
    rw [db]
    exact hv.unpushed row ((same row).mp hr)
  · intro batch hb row hr
    rw [head]
    obtain old | new := List.mem_append.mp hb
    · exact hv.pending batch old row hr
    · rw [List.mem_singleton.mp new] at hr
      exact log.writer.2 row hr
  · intro batch hb
    obtain rfl | hb := List.mem_cons.mp hb
    · exact .nil
    · obtain old | new := List.mem_append.mp hb
      · exact hv.ascending batch (List.mem_cons_of_mem _ old)
      · rw [List.mem_singleton.mp new]
        exact hv.ascending rows (by simp [hw, Writer.rows])
  · exact grows_of_same_rows hv rfl db rfl rfl (fun row hr => (same row).mpr hr)
      (Nat.le_of_eq head.symm)

theorem storePruned_step (hv : p.Valid shared low last) {q : Pruning}
    (hw : p.writer = .pruned q) :
    let p' : Plane := ⟨{ p.registry with delivery := some (shared.storePruned q) }, .idle, p.pending⟩
    p'.Valid (shared.storePruned q) low last ∧ p.Grows [] p' := by
  intro p'
  have log : Live.Valid ⟨shared, .pruned q⟩ low last := hw ▸ hv.log
  have same : ∀ row, p'.Unpushed row ↔ p.Unpushed row := by
    intro row
    simp [Unpushed, hw, p', Writer.rows]
  refine ⟨⟨rfl, storePruned_valid log, ?_, ?_, hv.pending, ?_⟩, ?_⟩
  · obtain ⟨_, db⟩ := log.writer
    have spans : Spans q.table low last := db ▸ log.spans
    have bound := log.bound
    unfold FloorMeets
    simp only [Shared.storePruned, spans.lowest]
    split
    · exact .inl rfl
    · exact .inr ⟨rfl, by omega⟩
  · exact fun row hr => hv.unpushed row ((same row).mp hr)
  · have asc := hv.ascending
    rw [hw] at asc
    exact asc
  · exact grows_of_same_rows hv rfl rfl rfl rfl (fun row hr => (same row).mpr hr)
      (Nat.le_refl _)

/-- Every log step but a prune keeps the invariant and only adds rows. -/
theorem log_step (hv : p.Valid shared low last) {a : LogAction} (keep : NoPrune (.log a))
    (hs : p.step valueLen textLen (.log a) = some p') :
    (∃ shared' last', p'.Valid shared' low last') ∧ p.Grows (p.newRows a) p' := by
  simp only [step, hv.delivery] at hs
  obtain ⟨l, hl, rfl⟩ := Option.map_eq_some_iff.mp hs
  generalize hl0 : (⟨shared, p.writer⟩ : Live) = l0 at hl
  cases Live.stepped hl with
  | commitRows s mint events tsMs nonempty =>
    obtain ⟨rfl, idle⟩ := Live.mk.inj hl0
    obtain ⟨valid, grows⟩ := commit_step hv idle mint tsMs nonempty
    simp only [idle, Writer.returned, List.append_nil, newRows, hv.head_eq]
    exact ⟨⟨_, _, valid⟩, grows⟩
  | storeHead s rows =>
    obtain ⟨rfl, hw⟩ := Live.mk.inj hl0
    obtain ⟨valid, grows⟩ := storeHead_step hv hw
    simp only [hw, Writer.returned, List.append_nil]
    exact ⟨⟨_, _, valid⟩, grows⟩
  | raiseFloor s rows =>
    obtain ⟨rfl, hw⟩ := Live.mk.inj hl0
    obtain ⟨valid, grows⟩ := @raiseFloor_step valueLen p shared low last hv rows hw
    simp only [hw, Writer.returned]
    exact ⟨⟨_, _, valid⟩, grows⟩
  | commitPrune s nowMs => exact absurd keep id
  | storePruned s q =>
    obtain ⟨rfl, hw⟩ := Live.mk.inj hl0
    obtain ⟨valid, grows⟩ := storePruned_step hv hw
    simp only [hw, Writer.returned, List.append_nil]
    exact ⟨⟨_, _, valid⟩, grows⟩

/-- A push finishes one batch and leaves the log alone. -/
theorem push_step {i : Nat} (hs : p.step valueLen textLen (.push i) = some p') :
    ∃ rows, p.pending[i]? = some rows ∧ p' = { p with
      registry := p.registry.deliver textLen rows
      pending := p.pending.eraseIdx i } := by
  simp only [step] at hs
  cases hp : p.pending[i]? with
  | none => simp [hp] at hs
  | some rows =>
    simp only [hp] at hs
    cases hs
    exact ⟨rows, rfl, rfl⟩

theorem push_book {i : Nat} {rows : List StampedEvent} (hp : p.pending[i]? = some rows) :
    p.book.Pushes rows (book { p with
      registry := p.registry.deliver textLen rows
      pending := p.pending.eraseIdx i }) := by
  refine ⟨fun _ => Iff.rfl, ?_, ?_, rfl⟩
  · rintro row (held | ⟨batch, hb, hr⟩)
    · exact .inr (.inl held)
    · obtain ⟨j, hj⟩ := List.mem_iff_getElem?.mp hb
      by_cases eq : j = i
      · rw [eq, hp] at hj
        cases hj
        exact .inl hr
      · exact .inr (.inr ⟨batch, List.mem_eraseIdx_iff_getElem?.mpr ⟨j, eq, hj⟩, hr⟩)
  · rintro row (held | ⟨batch, hb, hr⟩)
    · exact .inl held
    · exact .inr ⟨batch, List.mem_of_mem_eraseIdx hb, hr⟩

theorem push_valid (hv : p.Valid shared low last) (i : Nat) (rows : List StampedEvent) :
    Valid { p with
      registry := p.registry.deliver textLen rows
      pending := p.pending.eraseIdx i } shared low last := by
  refine ⟨hv.delivery, hv.log, hv.floor, ?_, ?_, ?_⟩
  · rintro row (held | ⟨batch, hb, hr⟩)
    · exact hv.unpushed row (.inl held)
    · exact hv.unpushed row (.inr ⟨batch, List.mem_of_mem_eraseIdx hb, hr⟩)
  · exact fun batch hb => hv.pending batch (List.mem_of_mem_eraseIdx hb)
  · intro batch hb
    obtain rfl | hb := List.mem_cons.mp hb
    · exact hv.ascending _ List.mem_cons_self
    · exact hv.ascending batch (List.mem_cons_of_mem _ (List.mem_of_mem_eraseIdx hb))

/-- Rows and batches do not depend on who is connected. -/
theorem Valid.of_delivery (hv : p.Valid shared low last) {r : SubscriberRegistry}
    (delivery : r.delivery = p.registry.delivery) :
    Valid { p with registry := r } shared low last :=
  ⟨delivery.trans hv.delivery, hv.log, hv.floor, hv.unpushed, hv.pending, hv.ascending⟩

end Whdr.Plane
