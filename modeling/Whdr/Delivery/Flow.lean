import Whdr.Lib.CursorStream
import Whdr.Delivery.Network

/-! What the frames on their way to a client will do to its cursor: the frames on the
wire, a `lagged` frame if drops are pending, the frame popped and the queue. -/
namespace Whdr.Network

open CursorStream SubscriberWs
open Plane (Book)

/-- Events move the cursor, a `lagged` frame ends the session. -/
def marks (frames : List SubServerMsg) : List Mark :=
  frames.filterMap fun
    | .event e => some (.item e.seq)
    | .lagged _ => some .cut
    | _ => none

@[simp] theorem marks_nil : marks [] = [] := rfl

@[simp] theorem marks_append (fs gs : List SubServerMsg) :
    marks (fs ++ gs) = marks fs ++ marks gs := by
  simp [marks]

@[simp] theorem marks_events (es : List StampedEvent) :
    marks (es.map .event) = (es.map StampedEvent.seq).map .item := by
  simp [marks, List.filterMap_map]

theorem item_mem_marks {n : Nat} {frames : List SubServerMsg} :
    .item n ∈ marks frames ↔ ∃ e, .event e ∈ frames ∧ e.seq = n := by
  simp only [marks, List.mem_filterMap]
  constructor
  · rintro ⟨f, hf, he⟩
    cases f with
    | event e => exact ⟨e, hf, by simpa using he⟩
    | _ => simp at he
  · rintro ⟨e, he, rfl⟩
    exact ⟨_, he, rfl⟩

def lagFrame (q : OutboundQueue) : List SubServerMsg :=
  if q.lagPending = 0 then [] else [.lagged q.lagPending]

def queued (q : OutboundQueue) : List SubServerMsg := q.inner.map Frame.msg

def stream (front held : List SubServerMsg) (q : OutboundQueue) : List SubServerMsg :=
  front ++ lagFrame q ++ held ++ queued q

/-- Popping moves the first queued frame to the task's hand. -/
theorem stream_pop {wire : List SubServerMsg} {frame : Frame} {q rest : OutboundQueue}
    (inner : q.inner = frame :: rest.inner) (lag : rest.lagPending = q.lagPending) :
    stream wire [frame.msg] rest = stream wire [] q := by
  simp [stream, lagFrame, queued, inner, lag]

/-- Sending moves the pending `lagged` frame and the frame popped to the wire. -/
theorem stream_send (wire : List SubServerMsg) (frame : Frame) (q : OutboundQueue) :
    stream (wire ++ sent q.takePendingLag.1 frame) [] q.takePendingLag.2 =
      stream wire [frame.msg] q := by
  unfold stream sent OutboundQueue.takePendingLag lagFrame queued
  by_cases zero : q.lagPending = 0 <;> simp [zero]

section
variable (P : List Pattern)

/-- The numbers of committed rows that a pattern matches. -/
def Wanted (b : Book) (k : Nat) : Prop :=
  ∃ row, b.committed row ∧ anyMatches P row.channel = true ∧ row.seq = k

/-- A number above the replay window whose fan-out has still to push. -/
def Owed (b : Book) (through k : Nat) : Prop :=
  through < k ∧ ∃ row, b.unpushed row ∧ anyMatches P row.channel = true ∧ row.seq = k

/-- The frames skip nothing wanted, and nothing wanted is left out of them. -/
structure Flows (b : Book) (through c : Nat) (frames : List SubServerMsg) : Prop where
  gapless : Gapless (Wanted P b) c (marks frames)
  complete : Complete (Wanted P b) (Owed P b through) c (marks frames)

/-- Every event is a committed row within the stored head. -/
def Rows (b : Book) (frames : List SubServerMsg) : Prop :=
  ∀ e, .event e ∈ frames → b.committed e ∧ e.seq ≤ b.head

end

variable {P : List Pattern} {b b' : Book} {through c : Nat} {rows es : List StampedEvent}
  {frames front held : List SubServerMsg} {q : OutboundQueue}

/-! ## A commit -/

theorem Rows.grow (h : Rows b frames) (grows : b.Grows rows b') : Rows b' frames := by
  intro e he
  obtain ⟨committed, le⟩ := h e he
  exact ⟨grows.committed e committed, Nat.le_trans le grows.head⟩

theorem gapless_grow (h : Gapless (Wanted P b) c (marks frames)) (within : Rows b frames)
    (grows : b.Grows rows b') : Gapless (Wanted P b') c (marks frames) := by
  refine h.grow fun k => ?_
  rintro ⟨row, hc, hm, rfl⟩
  obtain old | ⟨_, _, _, above⟩ := grows.fresh row hc
  · exact .inl ⟨row, old, hm, rfl⟩
  · refine .inr fun n mem => ?_
    obtain ⟨e, he, rfl⟩ := item_mem_marks.mp mem
    exact Nat.le_of_lt (above e (within e he).1)

/-- New rows are owed by their own fan-out. -/
theorem complete_grow (h : Complete (Wanted P b) (Owed P b through) c (marks frames))
    (le : through ≤ b.head) (grows : b.Grows rows b') :
    Complete (Wanted P b') (Owed P b' through) c (marks frames) := by
  rintro k ⟨row, hc, hm, rfl⟩
  obtain old | ⟨_, unpushed, above, _⟩ := grows.fresh row hc
  · obtain reached | ⟨lt, r, hr, matched, seq⟩ | cut := h _ ⟨row, old, hm, rfl⟩
    · exact .inl reached
    · exact .inr (.inl ⟨lt, r, grows.unpushed r hr, matched, seq⟩)
    · exact .inr (.inr cut)
  · exact .inr (.inl ⟨by omega, row, unpushed, hm, rfl⟩)

/-! ## A push -/

theorem Rows.push (h : Rows b frames) (pushes : b.Pushes rows b') : Rows b' frames := by
  intro e he
  obtain ⟨committed, le⟩ := h e he
  exact ⟨(pushes.committed e).mpr committed, pushes.head.symm ▸ le⟩

theorem wanted_push (pushes : b.Pushes rows b') : Wanted P b' = Wanted P b := by
  funext k
  simp [Wanted, pushes.committed]

/-- A batch pushed while nothing smaller and matching is still to be pushed. -/
structure InOrder (P : List Pattern) (b' : Book) (through : Nat) (rows : List StampedEvent) :
    Prop where
  ascending : rows.Pairwise fun a b => a.seq < b.seq
  first : ∀ row ∈ rows, anyMatches P row.channel = true →
    ∀ later, b'.unpushed later → anyMatches P later.channel = true → through < later.seq →
      row.seq < later.seq

def matching (P : List Pattern) (rows : List StampedEvent) : List StampedEvent :=
  rows.filter fun row => anyMatches P row.channel

/-- A batch appended to the frames in order keeps them gapless and complete. -/
theorem Flows.append (h : Flows P b through c frames) (pushes : b.Pushes rows b')
    (order : InOrder P b' through rows) :
    Flows P b' through c (frames ++ (matching P rows).map .event) := by
  have mem : ∀ {row}, row ∈ rows → anyMatches P row.channel = true →
      row.seq ∈ (matching P rows).map StampedEvent.seq :=
    fun hr hm => List.mem_map_of_mem (List.mem_filter.mpr ⟨hr, hm⟩)
  refine ⟨?_, ?_⟩
  · rw [marks_append, marks_events, gapless_append, wanted_push pushes]
    refine ⟨h.gapless, ?_⟩
    by_cases cut : .cut ∈ marks frames
    · exact .inl cut
    · refine .inr (gapless_items ?_ fun k hk lt => ?_)
      · rw [List.pairwise_map]
        exact order.ascending.filter _
      · obtain reached | ⟨above, row, hr, hm, rfl⟩ | cut' := h.complete k hk
        · omega
        · obtain pushed | still := pushes.unpushed row hr
          · exact .inl (mem pushed hm)
          · -- The row is still owed, so every row of the batch is below it.
            refine .inr fun n hn => ?_
            obtain ⟨e, he, rfl⟩ := List.mem_map.mp hn
            obtain ⟨he, matched⟩ := List.mem_filter.mp he
            exact Nat.le_of_lt (order.first e he matched row still hm above)
        · exact absurd cut' cut
  · intro k hk
    rw [wanted_push pushes] at hk
    rw [marks_append, marks_events, reach_append]
    obtain reached | ⟨above, row, hr, hm, rfl⟩ | cut := h.complete k hk
    · exact .inl (Nat.le_trans reached le_reach)
    · obtain pushed | still := pushes.unpushed row hr
      · exact .inl (item_le_reach (List.mem_map_of_mem (mem pushed hm)))
      · exact .inr (.inl ⟨above, row, still, hm, rfl⟩)
    · exact .inr (.inr (List.mem_append_left _ cut))

theorem stream_gapless_front (h : Gapless (Wanted P b) c (marks (stream front held q))) :
    Gapless (Wanted P b) c (marks front) := by
  simp only [stream, marks_append, List.append_assoc] at h
  exact (gapless_append.mp h).1

/-- Behind a pending `lagged` frame nothing matters. -/
theorem flows_of_lag (h : Gapless (Wanted P b) c (marks front)) (lag : 0 < q.lagPending) :
    Flows P b through c (stream front held q) := by
  have cut : marks (lagFrame q) = [.cut] := by
    simp [lagFrame, Nat.ne_of_gt lag, marks]
  simp only [stream, List.append_assoc]
  refine ⟨?_, fun k _ => .inr (.inr ?_)⟩
  · rw [marks_append, gapless_append]
    refine ⟨h, .inr ?_⟩
    rw [marks_append, cut]
    trivial
  · simp [cut]

/-- A batch pushed in order, or with drops, keeps the stream in order. -/
theorem Flows.push (h : Flows P b through c (stream front held q)) (textLen : SubServerMsg → Nat)
    (pushes : b.Pushes rows b') (order : InOrder P b' through rows) :
    Flows P b' through c
      (stream front held (q.pushEvents textLen ((matching P rows).map .event))) := by
  obtain ⟨spec, _, _⟩ := @OutboundQueue.pushEvents_spec textLen q ((matching P rows).map .event)
  obtain ⟨inner, lag⟩ | dropped := spec
  · have same : stream front held (q.pushEvents textLen ((matching P rows).map .event)) =
        stream front held q ++ (matching P rows).map .event := by
      simp [stream, lagFrame, queued, lag, inner, OutboundQueue.eventFrame]
    rw [same]
    exact h.append pushes order
  · refine flows_of_lag ?_ dropped
    rw [wanted_push pushes]
    exact stream_gapless_front h.gapless

/-! ## A replay -/

/-- At the load of the head everything queued is within it, and what it does not
cover is still to be pushed. -/
theorem flows_of_head (within : Rows b (queued q))
    (above : ∀ row, b.committed row → b.head < row.seq → b.unpushed row) :
    Flows P b b.head b.head (stream [] [] q) := by
  refine ⟨gapless_of_le fun n mem => ?_, ?_⟩
  · obtain ⟨e, he, rfl⟩ := item_mem_marks.mp mem
    refine (within e ?_).2
    simp only [stream, List.nil_append, List.append_nil, List.mem_append] at he
    obtain lag | mem := he
    · unfold lagFrame at lag
      split at lag
      · cases lag
      · simp at lag
    · exact mem
  · rintro k ⟨row, hc, hm, rfl⟩
    by_cases le : row.seq ≤ b.head
    · exact .inl (Nat.le_trans le le_reach)
    · have lt : b.head < row.seq := by omega
      exact .inr (.inl ⟨lt, row, above row hc lt, hm, rfl⟩)

/-- The replay takes the cursor to the head, or as near as there are rows. -/
theorem Flows.replay {checks : Bool} {floor head : Nat} {table : DeliveryLog.Table}
    (h : Flows P b head head (stream [] [] q))
    (hf : replayFrames checks c P floor head table = some frames)
    (rows : ∀ row, b.committed row ↔ table.get? row.seq = some (DeliveryLog.stored row))
    (floorSafe : b.FloorSafe floor) (quiet : marks front = []) :
    Flows P b head c (stream (front ++ frames) [] q) := by
  have lowest : ∀ k e, table.get? k = some e → floor ≤ k := fun k e he =>
    floorSafe.2 (e.stamp k) ((rows _).mpr he)
  have events : marks frames = ((eventsOf frames).map StampedEvent.seq).map .item := by
    obtain ⟨gap, _, _, shape⟩ := replayFrames_eq hf
    rw [shape]
    cases gap <;> simp [marks, eventsOf, List.filterMap_map]
  have replayed : ∀ k, Wanted P b k → c < k → k ≤ head →
      k ∈ (eventsOf frames).map StampedEvent.seq := by
    rintro k ⟨row, hc, hm, rfl⟩ lo hi
    exact List.mem_map_of_mem (replay_covers hf lowest ((rows row).mp hc) lo hi hm)
  have within : ∀ n ∈ (eventsOf frames).map StampedEvent.seq, n ≤ head := by
    intro n hn
    obtain ⟨e, he, rfl⟩ := List.mem_map.mp hn
    exact (replayed_row hf he).2.1
  have split : marks (stream (front ++ frames) [] q) =
      marks frames ++ marks (stream [] [] q) := by
    simp [stream, quiet]
  have reached : ∀ k, Wanted P b k → k ≤ head → k ≤ reach c (marks frames) := by
    intro k hk le
    by_cases old : k ≤ c
    · exact Nat.le_trans old le_reach
    · rw [events]
      exact item_le_reach (List.mem_map_of_mem (replayed k hk (by omega) le))
  refine ⟨?_, fun k hk => ?_⟩
  · rw [split, gapless_append]
    refine ⟨?_, .inr (h.gapless.move fun k hk lt => ?_)⟩
    · rw [events]
      refine gapless_items ?_ fun k hk lt => ?_
      · rw [List.pairwise_map]
        exact replayed_ascending hf
      · by_cases le : k ≤ head
        · exact .inl (replayed k hk lt le)
        · refine .inr fun n hn => ?_
          have := within n hn
          omega
    · by_contra le
      have := reached k hk (by omega)
      omega
  · rw [split, reach_append]
    obtain le | owed | cut := h.complete k hk
    · refine .inl ?_
      obtain le | ⟨n, mem, le⟩ := le_reach_cases le
      · exact Nat.le_trans (reached k hk le) le_reach
      · exact Nat.le_trans le (item_le_reach mem)
    · exact .inr (.inl owed)
    · exact .inr (.inr (List.mem_append_right _ cut))

end Whdr.Network
