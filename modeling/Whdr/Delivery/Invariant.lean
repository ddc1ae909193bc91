import Mathlib.Data.List.Nodup
import Whdr.Delivery.Flow

/-! The invariant of a run of one lifetime. It says of every session that the frames on
their way to the client take its cursor past no wanted row, and that whatever they
leave out is still owed by a fan-out. -/
namespace Whdr.Network

open CursorStream SubscriberWs
open Plane (Book)

/-! ## The runs -/

/-- The head of the replay, once it is loaded: what is above it comes live. -/
def Task.window : Task → Option Nat
  | .replaying _ _ (.headLoaded _ head) => some head
  | .streaming through | .holding through _ => some through
  | _ => none

/-- Version 4 UUIDs do not collide. -/
def MintsFresh (p : Plane) (rows : List StampedEvent) : Prop :=
  (rows.map StampedEvent.id).Nodup ∧
    ∀ shared ∈ p.registry.delivery, ∀ row ∈ rows, ∀ e ∈ shared.db.entries, e.2.id ≠ row.id

instance (p : Plane) (rows : List StampedEvent) : Decidable (MintsFresh p rows) :=
  inferInstanceAs (Decidable (_ ∧ _))

/-- One server lifetime without prunes. -/
def OneLifetime (s : State) : Action → Prop
  | .plane (.log (.commitPrune _)) => False
  | .plane (.log a) => MintsFresh s.plane (s.plane.newRows a)
  | .restart => False
  | _ => True

/-- No batch is pushed to a client past its replay window while a smaller matching
row above the window is committed and not yet pushed. -/
def PushesInOrder (P : List Pattern) (s : State) : Action → Prop
  | .plane (.push i) =>
    ∀ through ∈ s.session.bind fun x => x.task.window,
      ∀ row ∈ matching P ((s.plane.pending[i]?).getD []),
        ∀ later ∈ matching P (Plane.unpushedRows
            { s.plane with pending := s.plane.pending.eraseIdx i }),
          through < later.seq → row.seq < later.seq
  | _ => True

/-! ## The invariant -/

section
variable (P : List Pattern)

structure ClientValid (c0 : Nat) (b : Book) (client : Client) : Prop where
  handled : ∀ e ∈ client.handled, b.committed e ∧ e.seq ≤ client.resume.cursor
  seen : ∀ id ∈ client.resume.seen, ∃ e ∈ client.handled, e.id = id
  cursor : client.resume.cursor = c0 ∨ client.resume.cursor ≤ b.head
  sound : ∀ row, b.committed row → c0 < row.seq → row.seq ≤ client.resume.cursor →
    anyMatches P row.channel = true → row ∈ client.handled

def UniqueIds (b : Book) : Prop :=
  ∀ r r', b.committed r → b.committed r' → r.id = r'.id → r = r'

/-- The connection has the client's patterns. -/
def Same (sub : Subscriber) : Prop :=
  ∀ channel, anyMatches sub.patterns channel = anyMatches P channel

/-- The frames of a running session. A refused subscribe leaves it without patterns. -/
structure Carries (b : Book) (cursor through : Nat) (sub : Subscriber)
    (frames : List SubServerMsg) : Prop where
  bound : through ≤ b.head
  gapless : Gapless (Wanted P b) cursor (marks frames)
  complete : sub.patterns = [] ∨
    (Same P sub ∧ Complete (Wanted P b) (Owed P b through) cursor (marks frames))

def TaskValid (b : Book) (cursor : Nat) (wire : List SubServerMsg) (sub : Subscriber) :
    Task → Prop
  | .welcomed => marks wire = [] ∧ sub.patterns = [] ∧ marks (stream [] [] sub.queue) = []
  | .replaying after parsed stage =>
    marks wire = [] ∧ after = cursor ∧ parsed = P ∧ Same P sub ∧
      match stage with
      | .registered => True
      | .floorLoaded floor => b.FloorSafe floor
      | .headLoaded floor head =>
        b.FloorSafe floor ∧ head ≤ b.head ∧ Flows P b head head (stream [] [] sub.queue)
  | .streaming through => Carries P b cursor through sub (stream wire [] sub.queue)
  | .holding through frame => Carries P b cursor through sub (stream wire [frame.msg] sub.queue)
  | .ended => False

/-- The session's task runs and has its entry in the registry. -/
structure Attached (p : Plane) (cursor : Nat) (x : Session) (sub : Subscriber) : Prop where
  registered : x.conn < p.registry.nextId
  entry : p.registry.subscribers.get? x.conn = some sub
  queued : Rows p.book (queued sub.queue)
  held : Rows p.book x.task.held
  task : TaskValid P p.book cursor x.wire sub x.task

structure SessionValid (p : Plane) (cursor : Nat) (x : Session) : Prop where
  wire : Rows p.book x.wire
  task : (x.task = .ended ∧ Gapless (Wanted P p.book) cursor (marks x.wire)) ∨
    ∃ sub, Attached P p cursor x sub

structure Valid (c0 : Nat) (s : State) : Prop where
  plane : ∃ shared low last, s.plane.Valid shared low last
  ids : UniqueIds s.plane.book
  client : ClientValid P c0 s.plane.book s.client
  session : ∀ x, s.session = some x → SessionValid P s.plane s.client.resume.cursor x

end

variable {cfg : Config} {P : List Pattern} {c0 cursor through : Nat} {b b' : Book}
  {p p' : Plane} {s t : State} {x : Session} {sub : Subscriber} {task : Task}
  {rows : List StampedEvent} {wire frames : List SubServerMsg} {client : Client}

theorem Rows.stream {front held : List SubServerMsg} {q : OutboundQueue} (hf : Rows b front)
    (hh : Rows b held) (hq : Rows b (Network.queued q)) : Rows b (Network.stream front held q) := by
  intro e he
  simp only [Network.stream, List.mem_append] at he
  obtain ((he | he) | he) | he := he
  · exact hf e he
  · unfold lagFrame at he
    split at he
    · cases he
    · simp at he
  · exact hh e he
  · exact hq e he

/-! ## Commits -/

theorem Carries.grow (h : Carries P b cursor through sub frames) (within : Rows b frames)
    (grows : b.Grows rows b') : Carries P b' cursor through sub frames := by
  refine ⟨Nat.le_trans h.bound grows.head, gapless_grow h.gapless within grows, ?_⟩
  obtain none | ⟨same, complete⟩ := h.complete
  · exact .inl none
  · exact .inr ⟨same, complete_grow complete h.bound grows⟩

theorem TaskValid.grow (h : TaskValid P b cursor wire sub task) (grows : b.Grows rows b')
    (hw : Rows b wire) (hh : Rows b task.held) (hq : Rows b (queued sub.queue)) :
    TaskValid P b' cursor wire sub task := by
  cases task with
  | welcomed => exact h
  | ended => exact h
  | streaming through => exact Carries.grow h (hw.stream hh hq) grows
  | holding through frame => exact Carries.grow h (hw.stream hh hq) grows
  | replaying after parsed stage =>
    obtain ⟨quiet, ha, hp, same, hs⟩ := h
    refine ⟨quiet, ha, hp, same, ?_⟩
    cases stage with
    | registered => trivial
    | floorLoaded floor => exact hs.grow grows
    | headLoaded floor head =>
      obtain ⟨floorSafe, bound, flows⟩ := hs
      have none : Rows b [] := nofun
      exact ⟨floorSafe.grow grows, Nat.le_trans bound grows.head,
        gapless_grow flows.gapless (none.stream none hq) grows,
        complete_grow flows.complete bound grows⟩

/-- A new row is above the head, so no cursor that events have moved is past it. -/
theorem ClientValid.grow (h : ClientValid P c0 b client) (grows : b.Grows rows b') :
    ClientValid P c0 b' client := by
  refine ⟨?_, h.seen, ?_, ?_⟩
  · intro e he
    obtain ⟨committed, le⟩ := h.handled e he
    exact ⟨grows.committed e committed, le⟩
  · obtain same | le := h.cursor
    · exact .inl same
    · exact .inr (Nat.le_trans le grows.head)
  · intro row hc lo hi hm
    obtain old | ⟨_, _, above, _⟩ := grows.fresh row hc
    · exact h.sound row old lo hi hm
    · have := h.cursor
      omega

theorem UniqueIds.grow (h : UniqueIds b) (grows : b.Grows rows b')
    (distinct : (rows.map StampedEvent.id).Nodup)
    (fresh : ∀ row ∈ rows, ∀ old, b.committed old → old.id ≠ row.id) : UniqueIds b' := by
  intro r r' hr hr' eq
  obtain old | ⟨new, _⟩ := grows.fresh r hr
  · obtain old' | ⟨new', _⟩ := grows.fresh r' hr'
    · exact h r r' old old' eq
    · exact absurd eq (fresh r' new' r old)
  · obtain old' | ⟨new', _⟩ := grows.fresh r' hr'
    · exact absurd eq.symm (fresh r new r' old')
    · exact List.inj_on_of_nodup_map distinct new new' eq

theorem log_valid (hv : Valid P c0 s) {a : DeliveryLog.LogAction}
    (ok : OneLifetime s (.plane (.log a)))
    (hs : s.plane.step cfg.valueLen cfg.textLen (.log a) = some p) :
    Valid P c0 { s with plane := p } := by
  obtain ⟨⟨shared, low, last, plane⟩, ids, client, session⟩ := hv
  have keep : Plane.NoPrune (.log a) ∧ MintsFresh s.plane (s.plane.newRows a) := by
    cases a with
    | commitPrune nowMs => exact absurd ok id
    | _ => exact ⟨trivial, ok⟩
  obtain ⟨⟨shared', last', plane'⟩, grows⟩ := Plane.log_step plane keep.1 hs
  obtain ⟨distinct, fresh⟩ := keep.2
  refine ⟨⟨shared', low, last', plane'⟩, ids.grow grows.book distinct ?_, client.grow grows.book, ?_⟩
  · intro row hr old ⟨found, hd, ho⟩
    exact fresh found hd row hr _ ((found.db.get?_eq_some_iff _ _).mp ho)
  · intro x hx
    obtain ⟨wire, task⟩ := session x hx
    refine ⟨wire.grow grows.book, ?_⟩
    obtain ⟨ended, gapless⟩ | ⟨sub, attached⟩ := task
    · exact .inl ⟨ended, gapless_grow gapless wire grows.book⟩
    · refine .inr ⟨sub, grows.nextId ▸ attached.registered, grows.subscribers ▸ attached.entry,
        attached.queued.grow grows.book, attached.held.grow grows.book, ?_⟩
      exact attached.task.grow grows.book wire attached.held attached.queued

/-! ## Pushes -/

theorem offeredTo_same (same : Same P sub) (rows : List StampedEvent) :
    SubscriberRegistry.offeredTo sub rows = matching P rows := by
  simp [SubscriberRegistry.offeredTo, matching, same _]

theorem offeredTo_none (none : sub.patterns = []) (rows : List StampedEvent) :
    SubscriberRegistry.offeredTo sub rows = [] := by
  simp [SubscriberRegistry.offeredTo, none, anyMatches]

/-- What a push leaves of a connection. -/
def pushedTo (textLen : SubServerMsg → Nat) (sub : Subscriber) (rows : List StampedEvent) :
    Subscriber :=
  let offered := SubscriberRegistry.offeredTo sub rows
  { sub with queue := sub.queue.pushEvents textLen (offered.map .event) }

variable {textLen : SubServerMsg → Nat}

theorem pushedTo_none (none : sub.patterns = []) : pushedTo textLen sub rows = sub := by
  simp [pushedTo, offeredTo_none none, OutboundQueue.pushEvents]

theorem Carries.push {front held : List SubServerMsg}
    (h : Carries P b cursor through sub (stream front held sub.queue))
    (pushes : b.Pushes rows b') (order : InOrder P b' through rows) :
    Carries P b' cursor through (pushedTo textLen sub rows)
      (stream front held (pushedTo textLen sub rows).queue) := by
  have bound : through ≤ b'.head := pushes.head.symm ▸ h.bound
  obtain none | ⟨same, complete⟩ := h.complete
  · rw [pushedTo_none none]
    exact ⟨bound, by rw [wanted_push pushes]; exact h.gapless, .inl none⟩
  · have flows : Flows P b through cursor (stream front held sub.queue) := ⟨h.gapless, complete⟩
    have pushed := flows.push textLen pushes order
    rw [← offeredTo_same same] at pushed
    exact ⟨bound, pushed.gapless, .inr ⟨same, pushed.complete⟩⟩

/-- Before the window is known a push is free; after that it is in order. -/
theorem TaskValid.push (h : TaskValid P b cursor wire sub task) (pushes : b.Pushes rows b')
    (order : ∀ through ∈ task.window, InOrder P b' through rows) :
    TaskValid P b' cursor wire (pushedTo textLen sub rows) task := by
  cases task with
  | welcomed =>
    obtain ⟨quiet, none, empty⟩ := h
    rw [pushedTo_none none]
    exact ⟨quiet, none, empty⟩
  | ended => exact h
  | streaming through => exact Carries.push h pushes (order through rfl)
  | holding through frame => exact Carries.push h pushes (order through rfl)
  | replaying after parsed stage =>
    obtain ⟨quiet, ha, hp, same, hs⟩ := h
    refine ⟨quiet, ha, hp, same, ?_⟩
    cases stage with
    | registered => trivial
    | floorLoaded floor => exact hs.push pushes
    | headLoaded floor head =>
      obtain ⟨floorSafe, bound, flows⟩ := hs
      have pushed := flows.push textLen pushes (order head rfl)
      rw [← offeredTo_same same] at pushed
      exact ⟨floorSafe.push pushes, pushes.head.symm ▸ bound, pushed⟩

theorem queued_push (h : Rows b (queued sub.queue)) (batch : ∀ row ∈ rows, b.committed row ∧
    row.seq ≤ b.head) : Rows b (queued (pushedTo textLen sub rows).queue) := by
  intro e he
  obtain ⟨frame, hframe, eq⟩ := List.mem_map.mp he
  have sublist := (@OutboundQueue.pushEvents_spec textLen sub.queue
    ((SubscriberRegistry.offeredTo sub rows).map .event)).2.2
  obtain old | new := List.mem_append.mp (sublist.subset hframe)
  · exact h e (eq ▸ List.mem_map_of_mem old)
  · obtain ⟨msg, hmsg, rfl⟩ := List.mem_map.mp new
    obtain ⟨row, hrow, rfl⟩ := List.mem_map.mp hmsg
    cases eq
    exact batch _ (List.mem_filter.mp hrow).1

theorem ClientValid.push (h : ClientValid P c0 b client) (pushes : b.Pushes rows b') :
    ClientValid P c0 b' client :=
  ⟨fun e he => ⟨(pushes.committed e).mpr (h.handled e he).1, (h.handled e he).2⟩, h.seen,
    pushes.head.symm ▸ h.cursor, fun row hc => h.sound row ((pushes.committed row).mp hc)⟩

theorem push_valid (hv : Valid P c0 s) {i : Nat} (order : PushesInOrder P s (.plane (.push i)))
    (hs : s.plane.step cfg.valueLen cfg.textLen (.push i) = some p) :
    Valid P c0 { s with plane := p } := by
  obtain ⟨⟨shared, low, last, plane⟩, ids, client, session⟩ := hv
  obtain ⟨rows, hp, rfl⟩ := Plane.push_step hs
  have pushes := @Plane.push_book cfg.textLen s.plane i rows hp
  have pending : rows ∈ s.plane.pending := List.mem_of_getElem? hp
  refine ⟨⟨shared, low, last, Plane.push_valid plane i rows⟩, ?_, client.push pushes, ?_⟩
  · exact fun r r' hr hr' => ids r r' ((pushes.committed r).mp hr) ((pushes.committed r').mp hr')
  · intro x hx
    obtain ⟨wire, task⟩ := session x hx
    refine ⟨wire.push pushes, ?_⟩
    obtain ⟨ended, gapless⟩ | ⟨sub, attached⟩ := task
    · exact .inl ⟨ended, by rw [wanted_push pushes]; exact gapless⟩
    · refine .inr ⟨pushedTo cfg.textLen sub rows, attached.registered,
        SubscriberRegistry.deliver_entry attached.entry rows, ?_, attached.held.push pushes, ?_⟩
      · refine Rows.push (queued_push attached.queued fun row hr => ?_) pushes
        have unpushed : s.plane.Unpushed row := .inr ⟨rows, pending, hr⟩
        exact ⟨(plane.committed_iff row).mpr (plane.unpushed row unpushed),
          Nat.le_trans (plane.pending rows pending row hr) (Nat.le_of_eq plane.head_eq.symm)⟩
      · refine attached.task.push pushes fun through hw => ⟨?_, ?_⟩
        · exact plane.ascending rows (List.mem_cons_of_mem _ pending)
        · intro row hr hm later unpushed matched above
          have window : through ∈ s.session.bind fun x => x.task.window := by
            rw [hx]; exact hw
          refine order through window row ?_ later ?_ above
          · rw [hp]; exact List.mem_filter.mpr ⟨hr, hm⟩
          · exact List.mem_filter.mpr ⟨Plane.mem_unpushedRows.mpr unpushed, matched⟩

/-! ## Other connections -/

/-- Whatever keeps the log and the session's entry keeps the invariant. -/
theorem Valid.setRegistry (hv : Valid P c0 s) {r : SubscriberRegistry}
    (delivery : r.delivery = s.plane.registry.delivery)
    (kept : ∀ x, s.session = some x → x.task ≠ .ended →
      r.subscribers.get? x.conn = s.plane.registry.subscribers.get? x.conn ∧
        x.conn < r.nextId) : Valid P c0 (s.setRegistry r) := by
  obtain ⟨⟨shared, low, last, plane⟩, ids, client, session⟩ := hv
  have book := s.plane.book_of_delivery delivery
  refine ⟨⟨shared, low, last, plane.of_delivery delivery⟩, ?_, ?_, fun x hx => ?_⟩
  · exact book.symm ▸ ids
  · exact book.symm ▸ client
  · obtain ⟨wire, task⟩ := session x hx
    refine ⟨book.symm ▸ wire, ?_⟩
    obtain ⟨ended, gapless⟩ | ⟨sub, attached⟩ := task
    · exact .inl ⟨ended, book.symm ▸ gapless⟩
    · have running : x.task ≠ .ended := by
        intro ended
        have := attached.task
        rw [ended] at this
        exact this
      obtain ⟨entry, registered⟩ := kept x hx running
      exact .inr ⟨sub, registered, entry.trans attached.entry, book.symm ▸ attached.queued,
        book.symm ▸ attached.held, book.symm ▸ attached.task⟩

end Whdr.Network
