import Whdr.Delivery.Invariant

/-! The steps of a session keep the invariant: the connection task loading, streaming
and ending, and the client reading. -/
namespace Whdr.Network

open CursorStream SubscriberWs
open Plane (Book)

variable {cfg : Config} {P : List Pattern} {c0 cursor through : Nat} {b b' : Book}
  {p p' : Plane} {s t : State} {x : Session} {sub : Subscriber} {task : Task}
  {rows : List StampedEvent} {wire frames : List SubServerMsg} {client : Client}

/-! ## The connection task -/

/-- A step of the session's own task, with its change to the registry. -/
theorem Valid.setSession (hv : Valid P c0 s) {r : SubscriberRegistry}
    (delivery : r.delivery = s.plane.registry.delivery)
    (session : SessionValid P { s.plane with registry := r } s.client.resume.cursor x) :
    Valid P c0 ((s.setRegistry r).setSession x) := by
  obtain ⟨⟨shared, low, last, plane⟩, ids, client, _⟩ := hv
  have book := s.plane.book_of_delivery delivery
  refine ⟨⟨shared, low, last, plane.of_delivery delivery⟩, ?_, ?_, ?_⟩
  · exact book.symm ▸ ids
  · exact book.symm ▸ client
  · intro y hy
    cases hy
    exact session

theorem TaskValid.gapless_wire (h : TaskValid P b cursor wire sub task) :
    Gapless (Wanted P b) cursor (marks wire) := by
  cases task with
  | welcomed => rw [h.1]; trivial
  | replaying after parsed stage => rw [h.1]; trivial
  | streaming through => exact stream_gapless_front h.gapless
  | holding through frame => exact stream_gapless_front h.gapless
  | ended => exact absurd h id

/-- The task ends: its entry goes, the wire stays. -/
theorem Valid.endTask (hv : Valid P c0 s) (within : Rows s.plane.book wire)
    (gapless : Gapless (Wanted P s.plane.book) s.client.resume.cursor (marks wire)) :
    Valid P c0 (s.endTask x wire) :=
  hv.setSession rfl ⟨within, .inl ⟨rfl, gapless⟩⟩

theorem connect_valid (hv : Valid P c0 s) (hs : step cfg s .connect = some t) : Valid P c0 t := by
  simp only [step] at hs
  split at hs
  · cases hs
  · split at hs
    · cases hs
    · cases hs
      have quiet : ∀ b, Rows b [.welcome cfg.name] := by
        intro b e he
        simp at he
      exact hv.setSession rfl ⟨quiet _, .inr ⟨_, Nat.lt_succ_self _,
        OrdMap.get?_insert_self _ _ _, nofun, nofun, rfl, rfl, rfl⟩⟩

theorem attached_of_running (hv : Valid P c0 s) (hx : s.session = some x)
    (running : x.task ≠ .ended) : ∃ sub, Attached P s.plane s.client.resume.cursor x sub := by
  obtain ⟨ended, _⟩ | attached := (hv.session x hx).task
  · exact absurd ended running
  · exact attached

theorem same_addPatterns (none : sub.patterns = []) :
    Same P { sub with patterns := SubscriberRegistry.addPatterns sub.patterns P } := by
  intro channel
  have mem : ∀ q, q ∈ SubscriberRegistry.addPatterns sub.patterns P ↔ q ∈ P := by
    intro q
    rw [SubscriberRegistry.mem_addPatterns, none]
    simp
  rw [Bool.eq_iff_iff]
  exact ⟨anyMatches_mono fun q hq => (mem q).mp hq, anyMatches_mono fun q hq => (mem q).mpr hq⟩

theorem subscribe_valid (hv : Valid (requested cfg.patterns) c0 s) (hx : s.session = some x)
    (hs : sessionStep cfg s x .subscribe = some t) : Valid (requested cfg.patterns) c0 t := by
  obtain ⟨shared, low, last, plane⟩ := hv.plane
  simp only [sessionStep] at hs
  split at hs
  · rename_i welcomed
    obtain ⟨sub, attached⟩ := attached_of_running hv hx (by simp [welcomed])
    have wire := (hv.session x hx).wire
    have task := attached.task
    rw [welcomed] at task
    obtain ⟨quiet, none, empty⟩ := task
    obtain ok | ⟨msg, refused⟩ := handle_subscribe s.plane.registry plane.delivery x.conn
      s.client.resume.cursor cfg.patterns
    · simp only [ok] at hs
      cases hs
      have same := SubscriberRegistry.modify_same s.plane.registry x.conn fun sub => { sub with
        patterns := SubscriberRegistry.addPatterns sub.patterns (requested cfg.patterns) }
      have book := s.plane.book_of_delivery same.1
      refine hv.setSession same.1 ⟨book.symm ▸ wire, .inr ⟨_, same.2 ▸ attached.registered,
        SubscriberRegistry.get?_modify_self attached.entry _, book.symm ▸ attached.queued,
        by rintro _ ⟨⟩, quiet, rfl, rfl, same_addPatterns none, trivial⟩⟩
    · simp only [refused] at hs
      cases hs
      have same := SubscriberRegistry.modify_same s.plane.registry x.conn fun sub => { sub with
        queue := sub.queue.pushControl (.error "subscribe" msg) }
      have book := s.plane.book_of_delivery same.1
      have still : marks (stream x.wire [] (sub.queue.pushControl (.error "subscribe" msg))) = [] := by
        simp only [stream, marks_append, List.append_eq_nil_iff] at empty ⊢
        refine ⟨⟨⟨quiet, empty.1.1.2⟩, rfl⟩, ?_⟩
        simp only [queued, OutboundQueue.pushControl, List.map_append, marks_append,
          List.append_eq_nil_iff]
        exact ⟨empty.2, rfl⟩
      refine hv.setSession same.1 ⟨book.symm ▸ wire, .inr ⟨_, same.2 ▸ attached.registered,
        SubscriberRegistry.get?_modify_self attached.entry _, ?_, by rintro _ ⟨⟩, Nat.zero_le _, ?_,
        .inl none⟩⟩
      · intro e he
        simp only [queued, OutboundQueue.pushControl, List.map_append, List.mem_append,
          List.map_cons, List.map_nil, List.mem_singleton, reduceCtorEq, or_false] at he
        exact (book.symm ▸ attached.queued) e he
      · rw [still]
        trivial
  · cases hs

theorem loadFloor_valid (hv : Valid P c0 s) (hx : s.session = some x)
    (hs : sessionStep cfg s x .loadFloor = some t) : Valid P c0 t := by
  obtain ⟨shared, low, last, plane⟩ := hv.plane
  simp only [sessionStep, plane.delivery] at hs
  split at hs
  · rename_i after parsed shared' task hd
    cases hd
    cases hs
    obtain ⟨sub, attached⟩ := attached_of_running hv hx (by simp [task])
    have valid := attached.task
    rw [task] at valid
    obtain ⟨quiet, ha, hp, same, _⟩ := valid
    exact hv.setSession rfl ⟨(hv.session x hx).wire, .inr ⟨sub, attached.registered, attached.entry,
      attached.queued, nofun, quiet, ha, hp, same, plane.floorSafe⟩⟩
  · cases hs

theorem loadHead_valid (hv : Valid P c0 s) (hx : s.session = some x)
    (hs : sessionStep cfg s x .loadHead = some t) : Valid P c0 t := by
  obtain ⟨shared, low, last, plane⟩ := hv.plane
  simp only [sessionStep, plane.delivery] at hs
  split at hs
  · rename_i after parsed floor shared' task hd
    cases hd
    cases hs
    obtain ⟨sub, attached⟩ := attached_of_running hv hx (by simp [task])
    have valid := attached.task
    rw [task] at valid
    obtain ⟨quiet, ha, hp, same, floorSafe⟩ := valid
    have head : s.plane.book.head = shared.head := plane.head_eq
    have flows := @flows_of_head P s.plane.book sub.queue attached.queued fun row hc above =>
      .inl (plane.above_head hc above)
    rw [head] at flows
    exact hv.setSession rfl ⟨(hv.session x hx).wire, .inr ⟨sub, attached.registered, attached.entry,
      attached.queued, nofun, quiet, ha, hp, same, floorSafe, Nat.le_of_eq head.symm, flows⟩⟩
  · cases hs

theorem readRows_valid (hv : Valid P c0 s) (hx : s.session = some x)
    (hs : sessionStep cfg s x .readRows = some t) : Valid P c0 t := by
  obtain ⟨shared, low, last, plane⟩ := hv.plane
  simp only [sessionStep, plane.delivery] at hs
  split at hs
  · rename_i after parsed floor head shared' task hd
    cases hd
    obtain ⟨sub, attached⟩ := attached_of_running hv hx (by simp [task])
    have valid := attached.task
    rw [task] at valid
    obtain ⟨quiet, rfl, rfl, same, floorSafe, bound, flows⟩ := valid
    have wire := (hv.session x hx).wire
    split at hs
    · rename_i frames hf
      cases hs
      have replay := flows.replay hf plane.committed_iff floorSafe quiet
      refine hv.setSession rfl ⟨?_, .inr ⟨sub, attached.registered, attached.entry,
        attached.queued, nofun, bound, replay.gapless, .inr ⟨same, replay.complete⟩⟩⟩
      intro e he
      obtain old | new := List.mem_append.mp he
      · exact wire e old
      · obtain ⟨mem, le, _⟩ := replayed_row hf (mem_eventsOf.mpr new)
        exact ⟨(plane.committed_iff e).mpr mem, Nat.le_trans le bound⟩
    · cases hs
      exact hv.setSession rfl ⟨wire, .inl ⟨rfl, by rw [quiet]; trivial⟩⟩
  · cases hs

theorem popFrame_valid (hv : Valid P c0 s) (hx : s.session = some x)
    (hs : sessionStep cfg s x .popFrame = some t) : Valid P c0 t := by
  simp only [sessionStep] at hs
  split at hs
  · rename_i through task
    obtain ⟨sub, attached⟩ := attached_of_running hv hx (by simp [task])
    have valid := attached.task
    rw [task] at valid
    obtain ⟨⟨frame, r⟩, hr, rfl⟩ := Option.map_eq_some_iff.mp hs
    obtain ⟨queue, inner, lag, rfl⟩ := SubscriberRegistry.popFrame_spec attached.entry hr
    have within : Rows s.plane.book (frame.msg :: queued queue) := by
      intro e he
      exact attached.queued e (by simpa [queued, inner] using he)
    have same := @stream_pop x.wire frame sub.queue queue inner lag
    refine hv.setSession rfl ⟨(hv.session x hx).wire, .inr ⟨_, attached.registered,
      OrdMap.get?_insert_self _ _ _, ?_, ?_, valid.bound, ?_, ?_⟩⟩
    · exact fun e he => within e (List.mem_cons_of_mem _ he)
    · exact fun e he => within e (List.mem_singleton.mp he ▸ List.mem_cons_self)
    · rw [same]
      exact valid.gapless
    · rw [same]
      exact valid.complete
  · cases hs

theorem sendFrame_valid (hv : Valid P c0 s) (hx : s.session = some x)
    (hs : sessionStep cfg s x .sendFrame = some t) : Valid P c0 t := by
  simp only [sessionStep] at hs
  split at hs
  · rename_i through frame found task entry
    obtain ⟨sub, attached⟩ := attached_of_running hv hx (by simp [task])
    have same : sub = found := Option.some.inj (attached.entry.symm.trans entry)
    subst same
    have valid := attached.task
    have held := attached.held
    rw [task] at valid held
    have within : Rows s.plane.book (x.wire ++ sent sub.queue.takePendingLag.1 frame) := by
      intro e he
      obtain old | new := List.mem_append.mp he
      · exact (hv.session x hx).wire e old
      · obtain lag | last := List.mem_append.mp new
        · split at lag
          · simp at lag
          · cases lag
        · exact held e last
    have gapless := valid.gapless
    rw [← stream_send] at gapless
    have same := SubscriberRegistry.modify_same s.plane.registry x.conn fun sub' =>
      { sub' with queue := sub.queue.takePendingLag.2 }
    have book := s.plane.book_of_delivery same.1
    split at hs
    · cases hs
      refine hv.setSession same.1 ⟨?_, .inl ⟨rfl, ?_⟩⟩
      · exact book.symm ▸ within
      · exact book.symm ▸ stream_gapless_front gapless
    · cases hs
      have complete := valid.complete
      rw [← stream_send] at complete
      refine hv.setSession same.1 ⟨book.symm ▸ within, .inr ⟨_, same.2 ▸ attached.registered,
        SubscriberRegistry.get?_modify_self attached.entry _, ?_, nofun, ?_⟩⟩
      · exact book.symm ▸ attached.queued
      · exact book.symm ▸ ⟨valid.bound, gapless, complete⟩
  · cases hs

theorem close_valid (hv : Valid P c0 s) (hx : s.session = some x) {reason : ClosingReason}
    (hs : sessionStep cfg s x (.close reason) = some t) : Valid P c0 t := by
  have ends : x.task ≠ .ended → Valid P c0 (s.endTask x (x.wire ++ [.closing reason])) := by
    intro running
    obtain ⟨sub, attached⟩ := attached_of_running hv hx running
    refine hv.endTask ?_ ?_
    · intro e he
      simp only [List.mem_append, List.mem_singleton, reduceCtorEq, or_false] at he
      exact (hv.session x hx).wire e he
    · simpa [marks] using attached.task.gapless_wire
  simp only [sessionStep] at hs
  split at hs
  · rename_i task
    cases hs
    exact ends (by simp [task])
  · rename_i task
    cases hs
    exact ends (by simp [task])
  · cases hs

theorem dropConnection_valid (hv : Valid P c0 s) (hx : s.session = some x)
    (hs : sessionStep cfg s x .dropConnection = some t) : Valid P c0 t := by
  simp only [sessionStep] at hs
  split at hs
  · cases hs
  · rename_i running
    cases hs
    obtain ⟨sub, attached⟩ := attached_of_running hv hx running
    exact hv.endTask (hv.session x hx).wire attached.task.gapless_wire

/-! ## The client -/

/-- An event that takes the cursor past nothing wanted is handled, unless the cursor
is past it. -/
theorem handle_valid (h : ClientValid P c0 b client) (ids : UniqueIds b)
    (seqs : ∀ r r', b.committed r → b.committed r' → r.seq = r'.seq → r = r')
    {e : StampedEvent} (committed : b.committed e) (le : e.seq ≤ b.head)
    (next : ∀ k, Wanted P b k → client.resume.cursor < k → e.seq ≤ k) :
    ClientValid P c0 b (client.handle e) ∧
      (client.handle e).resume.cursor = max client.resume.cursor e.seq := by
  by_cases old : e.seq ≤ client.resume.cursor
  · have same : client.handle e = client := by
      simp [Client.handle, ResumeState.shouldProcess, Nat.not_lt.mpr old]
    rw [same]
    exact ⟨h, by omega⟩
  · have unseen : e.id ∉ client.resume.seen := by
      intro mem
      obtain ⟨e', he', eq⟩ := h.seen e.id mem
      obtain ⟨committed', le'⟩ := h.handled e' he'
      have same := ids e' e committed' committed eq
      rw [same] at le'
      exact old le'
    have lt : client.resume.cursor < e.seq := by omega
    have new : client.handle e =
        ⟨client.resume.record e.id e.seq, client.handled ++ [e]⟩ := by
      simp [Client.handle, ResumeState.shouldProcess, lt, unseen]
    have cursor := client.resume.record_cursor e.id e.seq
    rw [new]
    refine ⟨⟨?_, ?_, ?_, ?_⟩, cursor⟩
    · intro r hr
      simp only [cursor]
      obtain hr | hr := List.mem_append.mp hr
      · obtain ⟨hc, hle⟩ := h.handled r hr
        exact ⟨hc, by omega⟩
      · obtain rfl := List.mem_singleton.mp hr
        exact ⟨committed, by omega⟩
    · intro id hid
      obtain rfl | hid := ResumeState.seen_record hid
      · exact ⟨e, List.mem_append_right _ (List.mem_singleton.mpr rfl), rfl⟩
      · obtain ⟨r, hr, eq⟩ := h.seen id hid
        exact ⟨r, List.mem_append_left _ hr, eq⟩
    · simp only [cursor]
      exact .inr (by omega)
    · intro row hc lo hi hm
      simp only [cursor] at hi
      by_cases before : row.seq ≤ client.resume.cursor
      · exact List.mem_append_left _ (h.sound row hc lo before hm)
      · have above := next row.seq ⟨row, hc, hm, rfl⟩ (by omega)
        have same := seqs row e hc committed (by omega)
        exact List.mem_append_right _ (List.mem_singleton.mpr same)

/-- The frame read takes the cursor where its mark says. -/
theorem onFrame_valid (h : ClientValid P c0 b client) (ids : UniqueIds b)
    (seqs : ∀ r r', b.committed r → b.committed r' → r.seq = r'.seq → r = r')
    {msg : SubServerMsg} {rest : List SubServerMsg} (within : Rows b (msg :: rest))
    (gapless : Gapless (Wanted P b) client.resume.cursor (marks (msg :: rest))) :
    ClientValid P c0 b (client.onFrame msg).1 ∧
      (client.onFrame msg).1.resume.cursor = reach client.resume.cursor (marks [msg]) := by
  cases msg with
  | event e =>
    obtain ⟨committed, le⟩ := within e List.mem_cons_self
    exact handle_valid h ids seqs committed le gapless.1
  | _ => exact ⟨h, rfl⟩

theorem marks_cons (msg : SubServerMsg) (rest : List SubServerMsg) :
    marks (msg :: rest) = marks [msg] ++ marks rest := marks_append [msg] rest

theorem Carries.receive {msg : SubServerMsg} {frames : List SubServerMsg}
    (h : Carries P b cursor through sub (msg :: frames)) (more : .cut ∉ marks [msg]) :
    Carries P b (reach cursor (marks [msg])) through sub frames := by
  have gapless := h.gapless
  have complete := h.complete
  rw [marks_cons] at gapless complete
  refine ⟨h.bound, ?_, ?_⟩
  · obtain ⟨_, cut | rest⟩ := gapless_append.mp gapless
    · exact absurd cut more
    · exact rest
  · obtain none | ⟨same, complete⟩ := complete
    · exact .inl none
    · refine .inr ⟨same, fun k hk => ?_⟩
      obtain reached | owed | cut := complete k hk
      · exact .inl (reach_append ▸ reached)
      · exact .inr (.inl owed)
      · obtain cut | cut := List.mem_append.mp cut
        · exact absurd cut more
        · exact .inr (.inr cut)

theorem TaskValid.receive {msg : SubServerMsg} (h : TaskValid P b cursor (msg :: wire) sub task)
    (more : .cut ∉ marks [msg]) :
    TaskValid P b (reach cursor (marks [msg])) wire sub task := by
  have silent : marks (msg :: wire) = [] → marks [msg] = [] ∧ marks wire = [] := by
    intro quiet
    rw [marks_cons] at quiet
    exact List.append_eq_nil_iff.mp quiet
  cases task with
  | welcomed =>
    obtain ⟨quiet, rest⟩ := h
    exact ⟨(silent quiet).2, rest⟩
  | replaying after parsed stage =>
    obtain ⟨quiet, rest⟩ := h
    obtain ⟨first, quiet⟩ := silent quiet
    rw [first]
    exact ⟨quiet, rest⟩
  | streaming through => exact Carries.receive h more
  | holding through frame => exact Carries.receive h more
  | ended => exact h

theorem SessionValid.receive {msg : SubServerMsg} (h : SessionValid P p cursor x)
    (hw : x.wire = msg :: wire) (more : .cut ∉ marks [msg]) :
    SessionValid P p (reach cursor (marks [msg])) { x with wire := wire } := by
  obtain ⟨within, task⟩ := h
  rw [hw] at within task
  refine ⟨fun e he => within e (List.mem_cons_of_mem _ he), ?_⟩
  obtain ⟨ended, gapless⟩ | ⟨sub, attached⟩ := task
  · rw [marks_cons] at gapless
    obtain ⟨_, cut | rest⟩ := gapless_append.mp gapless
    · exact absurd cut more
    · exact .inl ⟨ended, rest⟩
  · have valid := attached.task
    rw [hw] at valid
    exact .inr ⟨sub, attached.registered, attached.entry, attached.queued, attached.held,
      valid.receive more⟩

theorem SessionValid.gapless_wire (h : SessionValid P p cursor x) :
    Gapless (Wanted P p.book) cursor (marks x.wire) := by
  obtain ⟨_, gapless⟩ | ⟨sub, attached⟩ := h.task
  · exact gapless
  · exact attached.task.gapless_wire

/-- Only a `lagged` frame is a cut, and it makes the client reconnect. -/
theorem no_cut_of_more {msg : SubServerMsg} (more : (client.onFrame msg).2 = .more) :
    .cut ∉ marks [msg] := by
  cases msg with
  | lagged dropped => cases more
  | _ => simp [marks]

theorem receive_valid (hv : Valid P c0 s) (hx : s.session = some x) {msg : SubServerMsg}
    {rest : List SubServerMsg} (hw : x.wire = msg :: rest) :
    Valid P c0 (receive s x msg rest) := by
  have session := hv.session x hx
  have gapless := session.gapless_wire
  have within := session.wire
  rw [hw] at gapless within
  obtain ⟨client, cursor⟩ := onFrame_valid hv.client hv.ids
    (fun _ _ h h' eq => Plane.Committed.unique h h' eq) within gapless
  have cut := @no_cut_of_more s.client msg
  rcases hf : s.client.onFrame msg with ⟨client', after⟩
  simp only [hf] at client cursor cut
  simp only [receive, hf]
  cases after with
  | reconnect => exact ⟨hv.plane, hv.ids, client, nofun⟩
  | stop => exact ⟨hv.plane, hv.ids, client, nofun⟩
  | more =>
    refine ⟨hv.plane, hv.ids, client, fun y hy => ?_⟩
    cases hy
    change SessionValid P s.plane client'.resume.cursor _
    rw [cursor]
    exact session.receive hw (cut rfl)

end Whdr.Network
