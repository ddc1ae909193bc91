import Whdr.Delivery.KitAccount

/-! No kit loses an event or handles one twice, over any number of its processes: the
history of a kit is that of one client of the network that never stops. -/
namespace Whdr.KitNetwork

open Kits
open Network (OneLifetime PushesInOrder Serves)
open Runs (Reaches)
open Sessions (Flow Reads)
open SubscriberWs (requested)

variable {u : Setup} {H : u.process.Resume → Window → Prop} {s t : State u.process.Resume}
  {n m : Network.State} {x : Link}

abbrev Setup.window (u : Setup) : Nat := Kits.window u.capacity u.kit

/-! ## The invariant -/

/-- Before the opening frame is read nothing was asked for, and until the server reads it
the subscribe frame has the present cursor. -/
structure LinkValid (u : Setup) (cursor : Nat) (x : Link) : Prop where
  unopened : x.opened = false → x.up = [] ∧ (x.server.task = .welcomed ∨ x.server.task = .ended) ∧
    ∃ rest, x.server.wire = .welcome u.net.name :: rest
  asked : x.server.task = .welcomed → ∀ text ∈ x.up,
    text = u.print (u.kit.frame u.net.patterns (some cursor))

/-- A client of the network that has handled what the kit has, and that a process of the
kit, if there is one, follows. -/
structure Matches (H : u.process.Resume → Window → Prop) (s : State u.process.Resume)
    (n : Network.State) : Prop where
  plane : n.plane = s.plane
  session : n.session = s.link.map Link.server
  running : n.stopped = false
  small : n.client.resume.cursor < 2 ^ 53
  loop : ∀ loop, s.loop = some loop →
    ∃ w, H loop.resume w ∧ RustHolds u.window n.client.resume w
  link : ∀ x, s.link = some x → LinkValid u n.client.resume.cursor x
  recorded : Recorded u.cursor n s.history

def Inv (H : u.process.Resume → Window → Prop) (s : State u.process.Resume) : Prop :=
  ∃ n, Network.Valid (requested u.net.patterns) u.cursor n ∧ Matches H s n

theorem starts_inv (correct : u.Correct) (h : Starts u s) : Inv H s := by
  obtain ⟨shared, opened, distinct, rfl⟩ := h
  have network : Network.Starts u.net u.cursor
      ⟨⟨.withDelivery shared, .idle, []⟩, none, ⟨.new u.cursor 1, []⟩, false, []⟩ :=
    ⟨shared, 1, opened, distinct, rfl⟩
  refine ⟨_, Network.starts_valid network, rfl, rfl, rfl, correct.cursor, by rintro _ ⟨⟩,
    by rintro _ ⟨⟩, rfl, rfl, by rintro _ ⟨⟩, .nil, ?_⟩
  intro before ev after none
  exact absurd none.symm (List.append_ne_nil_of_right_ne_nil _ (List.cons_ne_nil _ _))

theorem Matches.net (h : Matches H s n) : n = s.net.withClient n := by
  obtain ⟨plane, session, client, stopped, received⟩ := n
  obtain ⟨rfl, rfl, _⟩ := h
  rfl

theorem Recorded.keep {cursor : Nat} {acts : List Act} (h : Recorded cursor n acts)
    (client : m.client = n.client)
    (committed : ∀ row, n.plane.Committed row → m.plane.Committed row) : Recorded cursor m acts where
  reached := client ▸ h.reached
  handled := client ▸ h.handled
  below := h.below
  once := h.once
  calls before ev after same := by
    obtain ⟨above, row, old, isRow⟩ := h.calls before ev after same
    exact ⟨above, row, committed row old, isRow⟩

theorem committed_of_delivery {p q : Plane} (same : q.registry.delivery = p.registry.delivery)
    (row : StampedEvent) (committed : p.Committed row) : q.Committed row := by
  obtain ⟨shared, log, found⟩ := committed
  exact ⟨shared, same ▸ log, found⟩

/-! ## The server -/

theorem LinkValid.serves {cursor : Nat} (h : LinkValid u cursor x) {y : Network.Session}
    (serves : Serves x.server y) : LinkValid u cursor { x with server := y } := by
  obtain ⟨⟨more, behind⟩, task⟩ := serves
  constructor
  · intro unopened
    obtain ⟨none, early, rest, first⟩ := h.unopened unopened
    refine ⟨none, ?_, rest ++ more, ?_⟩
    · obtain ended | ⟨started, going, _⟩ := task
      · exact .inr ended
      · obtain welcomed | ended := early
        · exact absurd welcomed started
        · exact absurd ended going
    · dsimp only
      rw [behind, first]
      rfl
  · intro welcomed
    obtain ended | ⟨_, _, started⟩ := task
    · exact absurd (ended.symm.trans welcomed) (by rintro ⟨⟩)
    · exact absurd welcomed started

theorem server_inv {a : Network.Action} (hv : Network.Valid (requested u.net.patterns) u.cursor n)
    (h : Matches H s n) (allowed : Allowed u s (.server a)) (hs : step u s (.server a) = some t) :
    Inv H t := by
  simp only [step] at hs
  split at hs
  · rename_i side
    obtain ⟨o, ho, rfl⟩ := Option.map_eq_some_iff.mp hs
    -- the same step with the client of the invariant
    have taken : Network.step u.net n a = some (o.withClient n) := by
      rw [h.net, Network.step_withClient side, ho]
      rfl
    have lifetime : OneLifetime n a := by
      rw [h.net]
      exact allowed.1
    have order : PushesInOrder (requested u.net.patterns) n a := by
      rw [h.net]
      exact allowed.2
    have valid := Network.step_valid hv lifetime order taken
    obtain ⟨_, session⟩ := Network.served_session side ho
    refine ⟨_, valid, rfl, ?_, h.running, h.small, h.loop, ?_, ?_⟩
    · simp only [State.serve, Network.State.withClient]
      obtain same | ⟨x, y, hx, hy, _⟩ := session
      · simp only [same, State.net]
        cases s.link <;> rfl
      · obtain ⟨link, hl, rfl⟩ := Option.map_eq_some_iff.mp hx
        simp only [hl, hy]
        rfl
    · intro y hy
      simp only [State.serve] at hy
      obtain same | ⟨_, z, hx, hz, serves⟩ := session
      · rw [same] at hy
        cases hl : s.link with
        | none => simp [State.net, hl] at hy
        | some x =>
          simp only [State.net, hl, Option.map_some] at hy
          cases hy
          exact h.link x hl
      · obtain ⟨x, hl, rfl⟩ := Option.map_eq_some_iff.mp hx
        simp only [hl, hz] at hy
        cases hy
        exact (h.link x hl).serves serves
    · exact h.recorded.keep rfl fun row =>
        Network.served_committed hv side lifetime taken
  · cases hs

/-- What the server reads is the kit's subscribe frame with the client's cursor, or nothing. -/
theorem readUp_inv (correct : u.Correct)
    (hv : Network.Valid (requested u.net.patterns) u.cursor n) (h : Matches H s n)
    (hs : step u s .readUp = some t) : Inv H t := by
  simp only [step] at hs
  split at hs
  · rename_i x hx
    split at hs
    · rename_i text rest welcomed sent
      cases hs
      have session : n.session = some x.server := by rw [h.session, hx]; rfl
      have link := h.link x hx
      have isFrame := link.asked welcomed text (sent ▸ List.mem_cons_self)
      have opened : x.opened = true := by
        cases unopened : x.opened with
        | true => rfl
        | false => exact absurd ((link.unopened unopened).1.symm.trans sent) (List.cons_ne_nil _ _).symm
      obtain ⟨understood, rejected⟩ := SubscribeFrames.subscribe_understood_iff u.read
        (fun _ => u.print) (fun _ => correct.up) u.kit u.net.patterns
        (some n.client.resume.cursor) (by rintro _ ⟨⟩; exact h.small)
      rw [← isFrame] at understood rejected
      by_cases lost : u.kit = .go ∧ u.net.patterns = []
      · have taken : Network.sessionStep u.net n x.server .dropConnection =
            some (n.endTask x.server x.server.wire) := by
          simp only [Network.sessionStep, welcomed]
        refine ⟨_, Network.dropConnection_valid hv session taken, ?_⟩
        simp only [readUp, rejected.mpr lost]
        refine ⟨by rw [← h.plane]; rfl, rfl, h.running, h.small, h.loop, ?_,
          h.recorded.keep rfl (committed_of_delivery rfl)⟩
        rintro y ⟨⟩
        exact ⟨fun closed => absurd (closed.symm.trans opened) Bool.false_ne_true, fun ended => by cases ended⟩
      · have got := understood.mpr fun go empty => lost ⟨go, empty⟩
        have taken : ∃ m, Network.sessionStep u.net n x.server .subscribe = some m ∧
            Matches H (readUp u s x text rest) m := by
          simp only [Network.sessionStep, welcomed, readUp, got, Option.map_some, ← h.plane]
          obtain ⟨shared, low, last, plane⟩ := hv.plane
          obtain ok | ⟨msg, refused⟩ := SubscriberWs.handle_subscribe n.plane.registry plane.delivery
            x.server.conn n.client.resume.cursor u.net.patterns
          · simp only [ok]
            refine ⟨_, rfl, rfl, rfl, h.running, h.small, h.loop, ?_, h.recorded.keep rfl
              (committed_of_delivery (SubscriberRegistry.modify_same ..).1)⟩
            rintro y ⟨⟩
            exact ⟨fun closed => absurd (closed.symm.trans opened) Bool.false_ne_true,
              fun replaying => by cases replaying⟩
          · simp only [refused]
            refine ⟨_, rfl, rfl, rfl, h.running, h.small, h.loop, ?_, h.recorded.keep rfl
              (committed_of_delivery (SubscriberRegistry.modify_same ..).1)⟩
            rintro y ⟨⟩
            exact ⟨fun closed => absurd (closed.symm.trans opened) Bool.false_ne_true,
              fun streaming => by cases streaming⟩
        obtain ⟨m, taken, kept⟩ := taken
        exact ⟨m, Network.subscribe_valid hv session taken, kept⟩
    · cases hs
  · cases hs

/-! ## Processes and connections -/

section

variable (lawful : Lawful u.process u.library u.window H)

include lawful in
theorem start_inv (hv : Network.Valid (requested u.net.patterns) u.cursor n) (h : Matches H s n)
    (hs : step u s .start = some t) : Inv H t := by
  simp only [step] at hs
  split at hs
  · cases hs
  · rename_i none
    cases hs
    have history : s.history = s.past := by
      rw [State.history, none]
      exact List.append_nil _
    have cursor : stored u.cursor s.past = n.client.resume.cursor := by
      rw [← history, h.recorded.reached]
    have start := lawful.starts n.client.resume.cursor
    refine ⟨_, hv.again u.window, h.plane, h.session, h.running, h.small, ?_, h.link, ?_⟩
    · rintro loop ⟨⟩
      rw [cursor]
      exact ⟨_, start.resume, resume_start (window_pos u.capacity u.kit) _⟩
    · have same : State.history { s with loop := some (u.process.start (stored u.cursor s.past)) } =
          s.history := by
        rw [history, State.history, cursor]
        exact (congrArg _ start.acts).trans (List.append_nil _)
      rw [same]
      exact ⟨h.recorded.reached, h.recorded.handled, h.recorded.below, h.recorded.once,
        h.recorded.calls⟩

theorem connect_inv (hv : Network.Valid (requested u.net.patterns) u.cursor n) (h : Matches H s n)
    (hs : step u s .connect = some t) : Inv H t := by
  simp only [step] at hs
  split at hs
  · rename_i loop running unlinked
    obtain ⟨m, connected, rfl⟩ := Option.map_eq_some_iff.mp hs
    have taken : Network.step u.net n .connect = some (m.withClient n) := by
      rw [h.net, Network.connect_withClient (by exact h.running), connected]
      rfl
    obtain ⟨log, id, opened⟩ := Network.connect_session connected
    refine ⟨_, Network.connect_valid hv taken, rfl, ?_, h.running, h.small, h.loop, ?_,
      h.recorded.keep rfl (committed_of_delivery (log.trans (h.plane ▸ rfl)))⟩
    · simp only [Network.State.withClient, opened]
      rfl
    · simp only [opened]
      rintro y ⟨⟩
      exact ⟨fun _ => ⟨rfl, .inl rfl, [], rfl⟩, fun _ text none => by cases none⟩
  · cases hs

theorem Matches.hangUp (h : Matches H s n) :
    Matches H { s with link := none } { n with session := none } where
  plane := h.plane
  session := rfl
  running := h.running
  small := h.small
  loop := h.loop
  link := by rintro _ ⟨⟩
  recorded := h.recorded.keep rfl (committed_of_delivery rfl)

theorem disconnect_inv (hv : Network.Valid (requested u.net.patterns) u.cursor n)
    (h : Matches H s n) (hs : step u s .disconnect = some t) : Inv H t := by
  obtain ⟨x, _, rfl⟩ := Option.map_eq_some_iff.mp hs
  exact ⟨_, hv.hangUp, h.hangUp⟩

end

/-! ## Reading -/

variable {loop after : Loop u.process.Resume} {msg : SubServerMsg} {rest : List SubServerMsg}
  {new : List Act} {w : Window} {e : StampedEvent} {capacity : Nat} {c : Client}

theorem history_next (isLoop : s.loop = some loop) (acts : after.acts = loop.acts ++ new)
    (link : Option Link) :
    State.history { s with link := link, loop := some after } = s.history ++ new := by
  simp only [State.history, isLoop, acts, List.append_assoc]

theorem history_exit (isLoop : s.loop = some loop) :
    (s.exit (loop.acts ++ new)).history = s.history ++ new := by
  simp only [State.history, State.exit, isLoop, List.append_assoc, List.append_nil]

/-- A new event moves the client of the network as it moves the kit. -/
theorem fresh_handle (holds : RustHolds capacity c.resume w) (sendable : Sendable (.event e))
    (fresh : w.fresh (Rust.deliveredEvent e) = true) :
    c.handle e = ⟨c.resume.record e.id e.seq, c.handled ++ [e]⟩ ∧ c.resume.cursor < e.seq ∧
      (c.handle e).resume.cursor = e.seq ∧
      RustHolds capacity (c.handle e).resume (w.handled capacity (Rust.deliveredEvent e)) := by
  have process : c.resume.shouldProcess e.id e.seq = true :=
    (shouldProcess_asText holds.ids sendable.1 e.seq).symm.trans
      ((shouldProcess_fresh holds.holds (Rust.deliveredEvent e)).trans fresh)
  have handled : c.handle e = ⟨c.resume.record e.id e.seq, c.handled ++ [e]⟩ := if_pos process
  have later : c.resume.cursor < e.seq := by
    simp only [ResumeState.shouldProcess, Bool.and_eq_true, decide_eq_true_eq] at process
    exact process.1
  obtain ⟨text, ids⟩ := record_asText holds.ids sendable.1 e.seq
  have recorded := holds_record holds.holds fresh
  rw [handled]
  refine ⟨rfl, later, ?_, ids, text ▸ recorded⟩
  rw [ResumeState.record_cursor]
  exact Nat.max_eq_right (Nat.le_of_lt later)

theorem event_committed (hv : Network.Valid (requested u.net.patterns) u.cursor n)
    (session : n.session = some x.server) (hw : x.server.wire = .event e :: rest) :
    n.plane.Committed e :=
  ((hv.session _ session).wire e (hw ▸ List.mem_cons_self)).1

theorem Recorded.handle {cursor : Nat} {acts : List Act} (h : Recorded cursor n acts)
    (holds : RustHolds capacity n.client.resume w) (sendable : Sendable (.event e))
    (fresh : w.fresh (Rust.deliveredEvent e) = true) (committed : n.plane.Committed e)
    (plane : m.plane = n.plane) (client : m.client = n.client.handle e) :
    Recorded cursor m (acts ++ [.call (.onEvent (Rust.deliveredEvent e)), .save e.seq]) := by
  obtain ⟨handled, later, cursor, _⟩ := fresh_handle holds sendable fresh
  exact h.done committed later plane (client ▸ cursor) (by rw [client, handled])

/-- The frame is read to its end and the session goes on. -/
theorem more_inv (hv : Network.Valid (requested u.net.patterns) u.cursor n) (h : Matches H s n)
    (isLoop : s.loop = some loop) (hx : s.link = some x) (hw : x.server.wire = msg :: rest)
    (acts : after.acts = loop.acts ++ new) (held : H after.resume w)
    (holds : RustHolds u.window n.client.resume w) (quiet : Quiet new)
    (more : n.client.onFrame msg = (n.client, .more))
    (asked : x.server.task = .welcomed → ∀ text ∈ x.up ++ frames u new,
      text = u.print (u.kit.frame u.net.patterns (some n.client.resume.cursor))) :
    Inv H { s with
      link := some ⟨{ x.server with wire := rest }, true, x.up ++ frames u new⟩
      loop := some after } := by
  have session : n.session = some x.server := by rw [h.session, hx]; rfl
  have read : Network.receive n x.server msg rest =
      { n with
        received := n.received ++ eventsOf [msg]
        session := some { x.server with wire := rest } } := by
    simp only [Network.receive, more]
    rfl
  refine ⟨_, Network.receive_valid hv session hw, ?_⟩
  rw [read]
  refine ⟨h.plane, rfl, h.running, h.small, ?_, ?_, ?_⟩
  · rintro l ⟨⟩
    exact ⟨w, held, holds⟩
  · rintro y ⟨⟩
    exact ⟨fun closed => (by cases closed), asked⟩
  · rw [history_next isLoop acts]
    exact (h.recorded.quiet quiet).keep rfl (committed_of_delivery rfl)

/-- The event is handled and its cursor saved. -/
theorem handled_inv (hv : Network.Valid (requested u.net.patterns) u.cursor n) (h : Matches H s n)
    (isLoop : s.loop = some loop) (hx : s.link = some x) (hw : x.server.wire = .event e :: rest)
    (acts : after.acts =
      loop.acts ++ [.call (.onEvent (Rust.deliveredEvent e)), .save e.seq])
    (held : H after.resume (w.handled u.window (Rust.deliveredEvent e)))
    (holds : RustHolds u.window n.client.resume w) (sendable : Sendable (.event e))
    (fresh : w.fresh (Rust.deliveredEvent e) = true) (up : List Text) :
    Inv H { s with
      link := some ⟨{ x.server with wire := rest }, true, up⟩
      loop := some after } := by
  have session : n.session = some x.server := by rw [h.session, hx]; rfl
  obtain ⟨_, _, cursor, following⟩ := fresh_handle holds sendable fresh
  refine ⟨_, Network.receive_valid hv session hw, ?_⟩
  refine ⟨h.plane, rfl, h.running, ?_, ?_, ?_, ?_⟩
  · exact (show _ = e.seq from cursor) ▸ sendable.2.1
  · rintro l ⟨⟩
    exact ⟨_, held, following⟩
  · rintro y ⟨⟩
    refine ⟨fun closed => (by cases closed), fun welcomed => ?_⟩
    -- before the subscribe is read there is no event in flight
    obtain ⟨sub, attached⟩ := Network.attached_of_running hv session
      (by rw [show x.server.task = .welcomed from welcomed]; simp)
    have task := attached.task
    rw [show x.server.task = .welcomed from welcomed, hw] at task
    cases task.1
  · rw [history_next isLoop acts]
    exact h.recorded.handle holds sendable fresh (event_committed hv session hw) rfl rfl

/-- The session is over, and the run of the process may be. -/
theorem ends_inv (hv : Network.Valid (requested u.net.patterns) u.cursor n) (h : Matches H s n)
    (isLoop : s.loop = some loop) (acts : after.acts = loop.acts ++ new)
    (held : H after.resume w) (holds : RustHolds u.window n.client.resume w)
    (recorded : Recorded u.cursor n (s.history ++ new)) (stops : Bool) :
    Inv H (if stops then s.exit after.acts else { s with link := none, loop := some after }) := by
  have record := recorded.keep (m := { n with session := none }) rfl (committed_of_delivery rfl)
  refine ⟨_, hv.hangUp, ?_⟩
  cases stops with
  | true =>
    refine ⟨h.plane, rfl, h.running, h.small, by rintro _ ⟨⟩, by rintro _ ⟨⟩, ?_⟩
    rw [if_pos rfl, acts, history_exit isLoop]
    exact record
  | false =>
    refine ⟨h.plane, rfl, h.running, h.small, ?_, by rintro _ ⟨⟩, ?_⟩
    · rintro l ⟨⟩
      exact ⟨w, held, holds⟩
    · rw [if_neg Bool.false_ne_true, history_next isLoop acts]
      exact record

section

variable (lawful : Lawful u.process u.library u.window H)

include lawful

/-- The frame a connection opens with is always first, and then the kit subscribes. -/
theorem opening_read (fails : Bool) {name : String}
    (takes : u.library.Takes (frameText (.welcome name))) (held : H loop.resume w) :
    ∃ after, (u.process.client (hooks fails)).read (frameText (.welcome name)) (false, loop) =
      .next (true, after) ∧ H after.resume w ∧ after.acts = loop.acts ++ [.subscribe w.cursor] := by
  have alike : Alike H loop ⟨w, loop.acts⟩ := ⟨held, rfl⟩
  have reads := Sessions.read_agrees (lawful.simulates (hooks fails))
    (⟨trivial, takes⟩ : u.library.Passes (.welcome name)) false alike
  cases read : (u.process.client (hooks fails)).read (frameText (.welcome name)) (false, loop) with
  | ends p result =>
    rw [read] at reads
    exact reads.elim
  | next p =>
    rw [read] at reads
    obtain ⟨opened, after⟩ := p
    obtain ⟨rfl, alike⟩ := reads
    exact ⟨after, rfl, alike.resume, alike.acts⟩

/-- A frame on an open connection, read by the kit and by the machine. -/
theorem open_read (msg : SubServerMsg) (fails : Bool) (passes : u.library.Passes msg)
    (held : H loop.resume w) :
    ∃ flow, Reading u.window w loop.acts msg fails flow ∧
      Reads (u.process.client (hooks fails)) (machine (hooks fails) u.window) (Alike H)
        ((u.process.client (hooks fails)).read (frameText msg) (true, loop)) flow := by
  have alike : Alike H loop ⟨w, loop.acts⟩ := ⟨held, rfl⟩
  exact ⟨_, machine_reads msg fails,
    Sessions.read_agrees (lawful.simulates (hooks fails)) passes true alike⟩

theorem lost_read (fails : Bool) (lost : ¬ u.library.Takes (frameText msg)) (opened : Bool)
    (loop : Loop u.process.Resume) :
    ∃ result, (u.process.client (hooks fails)).read (frameText msg) (opened, loop) =
      .ends (opened, loop) result := by
  simp only [Sessions.Client.read, lawful.lost (hooks fails) _ lost]
  exact ⟨_, rfl⟩

theorem receive_inv (hv : Network.Valid (requested u.net.patterns) u.cursor n) (h : Matches H s n)
    {fails : Bool} (allowed : Allowed u s (.receive fails))
    (hs : step u s (.receive fails) = some t) : Inv H t := by
  simp only [step] at hs
  split at hs
  · rename_i loop x isLoop hx
    split at hs
    · rename_i msg rest hw
      cases hs
      have sendable : Sendable msg := allowed x hx msg (by rw [hw]; rfl)
      obtain ⟨w, held, holds⟩ := h.loop loop isLoop
      have session : n.session = some x.server := by rw [h.session, hx]; rfl
      unfold receive
      dsimp only
      by_cases takes : u.library.Takes (frameText msg)
      · cases opened : x.opened with
        | false =>
          obtain ⟨none, _, more, first⟩ := (h.link x hx).unopened opened
          obtain ⟨rfl, rfl⟩ := List.cons.inj (hw.symm.trans first)
          obtain ⟨after, read, held, acts⟩ := opening_read lawful fails takes held
          have cursor : (n.client.resume.cursor : Int) = w.cursor := holds.holds.cursor
          rw [read]
          dsimp only
          rw [acts, List.drop_left]
          refine more_inv hv h isLoop hx hw acts held holds ?_ rfl fun _ text mem => ?_
          · intro a mem
            obtain rfl := List.mem_singleton.mp mem
            exact ⟨by rintro _ ⟨⟩, by rintro _ ⟨⟩⟩
          · rw [none, List.nil_append] at mem
            obtain rfl := List.mem_singleton.mp mem
            rw [← cursor, Int.toNat_natCast]
        | true =>
          obtain ⟨flow, reading, reads⟩ := open_read lawful msg fails ⟨sendable, takes⟩ held
          cases read : (u.process.client (hooks fails)).read (frameText msg) (true, loop) with
          | next p =>
            rw [read] at reads
            obtain ⟨opened, after⟩ := p
            dsimp only
            cases reading with
            | handled e fresh =>
              obtain ⟨rfl, alike⟩ := reads
              exact handled_inv hv h isLoop hx hw alike.acts alike.resume holds sendable fresh _
            | quiet _ _ new quiet more silent =>
              obtain ⟨rfl, alike⟩ := reads
              rw [alike.acts, List.drop_left]
              have quietUp : frames u new = [] := by
                rw [frames, List.filterMap_eq_nil_iff]
                intro a mem
                cases a with
                | subscribe n => exact absurd mem (silent n)
                | call c => rfl
                | save n => rfl
              refine more_inv hv h isLoop hx hw alike.acts alike.resume holds quiet
                (more n.client holds sendable) fun welcomed text mem => ?_
              rw [quietUp, List.append_nil] at mem
              exact (h.link x hx).asked welcomed text mem
            | failed => exact reads.elim
            | ends => exact reads.elim
          | ends p result =>
            rw [read] at reads
            obtain ⟨opened, after⟩ := p
            dsimp only
            cases reading with
            | handled => exact reads.elim
            | quiet => exact reads.elim
            | failed e result fresh =>
              obtain ⟨alike, _⟩ := reads
              obtain ⟨_, later, _⟩ := fresh_handle holds sendable fresh
              exact ends_inv hv h isLoop alike.acts alike.resume holds
                (h.recorded.started (event_committed hv session hw) later) _
            | ends _ _ new result quiet =>
              obtain ⟨alike, _⟩ := reads
              exact ends_inv hv h isLoop alike.acts alike.resume holds (h.recorded.quiet quiet) _
      · obtain ⟨result, read⟩ := lost_read lawful fails takes x.opened loop
        rw [read]
        exact ends_inv hv h isLoop (List.append_nil _).symm held holds
          (h.recorded.quiet quiet_nil) _
    · cases hs
  · cases hs

omit lawful in
theorem exit_inv (hv : Network.Valid (requested u.net.patterns) u.cursor m)
    (isLoop : s.loop = some loop) (plane : m.plane = s.plane) (session : m.session = none)
    (running : m.stopped = false) (small : m.client.resume.cursor < 2 ^ 53)
    (recorded : Recorded u.cursor m (s.history ++ new)) : Inv H (s.exit (loop.acts ++ new)) := by
  refine ⟨m, hv, plane, session, running, small, by rintro _ ⟨⟩, by rintro _ ⟨⟩, ?_⟩
  rw [history_exit isLoop]
  exact recorded

omit lawful in
/-- Of a frame that changes nothing any part may be done. -/
theorem exit_quiet (hv : Network.Valid (requested u.net.patterns) u.cursor n) (h : Matches H s n)
    (isLoop : s.loop = some loop) (quiet : Quiet new) : Inv H (s.exit (loop.acts ++ new)) :=
  exit_inv hv.hangUp isLoop h.plane rfl h.running h.small
    ((h.recorded.quiet quiet).keep rfl (committed_of_delivery rfl))

/-- A process dies before `on_event`, in it, or with the cursor saved. -/
theorem die_inv (hv : Network.Valid (requested u.net.patterns) u.cursor n) (h : Matches H s n)
    {done : Nat} (allowed : Allowed u s (.die done)) (hs : step u s (.die done) = some t) :
    Inv H t := by
  have nothing (loop : Loop u.process.Resume) (isLoop : s.loop = some loop) :
      Inv H (s.exit loop.acts) :=
    List.append_nil loop.acts ▸ exit_quiet hv h isLoop quiet_nil
  simp only [step] at hs
  split at hs
  · rename_i loop x isLoop hx
    split at hs
    · rename_i msg rest hw
      cases hs
      have sendable : Sendable msg := allowed x hx msg (by rw [hw]; rfl)
      obtain ⟨w, held, holds⟩ := h.loop loop isLoop
      have session : n.session = some x.server := by rw [h.session, hx]; rfl
      unfold lastActs
      dsimp only
      by_cases takes : u.library.Takes (frameText msg)
      · cases opened : x.opened with
        | false =>
          obtain ⟨_, _, more, first⟩ := (h.link x hx).unopened opened
          obtain ⟨rfl, rfl⟩ := List.cons.inj (hw.symm.trans first)
          obtain ⟨after, read, _, acts⟩ := opening_read lawful false takes held
          rw [read]
          dsimp only [Flow.state]
          rw [acts, List.take_length_add_append]
          refine exit_quiet hv h isLoop (quiet_take ?_ done)
          intro a mem
          obtain rfl := List.mem_singleton.mp mem
          exact ⟨by rintro _ ⟨⟩, by rintro _ ⟨⟩⟩
        | true =>
          obtain ⟨flow, reading, reads⟩ := open_read lawful msg false ⟨sendable, takes⟩ held
          have acts : ((u.process.client (hooks false)).read (frameText msg)
              (true, loop)).state.2.acts = flow.state.2.acts := by
            cases read : (u.process.client (hooks false)).read (frameText msg) (true, loop) <;>
              cases flow <;> rw [read] at reads
            · exact reads.2.acts
            · exact reads.elim
            · exact reads.elim
            · exact reads.1.acts
          rw [acts]
          cases reading with
          | handled e fresh =>
            have committed := event_committed hv session hw
            obtain ⟨_, later, cursor, _⟩ := fresh_handle holds sendable fresh
            dsimp only [Flow.state]
            rw [List.take_length_add_append]
            rcases done with _ | _ | done
            · exact exit_quiet hv h isLoop quiet_nil
            · exact exit_inv hv.hangUp isLoop h.plane rfl h.running h.small
                ((h.recorded.started committed later).keep rfl (committed_of_delivery rfl))
            · have recorded : Recorded u.cursor (Network.receive n x.server (.event e) rest) _ :=
                h.recorded.handle holds sendable fresh committed rfl rfl
              simp only [List.take_succ_cons, List.take_nil]
              exact exit_inv (Network.receive_valid hv session hw).hangUp isLoop h.plane rfl
                h.running ((show _ = e.seq from cursor) ▸ sendable.2.1)
                (recorded.keep rfl (committed_of_delivery rfl))
          | quiet _ _ new quiet =>
            dsimp only [Flow.state]
            rw [List.take_length_add_append]
            exact exit_quiet hv h isLoop (quiet_take quiet done)
          | ends _ _ new result quiet =>
            dsimp only [Flow.state]
            rw [List.take_length_add_append]
            exact exit_quiet hv h isLoop (quiet_take quiet done)
      · obtain ⟨result, read⟩ := lost_read lawful false takes x.opened loop
        rw [read]
        dsimp only [Flow.state]
        rw [List.take_of_length_le (Nat.le_add_right _ _)]
        exact nothing loop isLoop
    · cases hs
      exact nothing _ isLoop
  · rename_i loop isLoop _
    cases hs
    exact nothing loop isLoop
  · cases hs

theorem step_inv (correct : u.Correct) {a : Action} (inv : Inv H s) (allowed : Allowed u s a)
    (hs : step u s a = some t) : Inv H t := by
  obtain ⟨n, hv, h⟩ := inv
  cases a with
  | server a => exact server_inv hv h allowed hs
  | readUp => exact readUp_inv correct hv h hs
  | start => exact start_inv lawful hv h hs
  | connect => exact connect_inv hv h hs
  | receive fails => exact receive_inv lawful hv h allowed hs
  | die done => exact die_inv lawful hv h allowed hs
  | disconnect => exact disconnect_inv hv h hs

omit lawful in
theorem Inv.handledOnce (inv : Inv H s) : HandledOnce u s := by
  obtain ⟨n, hv, h⟩ := inv
  obtain ⟨reached, handled, _, once, calls⟩ := h.recorded
  refine ⟨fun row committed above le wanted => ?_, once, h.plane ▸ calls⟩
  rw [← reached] at le
  have mem := hv.client.sound row (h.plane ▸ committed) above (Int.ofNat_le.mp le) wanted
  rw [← handled]
  exact List.mem_map_of_mem mem

end

/-- Whichever kit it is, however its processes die and start again: every wanted event up to
the cursor in its store was handled to the end exactly once, and no call is made of an event
at or below a cursor saved before. -/
theorem kits_handle_once (u : Setup) (correct : u.Correct) (s : State u.process.Resume)
    (h : Reaches (Starts u) (step u) (Allowed u) s) : HandledOnce u s := by
  obtain ⟨H, lawful⟩ := kit_lawful correct.library u.capacity u.kit
  have inv : Inv H s := h.invariant _ (fun _ => starts_inv correct)
    fun _ _ _ _ inv allowed hs => step_inv lawful correct inv allowed hs
  exact inv.handledOnce

instance (m : SubServerMsg) : Decidable (Sendable m) :=
  match m with
  | .event _ => inferInstanceAs (Decidable (_ ∧ _ ∧ _))
  | .replayGap _ _ => inferInstanceAs (Decidable (_ ∧ _))
  | .replayed _ | .lagged _ => inferInstanceAs (Decidable (_ < _))
  | .welcome _ | .ok _ | .error _ _ | .pong | .closing _ => isTrue trivial

instance (u : Setup) (s : State u.process.Resume) (a : Action) : Decidable (Allowed u s a) :=
  match a with
  | .server _ => inferInstanceAs (Decidable (_ ∧ _))
  | .receive _ | .die _ =>
    inferInstanceAs (Decidable (∀ x ∈ s.link, ∀ msg ∈ x.server.wire.head?, Sendable msg))
  | .readUp | .start | .connect | .disconnect => isTrue trivial

def goSetup : Setup :=
  ⟨Network.oneClient, .go, ⟨Json.read, none⟩, 8192, 0, Json.read, Json.render⟩

def newServer : State goSetup.process.Resume :=
  ⟨⟨.withDelivery ⟨.empty, 0, 0, 0, 0, ⟨86400, 2 ^ 30, 1000000⟩⟩, .idle, []⟩, none, [], none⟩

theorem newServer_starts : Starts goSetup newServer := by
  refine ⟨_, ?_, by decide, rfl⟩
  refine ⟨.empty, 1, 0, ⟨86400, 2 ^ 30, 1000000⟩, none, 0, by decide, ?_, rfl⟩
  intro k
  simp only [OrdMap.get?_empty, reduceCtorEq, exists_false, false_iff]
  omega

/-- The first process dies as the replay ends. The second handles one event and dies in the
handler of the next. -/
def twoProcesses : List Action :=
  let subscribes : List Action := [.start, .connect, .receive false, .readUp, .server .loadFloor,
    .server .loadHead, .server .readRows, .receive false]
  let fanout (id : Uuid) : List Action :=
    [.server (.plane (.log (.commitRows (fun _ => id) [⟨"dev.one", "MQ=="⟩] 0))),
      .server (.plane (.log .storeHead)), .server (.plane (.log .raiseFloor)),
      .server (.plane (.push 0)), .server .popFrame, .server .sendFrame]
  subscribes ++ [.die 1] ++ subscribes ++ [.receive false] ++ fanout 7 ++ [.receive false] ++
    fanout 8 ++ [.die 1]

theorem kits_handle_once_two_processes :
    goSetup.Correct ∧ ∃ s, Reaches (Starts goSetup) (step goSetup) (Allowed goSetup) s ∧
      s.history.length = 7 ∧ stored 0 s.history = 1 ∧ HandledOnce goSetup s := by
  have correct : goSetup.Correct := ⟨Json.read_render, Json.read_render, by decide⟩
  have run : (Runs.exec (Runs.guarded (Allowed goSetup) (step goSetup)) newServer
      twoProcesses).map (fun s => (s.history.length, stored 0 s.history)) = some (7, 1) := by
    decide +kernel
  obtain ⟨s, hs, seen⟩ := Option.map_eq_some_iff.mp run
  obtain ⟨length, cursor⟩ := Prod.mk.inj seen
  have reached := Runs.reaches_of_exec _ (.start newServer_starts) hs
  exact ⟨correct, s, reached, length, cursor, kits_handle_once goSetup correct s reached⟩

end Whdr.KitNetwork
