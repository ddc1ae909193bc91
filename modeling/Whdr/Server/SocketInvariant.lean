import Whdr.Server.SubscriberSocket

/-! What is written to a subscriber connection and where it comes from, as one invariant, and what
keeps it: a write, the end of the loop and the steps of the rest of the server. -/
namespace Whdr.SubscriberSocket

open OutboundQueue (Call Accounts accounts_calls foldl_events pushed)
open SubscriberRegistry (parsePatterns offeredTo)
open SubscriberWs

/-! ## What is promised -/

/-- What a command is answered with through the queue. -/
def answers (logged : Bool) : SubClientMsg → List SubServerMsg
  | .subscribe patterns replay =>
    match parsePatterns patterns with
    | .error msg => [.error "subscribe" msg]
    | .ok _ =>
      if replay = none then [.ok "subscribe"]
      else if logged then []
      else [.ok "subscribe", .error "replay" "durable delivery is not enabled"]
  | .unsubscribe _ => [.ok "unsubscribe"]
  | .ping => [.pong]

/-- The replay a command gets: its cursor and its patterns. -/
def replayOf (logged : Bool) : SubClientMsg → List (Nat × List Pattern)
  | .subscribe patterns (some replay) =>
    if logged && (parsePatterns patterns).isOk then [(replay.afterSeq, requested patterns)] else []
  | _ => []

/-- A whole replay: the answer, the gap up to a floor if there is one, rising events, and the head
they go up to. The events are all rows of the log from the floor or past the cursor, up to the
head, that were asked for. -/
def Window (ask : Nat × List Pattern) (replay : Replay) : Prop :=
  ∃ (gap : Option Nat) (events : List StampedEvent) (head : Nat),
    replay.frames = .ok "subscribe" :: ((gap.map (.replayGap ask.1)).toList ++
        events.map .event ++ [.replayed head]) ∧
      events.Pairwise (fun a b => a.seq < b.seq) ∧
      ∀ e, e ∈ events ↔ replay.table.get? e.seq = some (DeliveryLog.stored e) ∧
        min (gap.getD (ask.1 + 1)) (u64Size - 1) ≤ e.seq ∧ e.seq ≤ head ∧
        anyMatches ask.2 e.channel = true

/-- A subscribe that was read asked for the channel. -/
def Asked (asked : List SubClientMsg) (channel : String) : Prop :=
  ∃ patterns replay, .subscribe patterns replay ∈ asked ∧
    anyMatches (requested patterns) channel = true

def Stage.inHand : Stage → List Frame
  | .popped frame | .lagTaken _ frame | .writing frame => [frame]
  | _ => []

def Stage.unsent : Stage → List SubServerMsg
  | .streaming frame rest => frame :: rest
  | _ => []

/-- The task writes nothing any more. -/
def Stage.isOver : Stage → Bool
  | .left _ | .removed | .panicked => true
  | _ => false

def Sent.frame? : Sent → Option Frame
  | .queued frame => some frame
  | _ => none

def Sent.isWelcome : Sent → Bool
  | .welcome _ => true
  | _ => false

def Sent.replay? : Sent → Option Nat
  | .streamed replay _ => some replay
  | _ => none

def Sent.closes : Sent → Bool
  | .closing _ => true
  | .queued frame => frame.closing
  | _ => false

/-- The frames of the queue that were written. -/
def written (sent : List Sent) : List Frame := sent.filterMap Sent.frame?

def State.logged (s : State) : Bool := s.plane.registry.delivery.isSome

/-- One replay in what was written: in one piece, and whole unless it is being written or the
task has ended. `last` is whether it is the last one. -/
structure Block (sent : List Sent) (k : Nat) (frames unsentNow : List SubServerMsg)
    (halted last : Bool) (before : List Sent) (shown unsent : List SubServerMsg)
    (after : List Sent) : Prop where
  frames : frames = shown ++ unsent
  sent : sent = before ++ shown.map (.streamed k) ++ after
  apart : ∀ w ∈ before ++ after, w.replay? ≠ some k
  behind : unsent ≠ [] → after = [] ∧ last = true
  whole : halted = false → unsent = if last then unsentNow else []

/-- The queue of the connection: what every call did to it, and where the frames popped went.
The last one may be lost with the connection. -/
structure Line (cfg : Config) (s : State) (queue : OutboundQueue) (lost : List Frame) : Prop where
  entry : ∀ sub, s.entry = some sub → sub.queue = queue
  accounts : Accounts cfg.textLen cfg.queueLen cfg.queueBytes (s.calls.countP Call.isPushEvent)
    (pushed cfg.textLen (max cfg.queueBytes 1) s.calls) s.popped queue
  popped : s.popped = written s.sent ++ s.stage.inHand ++ lost
  lost : lost ≠ [] → s.stage.isOver = true ∧ lost.length = 1

/-! ## The invariant -/

/-- The message of a control frame pushed. -/
def control : Call → Option SubServerMsg
  | .pushControl msg => some msg
  | _ => none

structure Streams (sent : List Sent) (replays : List (List SubServerMsg))
    (unsent : List SubServerMsg) (halted : Bool) : Prop where
  begun : unsent ≠ [] → replays ≠ []
  numbered : ∀ w ∈ sent, ∀ k, w.replay? = some k → k < replays.length
  blocks : ∀ k frames, replays[k]? = some frames → ∃ before shown rest after,
    Block sent k frames unsent halted (k + 1 == replays.length) before shown rest after

/-- Nothing that was written closes, but for a last signal. -/
def ClosesLast (sent : List Sent) (signals : List ClosingReason) (halted : Bool) : Prop :=
  ∃ front, (∀ w ∈ front, w.closes = false) ∧
    (sent = front ∨ halted = true ∧ ∃ reason ∈ signals, sent = front ++ [.closing reason])

/-- The welcome is the first write, unless its send failed, and no other write is one. -/
def Greets (name : String) (greeted : Bool) (sent : List Sent) : Prop :=
  ∃ rest, sent = (if greeted then [.welcome name] else []) ++ rest ∧
    ∀ w ∈ rest, w.isWelcome = false

structure Valid (cfg : Config) (s : State) : Prop where
  fresh : s.conn < s.plane.registry.nextId
  entry : s.entry = none ↔ s.stage = .removed
  sub : ∀ sub, s.entry = some sub → sub.name = cfg.name ∧ sub.closeTx = s.signals.getLast? ∧
    ∀ p ∈ sub.patterns, ∃ patterns replay, .subscribe patterns replay ∈ s.asked ∧
      p ∈ requested patterns
  line : ∃ queue lost, Line cfg s queue lost
  answers : s.calls.filterMap control ++ s.stage.toAnswer = s.asked.flatMap (answers s.logged)
  replays : ∃ served lost,
    s.asked.flatMap (replayOf s.logged) = served ++ s.stage.asking ++ lost ∧
      List.Forall₂ Window served s.replays ∧ (lost ≠ [] → s.stage.isOver = true ∧ lost.length = 1)
  streams : Streams s.sent (s.replays.map Replay.frames) s.stage.unsent s.stage.isOver
  before : s.stage = .welcoming → s.sent = []
  greets : Greets cfg.name s.greeted s.sent
  closes : ClosesLast s.sent s.signals s.stage.isOver
  beats : (s.awaitingPong = true ↔ s.beats.getLast? = some .ping) ∧
    ∀ before after, s.beats ≠ before ++ .ping :: .ping :: after
  pings : s.sent.count .ping = s.beats.count .ping
  missed : s.stage = .left .missedPong → s.awaitingPong = true
  offered : ∀ msg, .pushEvent msg ∈ s.calls → ∃ e, msg = .event e ∧ Asked s.asked e.channel
  windows : ∀ replay ∈ s.replays, ∀ e ∈ eventsOf replay.frames, Asked s.asked e.channel
  shown : ∀ w ∈ s.sent, ∀ k msg, w = .streamed k msg → ∃ replay, s.replays[k]? = some replay ∧
    msg ∈ replay.frames

attribute [local simp] step own

variable {cfg : Config} {s t : State} {sent : List Sent} {replays : List (List SubServerMsg)}
  {unsent : List SubServerMsg} {halted : Bool} {w : Sent} {signals : List ClosingReason}

@[simp] theorem inHand_answers (rest : List SubServerMsg) : (Stage.answers rest).inHand = [] := by
  cases rest <;> rfl

@[simp] theorem unsent_answers (rest : List SubServerMsg) : (Stage.answers rest).unsent = [] := by
  cases rest <;> rfl

@[simp] theorem isOver_answers (rest : List SubServerMsg) :
    (Stage.answers rest).isOver = false := by
  cases rest <;> rfl

@[simp] theorem inHand_streams (rest : List SubServerMsg) : (Stage.streams rest).inHand = [] := by
  cases rest <;> rfl

@[simp] theorem toAnswer_streams (rest : List SubServerMsg) :
    (Stage.streams rest).toAnswer = [] := by
  cases rest <;> rfl

@[simp] theorem asking_streams (rest : List SubServerMsg) : (Stage.streams rest).asking = [] := by
  cases rest <;> rfl

@[simp] theorem unsent_streams (rest : List SubServerMsg) :
    (Stage.streams rest).unsent = rest := by
  cases rest <;> rfl

@[simp] theorem isOver_streams (rest : List SubServerMsg) :
    (Stage.streams rest).isOver = false := by
  cases rest <;> rfl

theorem one_inHand {stage : Stage} (some : stage.inHand ≠ []) : stage.inHand.length = 1 := by
  cases stage with
  | popped frame | lagTaken dropped frame | writing frame => rfl
  | _ => exact absurd rfl some

theorem one_asking {stage : Stage} (some : stage.asking ≠ []) : stage.asking.length = 1 := by
  cases stage with
  | replaying afterSeq parsed loaded => rfl
  | _ => exact absurd rfl some

theorem answers_ne {rest : List SubServerMsg} {stage : Stage} (h : Stage.answers rest = stage) :
    stage ≠ .welcoming ∧ stage ≠ .removed ∧ ∀ why, stage ≠ .left why := by
  subst h
  cases rest <;> simp [Stage.answers]

theorem streams_ne {rest : List SubServerMsg} {stage : Stage} (h : Stage.streams rest = stage) :
    stage ≠ .welcoming ∧ stage ≠ .removed ∧ ∀ why, stage ≠ .left why := by
  subst h
  cases rest <;> simp [Stage.streams]

/-! ## Writes -/

theorem written_append (sent : List Sent) (w : Sent) :
    written (sent ++ [w]) = written sent ++ w.frame?.toList := by
  cases h : w.frame? <;> simp [written, h]

theorem ClosesLast.write (last : ClosesLast sent signals false) (open_ : w.closes = false) :
    ClosesLast (sent ++ [w]) signals halted := by
  obtain ⟨front, quiet, rfl | ⟨ended, _⟩⟩ := last
  · refine ⟨sent ++ [w], ?_, .inl rfl⟩
    intro v mem
    obtain old | new := List.mem_append.mp mem
    · exact quiet v old
    · rw [List.mem_singleton.mp new]
      exact open_
  · cases ended

theorem ClosesLast.close (last : ClosesLast sent signals false) {reason : ClosingReason}
    (signalled : reason ∈ signals) : ClosesLast (sent ++ [.closing reason]) signals true := by
  obtain ⟨front, quiet, rfl | ⟨ended, _⟩⟩ := last
  · exact ⟨sent, quiet, .inr ⟨rfl, reason, signalled, rfl⟩⟩
  · cases ended

/-- The same writes, with more signals and perhaps an end. -/
theorem ClosesLast.grow (last : ClosesLast sent signals halted) (more : List ClosingReason)
    {ended : Bool} (kept : halted = true → ended = true) :
    ClosesLast sent (signals ++ more) ended := by
  obtain ⟨front, quiet, same | ⟨isOver, reason, mem, eq⟩⟩ := last
  · exact ⟨front, quiet, .inl same⟩
  · exact ⟨front, quiet, .inr ⟨kept isOver, reason, List.mem_append_left _ mem, eq⟩⟩

/-- What is written after the welcome leaves it first. -/
theorem Greets.write {name : String} {greeted : Bool} (greets : Greets name greeted sent)
    (other : w.isWelcome = false) : Greets name greeted (sent ++ [w]) := by
  obtain ⟨rest, rfl, plain⟩ := greets
  refine ⟨rest ++ [w], List.append_assoc _ _ _, ?_⟩
  intro v mem
  obtain old | new := List.mem_append.mp mem
  · exact plain v old
  · rw [List.mem_singleton.mp new]
    exact other

/-- Something else is written while no replay is. -/
theorem Streams.write (streams : Streams sent replays [] false) (other : w.replay? = none)
    (halted : Bool) : Streams (sent ++ [w]) replays [] halted where
  begun nonempty := absurd rfl nonempty
  numbered v mem k isStreamed := by
    obtain old | new := List.mem_append.mp mem
    · exact streams.numbered v old k isStreamed
    · rw [List.mem_singleton.mp new, other] at isStreamed
      cases isStreamed
  blocks k frames found := by
    obtain ⟨before, shown, rest, after, block⟩ := streams.blocks k frames found
    have whole : rest = [] := by simpa using block.whole rfl
    refine ⟨before, shown, rest, after ++ [w], block.frames, ?_, ?_, ?_, ?_⟩
    · rw [block.sent]
      simp
    · intro v mem
      rw [← List.append_assoc] at mem
      obtain old | new := List.mem_append.mp mem
      · exact block.apart v old
      · rw [List.mem_singleton.mp new, other]
        exact nofun
    · intro nonempty
      exact absurd whole nonempty
    · intro _
      simp [whole]

/-- The task ends, wherever it was. -/
theorem Streams.stop (streams : Streams sent replays unsent halted) :
    Streams sent replays [] true where
  begun nonempty := absurd rfl nonempty
  numbered := streams.numbered
  blocks k frames found := by
    obtain ⟨before, shown, rest, after, block⟩ := streams.blocks k frames found
    exact ⟨before, shown, rest, after, block.frames, block.sent, block.apart, block.behind, nofun⟩

/-- A replay is ready to be streamed. -/
theorem Streams.start (streams : Streams sent replays [] false) (frames : List SubServerMsg) :
    Streams sent (replays ++ [frames]) frames false where
  begun _ := by simp
  numbered v mem k isStreamed := by
    have below := streams.numbered v mem k isStreamed
    rw [List.length_append]
    omega
  blocks k other found := by
    rw [List.getElem?_append] at found
    split at found
    · rename_i below
      obtain ⟨before, shown, rest, after, block⟩ := streams.blocks k other found
      have whole : rest = [] := by simpa using block.whole rfl
      have notLast : (k + 1 == (replays ++ [frames]).length) = false := by
        simp
        omega
      refine ⟨before, shown, rest, after, block.frames, block.sent, block.apart, ?_, ?_⟩
      · intro nonempty
        exact absurd whole nonempty
      · intro _
        rw [notLast]
        exact whole
    · rename_i above
      obtain ⟨at_k, rfl⟩ : k - replays.length = 0 ∧ frames = other := by
        rw [List.getElem?_singleton] at found
        split at found
        · rename_i zero
          exact ⟨zero, Option.some.inj found⟩
        · cases found
      have eq : k = replays.length := by omega
      refine ⟨sent, [], frames, [], rfl, by simp, ?_, ?_, ?_⟩
      · intro v mem isStreamed
        rw [List.append_nil] at mem
        have := streams.numbered v mem k isStreamed
        omega
      · intro _
        exact ⟨rfl, by simp [eq]⟩
      · intro _
        simp [eq]

/-- The next frame of the last replay. -/
theorem Streams.next {frame : SubServerMsg} {rest : List SubServerMsg}
    (streams : Streams sent replays (frame :: rest) false) :
    Streams (sent ++ [.streamed (replays.length - 1) frame]) replays rest false := by
  have nonempty : 0 < replays.length := List.length_pos_of_ne_nil (streams.begun (by simp))
  constructor
  · exact fun _ => List.ne_nil_of_length_pos nonempty
  · intro v mem k isStreamed
    obtain old | new := List.mem_append.mp mem
    · exact streams.numbered v old k isStreamed
    · rw [List.mem_singleton.mp new] at isStreamed
      cases isStreamed
      omega
  · intro k frames found
    obtain ⟨before, shown, left, after, block⟩ := streams.blocks k frames found
    have whole := block.whole rfl
    have inside := (List.getElem?_eq_some_iff.mp found).1
    cases last : k + 1 == replays.length with
    | true =>
      have eq : k = replays.length - 1 := by
        have := beq_iff_eq.mp last
        omega
      rw [last, if_pos rfl] at whole
      obtain ⟨rfl, _⟩ := block.behind (by simp [whole])
      refine ⟨before, shown ++ [frame], rest, [], ?_, ?_, ?_, ?_, ?_⟩
      · rw [block.frames, whole]
        simp
      · rw [block.sent, eq]
        simp
      · exact block.apart
      · exact fun _ => ⟨rfl, rfl⟩
      · exact fun _ => rfl
    | false =>
      have ne : k ≠ replays.length - 1 := by
        have : k + 1 ≠ replays.length := by simpa using last
        omega
      rw [last] at whole
      have whole : left = [] := by simpa using whole
      refine ⟨before, shown, left, after ++ [.streamed (replays.length - 1) frame], ?_, ?_, ?_,
        ?_, ?_⟩
      · exact block.frames
      · rw [block.sent]
        simp
      · intro v mem
        rw [← List.append_assoc] at mem
        obtain old | new := List.mem_append.mp mem
        · exact block.apart v old
        · rw [List.mem_singleton.mp new]
          intro same
          exact ne (Option.some.inj same).symm
      · exact fun some => absurd whole some
      · intro _
        rw [if_neg (by simp)]
        exact whole

/-! ## Pings and pongs -/

theorem beats_ping {beats : List Beat}
    (apart : ∀ before after, beats ≠ before ++ .ping :: .ping :: after)
    (last : beats.getLast? ≠ some .ping) :
    ∀ before after, beats ++ [.ping] ≠ before ++ .ping :: .ping :: after := by
  intro before after eq
  obtain rfl | ⟨rest, x, rfl⟩ := List.eq_nil_or_concat' after
  · have eq : beats ++ [.ping] = (before ++ [.ping]) ++ [.ping] := by simpa using eq
    obtain ⟨same, _⟩ := List.append_inj' eq rfl
    exact last (by simp [same])
  · have eq : beats ++ [.ping] = (before ++ .ping :: .ping :: rest) ++ [x] := by simpa using eq
    obtain ⟨same, _⟩ := List.append_inj' eq rfl
    exact apart before rest same

theorem beats_pong {beats : List Beat}
    (apart : ∀ before after, beats ≠ before ++ .ping :: .ping :: after) :
    ∀ before after, beats ++ [.pong] ≠ before ++ .ping :: .ping :: after := by
  intro before after eq
  obtain rfl | ⟨rest, x, rfl⟩ := List.eq_nil_or_concat' after
  · have eq : beats ++ [.pong] = (before ++ [.ping]) ++ [.ping] := by simpa using eq
    obtain ⟨_, last⟩ := List.append_inj' eq rfl
    cases last
  · have eq : beats ++ [.pong] = (before ++ .ping :: .ping :: rest) ++ [x] := by simpa using eq
    obtain ⟨same, _⟩ := List.append_inj' eq rfl
    exact apart before rest same

/-! ## The rest of the server -/

/-- What the others do to the entry of this connection: events are offered to its queue and
signals sent to it. -/
def Outside (textLen : SubServerMsg → Nat) (s : State) (p : Plane) (offers : List Call)
    (told : List ClosingReason) : Prop :=
  (s.entry = none ∧ p.registry.subscribers.get? s.conn = none ∧ offers = [] ∧ told = []) ∨
  ∃ sub rows, s.entry = some sub ∧ p.registry.subscribers.get? s.conn = some { sub with
      queue := sub.queue.pushEvents textLen ((offeredTo sub rows).map .event)
      closeTx := told.getLast?.or sub.closeTx } ∧
    offers = (offeredTo sub rows).map fun row => .pushEvent (.event row)

theorem Line.offer {queue : OutboundQueue} {lost : List Frame} (line : Line cfg s queue lost)
    (msgs : List SubServerMsg) :
    Accounts cfg.textLen cfg.queueLen cfg.queueBytes
      ((s.calls ++ msgs.map Call.pushEvent).countP Call.isPushEvent)
      (pushed cfg.textLen (max cfg.queueBytes 1) (s.calls ++ msgs.map Call.pushEvent)) s.popped
      (queue.pushEvents cfg.textLen msgs) := by
  have acc := accounts_calls (msgs.map Call.pushEvent) line.accounts
  rw [foldl_events] at acc
  rw [List.countP_append, pushed, List.flatMap_append]
  exact acc

theorem control_events (rows : List StampedEvent) :
    (rows.map fun row => Call.pushEvent (.event row)).filterMap control = [] := by
  rw [List.filterMap_eq_nil_iff]
  intro call mem
  obtain ⟨row, _, rfl⟩ := List.mem_map.mp mem
  rfl

theorem Asked.grow {asked : List SubClientMsg} {channel : String} (h : Asked asked channel)
    (more : List SubClientMsg) : Asked (asked ++ more) channel := by
  obtain ⟨patterns, replay, mem, matched⟩ := h
  exact ⟨patterns, replay, List.mem_append_left _ mem, matched⟩

/-- An event that was offered is one the connection asked for. -/
theorem offered_asked (hv : Valid cfg s) {sub : Subscriber} (entry : s.entry = some sub)
    {rows : List StampedEvent} {e : StampedEvent} (mem : e ∈ offeredTo sub rows) :
    Asked s.asked e.channel := by
  have matched := (List.mem_filter.mp mem).2
  obtain ⟨p, held, isMatch⟩ := List.any_eq_true.mp matched
  obtain ⟨patterns, replay, asked, requested⟩ := (hv.sub sub entry).2.2 p held
  exact ⟨patterns, replay, asked, List.any_eq_true.mpr ⟨p, requested, isMatch⟩⟩

theorem Valid.outside (hv : Valid cfg s) {p : Plane} {offers calls : List Call}
    {told signals : List ClosingReason} (fresh : s.conn < p.registry.nextId)
    (logged : p.registry.delivery.isSome = s.logged) (outside : Outside cfg.textLen s p offers told)
    (isCalls : calls = s.calls ++ offers) (isSignals : signals = s.signals ++ told) :
    Valid cfg { s with plane := p, calls := calls, signals := signals } := by
  subst isCalls isSignals
  obtain ⟨queue, lost, line⟩ := hv.line
  have controls : offers.filterMap control = [] := by
    obtain ⟨_, _, rfl, _⟩ | ⟨sub, rows, _, _, rfl⟩ := outside
    · rfl
    · exact control_events _
  refine { hv with
    fresh := fresh, entry := ?_, sub := ?_, line := ?_, answers := ?_, replays := ?_,
    closes := hv.closes.grow told id, offered := ?_ }
  · obtain ⟨gone, stays, _⟩ | ⟨sub, rows, there, stays, _⟩ := outside
    · exact ⟨fun _ => hv.entry.mp gone, fun _ => stays⟩
    · constructor
      · intro none
        cases stays.symm.trans none
      · intro removed
        cases there.symm.trans (hv.entry.mpr removed)
  · intro sub' found
    obtain ⟨_, stays, _⟩ | ⟨sub, rows, there, stays, _⟩ := outside
    · cases stays.symm.trans found
    · cases stays.symm.trans found
      obtain ⟨name, close, patterns⟩ := hv.sub sub there
      refine ⟨name, ?_, patterns⟩
      rw [List.getLast?_append, close]
  · obtain ⟨gone, stays, rfl, _⟩ | ⟨sub, rows, there, stays, rfl⟩ := outside
    · refine ⟨queue, lost, ?_, ?_, line.popped, line.lost⟩
      · intro sub found
        cases stays.symm.trans found
      · rw [List.append_nil]
        exact line.accounts
    · have batch : (offeredTo sub rows).map (fun row => Call.pushEvent (.event row)) =
          ((offeredTo sub rows).map SubServerMsg.event).map Call.pushEvent := by
        rw [List.map_map]
        rfl
      refine ⟨queue.pushEvents cfg.textLen ((offeredTo sub rows).map .event), lost, ?_, ?_,
        line.popped, line.lost⟩
      · intro sub' found
        cases stays.symm.trans found
        rw [line.entry sub there]
      · rw [batch]
        exact line.offer _
  · rw [List.filterMap_append, controls, List.append_nil]
    rw [hv.answers, State.logged, State.logged]
    dsimp only
    rw [logged]
    rfl
  · obtain ⟨served, rest, eq, windows, halted⟩ := hv.replays
    refine ⟨served, rest, ?_, windows, halted⟩
    rw [← eq, State.logged]
    dsimp only
    rw [logged]
  · intro msg mem
    obtain old | new := List.mem_append.mp mem
    · exact hv.offered msg old
    · obtain ⟨_, _, rfl, _⟩ | ⟨sub, rows, there, _, rfl⟩ := outside
      · cases new
      · obtain ⟨row, isRow, eq⟩ := List.mem_map.mp new
        cases eq
        exact ⟨row, rfl, offered_asked hv there isRow⟩

/-- Nothing is offered and no signal sent. -/
theorem outside_same {textLen : SubServerMsg → Nat} {p : Plane}
    (same : p.registry.subscribers.get? s.conn = s.entry) : Outside textLen s p [] [] := by
  cases there : s.entry with
  | none => exact .inl ⟨there, same.trans there, rfl, rfl⟩
  | some sub => exact .inr ⟨sub, [], there, same.trans there, rfl⟩

theorem plane_outside {a : PlaneAction} {p : Plane} (other : PlaneAction.isOwn s.conn a = false)
    (fresh : s.conn < s.plane.registry.nextId)
    (hs : s.plane.step cfg.valueLen cfg.textLen a = some p) :
    s.conn < p.registry.nextId ∧ p.registry.delivery.isSome = s.logged ∧
      Outside cfg.textLen s p (s.offers a) [] := by
  cases a with
  | log a =>
    simp only [Plane.step] at hs
    split at hs
    · cases hs
    · rename_i shared log
      obtain ⟨l, _, rfl⟩ := Option.map_eq_some_iff.mp hs
      exact ⟨fresh, by rw [State.logged, log]; rfl, outside_same rfl⟩
  | stampInMemory mint tsMs events =>
    simp only [Plane.step] at hs
    split at hs
    · cases hs
    · split at hs
      · cases hs
      · cases hs
        exact ⟨fresh, rfl, outside_same rfl⟩
  | push i =>
    simp only [Plane.step] at hs
    split at hs
    · cases hs
    · rename_i rows found
      cases hs
      refine ⟨fresh, rfl, ?_⟩
      cases there : s.entry with
      | none =>
        refine .inl ⟨there, ?_, by simp only [State.offers, found, there], rfl⟩
        rw [SubscriberRegistry.get?_deliver]
        exact congrArg _ there
      | some sub =>
        refine .inr ⟨sub, rows, there, ?_, by simp only [State.offers, found, there]⟩
        exact SubscriberRegistry.deliver_entry there rows
  | connection op =>
    cases hs
    have notOwn : op.conn ≠ some s.conn := by
      intro own
      simp [PlaneAction.isOwn, own] at other
    obtain ⟨same, later⟩ := SubscriberRegistry.apply_other s.plane.registry op notOwn fresh
    have delivery := (SubscriberRegistry.apply_same s.plane.registry op).1
    exact ⟨by dsimp only; omega, by rw [State.logged, ← delivery], outside_same same⟩

theorem told_outside {textLen : SubServerMsg → Nat} {named : String → Bool} {reason : ClosingReason}
    {r : SubscriberRegistry}
    (entry : r.subscribers.get? s.conn = s.entry.map fun sub =>
      if named sub.name then { sub with closeTx := some reason } else sub) :
    Outside textLen s { s.plane with registry := r } [] (s.told named reason) := by
  cases there : s.entry with
  | none =>
    rw [there] at entry
    exact .inl ⟨there, entry, rfl, by simp only [State.told, there]⟩
  | some sub =>
    refine .inr ⟨sub, [], there, ?_, rfl⟩
    rw [there, Option.map_some] at entry
    dsimp only
    rw [entry]
    simp only [State.told, there]
    split
    · rfl
    · rfl

theorem closeNamed_valid (hv : Valid cfg s) {name : String} {reason : ClosingReason}
    (hs : step cfg s (.closeNamed name reason) = some t) : Valid cfg t := by
  cases hs
  refine hv.outside hv.fresh rfl (told_outside ?_) (List.append_nil _).symm rfl
  rw [SubscriberRegistry.get?_closeNamed]
  simp only [beq_iff_eq]
  rfl

theorem closeAll_valid (hv : Valid cfg s) {reason : ClosingReason}
    (hs : step cfg s (.closeAll reason) = some t) : Valid cfg t := by
  cases hs
  refine hv.outside hv.fresh rfl (told_outside ?_) (List.append_nil _).symm rfl
  exact OrdMap.get?_mapValues _ _ _

theorem plane_valid (hv : Valid cfg s) {a : PlaneAction} (hs : step cfg s (.plane a) = some t) :
    Valid cfg t := by
  simp only [step] at hs
  split at hs
  · cases hs
  · rename_i other
    obtain ⟨p, hp, rfl⟩ := Option.map_eq_some_iff.mp hs
    obtain ⟨fresh, logged, outside⟩ := plane_outside (by simpa using other) hv.fresh hp
    exact hv.outside fresh logged outside rfl (List.append_nil _).symm

theorem fallback_valid (hv : Valid cfg s) {mint : Nat → Uuid} {tsMs : Nat} {events : List Event}
    (hs : step cfg s (.fallback mint tsMs events) = some t) : Valid cfg t := by
  simp only [step] at hs
  split at hs
  · cases hs
  · cases hs
    exact hv.outside hv.fresh rfl (outside_same rfl)
      (List.append_nil _).symm (List.append_nil _).symm

theorem other_valid (hv : Valid cfg s) {id : Nat} {change : Subscriber → Subscriber}
    (hs : step cfg s (.other id change) = some t) : Valid cfg t := by
  simp only [step] at hs
  split at hs
  · cases hs
  · rename_i other
    cases hs
    have same := SubscriberRegistry.modify_same s.plane.registry id change
    have entry := SubscriberRegistry.get?_modify s.plane.registry id s.conn change
    rw [if_neg (Ne.symm other)] at entry
    exact hv.outside (same.2.symm ▸ hv.fresh) (congrArg Option.isSome same.1) (outside_same entry)
      (List.append_nil _).symm (List.append_nil _).symm

/-! ## The task leaves its loop -/

/-- The task ends. What it had in hand or was about to replay is lost. -/
theorem Valid.stop (hv : Valid cfg s) {stage : Stage}
    (running : s.stage.isOver = false) (answered : s.stage.toAnswer = [])
    (halted : (∃ why, stage = .left why ∧ (why = .missedPong → s.awaitingPong = true)) ∨
      stage = .panicked) :
    Valid cfg { s with stage := stage } := by
  have ended : stage.isOver = true ∧ stage.inHand = [] ∧ stage.toAnswer = [] ∧
      stage.asking = [] ∧ stage.unsent = [] ∧ stage ≠ .removed ∧ stage ≠ .welcoming := by
    obtain ⟨why, rfl, _⟩ | rfl := halted <;> exact ⟨rfl, rfl, rfl, rfl, rfl, by simp, by simp⟩
  obtain ⟨isOver, inHand, toAnswer, asking, unsent, notRemoved, notWelcoming⟩ := ended
  have there : s.entry ≠ none := by
    intro none
    rw [hv.entry.mp none] at running
    cases running
  refine { hv with
    entry := ?_, line := ?_, answers := ?_, replays := ?_, streams := ?_, before := ?_,
    closes := ?_, missed := ?_ }
  · exact ⟨fun none => absurd none there, fun removed => absurd removed notRemoved⟩
  · obtain ⟨queue, lost, line⟩ := hv.line
    have none : lost = [] := by
      by_contra some
      cases running.symm.trans (line.lost some).1
    refine ⟨queue, s.stage.inHand, line.entry, line.accounts, ?_, fun some => ⟨isOver, ?_⟩⟩
    · rw [line.popped, none]
      simp [inHand]
    · exact one_inHand some
  · have kept := hv.answers
    rw [answered] at kept
    dsimp only
    rw [toAnswer]
    exact kept
  · obtain ⟨served, lost, eq, windows, halted'⟩ := hv.replays
    have none : lost = [] := by
      by_contra some
      cases running.symm.trans (halted' some).1
    refine ⟨served, s.stage.asking, ?_, windows, fun some => ⟨isOver, one_asking some⟩⟩
    dsimp only
    rw [none, List.append_nil] at eq
    rw [asking, List.append_nil]
    exact eq
  · dsimp only
    rw [unsent, isOver]
    exact hv.streams.stop
  · exact fun welcoming => absurd welcoming notWelcoming
  · have last := hv.closes.grow [] (fun _ => isOver)
    rw [List.append_nil] at last
    exact last
  · intro missed
    obtain ⟨why, rfl, awaiting⟩ | rfl := halted
    · cases missed
      exact awaiting rfl
    · cases missed

/-! ## Writes of the loop -/

/-- The stages of the loop in which nothing is under way but a frame in hand. -/
structure Stage.Plain (stage : Stage) : Prop where
  unsent : stage.unsent = []
  asking : stage.asking = []
  toAnswer : stage.toAnswer = []
  notRemoved : stage ≠ .removed

/-- Something is written that is no ping and not of a replay. -/
theorem Valid.write (hv : Valid cfg s) {w : Sent} {stage : Stage} {greeted : Bool}
    (idle : s.stage.Plain)
    (running : s.stage.isOver = false) (next : stage.Plain) (begun : stage ≠ .welcoming)
    (notMissed : stage ≠ .left .missedPong) (other : w.replay? = none) (notPing : w ≠ .ping)
    (hand : s.stage.inHand = w.frame?.toList ++ stage.inHand)
    (greets : Greets cfg.name greeted (s.sent ++ [w]))
    (closes : ClosesLast (s.sent ++ [w]) s.signals stage.isOver) :
    Valid cfg { s with sent := s.sent ++ [w], stage := stage, greeted := greeted } := by
  have there : s.entry ≠ none := by
    intro none
    exact idle.notRemoved (hv.entry.mp none)
  have streams := hv.streams
  rw [idle.unsent, running] at streams
  refine { hv with
    entry := ?_, line := ?_, answers := ?_, replays := ?_, streams := ?_, before := ?_,
    greets := greets, closes := closes, pings := ?_, missed := ?_, shown := ?_ }
  · exact ⟨fun none => absurd none there, fun removed => absurd removed next.notRemoved⟩
  · obtain ⟨queue, lost, line⟩ := hv.line
    have none : lost = [] := by
      by_contra some
      cases running.symm.trans (line.lost some).1
    refine ⟨queue, lost, line.entry, line.accounts, ?_, fun some => absurd none some⟩
    dsimp only
    rw [line.popped, hand, written_append]
    simp
  · have kept := hv.answers
    rw [idle.toAnswer] at kept
    dsimp only
    rw [next.toAnswer]
    exact kept
  · obtain ⟨served, lost, eq, windows, halted⟩ := hv.replays
    have none : lost = [] := by
      by_contra some
      cases running.symm.trans (halted some).1
    refine ⟨served, lost, ?_, windows, fun some => absurd none some⟩
    dsimp only
    rw [next.asking]
    rw [idle.asking] at eq
    exact eq
  · dsimp only
    rw [next.unsent]
    exact streams.write other _
  · exact fun welcoming => absurd welcoming begun
  · dsimp only
    rw [List.count_append, hv.pings, List.count_singleton]
    simp [notPing]
  · exact fun missed => absurd missed notMissed
  · intro v mem k msg eq
    obtain old | new := List.mem_append.mp mem
    · exact hv.shown v old k msg eq
    · rw [List.mem_singleton.mp new] at eq
      rw [eq] at other
      cases other

theorem plain_selecting : Stage.selecting.Plain := ⟨rfl, rfl, rfl, by simp⟩

/-- While the loop runs nothing closing has been written. -/
theorem Valid.last (hv : Valid cfg s) (running : s.stage.isOver = false) :
    ClosesLast s.sent s.signals false := by
  have last := hv.closes
  rwa [running] at last

end Whdr.SubscriberSocket
