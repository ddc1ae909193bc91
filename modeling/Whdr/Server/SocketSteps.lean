import Whdr.Server.SocketInvariant

/-! Every step of a subscriber connection's task keeps its invariant. -/
namespace Whdr.SubscriberSocket

open OutboundQueue (Call accounts_call accounts_pop controlFrame pushed)
open SubscriberRegistry (parsePatterns)
open SubscriberWs

variable {cfg : Config} {s t : State}

/-! ## The loop -/

theorem welcome_valid (hv : Valid cfg s) {sends : Bool}
    (hs : own cfg s (.welcome sends) = some t) : Valid cfg t := by
  simp only [own] at hs
  split at hs
  · rename_i welcoming
    have idle : s.stage.Plain := by
      rw [welcoming]
      exact ⟨rfl, rfl, rfl, by simp⟩
    have running : s.stage.isOver = false := by rw [welcoming]; rfl
    cases hs
    cases sends with
    | true =>
      refine hv.write idle running plain_selecting (by simp) (by simp) rfl (by simp) ?_ ?_ ?_
      · rw [welcoming]
        rfl
      · rw [hv.before welcoming]
        exact ⟨[], rfl, nofun⟩
      · exact (hv.last running).write rfl
    | false =>
      obtain ⟨queue, lost, line⟩ := hv.line
      have stays := idle.notRemoved
      refine { hv with
        entry := ?_, line := ⟨queue, lost, ?_⟩, answers := ?_, replays := ?_, streams := ?_,
        before := nofun, greets := ?_, closes := ?_, missed := nofun }
      · exact ⟨fun none => absurd (hv.entry.mp none) stays, nofun⟩
      · refine ⟨line.entry, line.accounts, ?_, ?_⟩
        · have popped := line.popped
          rw [welcoming] at popped
          exact popped
        · have halted := line.lost
          rw [welcoming] at halted
          exact halted
      · have kept := hv.answers
        rw [welcoming] at kept
        exact kept
      · have kept := hv.replays
        rw [welcoming] at kept
        exact kept
      · have kept := hv.streams
        rw [welcoming] at kept
        exact kept
      · change Greets cfg.name false s.sent
        rw [hv.before welcoming]
        exact ⟨[], rfl, nofun⟩
      · exact hv.last running
  · cases hs

theorem tick_valid (hv : Valid cfg s) {sends : Bool} (hs : own cfg s (.tick sends) = some t) :
    Valid cfg t := by
  simp only [own] at hs
  split at hs
  · rename_i selecting
    have running : s.stage.isOver = false := by rw [selecting]; rfl
    have begun : s.stage ≠ .welcoming := by simp [selecting]
    have answered : s.stage.toAnswer = [] := by rw [selecting]; rfl
    split at hs
    · rename_i awaiting
      cases hs
      exact hv.stop running answered
        (.inl ⟨_, rfl, fun _ => awaiting⟩)
    · rename_i quiet
      cases sends with
      | false =>
        cases hs
        exact hv.stop running answered (.inl ⟨_, rfl, nofun⟩)
      | true =>
        cases hs
        have streams := hv.streams
        rw [selecting] at streams
        obtain ⟨queue, lost, line⟩ := hv.line
        refine { hv with
          line := ⟨queue, lost, line.entry, line.accounts, ?_, line.lost⟩, streams := ?_,
          before := ?_, greets := hv.greets.write rfl, closes := ?_, beats := ?_,
          pings := ?_, missed := fun _ => rfl, shown := ?_ }
        · dsimp only
          rw [written_append]
          simpa [Sent.frame?] using line.popped
        · dsimp only
          rw [selecting]
          exact streams.write rfl _
        · exact fun welcoming => absurd welcoming begun
        · dsimp only
          rw [running]
          exact (hv.last running).write rfl
        · refine ⟨by simp, beats_ping hv.beats.2 ?_⟩
          exact fun last => quiet (hv.beats.1.mpr last)
        · simp [hv.pings]
        · intro v mem k msg eq
          obtain old | new := List.mem_append.mp mem
          · exact hv.shown v old k msg eq
          · rw [List.mem_singleton.mp new] at eq
            cases eq
  · cases hs

/-! ## The queue -/

theorem entry_modify (f : Subscriber → Subscriber) :
    (s.setRegistry (s.plane.registry.modify s.conn f)).entry = s.entry.map f := by
  rw [State.entry, State.setRegistry]
  dsimp only
  rw [SubscriberRegistry.get?_modify, if_pos rfl]
  rfl

theorem logged_modify (f : Subscriber → Subscriber) :
    (s.plane.registry.modify s.conn f).delivery.isSome = s.logged := by
  rw [(SubscriberRegistry.modify_same _ _ _).1, State.logged]

theorem popFrame_pop {r r' : SubscriberRegistry} {id : Nat} {frame : Frame}
    (popped : r.popFrame id = some (frame, r')) : ∃ sub queue, r.subscribers.get? id = some sub ∧
      sub.queue.pop = some (frame, queue) ∧
      r' = r.modify id fun sub => { sub with queue := queue } := by
  simp only [SubscriberRegistry.popFrame] at popped
  split at popped
  · cases popped
  · rename_i sub entry
    obtain ⟨⟨first, queue⟩, isPop, eq⟩ := Option.map_eq_some_iff.mp popped
    cases eq
    exact ⟨sub, queue, entry, isPop, by simp only [SubscriberRegistry.modify, entry]⟩

/-- The task changes the queue in its entry and goes on with its loop. -/
theorem Valid.own (hv : Valid cfg s) {sub : Subscriber} {queue : OutboundQueue} {stage : Stage}
    {calls : List Call} {popped : List Frame} (entry : s.entry = some sub)
    (running : s.stage.isOver = false)
    (next : stage.isOver = false ∧ stage.unsent = s.stage.unsent ∧
      stage.asking = s.stage.asking ∧ stage ≠ .welcoming)
    (line : ∀ lost, Line cfg s sub.queue lost → Line cfg
      { s.setRegistry (s.plane.registry.modify s.conn fun sub => { sub with queue := queue }) with
        stage := stage, calls := calls, popped := popped } queue lost)
    (answers : calls.filterMap control ++ stage.toAnswer =
      s.calls.filterMap control ++ s.stage.toAnswer)
    (offered : ∀ msg, .pushEvent msg ∈ calls → .pushEvent msg ∈ s.calls) :
    Valid cfg
      { s.setRegistry (s.plane.registry.modify s.conn fun sub => { sub with queue := queue }) with
        stage := stage, calls := calls, popped := popped } := by
  obtain ⟨isRunning, unsent, asking, stillBegun⟩ := next
  have logged := @logged_modify s fun sub => { sub with queue := queue }
  have entry' := @entry_modify s fun sub => { sub with queue := queue }
  rw [entry] at entry'
  constructor
  · have same := (SubscriberRegistry.modify_same s.plane.registry s.conn
      fun sub => { sub with queue := queue }).2
    exact same.symm ▸ hv.fresh
  · constructor
    · intro none
      cases entry'.symm.trans none
    · rintro rfl
      cases isRunning
  · intro other found
    cases entry'.symm.trans found
    exact hv.sub sub entry
  · obtain ⟨old, lost, isLine⟩ := hv.line
    have same := isLine.entry sub entry
    exact ⟨queue, lost, line lost (same ▸ isLine)⟩
  · exact answers.trans (by rw [hv.answers, ← logged]; rfl)
  · obtain ⟨served, lost, eq, windows, halted⟩ := hv.replays
    have none : lost = [] := by
      by_contra some
      cases running.symm.trans (halted some).1
    refine ⟨served, lost, ?_, windows, fun some => absurd none some⟩
    rw [← asking, ← logged] at eq
    exact eq
  · have streams := hv.streams
    rw [← unsent, running, ← isRunning] at streams
    exact streams
  · exact fun welcoming => absurd welcoming stillBegun
  · exact hv.greets
  · have last := hv.last running
    rw [← isRunning] at last
    exact last
  · exact hv.beats
  · exact hv.pings
  · rintro rfl
    cases isRunning
  · exact fun msg mem => hv.offered msg (offered msg mem)
  · exact hv.windows
  · exact hv.shown

theorem pop_valid (hv : Valid cfg s) (hs : own cfg s .pop = some t) : Valid cfg t := by
  simp only [own] at hs
  split at hs
  · rename_i selecting
    obtain ⟨⟨frame, r⟩, popped, rfl⟩ := Option.map_eq_some_iff.mp hs
    obtain ⟨sub, queue, entry, isPop, rfl⟩ := popFrame_pop popped
    apply hv.own entry
    · rw [selecting]
      rfl
    · rw [selecting]
      exact ⟨rfl, rfl, rfl, by simp⟩
    · intro lost line
      have none : lost = [] := by
        by_contra some
        have halted := (line.lost some).1
        rw [selecting] at halted
        cases halted
      refine ⟨?_, ?_, ?_, fun some => absurd none some⟩
      · intro other found
        have entry' := @entry_modify s fun sub => { sub with queue := queue }
        rw [show s.entry = some sub from entry] at entry'
        cases entry'.symm.trans found
        rfl
      · have acc := accounts_pop isPop line.accounts
        rw [List.countP_append, pushed, List.flatMap_append]
        dsimp only
        simpa [Call.pushed, Call.isPushEvent, pushed] using acc
      · have inHand := line.popped
        rw [selecting, none] at inHand
        dsimp only
        rw [inHand, none]
        simp [Stage.inHand, State.setRegistry]
    · rw [selecting, List.filterMap_append]
      simp [control, Stage.toAnswer]
    · intro msg mem
      obtain old | new := List.mem_append.mp mem
      · exact old
      · cases List.mem_singleton.mp new
  · cases hs

theorem take_valid (hv : Valid cfg s) (hs : own cfg s .take = some t) : Valid cfg t := by
  simp only [own] at hs
  split at hs
  · rename_i frame sub isPopped entry
    cases hs
    -- Whether a lag was pending or not, the frame stays in hand.
    have next : ∀ lag : Option Nat, ∃ stage : Stage,
        lag.elim (Stage.writing frame) (Stage.lagTaken · frame) = stage ∧
          stage.isOver = false ∧ stage.unsent = [] ∧ stage.asking = [] ∧ stage ≠ .welcoming ∧
          stage.inHand = [frame] ∧ stage.toAnswer = [] := by
      intro lag
      cases lag with
      | none => exact ⟨_, rfl, rfl, rfl, rfl, by simp, rfl, rfl⟩
      | some dropped => exact ⟨_, rfl, rfl, rfl, rfl, by simp, rfl, rfl⟩
    obtain ⟨stage, isStage, isOver, unsent, asking, begun, inHand, toAnswer⟩ :=
      next sub.queue.takePendingLag.1
    have valid : Valid cfg { s.setRegistry (s.plane.registry.modify s.conn fun other =>
        { other with queue := sub.queue.takePendingLag.2 }) with
        stage := stage, calls := s.calls, popped := s.popped } := by
      apply hv.own entry
      · rw [isPopped]
        rfl
      · rw [isPopped, isOver, unsent, asking]
        exact ⟨rfl, rfl, rfl, begun⟩
      · intro lost line
        have none : lost = [] := by
          by_contra some
          have halted := (line.lost some).1
          rw [isPopped] at halted
          cases halted
        obtain ⟨limits, count, size, controls, order, recent, delivered, accounted⟩ := line.accounts
        refine ⟨?_, ⟨limits, count, size, controls, order, recent, delivered, accounted⟩, ?_,
          fun some => absurd none some⟩
        · intro other found
          have entry' := @entry_modify s fun other =>
            { other with queue := sub.queue.takePendingLag.2 }
          rw [entry] at entry'
          cases entry'.symm.trans found
          rfl
        · have held := line.popped
          rw [isPopped] at held
          dsimp only
          rw [inHand]
          exact held
      · rw [isPopped, toAnswer]
        rfl
      · exact fun _ mem => mem
    rw [← isStage] at valid
    cases lag : sub.queue.takePendingLag.1 with
    | none =>
      rw [lag] at valid
      exact valid
    | some dropped =>
      rw [lag] at valid
      exact valid
  · cases hs

theorem answer_valid (hv : Valid cfg s) (hs : own cfg s .answer = some t) : Valid cfg t := by
  simp only [own] at hs
  split at hs
  · rename_i answer rest answering
    cases hs
    have there : s.entry ≠ none := by
      intro none
      have removed := hv.entry.mp none
      rw [answering] at removed
      cases removed
    obtain ⟨sub, entry⟩ := Option.ne_none_iff_exists'.mp there
    have pushes : pushControl s.plane.registry s.conn answer = s.plane.registry.modify s.conn
        fun other => { other with queue := sub.queue.pushControl answer } := by
      simp only [pushControl, SubscriberRegistry.modify]
      rw [show s.plane.registry.subscribers.get? s.conn = some sub from entry]
    rw [pushes]
    apply hv.own entry
    · rw [answering]
      rfl
    · rw [answering]
      exact ⟨isOver_answers _, unsent_answers _, asking_answers _, (answers_ne rfl).1⟩
    · intro lost line
      have none : lost = [] := by
        by_contra some
        have halted := (line.lost some).1
        rw [answering] at halted
        cases halted
      refine ⟨?_, ?_, ?_, fun some => absurd none some⟩
      · intro other found
        have entry' := @entry_modify s fun other =>
          { other with queue := sub.queue.pushControl answer }
        rw [entry] at entry'
        cases entry'.symm.trans found
        rfl
      · have acc := accounts_call (c := .pushControl answer) line.accounts rfl
        rw [List.countP_append, pushed, List.flatMap_append]
        dsimp only
        simpa [Call.pushed, Call.isPushEvent, pushed, State.setRegistry] using acc
      · have held := line.popped
        rw [answering] at held
        dsimp only
        rw [inHand_answers]
        exact held
    · rw [answering, List.filterMap_append, toAnswer_answers]
      simp [control, Stage.toAnswer]
    · intro msg mem
      obtain old | new := List.mem_append.mp mem
      · exact old
      · cases List.mem_singleton.mp new
  · cases hs

/-! ## Sends -/

/-- What an answer can be. -/
theorem answers_control {logged : Bool} {command : SubClientMsg} {msg : SubServerMsg}
    (mem : msg ∈ answers logged command) :
    (∃ op, msg = .ok op) ∨ (∃ op text, msg = .error op text) ∨ msg = .pong := by
  cases command with
  | subscribe patterns replay =>
    simp only [answers] at mem
    split at mem
    · exact .inr (.inl ⟨_, _, List.mem_singleton.mp mem⟩)
    · split at mem
      · exact .inl ⟨_, List.mem_singleton.mp mem⟩
      · split at mem
        · cases mem
        · obtain first | second := List.mem_cons.mp mem
          · exact .inl ⟨_, first⟩
          · exact .inr (.inl ⟨_, _, List.mem_singleton.mp second⟩)
  | unsubscribe patterns => exact .inl ⟨_, List.mem_singleton.mp mem⟩
  | ping => exact .inr (.inr (List.mem_singleton.mp mem))

/-- What was popped is an event offered or an answer. -/
theorem popped_cases (hv : Valid cfg s) {frame : Frame} (mem : frame ∈ s.popped) :
    (∃ e, frame = OutboundQueue.eventFrame (.event e) ∧ Asked s.asked e.channel) ∨
      ∃ logged command msg, frame = controlFrame msg ∧ msg ∈ answers logged command := by
  obtain ⟨queue, lost, line⟩ := hv.line
  have isPushed := line.accounts.order.subset (List.mem_append_left _ mem)
  obtain ⟨call, isCall, isFrame⟩ := List.mem_flatMap.mp isPushed
  cases call with
  | pop => cases isFrame
  | pushEvent msg =>
    rw [Call.pushed] at isFrame
    split at isFrame
    · obtain ⟨e, rfl, asked⟩ := hv.offered msg isCall
      exact .inl ⟨e, List.mem_singleton.mp isFrame, asked⟩
    · cases isFrame
  | pushControl msg =>
    rw [Call.pushed, List.mem_singleton] at isFrame
    have isAnswer : msg ∈ s.asked.flatMap (answers s.logged) := by
      rw [← hv.answers]
      exact List.mem_append_left _ (List.mem_filterMap.mpr ⟨_, isCall, rfl⟩)
    obtain ⟨command, _, isAnswer⟩ := List.mem_flatMap.mp isAnswer
    exact .inr ⟨_, command, msg, isFrame, isAnswer⟩

/-- Nothing in the queue closes the connection. -/
theorem popped_open (hv : Valid cfg s) {frame : Frame} (mem : frame ∈ s.popped) :
    frame.closing = false := by
  obtain ⟨e, rfl, _⟩ | ⟨logged, command, msg, rfl, isAnswer⟩ := popped_cases hv mem
  · rfl
  · obtain ⟨op, rfl⟩ | ⟨op, text, rfl⟩ | rfl := answers_control isAnswer <;> rfl

/-- The frame in hand was popped. -/
theorem inHand_open (hv : Valid cfg s) {frame : Frame} (inHand : frame ∈ s.stage.inHand) :
    frame.closing = false := by
  obtain ⟨queue, lost, line⟩ := hv.line
  apply popped_open hv
  rw [line.popped]
  exact List.mem_append_left _ (List.mem_append_right _ inHand)

/-- The frame to be streamed next is one of the last replay. -/
theorem Valid.streaming_last (hv : Valid cfg s) {frame : SubServerMsg} {rest : List SubServerMsg}
    (streaming : s.stage = .streaming frame rest) :
    ∃ replay, s.replays[s.replays.length - 1]? = some replay ∧ frame ∈ replay.frames := by
  have streams := hv.streams
  rw [streaming] at streams
  have nonempty : s.replays.map Replay.frames ≠ [] := streams.begun (by simp [Stage.unsent])
  have positive : 0 < s.replays.length := by simpa using List.length_pos_of_ne_nil nonempty
  have found := List.getElem?_eq_getElem (Nat.sub_lt positive Nat.one_pos)
  have isShown : (s.replays.map Replay.frames)[s.replays.length - 1]? =
      some s.replays[s.replays.length - 1].frames := by
    rw [List.getElem?_map, found]
    rfl
  obtain ⟨before, shown, left, after, block⟩ := streams.blocks _ _ isShown
  have isLeft := block.whole rfl
  have last : (s.replays.length - 1 + 1 == (s.replays.map Replay.frames).length) = true := by
    simp
    omega
  rw [last, if_pos rfl] at isLeft
  refine ⟨_, found, ?_⟩
  rw [block.frames, isLeft]
  exact List.mem_append_right _ List.mem_cons_self

/-- The next frame of a replay is written. -/
theorem Valid.stream (hv : Valid cfg s) {frame : SubServerMsg} {rest : List SubServerMsg}
    (streaming : s.stage = .streaming frame rest) :
    Valid cfg { s with
      sent := s.sent ++ [.streamed (s.replays.length - 1) frame], stage := .streams rest } := by
  have running : s.stage.isOver = false := by rw [streaming]; rfl
  have streams := hv.streams
  rw [streaming] at streams
  obtain ⟨queue, lost, line⟩ := hv.line
  have none : lost = [] := by
    by_contra some
    cases running.symm.trans (line.lost some).1
  refine { hv with
    entry := ?_, line := ⟨queue, lost, line.entry, line.accounts, ?_, fun some =>
      absurd none some⟩, answers := ?_, replays := ?_, streams := ?_, before := ?_,
    greets := hv.greets.write rfl, closes := ?_, pings := ?_, missed := ?_, shown := ?_ }
  · constructor
    · intro gone
      have removed := hv.entry.mp gone
      rw [streaming] at removed
      cases removed
    · intro removed
      exact absurd rfl ((streams_ne removed).2.1)
  · have popped := line.popped
    rw [streaming] at popped
    dsimp only
    rw [written_append, inHand_streams]
    simpa [Sent.frame?, Stage.inHand] using popped
  · have kept := hv.answers
    rw [streaming] at kept
    dsimp only
    rw [toAnswer_streams]
    exact kept
  · obtain ⟨served, late, eq, windows, halted⟩ := hv.replays
    rw [streaming] at eq halted
    refine ⟨served, late, ?_, windows, ?_⟩
    · dsimp only
      rw [asking_streams]
      exact eq
    · intro some
      cases (halted some).1
  · dsimp only
    have next := streams.next
    rw [List.length_map] at next
    rw [unsent_streams, isOver_streams]
    exact next
  · exact fun welcoming => absurd rfl ((streams_ne welcoming).1)
  · dsimp only
    rw [isOver_streams]
    exact (hv.last running).write rfl
  · simp [hv.pings]
  · exact fun missed => absurd rfl ((streams_ne missed).2.2 _)
  · intro v mem k msg eq
    obtain old | new := List.mem_append.mp mem
    · exact hv.shown v old k msg eq
    · rw [List.mem_singleton.mp new] at eq
      cases eq
      exact hv.streaming_last streaming

theorem send_valid (hv : Valid cfg s) {sends : Bool} (hs : own cfg s (.send sends) = some t) :
    Valid cfg t := by
  simp only [own] at hs
  split at hs
  · rename_i dropped frame taken
    have running : s.stage.isOver = false := by rw [taken]; rfl
    cases hs
    cases sends with
    | false =>
      exact hv.stop running (by rw [taken]; rfl) (.inl ⟨_, rfl, nofun⟩)
    | true =>
      apply hv.write _ running _ (by simp) (by simp) rfl (by simp)
      · rw [taken]
        rfl
      · exact hv.greets.write rfl
      · exact (hv.last running).write rfl
      · rw [taken]
        exact ⟨rfl, rfl, rfl, by simp⟩
      · exact ⟨rfl, rfl, rfl, by simp⟩
  · rename_i frame writing
    have running : s.stage.isOver = false := by rw [writing]; rfl
    cases hs
    cases sends with
    | false =>
      exact hv.stop running (by rw [writing]; rfl) (.inl ⟨_, rfl, nofun⟩)
    | true =>
      have open_ : frame.closing = false := by
        apply inHand_open hv
        rw [writing]
        exact List.mem_singleton_self _
      simp only [State.send, ↓reduceIte, open_, Bool.false_eq_true]
      apply hv.write _ running plain_selecting (by simp) (by simp) rfl (by simp)
      · rw [writing]
        rfl
      · exact hv.greets.write rfl
      · exact (hv.last running).write open_
      · rw [writing]
        exact ⟨rfl, rfl, rfl, by simp⟩
  · rename_i frame rest streaming
    have running : s.stage.isOver = false := by rw [streaming]; rfl
    cases hs
    cases sends with
    | false =>
      exact hv.stop running (by rw [streaming]; rfl) (.inl ⟨_, rfl, nofun⟩)
    | true => exact hv.stream streaming
  · cases hs

theorem closeChanged_valid (hv : Valid cfg s) {sends : Bool}
    (hs : own cfg s (.closeChanged sends) = some t) : Valid cfg t := by
  simp only [own] at hs
  split at hs
  · rename_i selecting _
    cases hs
    exact hv.stop (by rw [selecting]; rfl) (by rw [selecting]; rfl) (.inl ⟨_, rfl, nofun⟩)
  · rename_i sub selecting entry
    obtain ⟨reason, signalled, rfl⟩ := Option.map_eq_some_iff.mp hs
    have running : s.stage.isOver = false := by rw [selecting]; rfl
    have isSignal : reason ∈ s.signals := by
      have last := (hv.sub sub entry).2.1
      rw [signalled] at last
      exact List.mem_of_getLast? last.symm
    cases sends with
    | false =>
      exact hv.stop running (by rw [selecting]; rfl) (.inl ⟨_, rfl, nofun⟩)
    | true =>
      apply hv.write _ running _ (by simp) (by simp) rfl (by simp)
      · rw [selecting]
        rfl
      · exact hv.greets.write rfl
      · exact (hv.last running).close isSignal
      · rw [selecting]
        exact plain_selecting
      · exact ⟨rfl, rfl, rfl, by simp⟩
  · cases hs

/-! ## Replays -/

/-- The task prepares the same replay. -/
theorem Valid.load (hv : Valid cfg s) {afterSeq : Nat} {parsed : List Pattern}
    {now next : Replaying} (at_ : s.stage = .replaying afterSeq parsed now) :
    Valid cfg { s with stage := .replaying afterSeq parsed next } := by
  obtain ⟨queue, lost, line⟩ := hv.line
  have entry := hv.entry
  have answers := hv.answers
  have replays := hv.replays
  have streams := hv.streams
  have closes := hv.closes
  have popped := line.popped
  have halted := line.lost
  rw [at_] at entry answers replays streams closes popped halted
  refine { hv with
    entry := ⟨fun none => absurd (entry.mp none) (by simp), fun removed => absurd removed (by simp)⟩
    line := ⟨queue, lost, line.entry, line.accounts, popped, halted⟩, answers := answers,
    replays := replays, streams := streams, before := fun welcoming => absurd welcoming (by simp),
    closes := closes, missed := fun missed => absurd missed (by simp) }

theorem loadFloor_valid (hv : Valid cfg s) (hs : own cfg s .loadFloor = some t) : Valid cfg t := by
  simp only [own] at hs
  split at hs
  · rename_i at_ _
    cases hs
    exact hv.load at_
  · cases hs

theorem loadHead_valid (hv : Valid cfg s) (hs : own cfg s .loadHead = some t) : Valid cfg t := by
  simp only [own] at hs
  split at hs
  · rename_i at_ _
    cases hs
    exact hv.load at_
  · cases hs

theorem replayFrames_window {checks : Bool} {afterSeq floor head : Nat} {parsed : List Pattern}
    {table : DeliveryLog.Table} {frames : List SubServerMsg}
    (h : replayFrames checks afterSeq parsed floor head table = some frames) :
    Window (afterSeq, parsed) ⟨table, frames⟩ := by
  obtain ⟨gap, predates, rows, shape⟩ := replayFrames_eq h
  cases gap with
  | false =>
    exact ⟨none, eventsOf frames, head, shape, replayed_ascending h, fun e => mem_replayed rows⟩
  | true =>
    have positive : floor - 1 + 1 = floor := by
      have := pos_of_predates predates
      omega
    refine ⟨some floor, eventsOf frames, head, shape, replayed_ascending h, fun e => ?_⟩
    rw [mem_replayed rows, if_pos rfl, positive]
    rfl

/-- A replay being prepared was asked for. -/
theorem asking_asked {afterSeq : Nat} {parsed : List Pattern} {logged : Bool}
    {asked : List SubClientMsg} (mem : (afterSeq, parsed) ∈ asked.flatMap (replayOf logged)) :
    ∃ patterns replay, .subscribe patterns replay ∈ asked ∧ requested patterns = parsed := by
  obtain ⟨command, isAsked, isReplay⟩ := List.mem_flatMap.mp mem
  cases command with
  | subscribe patterns replay =>
    cases replay with
    | none => cases isReplay
    | some replay =>
      rw [replayOf] at isReplay
      split at isReplay
      · cases List.mem_singleton.mp isReplay
        exact ⟨patterns, _, isAsked, rfl⟩
      · cases isReplay
  | unsubscribe patterns => cases isReplay
  | ping => cases isReplay

theorem readRows_valid (hv : Valid cfg s) {reads : Bool}
    (hs : own cfg s (.readRows reads) = some t) : Valid cfg t := by
  simp only [own] at hs
  split at hs
  · rename_i afterSeq parsed floor head shared at_ log
    have running : s.stage.isOver = false := by rw [at_]; rfl
    have answered : s.stage.toAnswer = [] := by rw [at_]; rfl
    split at hs
    · cases hs
      exact hv.stop running answered (.inr rfl)
    · rename_i frames isFrames
      cases reads with
      | false =>
        cases hs
        exact hv.stop running answered (.inl ⟨_, rfl, nofun⟩)
      | true =>
        cases hs
        obtain ⟨served, late, eq, windows, halted⟩ := hv.replays
        have none : late = [] := by
          by_contra some
          cases running.symm.trans (halted some).1
        rw [at_, none, List.append_nil] at eq
        have window := replayFrames_window isFrames
        obtain ⟨queue, lost, line⟩ := hv.line
        have streams := hv.streams
        rw [at_] at streams
        refine { hv with
          entry := ?_, line := ⟨queue, lost, line.entry, line.accounts, ?_, ?_⟩, answers := ?_,
          replays := ⟨served ++ [(afterSeq, parsed)], [], ?_, ?_, nofun⟩, streams := ?_,
          before := ?_, closes := ?_, missed := ?_, windows := ?_, shown := ?_ }
        · constructor
          · intro gone
            have removed := hv.entry.mp gone
            rw [at_] at removed
            cases removed
          · exact fun removed => absurd rfl ((streams_ne removed).2.1)
        · have popped := line.popped
          rw [at_] at popped
          dsimp only
          rw [inHand_streams]
          exact popped
        · intro some
          cases running.symm.trans (line.lost some).1
        · have kept := hv.answers
          rw [answered] at kept
          dsimp only
          rw [toAnswer_streams]
          exact kept
        · dsimp only
          rw [asking_streams, List.append_nil, List.append_nil]
          exact eq
        · exact List.rel_append windows (.cons window .nil)
        · dsimp only
          rw [unsent_streams, isOver_streams, List.map_append]
          exact streams.start frames
        · exact fun welcoming => absurd rfl ((streams_ne welcoming).1)
        · dsimp only
          rw [isOver_streams]
          exact hv.last running
        · exact fun missed => absurd rfl ((streams_ne missed).2.2 _)
        · intro other mem e isEvent
          obtain old | new := List.mem_append.mp mem
          · exact hv.windows other old e isEvent
          · rw [List.mem_singleton.mp new] at isEvent
            have isAsked : (afterSeq, parsed) ∈ s.asked.flatMap (replayOf s.logged) := by
              rw [eq]
              exact List.mem_append_right _ (List.mem_singleton_self _)
            obtain ⟨patterns, replay, asked, rfl⟩ := asking_asked isAsked
            exact ⟨patterns, replay, asked, (replayed_row isFrames isEvent).2.2⟩
        · intro v mem k msg isStreamed
          obtain ⟨other, found, inside⟩ := hv.shown v mem k msg isStreamed
          refine ⟨other, ?_, inside⟩
          rw [List.getElem?_append_left (List.getElem?_eq_some_iff.mp found).1]
          exact found
  · cases hs

/-! ## The client's messages -/

/-- What a command does to the registry and where it takes the task. -/
structure Handled (r : SubscriberRegistry) (id : Nat) (msg : SubClientMsg)
    (r' : SubscriberRegistry) (stage : Stage) (f : Subscriber → Subscriber) : Prop where
  registry : r' = r.modify id f
  kept : ∀ sub, (f sub).name = sub.name ∧ (f sub).closeTx = sub.closeTx ∧
    (f sub).queue = sub.queue
  patterns : ∀ sub, ∀ p ∈ (f sub).patterns, p ∈ sub.patterns ∨
    ∃ patterns replay, msg = .subscribe patterns replay ∧ p ∈ requested patterns
  toAnswer : stage.toAnswer = answers r.delivery.isSome msg
  asking : stage.asking = replayOf r.delivery.isSome msg
  inHand : stage.inHand = []
  unsent : stage.unsent = []
  running : stage.isOver = false
  begun : stage ≠ .welcoming

/-- The task goes on to push these answers. -/
theorem handled_answers (r : SubscriberRegistry) (id : Nat) (msg : SubClientMsg)
    (f : Subscriber → Subscriber) (replies : List SubServerMsg)
    (kept : ∀ sub, (f sub).name = sub.name ∧ (f sub).closeTx = sub.closeTx ∧
      (f sub).queue = sub.queue)
    (patterns : ∀ sub, ∀ p ∈ (f sub).patterns, p ∈ sub.patterns ∨
      ∃ patterns replay, msg = .subscribe patterns replay ∧ p ∈ requested patterns)
    (toAnswer : replies = answers r.delivery.isSome msg)
    (asking : replayOf r.delivery.isSome msg = []) :
    Handled r id msg (r.modify id f) (.answers replies) f where
  registry := rfl
  kept := kept
  patterns := patterns
  toAnswer := (toAnswer_answers _).trans toAnswer
  asking := (asking_answers _).trans asking.symm
  inHand := inHand_answers _
  unsent := unsent_answers _
  running := isOver_answers _
  begun := (answers_ne rfl).1

theorem handleText_handled (r : SubscriberRegistry) (id : Nat) (msg : SubClientMsg) :
    ∃ f, Handled r id msg (handleText r id msg).1 (handleText r id msg).2 f := by
  cases msg with
  | unsubscribe patterns =>
    let f : Subscriber → Subscriber := fun sub =>
      { sub with patterns := sub.patterns.filter fun p => !patterns.any (· == p.value) }
    refine ⟨f, handled_answers r id (.unsubscribe patterns) f [.ok "unsubscribe"]
      (fun _ => ⟨rfl, rfl, rfl⟩) ?_ rfl rfl⟩
    intro sub p mem
    exact .inl (List.mem_of_mem_filter mem)
  | ping =>
    have same := r.modify_self id
    refine ⟨fun sub => sub, ?_⟩
    have handled := handled_answers r id .ping (fun sub => sub) [.pong]
      (fun _ => ⟨rfl, rfl, rfl⟩) (fun _ _ mem => .inl mem) rfl rfl
    rw [same] at handled
    exact handled
  | subscribe patterns replay =>
    simp only [handleText, SubscriberRegistry.subscribe]
    cases parse : parsePatterns patterns with
    | error msg =>
      have same := r.modify_self id
      refine ⟨fun sub => sub, ?_⟩
      have handled := handled_answers r id (.subscribe patterns replay) (fun sub => sub)
        [.error "subscribe" msg] (fun _ => ⟨rfl, rfl, rfl⟩) (fun _ _ mem => .inl mem)
        (by simp only [answers, parse])
        (by cases replay <;> simp [replayOf, parse, Except.isOk, Except.toBool])
      rw [same] at handled
      exact handled
    | ok parsed =>
      let f : Subscriber → Subscriber := fun sub =>
        { sub with patterns := SubscriberRegistry.addPatterns sub.patterns parsed }
      have isRequested : requested patterns = parsed := requested_of_parsed parse
      have kept : ∀ sub, (f sub).name = sub.name ∧ (f sub).closeTx = sub.closeTx ∧
          (f sub).queue = sub.queue := fun _ => ⟨rfl, rfl, rfl⟩
      have added : ∀ sub, ∀ p ∈ (f sub).patterns, p ∈ sub.patterns ∨
          ∃ patterns' replay', SubClientMsg.subscribe patterns replay =
            .subscribe patterns' replay' ∧ p ∈ requested patterns' := by
        intro sub p mem
        obtain old | new := SubscriberRegistry.mem_addPatterns.mp mem
        · exact .inl old
        · exact .inr ⟨patterns, replay, rfl, isRequested ▸ new⟩
      refine ⟨f, ?_⟩
      cases replay with
      | none =>
        exact handled_answers r id _ f [.ok "subscribe"] kept added (by simp [answers, parse]) rfl
      | some replay =>
        dsimp only
        have delivery := (SubscriberRegistry.modify_same r id f).1
        cases log : r.delivery with
        | none =>
          rw [show (r.modify id f).delivery = none from delivery.trans log]
          exact handled_answers r id _ f
            [.ok "subscribe", .error "replay" "durable delivery is not enabled"] kept added
            (by simp [answers, parse, log]) (by simp [replayOf, log])
        | some shared =>
          rw [show (r.modify id f).delivery = some shared from delivery.trans log]
          exact ⟨rfl, kept, added, by simp [answers, parse, log, Stage.toAnswer],
            by simp [replayOf, parse, log, Stage.asking, Except.isOk, Except.toBool], rfl, rfl, rfl,
            by simp⟩

theorem text_valid (hv : Valid cfg s) (selecting : s.stage = .selecting) (msg : SubClientMsg) :
    Valid cfg { s.setRegistry (handleText s.plane.registry s.conn msg).1 with
      stage := (handleText s.plane.registry s.conn msg).2, asked := s.asked ++ [msg] } := by
  obtain ⟨f, handled⟩ := handleText_handled s.plane.registry s.conn msg
  generalize (handleText s.plane.registry s.conn msg).1 = r' at handled
  generalize (handleText s.plane.registry s.conn msg).2 = stage at handled
  obtain ⟨rfl, kept, patterns, toAnswer, asking, inHand, unsent, running, begun⟩ := handled
  have running' : s.stage.isOver = false := by rw [selecting]; rfl
  have logged := @logged_modify s f
  have entry' := @entry_modify s f
  have same := (SubscriberRegistry.modify_same s.plane.registry s.conn f).2
  obtain ⟨sub, entry⟩ := Option.ne_none_iff_exists'.mp fun none => by
    have removed := hv.entry.mp none
    rw [selecting] at removed
    cases removed
  rw [entry] at entry'
  obtain ⟨queue, lost, line⟩ := hv.line
  have none : lost = [] := by
    by_contra some
    cases running'.symm.trans (line.lost some).1
  constructor
  · exact same.symm ▸ hv.fresh
  · constructor
    · intro none
      cases entry'.symm.trans none
    · rintro rfl
      cases running
  · intro other found
    cases entry'.symm.trans found
    obtain ⟨name, close, held⟩ := hv.sub sub entry
    obtain ⟨sameName, sameClose, _⟩ := kept sub
    refine ⟨sameName.trans name, sameClose.trans close, ?_⟩
    intro p mem
    obtain old | ⟨requests, replay, rfl, new⟩ := patterns sub p mem
    · obtain ⟨requests, replay, asked, inside⟩ := held p old
      exact ⟨requests, replay, List.mem_append_left _ asked, inside⟩
    · exact ⟨requests, replay, List.mem_append_right _ (List.mem_singleton_self _), new⟩
  · refine ⟨queue, lost, ?_, line.accounts, ?_, fun some => absurd none some⟩
    · intro other found
      cases entry'.symm.trans found
      exact (kept sub).2.2.trans (line.entry sub entry)
    · have popped := line.popped
      rw [selecting] at popped
      dsimp only
      rw [inHand]
      exact popped
  · have before := hv.answers
    rw [selecting] at before
    rw [List.flatMap_append, List.flatMap_singleton]
    dsimp only
    rw [toAnswer]
    change _ = s.asked.flatMap (answers (s.plane.registry.modify s.conn f).delivery.isSome) ++
      answers (s.plane.registry.modify s.conn f).delivery.isSome msg
    rw [logged, ← before]
    simp [Stage.toAnswer, State.logged, State.setRegistry]
  · obtain ⟨served, late, eq, windows, halted⟩ := hv.replays
    have timely : late = [] := by
      by_contra some
      cases running'.symm.trans (halted some).1
    refine ⟨served, [], ?_, windows, fun some => absurd rfl some⟩
    rw [selecting, timely] at eq
    rw [List.flatMap_append, List.flatMap_singleton, List.append_nil]
    dsimp only
    rw [asking]
    change s.asked.flatMap (replayOf (s.plane.registry.modify s.conn f).delivery.isSome) ++
      replayOf (s.plane.registry.modify s.conn f).delivery.isSome msg = _
    rw [logged, eq]
    simp [Stage.asking, State.logged]
  · have streams := hv.streams
    rw [selecting] at streams
    dsimp only
    rw [unsent, running]
    exact streams
  · exact fun welcoming => absurd welcoming begun
  · exact hv.greets
  · have last := hv.last running'
    dsimp only
    rw [running]
    exact last
  · exact hv.beats
  · exact hv.pings
  · rintro rfl
    cases running
  · intro pushedMsg mem
    obtain ⟨e, isEvent, asked⟩ := hv.offered pushedMsg mem
    exact ⟨e, isEvent, asked.grow _⟩
  · exact fun frames mem e isEvent => (hv.windows frames mem e isEvent).grow _
  · exact hv.shown

theorem incoming_valid (hv : Valid cfg s) {msg : Incoming} {sends : Bool}
    (hs : own cfg s (.incoming msg sends) = some t) : Valid cfg t := by
  simp only [own] at hs
  split at hs
  · rename_i selecting
    have running : s.stage.isOver = false := by rw [selecting]; rfl
    have leave : ∀ why, (why = .missedPong → s.awaitingPong = true) →
        Valid cfg { s with stage := .left why } := fun why missed =>
      hv.stop running (by rw [selecting]; rfl)
        (.inl ⟨why, rfl, missed⟩)
    cases hs
    cases msg with
    | text text =>
      simp only [receive]
      split
      · exact leave .refused nofun
      · exact text_valid hv selecting _
    | ping payload =>
      cases sends with
      | false => exact hv
      | true =>
        have same : { s with sent := s.sent ++ [.pong payload], stage := .selecting } =
            s.put (.pong payload) true := by
          rw [← selecting]
          rfl
        simp only [receive]
        rw [← same]
        apply hv.write _ running plain_selecting (by simp) (by simp) rfl (by simp)
        · rw [selecting]
          rfl
        · exact hv.greets.write rfl
        · exact (hv.last running).write rfl
        · rw [selecting]
          exact plain_selecting
    | pong payload =>
      obtain ⟨queue, lost, line⟩ := hv.line
      simp only [receive]
      exact { hv with
        line := ⟨queue, lost, line.entry, line.accounts, line.popped, line.lost⟩
        beats := ⟨by simp, beats_pong hv.beats.2⟩, pings := by simp [hv.pings],
        missed := fun missed => absurd (selecting.symm.trans missed) (by simp) }
    | binary payload => exact hv
    | close => exact leave .clientLeft nofun
    | error => exact leave .clientLeft nofun
    | ended => exact leave .clientLeft nofun
  · cases hs

theorem remove_valid (hv : Valid cfg s) (hs : own cfg s .remove = some t) : Valid cfg t := by
  simp only [own] at hs
  split at hs
  · rename_i why left
    cases hs
    have gone : (s.plane.registry.remove s.conn).subscribers.get? s.conn = none := by
      simp [SubscriberRegistry.remove, OrdMap.get?_erase]
    obtain ⟨queue, lost, line⟩ := hv.line
    have popped := line.popped
    have answers := hv.answers
    have replays := hv.replays
    have streams := hv.streams
    have closes := hv.closes
    rw [left] at popped answers replays streams closes
    exact { hv with
      fresh := hv.fresh, entry := ⟨fun _ => rfl, fun _ => gone⟩
      sub := fun sub found => by cases gone.symm.trans found
      line := ⟨queue, lost, fun sub found => (by cases gone.symm.trans found), line.accounts,
        popped, fun some => ⟨rfl, (line.lost some).2⟩⟩
      answers := answers, replays := replays, streams := streams
      before := fun welcoming => absurd welcoming (by simp)
      closes := closes, missed := fun missed => absurd missed (by simp) }
  · cases hs

end Whdr.SubscriberSocket
