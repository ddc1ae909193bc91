import Whdr.Server.SocketSteps

/-! What a subscriber connection may rely on, whatever the client sends, whichever sends fail
and whatever the rest of the server does. -/
namespace Whdr.SubscriberSocket

open OutboundQueue (Call accounts_new pushed)

/-! ## What is promised -/

/-- The event of a write, live or replayed. -/
def Sent.event? : Sent → Option StampedEvent
  | .queued ⟨.event e, _, _⟩ | .streamed _ (.event e) => some e
  | _ => none

/-- The messages of the control frames. -/
def controls (frames : List Frame) : List SubServerMsg :=
  (frames.filter fun frame => !frame.isEvent).map Frame.msg

/-- What holds of a connection at any time. -/
structure Sound (cfg : Config) (s : State) : Prop where
  greets : Greets cfg.name s.greeted s.sent
  closes : ∀ before w after, s.sent = before ++ w :: after → w.closes = true →
    after = [] ∧ s.stage.isOver = true ∧ ∃ reason ∈ s.signals, w = .closing reason
  answered : ∃ queue lost, Line cfg s queue lost ∧
    s.asked.flatMap (answers s.logged) =
      controls (written s.sent ++ s.stage.inHand ++ lost ++ queue.inner) ++ s.stage.toAnswer
  replayed : ∃ served lost,
    s.asked.flatMap (replayOf s.logged) = served ++ s.stage.asking ++ lost ∧
      List.Forall₂ Window served s.replays ∧ (lost ≠ [] → s.stage.isOver = true ∧ lost.length = 1)
  streamed : ∀ k replay, s.replays[k]? = some replay → ∃ before shown unsent after,
    Block s.sent k replay.frames s.stage.unsent s.stage.isOver (k + 1 == s.replays.length)
      before shown unsent after
  wanted : ∀ w ∈ s.sent, ∀ e, w.event? = some e → Asked s.asked e.channel
  pings : s.sent.count .ping = s.beats.count .ping ∧
    ∀ before after, s.beats ≠ before ++ .ping :: .ping :: after
  missed : s.stage = .left .missedPong → s.beats.getLast? = some .ping
  entry : (s.entry = none ↔ s.stage = .removed) ∧ ∀ sub, s.entry = some sub →
    sub.name = cfg.name ∧ sub.closeTx = s.signals.getLast?

variable {cfg : Config} {s t : State}

/-! ## Runs -/

theorem opened_valid (cfg : Config) (p : Plane) : Valid cfg (opened cfg p) := by
  have entry : (opened cfg p).entry = some ⟨cfg.name, none, [],
      .new cfg.queueLen cfg.queueBytes, none⟩ := OrdMap.get?_insert_self _ _ _
  constructor
  · exact Nat.lt_succ_self _
  · exact ⟨fun none => (by cases entry.symm.trans none), nofun⟩
  · intro sub found
    cases entry.symm.trans found
    exact ⟨rfl, rfl, nofun⟩
  · refine ⟨.new cfg.queueLen cfg.queueBytes, [], ?_, accounts_new, rfl, nofun⟩
    intro sub found
    cases entry.symm.trans found
    rfl
  · rfl
  · exact ⟨[], [], rfl, .nil, nofun⟩
  · exact ⟨nofun, nofun, nofun⟩
  · exact fun _ => rfl
  · exact ⟨[], rfl, nofun⟩
  · exact ⟨[], nofun, .inl rfl⟩
  · refine ⟨by simp [opened], ?_⟩
    intro before after eq
    cases before <;> cases eq
  · rfl
  · nofun
  · nofun
  · nofun
  · nofun

theorem step_valid {a : Action} (hv : Valid cfg s) (hs : step cfg s a = some t) : Valid cfg t := by
  cases a with
  | plane a => exact plane_valid hv hs
  | fallback mint tsMs events => exact fallback_valid hv hs
  | closeNamed name reason => exact closeNamed_valid hv hs
  | closeAll reason => exact closeAll_valid hv hs
  | other id change => exact other_valid hv hs
  | welcome sends => exact welcome_valid hv hs
  | tick sends => exact tick_valid hv hs
  | pop => exact pop_valid hv hs
  | take => exact take_valid hv hs
  | send sends => exact send_valid hv hs
  | closeChanged sends => exact closeChanged_valid hv hs
  | incoming msg sends => exact incoming_valid hv hs
  | answer => exact answer_valid hv hs
  | loadFloor => exact loadFloor_valid hv hs
  | loadHead => exact loadHead_valid hv hs
  | readRows reads => exact readRows_valid hv hs
  | remove => exact remove_valid hv hs

theorem controls_pushed (textLen : SubServerMsg → Nat) (maxBytes : Nat) (calls : List Call) :
    controls (pushed textLen maxBytes calls) = calls.filterMap control := by
  induction calls with
  | nil => rfl
  | cons call rest ih =>
    have split : controls (pushed textLen maxBytes (call :: rest)) =
        controls (call.pushed textLen maxBytes) ++ controls (pushed textLen maxBytes rest) := by
      simp [controls, pushed]
    rw [split, ih]
    cases call with
    | pushEvent msg =>
      simp only [Call.pushed]
      split
      · rfl
      · rfl
    | pushControl msg => rfl
    | pop => rfl

theorem line_answered (hv : Valid cfg s) : ∃ queue lost, Line cfg s queue lost ∧
    s.asked.flatMap (answers s.logged) =
      controls (written s.sent ++ s.stage.inHand ++ lost ++ queue.inner) ++ s.stage.toAnswer := by
  obtain ⟨queue, lost, line⟩ := hv.line
  refine ⟨queue, lost, line, ?_⟩
  have all := congrArg (List.map Frame.msg) line.accounts.controls
  rw [List.map_append] at all
  have pushes := controls_pushed cfg.textLen (max cfg.queueBytes 1) s.calls
  rw [← hv.answers, ← pushes, ← line.popped]
  simp only [controls, List.filter_append, List.map_append]
  exact congrArg (· ++ s.stage.toAnswer) all

theorem Valid.sent_closes (hv : Valid cfg s) {before : List Sent} {w : Sent} {after : List Sent}
    (eq : s.sent = before ++ w :: after) (closes : w.closes = true) :
    after = [] ∧ s.stage.isOver = true ∧ ∃ reason ∈ s.signals, w = .closing reason := by
  obtain ⟨front, quiet, rfl | ⟨isOver, reason, isSignal, last⟩⟩ := hv.closes
  · have open_ := quiet w (by rw [eq]; simp)
    cases closes.symm.trans open_
  · rw [last] at eq
    obtain rfl | ⟨rest, v, rfl⟩ := List.eq_nil_or_concat' after
    · obtain ⟨_, same⟩ := List.append_inj' eq rfl
      exact ⟨rfl, isOver, reason, isSignal, (List.singleton_inj.mp same).symm⟩
    · have eq : front ++ [.closing reason] = (before ++ w :: rest) ++ [v] := by simpa using eq
      obtain ⟨same, _⟩ := List.append_inj' eq rfl
      have open_ := quiet w (by rw [same]; simp)
      cases closes.symm.trans open_

theorem Valid.sent_wanted (hv : Valid cfg s) {w : Sent} (mem : w ∈ s.sent) {e : StampedEvent}
    (isEvent : w.event? = some e) : Asked s.asked e.channel := by
  cases w with
  | queued frame =>
    obtain ⟨queue, lost, line⟩ := hv.line
    have isPopped : frame ∈ s.popped := by
      rw [line.popped]
      apply List.mem_append_left
      apply List.mem_append_left
      exact List.mem_filterMap.mpr ⟨_, mem, rfl⟩
    obtain ⟨row, rfl, asked⟩ | ⟨logged, command, msg, rfl, isAnswer⟩ := popped_cases hv isPopped
    · cases isEvent
      exact asked
    · obtain ⟨op, rfl⟩ | ⟨op, text, rfl⟩ | rfl := answers_control isAnswer <;> cases isEvent
  | streamed k msg =>
    obtain ⟨replay, found, inside⟩ := hv.shown _ mem k msg rfl
    cases msg with
    | event row =>
      cases isEvent
      exact hv.windows replay (List.mem_of_getElem? found) _ (mem_eventsOf.mpr inside)
    | _ => cases isEvent
  | _ => cases isEvent

/-- Whatever the client sends, whichever sends fail and whatever the rest of the server does:
the welcome comes first and a closing frame last, every command is answered once and in order,
replays are written whole and in one piece, events are ones the connection asked for, no ping
follows an unanswered one, and the entry goes only with the loop. -/
theorem socket_sound {cfg : Config} {s : State}
    (run : Runs.Reaches (Starts cfg) (step cfg) (fun _ _ => True) s) : Sound cfg s := by
  have hv : Valid cfg s := by
    apply run.invariant (Valid cfg)
    · rintro _ ⟨p, rfl⟩
      exact opened_valid cfg p
    · intro s a t _ hv _ hs
      exact step_valid hv hs
  constructor
  · exact hv.greets
  · exact fun before w after eq closes => hv.sent_closes eq closes
  · exact line_answered hv
  · exact hv.replays
  · intro k replay found
    have blocks := hv.streams.blocks k replay.frames (by rw [List.getElem?_map, found]; rfl)
    rwa [List.length_map] at blocks
  · exact fun w mem e isEvent => hv.sent_wanted mem isEvent
  · exact ⟨hv.pings, hv.beats.2⟩
  · exact fun missed => hv.beats.1.mp (hv.missed missed)
  · refine ⟨hv.entry, ?_⟩
    intro sub found
    obtain ⟨name, close, _⟩ := hv.sub sub found
    exact ⟨name, close⟩

/-! ## One connection -/

def oneConnection : Config where
  valueLen _ := 1
  textLen _ := 1
  checks := true
  read := Json.read
  name := "ci"
  queueLen := 4
  queueBytes := 64

/-- The client subscribes, an event is fanned out and the token is revoked. -/
def subscribed : List Action :=
  [.welcome true,
    .incoming (.text (Wire.toJson (SubClientMsg.subscribe ["dev.>"] none)).render) true, .answer,
    .plane (.stampInMemory (fun _ => 7) 0 [⟨"dev.a", ""⟩]), .plane (.push 0), .pop, .take,
    .send true, .pop, .take, .send true, .tick true, .closeNamed "ci" .revoked, .closeChanged true,
    .remove]

theorem socket_sound_subscribed : ∃ s, Sound oneConnection s ∧
    s.sent = [.welcome "ci", .queued ⟨.ok "subscribe", false, false⟩,
      .queued ⟨.event ⟨1, 7, 0, "dev.a", ""⟩, false, true⟩, .ping, .closing .revoked] ∧
    s.stage = .removed := by
  have run : ∃ s, Runs.exec (Runs.guarded (fun _ _ => True) (step oneConnection))
      (opened oneConnection ⟨.new, .idle, []⟩) subscribed = some s ∧
      s.sent = [.welcome "ci", .queued ⟨.ok "subscribe", false, false⟩,
        .queued ⟨.event ⟨1, 7, 0, "dev.a", ""⟩, false, true⟩, .ping, .closing .revoked] ∧
      s.stage = .removed := ⟨_, rfl, rfl, rfl⟩
  obtain ⟨s, ran, sent, removed⟩ := run
  exact ⟨s, socket_sound (Runs.reaches_of_exec _ (.start ⟨_, rfl⟩) ran), sent, removed⟩

end Whdr.SubscriberSocket
