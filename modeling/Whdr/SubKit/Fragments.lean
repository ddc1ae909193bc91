import Whdr.SubKit.Kits
import Whdr.SubKit.WsFrames

/-! `recv` of the OCaml kit (connection.ml) on messages that come in fragments, with control
frames between them. -/
namespace Whdr.Fragments

open Kits.OCaml (parseServerFrame)
open WsFrames (Bytes frame readFrame readFrame_frame readFrame_shorter)

abbrev ServerMsg := Kits.Frame Kits.OCaml.ClosingReason

/-! ## recv -/

def opText : Nat := 0x1
def opClose : Nat := 0x8
def opPing : Nat := 0x9
def opPong : Nat := 0xA

/-- `parse_server_frame`, over yojson's reader. -/
def parse (read : Bytes → Option Json) (payload : Bytes) : Option ServerMsg :=
  (read payload).bind parseServerFrame

inductive Received
  | message (m : ServerMsg) (rest : Bytes)
  | failed (e : Kits.OCaml.Error)

/-- What the caller gets, without what is left of the stream. -/
def Received.result : Received → Except Kits.OCaml.Error ServerMsg
  | .message m _ => .ok m
  | .failed e => .error e

variable (read : Bytes → Option Json)

/-- The payloads answered with a pong, and what is received. A pong that cannot be written is
given up. -/
def recv (ic : Bytes) : List Bytes × Received :=
  match _got : readFrame ic with
  | .error .endOfFile => ([], .failed .connectionClosed)
  | .error .invalidArgument => ([], .failed .transport)
  | .ok ((opcode, payload), rest) =>
    if opcode = opText then
      match parse read payload with
      | some m => ([], .message m rest)
      | none => recv rest
    else if opcode = opPing then
      let (pongs, received) := recv rest
      (payload :: pongs, received)
    else if opcode = opClose then ([], .failed .connectionClosed)
    else recv rest
termination_by ic.length
decreasing_by all_goals exact readFrame_shorter _got

theorem recv_text {ic payload rest : Bytes} (got : readFrame ic = .ok ((opText, payload), rest)) :
    recv read ic =
      match parse read payload with
      | some m => ([], .message m rest)
      | none => recv read rest := by
  rw [recv]
  split <;> simp_all

theorem recv_ping {ic payload rest : Bytes} (got : readFrame ic = .ok ((opPing, payload), rest)) :
    recv read ic = (payload :: (recv read rest).1, (recv read rest).2) := by
  rw [recv]
  split <;> simp_all [opPing, opText]

/-- Pongs, continuations and binary frames are ignored. -/
theorem recv_other {ic payload rest : Bytes} {opcode : Nat}
    (got : readFrame ic = .ok ((opcode, payload), rest)) (text : opcode ≠ opText)
    (ping : opcode ≠ opPing) (close : opcode ≠ opClose) : recv read ic = recv read rest := by
  rw [recv]
  split <;> simp_all

variable {read} in
theorem recv_shorter {ic rest : Bytes} {pongs : List Bytes} {m : ServerMsg}
    (got : recv read ic = (pongs, .message m rest)) : rest.length < ic.length := by
  fun_induction recv read ic generalizing pongs with
  | case1 | case2 | case6 => cases got
  | case3 =>
    rename_i framed
    cases got
    exact readFrame_shorter framed
  | case4 =>
    rename_i framed ih
    exact Nat.lt_trans (ih got) (readFrame_shorter framed)
  | case5 =>
    rename_i again framed _ ih
    cases got
    exact Nat.lt_trans (ih again) (readFrame_shorter framed)
  | case7 =>
    rename_i framed _ _ _ ih
    exact Nat.lt_trans (ih got) (readFrame_shorter framed)

/-! ## A session -/

/-- `recv` again and again until it fails: the messages received and the pongs sent. -/
def session (ic : Bytes) : List ServerMsg × List Bytes :=
  match _got : recv read ic with
  | (pongs, .message m rest) =>
    let (messages, more) := session rest
    (m :: messages, pongs ++ more)
  | (pongs, .failed _) => ([], pongs)
termination_by ic.length
decreasing_by exact recv_shorter _got

variable {read} in
theorem session_message {ic rest : Bytes} {pongs : List Bytes} {m : ServerMsg}
    (got : recv read ic = (pongs, .message m rest)) :
    session read ic = (m :: (session read rest).1, pongs ++ (session read rest).2) := by
  rw [session]
  split <;> simp_all

variable {read} in
theorem session_failed {ic : Bytes} {pongs : List Bytes} {e : Kits.OCaml.Error}
    (got : recv read ic = (pongs, .failed e)) : session read ic = ([], pongs) := by
  rw [session]
  split <;> simp_all

variable {read} in
/-- Frames that only make for pongs do not change the messages of a session. -/
theorem session_pongs {ic rest : Bytes} {pongs : List Bytes}
    (got : recv read ic = (pongs ++ (recv read rest).1, (recv read rest).2)) :
    session read ic = ((session read rest).1, pongs ++ (session read rest).2) := by
  cases next : recv read rest with
  | mk more received =>
    rw [next] at got
    cases received with
    | message m left =>
      rw [session_message got, session_message next, List.append_assoc]
    | failed e => rw [session_failed got, session_failed next]

/-! ## Fragmented messages -/

/-- A ping or a pong of the server. -/
structure Control where
  isPing : Bool
  payload : Bytes
  short : payload.length ≤ 125

def Control.bytes (c : Control) : Bytes :=
  frame true none (if c.isPing then opPing else opPong) c.payload

/-- The payloads to be answered. -/
def pings (controls : List Control) : List Bytes :=
  (controls.filter Control.isPing).map Control.payload

/-- A text message in its first frame and the continuation frames, each after the control
frames in front of it. -/
structure Fragmented where
  first : Bytes
  later : List (List Control × Bytes)
  fits : (first ++ later.flatMap Prod.snd).length < 2 ^ 62

namespace Fragmented

def whole (m : Fragmented) : Bytes := m.first ++ m.later.flatMap Prod.snd

/-- The last frame has the final bit. -/
def laterBytes : List (List Control × Bytes) → Bytes
  | [] => []
  | (controls, piece) :: rest =>
    controls.flatMap Control.bytes ++ (frame rest.isEmpty none 0 piece ++ laterBytes rest)

def bytes (m : Fragmented) : Bytes :=
  frame m.later.isEmpty none opText m.first ++ laterBytes m.later

def controls (m : Fragmented) : List Control := m.later.flatMap Prod.fst

end Fragmented

theorem readFrame_control (c : Control) (rest : Bytes) :
    readFrame (c.bytes ++ rest) =
      .ok ((if c.isPing then opPing else opPong, c.payload), rest) := by
  have short := c.short
  refine readFrame_frame true (by simp) ?_ (by omega) rest
  split <;> decide

theorem recv_controls (controls : List Control) (rest : Bytes) :
    recv read (controls.flatMap Control.bytes ++ rest) =
      (pings controls ++ (recv read rest).1, (recv read rest).2) := by
  induction controls with
  | nil => rfl
  | cons c more ih =>
    have got := readFrame_control c (more.flatMap Control.bytes ++ rest)
    rw [List.flatMap_cons, List.append_assoc]
    cases isPing : c.isPing with
    | true =>
      rw [isPing] at got
      rw [recv_ping read got, ih]
      simp [pings, isPing]
    | false =>
      rw [isPing] at got
      rw [recv_other read got (by decide) (by decide) (by decide), ih]
      simp [pings, isPing]

/-- Continuation frames are passed over, and the pings between them answered. -/
theorem recv_later {later : List (List Control × Bytes)}
    (small : ∀ p ∈ later, p.2.length < 2 ^ 62) (rest : Bytes) :
    recv read (Fragmented.laterBytes later ++ rest) =
      (pings (later.flatMap Prod.fst) ++ (recv read rest).1, (recv read rest).2) := by
  induction later with
  | nil => rfl
  | cons p more ih =>
    obtain ⟨head, tail⟩ := List.forall_mem_cons.mp small
    have got : readFrame (frame more.isEmpty none 0 p.2 ++ (Fragmented.laterBytes more ++ rest)) =
        .ok ((0, p.2), Fragmented.laterBytes more ++ rest) :=
      readFrame_frame more.isEmpty (by simp) (by decide) head _
    simp only [Fragmented.laterBytes, List.append_assoc]
    rw [recv_controls read, recv_other read got (by decide) (by decide) (by decide), ih tail]
    simp [pings]

/-- A session goes on with what the first frame alone parses as. -/
theorem session_fragmented (m : Fragmented) (rest : Bytes) :
    session read (m.bytes ++ rest) =
      ((parse read m.first).toList ++ (session read rest).1,
        pings m.controls ++ (session read rest).2) ∧
    (recv read (m.bytes ++ rest)).2.result =
      match parse read m.first with
      | some msg => .ok msg
      | none => (recv read rest).2.result := by
  have fits := m.fits
  rw [List.length_append] at fits
  have small : ∀ p ∈ m.later, p.2.length < 2 ^ 62 := by
    intro p mem
    have part : p.2.length ≤ (m.later.flatMap Prod.snd).length :=
      (List.sublist_flatten_of_mem (List.mem_map_of_mem mem)).length_le
    omega
  have got : readFrame (m.bytes ++ rest) =
      .ok ((opText, m.first), Fragmented.laterBytes m.later ++ rest) := by
    rw [Fragmented.bytes, List.append_assoc]
    exact readFrame_frame m.later.isEmpty (by simp) (by decide) (by omega) _
  have first := recv_text read got
  have later := recv_later read small rest
  cases parsed : parse read m.first with
  | some msg =>
    rw [parsed] at first
    rw [session_message first, session_pongs later, first]
    exact ⟨rfl, rfl⟩
  | none =>
    rw [parsed] at first
    have passed := first.trans later
    rw [session_pongs passed, passed]
    exact ⟨rfl, rfl⟩

/-! ## The whole message -/

/-- The message in one frame. -/
def Fragmented.joined (m : Fragmented) : Fragmented := ⟨m.whole, [], by simpa [whole] using m.fits⟩

/-- The fragments come to what the one frame comes to: what `recv` returns, the messages of
the session, and a pong for each ping between the fragments. -/
structure Handled (read : Bytes → Option Json) (m : Fragmented) (rest : Bytes) : Prop where
  result : (recv read (m.bytes ++ rest)).2.result = (recv read (m.joined.bytes ++ rest)).2.result
  messages : (session read (m.bytes ++ rest)).1 = (session read (m.joined.bytes ++ rest)).1
  pongs : (session read (m.bytes ++ rest)).2 =
    pings m.controls ++ (session read (m.joined.bytes ++ rest)).2

/-- Messages, each after the control frames in front of it. -/
def streamBytes (stream : List (List Control × Fragmented)) : Bytes :=
  stream.flatMap fun p => p.1.flatMap Control.bytes ++ p.2.bytes

theorem handled_iff (read : Bytes → Option Json) (m : Fragmented) (rest : Bytes) :
    Handled read m rest ↔ parse read m.first = parse read m.whole := by
  obtain ⟨split, splitResult⟩ := session_fragmented read m rest
  obtain ⟨joined, joinedResult⟩ := session_fragmented read m.joined rest
  constructor
  · intro handled
    have messages := handled.messages
    rw [split, joined] at messages
    have lists := congrArg List.head? (List.append_cancel_right messages)
    rwa [Option.head?_toList, Option.head?_toList] at lists
  · intro same
    refine ⟨?_, ?_, ?_⟩
    · rw [splitResult, joinedResult, same]
      rfl
    · rw [split, joined, same]
      rfl
    · rw [split, joined]
      rfl

theorem session_stream {stream : List (List Control × Fragmented)}
    (same : ∀ p ∈ stream, parse read p.2.first = parse read p.2.whole) (rest : Bytes) :
    session read (streamBytes stream ++ rest) =
      (stream.filterMap (fun p => parse read p.2.whole) ++ (session read rest).1,
        pings (stream.flatMap fun p => p.1 ++ p.2.controls) ++ (session read rest).2) := by
  induction stream with
  | nil => rfl
  | cons p more ih =>
    obtain ⟨head, tail⟩ := List.forall_mem_cons.mp same
    have split : streamBytes (p :: more) ++ rest =
        p.1.flatMap Control.bytes ++ (p.2.bytes ++ (streamBytes more ++ rest)) := by
      simp [streamBytes]
    rw [split, session_pongs (recv_controls read p.1 _), (session_fragmented read p.2 _).1, ih tail,
      head]
    cases parsed : parse read p.2.whole <;> simp [pings, parsed]

/-- A fragmented message is handled as the whole one just when its first frame alone parses as
the whole does, and a stream of such messages is received as it was sent. -/
theorem fragments_handled_iff :
    (∀ m rest, Handled read m rest ↔ parse read m.first = parse read m.whole) ∧
    ∀ stream rest, (∀ p ∈ stream, parse read p.2.first = parse read p.2.whole) →
      session read (streamBytes stream ++ rest) =
        (stream.filterMap (fun p => parse read p.2.whole) ++ (session read rest).1,
          pings (stream.flatMap fun p => p.1 ++ p.2.controls) ++ (session read rest).2) :=
  ⟨handled_iff read, fun _ rest same => session_stream read same rest⟩

/-! ## An event in two frames -/

def eventText : Bytes :=
  ("\x7b\"type\":\"event\",\"id\":\"a\",\"seq\":7,\"ts_ms\":0,".toList ++
    "\"channel\":\"c\",\"payload_b64\":\"\"\x7d".toList).map fun c => UInt8.ofNat c.toNat

def newline : Bytes := [10]

/-- yojson's reader on the event, with or without a newline after it, and on any text that is no
JSON. -/
def readEvent (payload : Bytes) : Option Json :=
  if payload = eventText ∨ payload = eventText ++ newline then
    some (.obj [("type", .str "event"), ("id", .str "a"), ("seq", .num 7), ("ts_ms", .num 0),
      ("channel", .str "c"), ("payload_b64", .str "")])
  else none

def splitEvent : Fragmented where
  first := eventText.take 20
  later := [([⟨true, [1, 2], by decide⟩], eventText.drop 20)]
  fits := by decide

/-- The newline comes in a frame of its own, after a ping. -/
def endedEvent : Fragmented where
  first := eventText
  later := [([⟨true, [3], by decide⟩], newline)]
  fits := by decide

theorem splitEvent_whole : splitEvent.whole = eventText := by
  simp [splitEvent, Fragmented.whole]

theorem endedEvent_whole : endedEvent.whole = eventText ++ newline := by
  simp [endedEvent, Fragmented.whole]

theorem parse_eventText {payload : Bytes}
    (isEvent : payload = eventText ∨ payload = eventText ++ newline) :
    parse readEvent payload = some (.event ⟨"a", 7, 0, "c", ""⟩) := by
  rw [parse, readEvent, if_pos isEvent]
  rfl

/-- The event and its newline in two frames, a ping before each. -/
theorem fragments_handled_whole :
    session readEvent (streamBytes [([⟨true, [1, 2], by decide⟩], endedEvent)] ++ []) =
      ([.event ⟨"a", 7, 0, "c", ""⟩], [[1, 2], [3]]) := by
  have closed : recv readEvent [] = ([], .failed .connectionClosed) := by
    rw [recv]
    rfl
  have whole : parse readEvent endedEvent.whole = some (.event ⟨"a", 7, 0, "c", ""⟩) :=
    parse_eventText (.inr endedEvent_whole)
  have same : parse readEvent endedEvent.first = parse readEvent endedEvent.whole := by
    rw [whole]
    exact parse_eventText (.inl rfl)
  rw [(fragments_handled_iff readEvent).2 _ _ (List.forall_mem_singleton.mpr same),
    session_failed closed]
  simp only [List.filterMap_cons, whole]
  rfl

/-- The event in two frames is skipped. -/
theorem split_event_skipped : ¬Handled readEvent splitEvent [] := by
  rw [handled_iff, splitEvent_whole, parse_eventText (.inl rfl)]
  have broken : parse readEvent splitEvent.first = none := by
    rw [parse, readEvent, if_neg (by decide)]
    rfl
  rw [broken]
  simp

end Whdr.Fragments
