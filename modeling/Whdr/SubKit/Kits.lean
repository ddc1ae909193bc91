import Mathlib.Algebra.GroupWithZero.Nat
import Whdr.Lib.Sessions
import Whdr.SubKit.Resume
import Whdr.SubKit.SubscribeFrames

/-! The run loops of the five client kits: what each reads in a message, how it deduplicates,
what it does with a frame, and which of its errors end the run. -/
namespace Whdr.Kits

open Serde (Fields)
open Sessions (Received Flow)
open SubscribeFrames (Kit)

abbrev Text := List Char

variable {R E : Type}

/-! ## What a run shows -/

/-- An event as a handler gets it, with the id as text. -/
structure Delivered where
  id : String
  seq : Int
  tsMs : Int
  channel : String
  payloadB64 : String
  deriving DecidableEq, Repr

inductive Call
  | onEvent (event : Delivered)
  | onReplayed (throughSeq : Int)
  | onReplayGap (fromSeq earliestSeq : Int)
  | onLagged (dropped : Int)
  | onReplayUnavailable (msg : String)
  deriving DecidableEq, Repr

/-- A call of a handler hook, a cursor handed to the store, a subscribe frame. -/
inductive Act
  | call (call : Call)
  | save (cursor : Int)
  | subscribe (afterSeq : Int)
  deriving DecidableEq, Repr

/-- Whether a call fails with an application error, which may depend on all that was done
before it. -/
abbrev Handler := List Act → Call → Bool

structure Loop (R : Type) where
  resume : R
  acts : List Act
  deriving DecidableEq, Repr

namespace Loop

def act (s : Loop R) (a : Act) : Loop R := { s with acts := s.acts ++ [a] }

/-- Call a hook. If it fails, the session ends with the error `failed`. -/
def hook (s : Loop R) (handler : Handler) (c : Call) (failed : E)
    (after : Loop R → Flow (Loop R) E) : Flow (Loop R) E :=
  if handler s.acts c then .ends (s.act (.call c)) (.error failed) else after (s.act (.call c))

end Loop

/-! ## Messages -/

/-- The libraries below a kit: a reader of JSON, and a transport that gives up the connection
on a message of more bytes than its limit. -/
structure Library where
  read : Text → Option Json
  limit : Option Nat

def size (text : Text) : Nat := (text.map Char.utf8Size).sum

def Library.Takes (lib : Library) (text : Text) : Prop := ∀ limit ∈ lib.limit, size text ≤ limit

instance (lib : Library) (text : Text) : Decidable (lib.Takes text) :=
  inferInstanceAs (Decidable (∀ limit ∈ lib.limit, size text ≤ limit))

/-- The `recv` of every kit, which reads on after a frame it does not know. -/
def recv {F : Type} (lib : Library) (parse : Json → Option F) (text : Text) : Received F :=
  if lib.Takes text then
    match (lib.read text).bind parse with
    | some f => .frame f
    | none => .skipped
  else .broken

/-- The frames of the kits other than Rust's, which differ in what a closing reason is. -/
inductive Frame (Reason : Type)
  | welcome (name : String)
  | ok (op : String)
  | error (op msg : String)
  | event (event : Delivered)
  | replayed (throughSeq : Int)
  | replayGap (fromSeq earliestSeq : Int)
  | lagged (dropped : Int)
  | pong
  | closing (reason : Reason)
  deriving DecidableEq, Repr

def Frame.isWelcome {Reason : Type} : Frame Reason → Bool
  | .welcome _ => true
  | _ => false

/-! ## Deduplication by text -/

/-- `resumeState` of resume.go, `ResumeState` of _cursor.py and resume.ts, `t` of resume.ml:
the keys of a map or a set, and a queue with the oldest id in front. -/
structure Resume where
  cursor : Int
  seen : List String
  order : List String
  capacity : Int
  deriving DecidableEq, Repr

namespace Resume

def shouldProcess (r : Resume) (id : String) (seq : Int) : Bool :=
  decide (seq > r.cursor) && !r.seen.contains id

/-- Remember `id`, evicting the oldest beyond the capacity. -/
def remember (r : Resume) (id : String) : Resume :=
  if r.seen.contains id then r
  else
    let seen := id :: r.seen
    match r.order ++ [id] with
    | old :: rest =>
      if ((old :: rest).length : Int) > r.capacity then
        { r with seen := seen.filter (· != old), order := rest }
      else { r with seen := seen, order := old :: rest }
    | [] => { r with seen := seen }

def record (r : Resume) (id : String) (seq : Int) : Resume :=
  let r := r.remember id
  if seq > r.cursor then { r with cursor := seq } else r

end Resume

/-- `record` after a handled event, then `save`. -/
def Loop.record (s : Loop Resume) (ev : Delivered) : Loop Resume :=
  let resume := s.resume.record ev.id ev.seq
  ⟨resume, s.acts ++ [.save resume.cursor]⟩

/-! ## Rust: lib.rs, frame.rs, error.rs -/

namespace Rust

inductive Error
  | auth
  | http (status : Nat)
  | revoked
  | handler
  | cursorStore
  | transport
  | connectionClosed
  | request (msg : String)
  deriving DecidableEq, Repr

def Error.isFatal : Error → Bool
  | .auth | .revoked | .handler | .cursorStore | .request _ => true
  | .http _ | .transport | .connectionClosed => false

def isWelcome : SubServerMsg → Bool
  | .welcome _ => true
  | _ => false

def deliveredEvent (e : StampedEvent) : Delivered :=
  ⟨String.ofList (UuidText.hyphenated e.id), e.seq, e.tsMs, e.channel, e.payloadB64⟩

def dispatch (handler : Handler) (msg : SubServerMsg) (s : Loop ResumeState) :
    Flow (Loop ResumeState) Error :=
  match msg with
  | .event e =>
    if s.resume.shouldProcess e.id e.seq then
      s.hook handler (.onEvent (deliveredEvent e)) .handler fun s =>
        let resume := s.resume.record e.id e.seq
        .next ⟨resume, s.acts ++ [.save resume.cursor]⟩
    else .next s
  | .replayed throughSeq => s.hook handler (.onReplayed throughSeq) .handler .next
  | .replayGap fromSeq earliestSeq =>
    s.hook handler (.onReplayGap fromSeq earliestSeq) .handler .next
  | .lagged dropped => s.hook handler (.onLagged dropped) .handler fun s => .ends s (.ok ())
  | .error op msg =>
    if op = "replay" then s.hook handler (.onReplayUnavailable msg) .handler .next else .next s
  | .closing reason =>
    if Client.closingIsFatal reason then .ends s (.error .revoked) else .ends s (.ok ())
  | .welcome _ | .ok _ | .pong => .next s

def client (lib : Library) (handler : Handler) : Sessions.Client Text (Loop ResumeState) where
  Frame := SubServerMsg
  Error := Error
  recv := recv lib Wire.ofJson
  opens := isWelcome
  connected s := s.act (.subscribe s.resume.cursor)
  dispatch := dispatch handler
  broken := .transport
  closed := .connectionClosed
  fatal := Error.isFatal

/-- The builder has `dedup_capacity.max(1)` before `ResumeState::new`. -/
def start (cursor capacity : Nat) : Loop ResumeState :=
  ⟨ResumeState.new cursor (max capacity 1), []⟩

end Rust

/-! ## Go: run.go, frames.go, errors.go -/

namespace Go

/-- The case folding of encoding/json, as far as it reaches ASCII. -/
def foldRune (c : Char) : Char :=
  if c = '\u017f' then 's' else if c = '\u212a' then 'k' else c.toLower

def foldName (name : String) : List Char := name.toList.map foldRune

/-- What `json.Unmarshal` leaves in a field: a name matches in any case, the last value stays,
null changes nothing, and a value of another type is an error. -/
def field {α : Type} (fields : Fields) (name : String) (decode : Json → Option α) (zero : α) :
    Option α :=
  fields.foldlM
    (fun value given =>
      if foldName given.1 = foldName name then
        match given.2 with
        | .null => some value
        | j => decode j
      else some value)
    zero

def string (fields : Fields) (name : String) : Option String := field fields name Serde.string ""

def uint64 (fields : Fields) (name : String) : Option Int :=
  field fields name (fun j => (Serde.nat u64Size j).map Int.ofNat) 0

def parseFrame : Json → Option (Frame String)
  | .obj fields => do
    let type ← string fields "type"
    match type with
    | "welcome" =>
      let name ← string fields "name"
      return .welcome name
    | "ok" =>
      let op ← string fields "op"
      return .ok op
    | "error" =>
      let op ← string fields "op"
      let msg ← string fields "msg"
      return .error op msg
    | "event" =>
      let id ← string fields "id"
      let seq ← uint64 fields "seq"
      let tsMs ← uint64 fields "ts_ms"
      let channel ← string fields "channel"
      let payloadB64 ← string fields "payload_b64"
      return .event ⟨id, seq, tsMs, channel, payloadB64⟩
    | "replayed" =>
      let throughSeq ← uint64 fields "through_seq"
      return .replayed throughSeq
    | "replay_gap" =>
      let fromSeq ← uint64 fields "from_seq"
      let earliestSeq ← uint64 fields "earliest_seq"
      return .replayGap fromSeq earliestSeq
    | "lagged" =>
      let dropped ← uint64 fields "dropped"
      return .lagged dropped
    | "pong" => return .pong
    | "closing" =>
      let reason ← string fields "reason"
      return .closing reason
    | _ => none
  | _ => none

inductive Error
  | auth
  | revoked
  | connClosed
  | reconnect
  | http (status : Int)
  | handler
  | cursorStore
  | config (msg : String)
  deriving DecidableEq, Repr

def isFatal : Error → Bool
  | .auth | .revoked | .handler | .cursorStore | .config _ => true
  | .connClosed | .reconnect | .http _ => false

def dispatch (handler : Handler) (frame : Frame String) (s : Loop Resume) :
    Flow (Loop Resume) Error :=
  match frame with
  | .event ev =>
    if !s.resume.shouldProcess ev.id ev.seq then .next s
    else s.hook handler (.onEvent ev) .handler fun s => .next (s.record ev)
  | .replayed throughSeq => s.hook handler (.onReplayed throughSeq) .handler .next
  | .replayGap fromSeq earliestSeq =>
    s.hook handler (.onReplayGap fromSeq earliestSeq) .handler .next
  | .lagged dropped =>
    s.hook handler (.onLagged dropped) .handler fun s => .ends s (.error .reconnect)
  | .error op msg =>
    if op = "replay" then s.hook handler (.onReplayUnavailable msg) .handler .next else .next s
  | .closing reason =>
    if reason = "revoked" then .ends s (.error .revoked) else .ends s (.error .reconnect)
  | .welcome _ | .ok _ | .pong => .next s

def client (lib : Library) (handler : Handler) : Sessions.Client Text (Loop Resume) where
  Frame := Frame String
  Error := Error
  recv := recv lib parseFrame
  opens := Frame.isWelcome
  connected s := s.act (.subscribe s.resume.cursor)
  dispatch := dispatch handler
  broken := .connClosed
  closed := .connClosed
  fatal := isFatal

def defaultReadLimit : Nat := 8 * 2 ^ 20

/-- `dial` sets the limit of the transport. -/
def dial (lib : Library) (readLimit : Int) : Library :=
  { lib with limit := some (if readLimit ≤ 0 then defaultReadLimit else readLimit.toNat) }

def defaultDedupWindow : Int := 8192

def newResumeState (cursor capacity : Int) : Resume :=
  ⟨cursor, [], [], if capacity < 1 then 1 else capacity⟩

def start (cursor dedupWindow : Int) : Loop Resume :=
  ⟨newResumeState cursor (if dedupWindow ≤ 0 then defaultDedupWindow else dedupWindow), []⟩

end Go

/-! ## Python: _subscriber.py, _frames.py, _errors.py -/

/-- The value of a key in a dict or an object made from JSON, which is the last one given. -/
def last (fields : Fields) (key : String) : Option Json := fields.reverse.lookup key

namespace Python

def asStr (j : Json) : Option String := Serde.string j

/-- `_as_int`: integers only, and no bool. -/
def asInt : Json → Option Int
  | .num n => some n
  | _ => none

def parseFrame : Json → Option (Frame String)
  | .obj fields => do
    let kind ← (last fields "type").bind asStr
    match kind with
    | "event" =>
      let id ← (last fields "id").bind asStr
      let seq ← (last fields "seq").bind asInt
      let tsMs ← (last fields "ts_ms").bind asInt
      let channel ← (last fields "channel").bind asStr
      let payloadB64 ← (last fields "payload_b64").bind asStr
      return .event ⟨id, seq, tsMs, channel, payloadB64⟩
    | "welcome" =>
      let name ← (last fields "name").bind asStr
      return .welcome name
    | "ok" =>
      let op ← (last fields "op").bind asStr
      return .ok op
    | "error" =>
      let op ← (last fields "op").bind asStr
      let msg ← (last fields "msg").bind asStr
      return .error op msg
    | "replayed" =>
      let throughSeq ← (last fields "through_seq").bind asInt
      return .replayed throughSeq
    | "replay_gap" =>
      let fromSeq ← (last fields "from_seq").bind asInt
      let earliestSeq ← (last fields "earliest_seq").bind asInt
      return .replayGap fromSeq earliestSeq
    | "lagged" =>
      let dropped ← (last fields "dropped").bind asInt
      return .lagged dropped
    | "pong" => return .pong
    | "closing" =>
      let reason ← (last fields "reason").bind asStr
      return .closing reason
    | _ => none
  | _ => none

/-- What leaves a session: a `SubscriberError`, or the exception of a control hook as it is. -/
inductive Error
  | auth
  | http (status : Int)
  | revoked
  | handler
  | cursorStore
  | transport
  | connectionClosed
  | application
  deriving DecidableEq, Repr

/-- `run` catches a `SubscriberError` that is not fatal and nothing else. -/
def Error.leavesRun : Error → Bool
  | .auth | .revoked | .handler | .cursorStore | .application => true
  | .http _ | .transport | .connectionClosed => false

/-- `_dispatch_control`, whose hooks are not wrapped. -/
def dispatchControl (handler : Handler) (frame : Frame String) (s : Loop Resume) :
    Flow (Loop Resume) Error :=
  match frame with
  | .replayed throughSeq => s.hook handler (.onReplayed throughSeq) .application .next
  | .replayGap fromSeq earliestSeq =>
    s.hook handler (.onReplayGap fromSeq earliestSeq) .application .next
  | .lagged dropped => s.hook handler (.onLagged dropped) .application fun s => .ends s (.ok ())
  | .error op msg =>
    if op = "replay" then s.hook handler (.onReplayUnavailable msg) .application .next else .next s
  | .closing reason =>
    if reason = "revoked" then .ends s (.error .revoked) else .ends s (.ok ())
  | _ => .next s

def dispatch (handler : Handler) (frame : Frame String) (s : Loop Resume) :
    Flow (Loop Resume) Error :=
  match frame with
  | .event ev =>
    if s.resume.shouldProcess ev.id ev.seq then
      s.hook handler (.onEvent ev) .handler fun s => .next (s.record ev)
    else .next s
  | frame => dispatchControl handler frame s

def client (lib : Library) (handler : Handler) : Sessions.Client Text (Loop Resume) where
  Frame := Frame String
  Error := Error
  recv := recv lib parseFrame
  opens := Frame.isWelcome
  connected s := s.act (.subscribe s.resume.cursor)
  dispatch := dispatch handler
  broken := .connectionClosed
  closed := .connectionClosed
  fatal := Error.leavesRun

/-- `max(dedup_capacity, 1)` in `Subscriber` and again in `ResumeState`. -/
def start (cursor dedupCapacity : Int) : Loop Resume :=
  ⟨⟨cursor, [], [], max (max dedupCapacity 1) 1⟩, []⟩

end Python

/-! ## TypeScript: subscriber.ts, frames.ts, errors.ts -/

namespace TypeScript

/-- The double nearest to an integer, the even one of two. -/
def nearest (n : Nat) : Nat :=
  let unit := 2 ^ (n.log2 - 52)
  let low := n / unit
  let rest := n % unit
  if 2 * rest < unit ∨ 2 * rest = unit ∧ low % 2 = 0 then low * unit else (low + 1) * unit

/-- 2^1024: no double is as large. -/
def infinity : Nat := (2 ^ 256) ^ 4

/-- `JSON.parse` makes a double of a number, which may be infinite. The server writes no
fraction and no exponent, and such numbers are left out. -/
def asNumber : Json → Option Int
  | .num n => if nearest n.natAbs < infinity then some (n.sign * nearest n.natAbs) else none
  | _ => none

def asString (j : Json) : Option String := Serde.string j

def closingReason : Json → Option ClosingReason
  | .str "shutdown" => some .shutdown
  | .str "revoked" => some .revoked
  | _ => none

def parseServerFrame : Json → Option (Frame ClosingReason)
  | .obj fields =>
    match last fields "type" with
    | some (.str "welcome") => do
      let name ← (last fields "name").bind asString
      return .welcome name
    | some (.str "ok") => do
      let op ← (last fields "op").bind asString
      return .ok op
    | some (.str "error") => do
      let op ← (last fields "op").bind asString
      let msg ← (last fields "msg").bind asString
      return .error op msg
    | some (.str "event") => do
      let id ← (last fields "id").bind asString
      let seq ← (last fields "seq").bind asNumber
      let tsMs ← (last fields "ts_ms").bind asNumber
      let channel ← (last fields "channel").bind asString
      let payloadB64 ← (last fields "payload_b64").bind asString
      return .event ⟨id, seq, tsMs, channel, payloadB64⟩
    | some (.str "replayed") => do
      let throughSeq ← (last fields "through_seq").bind asNumber
      return .replayed throughSeq
    | some (.str "replay_gap") => do
      let fromSeq ← (last fields "from_seq").bind asNumber
      let earliestSeq ← (last fields "earliest_seq").bind asNumber
      return .replayGap fromSeq earliestSeq
    | some (.str "lagged") => do
      let dropped ← (last fields "dropped").bind asNumber
      return .lagged dropped
    | some (.str "pong") => some .pong
    | some (.str "closing") => do
      let reason ← (last fields "reason").bind closingReason
      return .closing reason
    | _ => none
  | _ => none

inductive Error
  | auth
  | http (status : Int)
  | revoked
  | handler
  | cursorStore
  | connectionClosed
  | request (msg : String)
  deriving DecidableEq, Repr

def Error.fatal : Error → Bool
  | .auth | .revoked | .handler | .cursorStore | .request _ => true
  | .http _ | .connectionClosed => false

/-- `#runSession`; `callHook` makes a `HandlerError` of what a hook throws. -/
def dispatch (handler : Handler) (frame : Frame ClosingReason) (s : Loop Resume) :
    Flow (Loop Resume) Error :=
  match frame with
  | .event event =>
    if s.resume.shouldProcess event.id event.seq then
      s.hook handler (.onEvent event) .handler fun s => .next (s.record event)
    else .next s
  | .replayed throughSeq => s.hook handler (.onReplayed throughSeq) .handler .next
  | .replayGap fromSeq earliestSeq =>
    s.hook handler (.onReplayGap fromSeq earliestSeq) .handler .next
  | .lagged dropped => s.hook handler (.onLagged dropped) .handler fun s => .ends s (.ok ())
  | .error op msg =>
    if op = "replay" then s.hook handler (.onReplayUnavailable msg) .handler .next else .next s
  | .closing reason =>
    if reason = .revoked then .ends s (.error .revoked) else .ends s (.ok ())
  | .welcome _ | .ok _ | .pong => .next s

def client (lib : Library) (handler : Handler) : Sessions.Client Text (Loop Resume) where
  Frame := Frame ClosingReason
  Error := Error
  recv := recv lib parseServerFrame
  opens := Frame.isWelcome
  connected s := s.act (.subscribe s.resume.cursor)
  dispatch := dispatch handler
  broken := .connectionClosed
  closed := .connectionClosed
  fatal := Error.fatal

/-- `Math.max(1, …)` in `WhdrSubscriber` and again in `ResumeState`. -/
def start (cursor dedupCapacity : Int) : Loop Resume :=
  ⟨⟨cursor, [], [], max 1 (max 1 dedupCapacity)⟩, []⟩

end TypeScript

/-! ## OCaml: client.ml, frame.ml, error.ml -/

namespace OCaml

/-- The signed number of the same 64 bits. -/
def int64 (n : Nat) : Int := (BitVec.ofNat 64 n).toInt

/-- A number above the signed range is read as unsigned, bit for bit. As in TypeScript, the
numbers with a fraction or an exponent are left out. -/
def toInt64 : Json → Option Int
  | .num (.ofNat n) => if n < 2 ^ 64 then some (int64 n) else none
  | .num (.negSucc n) => if n < 2 ^ 63 then some (.negSucc n) else none
  | _ => none

inductive ClosingReason
  | shutdown
  | revoked
  | unknownReason (reason : String)
  deriving DecidableEq, Repr

def closingIsFatal : ClosingReason → Bool
  | .revoked => true
  | .shutdown | .unknownReason _ => false

/-- `List.assoc_opt` finds the first field of a name. -/
def str (fields : Fields) (key : String) : Option String := (fields.lookup key).bind Serde.string

def i64 (fields : Fields) (key : String) : Option Int := (fields.lookup key).bind toInt64

def closingReason : Option String → ClosingReason
  | some "shutdown" => .shutdown
  | some "revoked" => .revoked
  | some other => .unknownReason other
  | none => .unknownReason ""

def parseServerFrame : Json → Option (Frame ClosingReason)
  | .obj fields => do
    let type ← str fields "type"
    match type with
    | "welcome" => (str fields "name").map .welcome
    | "ok" => (str fields "op").map .ok
    | "error" =>
      let op ← str fields "op"
      let msg ← str fields "msg"
      return .error op msg
    | "event" =>
      let id ← str fields "id"
      let seq ← i64 fields "seq"
      let tsMs ← i64 fields "ts_ms"
      let channel ← str fields "channel"
      let payloadB64 ← str fields "payload_b64"
      return .event ⟨id, seq, tsMs, channel, payloadB64⟩
    | "replayed" => (i64 fields "through_seq").map .replayed
    | "replay_gap" =>
      let fromSeq ← i64 fields "from_seq"
      let earliestSeq ← i64 fields "earliest_seq"
      return .replayGap fromSeq earliestSeq
    | "lagged" => (i64 fields "dropped").map .lagged
    | "pong" => some .pong
    | "closing" => some (.closing (closingReason (str fields "reason")))
    | _ => none
  | _ => none

inductive Error
  | auth
  | http (status : Int)
  | revoked
  | handler
  | cursorStore
  | transport
  | connectionClosed
  | request (msg : String)
  deriving DecidableEq, Repr

def Error.isFatal : Error → Bool
  | .auth | .revoked | .handler | .cursorStore | .request _ => true
  | .http _ | .transport | .connectionClosed => false

def dispatch (handler : Handler) (msg : Frame ClosingReason) (s : Loop Resume) :
    Flow (Loop Resume) Error :=
  match msg with
  | .event ev =>
    if s.resume.shouldProcess ev.id ev.seq then
      s.hook handler (.onEvent ev) .handler fun s => .next (s.record ev)
    else .next s
  | .replayed throughSeq => s.hook handler (.onReplayed throughSeq) .handler .next
  | .replayGap fromSeq earliestSeq =>
    s.hook handler (.onReplayGap fromSeq earliestSeq) .handler .next
  | .lagged dropped => s.hook handler (.onLagged dropped) .handler fun s => .ends s (.ok ())
  | .error op msg =>
    if op = "replay" then s.hook handler (.onReplayUnavailable msg) .handler .next else .next s
  | .closing reason =>
    if closingIsFatal reason then .ends s (.error .revoked) else .ends s (.ok ())
  | .welcome _ | .ok _ | .pong => .next s

def client (lib : Library) (handler : Handler) : Sessions.Client Text (Loop Resume) where
  Frame := Frame ClosingReason
  Error := Error
  recv := recv lib parseServerFrame
  opens := Frame.isWelcome
  connected s := s.act (.subscribe s.resume.cursor)
  dispatch := dispatch handler
  broken := .transport
  closed := .connectionClosed
  fatal := Error.isFatal

/-- `max 1` in `create` and again in `Resume.create`. -/
def start (cursor dedupCapacity : Int) : Loop Resume :=
  ⟨⟨cursor, [], [], max 1 (max 1 dedupCapacity)⟩, []⟩

end OCaml

/-! ## All kits -/

/-- What a store of the kit's cursor type loads for a number: u64 and uint64, int, number,
int64. -/
def loads (n : Nat) : Kit → Int
  | .rust | .go | .python => n
  | .typescript => TypeScript.nearest n
  | .ocaml => OCaml.int64 n

/-- A cursor that all five stores can hold. -/
structure Cursor where
  value : Nat
  held : ∀ kit, loads value kit = value

/-- What the five runs have in common. `readLimit` is a setting of the Go kit alone. -/
structure Setup where
  library : Kit → Library
  readLimit : Int
  handler : Handler
  cursor : Cursor
  capacity : Nat

/-- The acts of a run, and where it stopped if it did. -/
abbrev Outcome := List Act × Option (Nat × Nat)

def outcome (p : Loop R × Option (Nat × Nat)) : Outcome := (p.1.acts, p.2)

/-- The library with the limit the kit sets; OCaml's transport is its own and has none. -/
def Setup.transport (setup : Setup) (kit : Kit) : Library :=
  match kit with
  | .go => Go.dial (setup.library .go) setup.readLimit
  | .ocaml => { setup.library .ocaml with limit := none }
  | kit => setup.library kit

def Setup.run (setup : Setup) (sessions : List (List Text)) (kit : Kit) : Outcome :=
  let lib := setup.transport kit
  let cursor := loads setup.cursor.value kit
  match kit with
  | .rust => outcome
      ((Rust.client lib setup.handler).run sessions (Rust.start setup.cursor.value setup.capacity))
  | .go => outcome ((Go.client lib setup.handler).run sessions (Go.start cursor setup.capacity))
  | .python => outcome
      ((Python.client lib setup.handler).run sessions (Python.start cursor setup.capacity))
  | .typescript => outcome
      ((TypeScript.client lib setup.handler).run sessions (TypeScript.start cursor setup.capacity))
  | .ocaml => outcome
      ((OCaml.client lib setup.handler).run sessions (OCaml.start cursor setup.capacity))

end Whdr.Kits
