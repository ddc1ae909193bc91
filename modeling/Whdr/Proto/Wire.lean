import Whdr.Lib.Serde
import Whdr.Lib.UuidText
import Whdr.Proto.Messages

/-! The messages of the control plane and what serde derives for them (messages.rs): the tag
`type`, and each field with its attributes. -/
namespace Whdr

open Serde (Fields Value required omittable defaulted tagged struct string nat list ofOption map
  ofMap value)

inductive LogLevel
  | trace
  | debug
  | info
  | warn
  | error
  deriving DecidableEq, Repr

structure HttpReply where
  status : Nat
  headers : OrdMap String String
  body : String
  deriving DecidableEq

inductive ExtMsg
  | register (protocol : Nat) (id : Option String) (paths channels : List String) (info : Value)
  | result (reqId : Uuid) (http : HttpReply) (events : List Event)
  | event (ev : Event)
  | log (level : LogLevel) (msg : String)

structure DispatchMsg where
  reqId : Uuid
  method : String
  path : String
  query : Option String
  headers : OrdMap String String
  bodyB64 : String
  secret : Option String
  deriving DecidableEq

inductive SrvMsg
  | dispatch (msg : DispatchMsg)
  | shutdown
  deriving DecidableEq

inductive ControlRequest
  | status
  | tokenAdd (name : String)
  | tokenRotate (name : String)
  | tokenRevoke (name : String)
  | tokenList
  deriving DecidableEq, Repr

structure TokenSummary where
  name : String
  fingerprint : String
  created : String
  activeConns : Nat
  deriving DecidableEq, Repr

inductive ControlResponse
  | status (status : Value)
  | token (name token : String)
  | tokens (tokens : List TokenSummary)
  | ok
  | error (msg : String)

/-- A type with its derived encoder and decoder. `InRangeTo` says that the numbers of a value
are numbers of the source's types, that its free values hold no other number and that they nest
at most so many levels. -/
class Wire (α : Type) where
  toJson : α → Json
  ofJson : Json → Option α
  InRangeTo : Nat → α → Prop

namespace Wire

/-- Free values nest as deep as `serde_json` reads them inside of a message. -/
abbrev InRange {α : Type} [Wire α] (m : α) : Prop := InRangeTo 126 m

def u16Size : Nat := 2 ^ 16

def u32Size : Nat := 2 ^ 32

def uuidSize : Nat := 2 ^ 128

def tag (name : String) (fields : Fields) : Json := .obj (("type", .str name) :: fields)

def strings (items : List String) : Json := .arr (items.map .str)

def uuid (id : Uuid) : Json := .str (String.ofList (UuidText.hyphenated id))

def ofUuid (j : Json) : Option Uuid := (string j).bind fun text => UuidText.parse text.toList

/-! ## Parts of messages -/

def levelName : LogLevel → String
  | .trace => "trace"
  | .debug => "debug"
  | .info => "info"
  | .warn => "warn"
  | .error => "error"

def ofLogLevel (j : Json) : Option LogLevel :=
  match string j with
  | some "trace" => some .trace
  | some "debug" => some .debug
  | some "info" => some .info
  | some "warn" => some .warn
  | some "error" => some .error
  | _ => none

def eventFields (e : Event) : Fields := [("channel", .str e.channel), ("payload_b64", .str e.payloadB64)]

def ofEvent (fields : Fields) : Option Event := do
  let channel ← required fields "channel" string
  let payloadB64 ← required fields "payload_b64" string
  return ⟨channel, payloadB64⟩

def httpReply (http : HttpReply) : Json :=
  .obj [("status", .num http.status), ("headers", ofMap .str http.headers), ("body", .str http.body)]

def ofHttpReply (fields : Fields) : Option HttpReply := do
  let status ← required fields "status" (nat u16Size)
  let headers ← defaulted fields "headers" (map string) .empty
  let body ← defaulted fields "body" string ""
  return ⟨status, headers, body⟩

def closingReason : ClosingReason → Json
  | .shutdown => .str "shutdown"
  | .revoked => .str "revoked"

def ofClosingReason (j : Json) : Option ClosingReason :=
  match string j with
  | some "shutdown" => some .shutdown
  | some "revoked" => some .revoked
  | _ => none

def replayRequest (r : ReplayRequest) : Json := .obj [("after_seq", .num r.afterSeq)]

def ofReplayRequest (fields : Fields) : Option ReplayRequest := do
  let afterSeq ← required fields "after_seq" (nat u64Size)
  return ⟨afterSeq⟩

/-- A `usize` has 64 bits. -/
def tokenSummary (t : TokenSummary) : Json :=
  .obj [("name", .str t.name), ("fingerprint", .str t.fingerprint), ("created", .str t.created),
    ("active_conns", .num t.activeConns)]

def ofTokenSummary (fields : Fields) : Option TokenSummary := do
  let name ← required fields "name" string
  let fingerprint ← required fields "fingerprint" string
  let created ← required fields "created" string
  let activeConns ← required fields "active_conns" (nat u64Size)
  return ⟨name, fingerprint, created, activeConns⟩

/-! ## The six messages -/

instance : Wire ExtMsg where
  toJson
    | .register protocol id paths channels info => tag "register"
        [("protocol", .num protocol), ("id", ofOption .str id), ("paths", strings paths),
          ("channels", strings channels), ("meta", info.json)]
    | .result reqId http events => tag "result"
        [("req_id", uuid reqId), ("http", httpReply http),
          ("events", .arr (events.map fun e => .obj (eventFields e)))]
    | .event ev => tag "event" (eventFields ev)
    | .log level msg => tag "log" [("level", .str (levelName level)), ("msg", .str msg)]
  ofJson j := do
    let (name, fields) ← tagged "type" j
    match name with
    | "register" =>
      let protocol ← required fields "protocol" (nat u32Size)
      let id ← omittable fields "id" string
      let paths ← defaulted fields "paths" (list string) []
      let channels ← defaulted fields "channels" (list string) []
      let info ← defaulted fields "meta" value ⟨.null, trivial⟩
      return .register protocol id paths channels info
    | "result" =>
      let reqId ← required fields "req_id" ofUuid
      let http ← required fields "http" (struct ofHttpReply)
      let events ← defaulted fields "events" (list (struct ofEvent)) []
      return .result reqId http events
    | "event" =>
      let ev ← ofEvent fields
      return .event ev
    | "log" =>
      let level ← required fields "level" ofLogLevel
      let msg ← required fields "msg" string
      return .log level msg
    | _ => none
  InRangeTo levels
    | .register protocol _ _ _ info => protocol < u32Size ∧ info.json.FitsIn levels
    | .result reqId http _ => reqId < uuidSize ∧ http.status < u16Size
    | .event _ | .log _ _ => True

instance : Wire SrvMsg where
  toJson
    | .dispatch m => tag "dispatch"
        [("req_id", uuid m.reqId), ("method", .str m.method), ("path", .str m.path),
          ("query", ofOption .str m.query), ("headers", ofMap .str m.headers),
          ("body_b64", .str m.bodyB64), ("secret", ofOption .str m.secret)]
    | .shutdown => tag "shutdown" []
  ofJson j := do
    let (name, fields) ← tagged "type" j
    match name with
    | "dispatch" =>
      let reqId ← required fields "req_id" ofUuid
      let method ← required fields "method" string
      let path ← required fields "path" string
      let query ← omittable fields "query" string
      let headers ← defaulted fields "headers" (map string) .empty
      let bodyB64 ← required fields "body_b64" string
      let secret ← omittable fields "secret" string
      return .dispatch ⟨reqId, method, path, query, headers, bodyB64, secret⟩
    | "shutdown" => return .shutdown
    | _ => none
  InRangeTo _
    | .dispatch m => m.reqId < uuidSize
    | .shutdown => True

instance : Wire SubClientMsg where
  toJson
    | .subscribe patterns replay => tag "subscribe"
        [("patterns", strings patterns), ("replay", ofOption replayRequest replay)]
    | .unsubscribe patterns => tag "unsubscribe" [("patterns", strings patterns)]
    | .ping => tag "ping" []
  ofJson j := do
    let (name, fields) ← tagged "type" j
    match name with
    | "subscribe" =>
      let patterns ← required fields "patterns" (list string)
      let replay ← omittable fields "replay" (struct ofReplayRequest)
      return .subscribe patterns replay
    | "unsubscribe" =>
      let patterns ← required fields "patterns" (list string)
      return .unsubscribe patterns
    | "ping" => return .ping
    | _ => none
  InRangeTo _
    | .subscribe _ replay => ∀ r ∈ replay, r.afterSeq < u64Size
    | .unsubscribe _ | .ping => True

instance : Wire SubServerMsg where
  toJson
    | .welcome name => tag "welcome" [("name", .str name)]
    | .ok op => tag "ok" [("op", .str op)]
    | .error op msg => tag "error" [("op", .str op), ("msg", .str msg)]
    | .event e => tag "event"
        [("id", uuid e.id), ("seq", .num e.seq), ("ts_ms", .num e.tsMs), ("channel", .str e.channel),
          ("payload_b64", .str e.payloadB64)]
    | .replayed throughSeq => tag "replayed" [("through_seq", .num throughSeq)]
    | .replayGap fromSeq earliestSeq => tag "replay_gap"
        [("from_seq", .num fromSeq), ("earliest_seq", .num earliestSeq)]
    | .lagged dropped => tag "lagged" [("dropped", .num dropped)]
    | .pong => tag "pong" []
    | .closing reason => tag "closing" [("reason", closingReason reason)]
  ofJson j := do
    let (name, fields) ← tagged "type" j
    match name with
    | "welcome" =>
      let name ← required fields "name" string
      return .welcome name
    | "ok" =>
      let op ← required fields "op" string
      return .ok op
    | "error" =>
      let op ← required fields "op" string
      let msg ← required fields "msg" string
      return .error op msg
    | "event" =>
      let id ← required fields "id" ofUuid
      let seq ← required fields "seq" (nat u64Size)
      let tsMs ← required fields "ts_ms" (nat u64Size)
      let channel ← required fields "channel" string
      let payloadB64 ← required fields "payload_b64" string
      return .event ⟨seq, id, tsMs, channel, payloadB64⟩
    | "replayed" =>
      let throughSeq ← required fields "through_seq" (nat u64Size)
      return .replayed throughSeq
    | "replay_gap" =>
      let fromSeq ← required fields "from_seq" (nat u64Size)
      let earliestSeq ← required fields "earliest_seq" (nat u64Size)
      return .replayGap fromSeq earliestSeq
    | "lagged" =>
      let dropped ← required fields "dropped" (nat u64Size)
      return .lagged dropped
    | "pong" => return .pong
    | "closing" =>
      let reason ← required fields "reason" ofClosingReason
      return .closing reason
    | _ => none
  InRangeTo _
    | .event e => e.id < uuidSize ∧ e.seq < u64Size ∧ e.tsMs < u64Size
    | .replayed throughSeq => throughSeq < u64Size
    | .replayGap fromSeq earliestSeq => fromSeq < u64Size ∧ earliestSeq < u64Size
    | .lagged dropped => dropped < u64Size
    | .welcome _ | .ok _ | .error _ _ | .pong | .closing _ => True

instance : Wire ControlRequest where
  toJson
    | .status => tag "status" []
    | .tokenAdd name => tag "token.add" [("name", .str name)]
    | .tokenRotate name => tag "token.rotate" [("name", .str name)]
    | .tokenRevoke name => tag "token.revoke" [("name", .str name)]
    | .tokenList => tag "token.list" []
  ofJson j := do
    let (name, fields) ← tagged "type" j
    match name with
    | "status" => return .status
    | "token.add" =>
      let name ← required fields "name" string
      return .tokenAdd name
    | "token.rotate" =>
      let name ← required fields "name" string
      return .tokenRotate name
    | "token.revoke" =>
      let name ← required fields "name" string
      return .tokenRevoke name
    | "token.list" => return .tokenList
    | _ => none
  InRangeTo _ _ := True

instance : Wire ControlResponse where
  toJson
    | .status status => tag "status" [("status", status.json)]
    | .token name token => tag "token" [("name", .str name), ("token", .str token)]
    | .tokens tokens => tag "tokens" [("tokens", .arr (tokens.map tokenSummary))]
    | .ok => tag "ok" []
    | .error msg => tag "error" [("msg", .str msg)]
  ofJson j := do
    let (name, fields) ← tagged "type" j
    match name with
    | "status" =>
      let status ← required fields "status" value
      return .status status
    | "token" =>
      let name ← required fields "name" string
      let token ← required fields "token" string
      return .token name token
    | "tokens" =>
      let tokens ← required fields "tokens" (list (struct ofTokenSummary))
      return .tokens tokens
    | "ok" => return .ok
    | "error" =>
      let msg ← required fields "msg" string
      return .error msg
    | _ => none
  InRangeTo levels
    | .status status => status.json.FitsIn levels
    | .tokens tokens => ∀ t ∈ tokens, t.activeConns < u64Size
    | .token _ _ | .ok | .error _ => True

end Wire

end Whdr
