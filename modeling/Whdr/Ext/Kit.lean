import Whdr.Proto.Ndjson

/-! The extension side of the dispatch protocol (whdr-ext-kit): the loop over the server's
lines and what the handlers share. -/
namespace Whdr.Ext

open Ndjson (decodeLine)
open Wire (toJson InRange)

def protocolVersion : Nat := 1

/-- What stops a handler: an error it returns, or a panic. -/
inductive Stop
  | error (context : String)
  | panic
  deriving DecidableEq, Repr

/-- How the process ends. -/
inductive Exit
  | ok
  | malformedLine
  | stopped (stop : Stop)
  deriving DecidableEq, Repr

abbrev DispatchResult := Except Stop (HttpReply × List Event)

/-- What `main` registers an extension with, and its `handle_dispatch`. -/
structure Extension where
  id : String
  paths : List String
  channels : List String
  info : Serde.Value
  handleDispatch : SrvMsg → DispatchResult

/-- The loop over the lines of standard input: the messages written and how it ends. `read`
is the parser of `serde_json`. -/
def serve (read : List Char → Option Json) (handleDispatch : SrvMsg → DispatchResult) :
    List (List Char) → List ExtMsg × Exit
  | [] => ([], .ok)
  | line :: rest =>
    match (decodeLine read line : Except _ (Option SrvMsg)) with
    | .error _ => ([], .malformedLine)
    | .ok none => serve read handleDispatch rest
    | .ok (some .shutdown) => ([], .ok)
    | .ok (some (.dispatch m)) =>
      match handleDispatch (.dispatch m) with
      | .error stop => ([], .stopped stop)
      | .ok (http, events) =>
        let (written, exit) := serve read handleDispatch rest
        (.result m.reqId http events :: written, exit)

def runExtension (read : List Char → Option Json) (ext : Extension) (lines : List (List Char)) :
    List ExtMsg × Exit :=
  let register := .register protocolVersion (some ext.id) ext.paths ext.channels ext.info
  let (written, exit) := serve read ext.handleDispatch lines
  (register :: written, exit)

/-! ## What the handlers share -/

inductive Algorithm
  | sha1
  | sha256
  | sha512
  deriving DecidableEq, Repr

/-- The crates the handlers call: standard base64, hexadecimal, HMAC of a key and a body, and
`serde_json::from_slice` to a free value. -/
structure Crates where
  b64Encode : List UInt8 → String
  b64Decode : String → Option (List UInt8)
  hexEncode : List UInt8 → String
  hexDecode : String → Option (List UInt8)
  mac : Algorithm → List UInt8 → List UInt8 → List UInt8
  fromSlice : List UInt8 → Option Serde.Value

/-- `str::as_bytes`. -/
def asBytes (s : String) : List UInt8 := s.toList.flatMap String.utf8EncodeChar

def textReply (status : Nat) (body : String) : HttpReply := ⟨status, .empty, body⟩

def eqIgnoreAsciiCase (a b : String) : Bool := a.toList.map Char.toLower == b.toList.map Char.toLower

def headerValue (headers : OrdMap String String) (name : String) : Option String :=
  (headers.entries.find? fun entry => eqIgnoreAsciiCase entry.1 name).map Prod.snd

def decodeBodyB64 (crates : Crates) (bodyB64 : String) : Except Stop (List UInt8) :=
  match crates.b64Decode bodyB64 with
  | some body => .ok body
  | none => .error (.error "dispatch body is not valid base64")

def hmacSha256Hex (crates : Crates) (secret : String) (body : List UInt8) : String :=
  crates.hexEncode (crates.mac .sha256 (asBytes secret) body)

/-- `Value::get` of a key. -/
def get (j : Json) (key : String) : Option Json :=
  match j with
  | .obj fields => (fields.find? fun field => field.1 == key).map Prod.snd
  | _ => none

def asStr : Json → Option String
  | .str s => some s
  | _ => none

def asArray : Json → Option (List Json)
  | .arr items => some items
  | _ => none

def trimMatches (c : Char) (cs : List Char) : List Char :=
  ((cs.dropWhile (· == c)).reverse.dropWhile (· == c)).reverse

/-- A character of the channel grammar, or a hyphen. -/
def tokenChar (c : Char) : Char :=
  if ('a' ≤ c && c ≤ 'z') || ('0' ≤ c && c ≤ '9') || c == '_' || c == '-' then c
  else if 'A' ≤ c && c ≤ 'Z' then c.toLower
  else '-'

/-! ## The messages before the first shutdown -/

def requested : List SrvMsg → List DispatchMsg
  | [] => []
  | .shutdown :: _ => []
  | .dispatch m :: rest => m :: requested rest

/-- The request a written message answers. -/
def answers : ExtMsg → Option Uuid
  | .result reqId _ _ => some reqId
  | _ => none

/-- The extension registers, writes one result for each dispatch, in order and with its id,
and ends well. -/
def Serves (read : List Char → Option Json) (ext : Extension) (msgs : List SrvMsg) : Prop :=
  ∃ written, runExtension read ext (msgs.map fun m => (toJson m).render) =
      (.register protocolVersion (some ext.id) ext.paths ext.channels ext.info :: written, .ok) ∧
    written.map answers = (requested msgs).map fun m => some m.reqId

variable {read : List Char → Option Json} {ext : Extension}

/-- The loop serves the messages exactly if no handler call before the shutdown stops it. -/
theorem serve_ok_iff (correct : ∀ j : Json, j.Fits → read j.render = some j)
    (handle : SrvMsg → DispatchResult) (msgs : List SrvMsg) (inRange : ∀ m ∈ msgs, InRange m) :
    ((∃ written, serve read handle (msgs.map fun m => (toJson m).render) = (written, .ok) ∧
        written.map answers = (requested msgs).map fun m => some m.reqId) ↔
      ∀ m ∈ requested msgs, (handle (.dispatch m)).isOk = true) := by
  induction msgs with
  | nil => simp [serve, requested]
  | cons m rest ih =>
    have decoded := (Ndjson.decodeLine_render correct (inRange m List.mem_cons_self)).1
    have ih := ih fun n mem => inRange n (List.mem_cons_of_mem _ mem)
    rw [List.map_cons, serve, decoded]
    cases m with
    | shutdown => simp [requested]
    | dispatch m =>
      simp only [requested, List.forall_mem_cons, List.map_cons]
      cases answered : handle (.dispatch m) with
      | error stop => simp [Except.isOk, Except.toBool]
      | ok reply =>
        obtain ⟨http, events⟩ := reply
        rw [← ih]
        constructor
        · rintro ⟨written, eq, same⟩
          obtain ⟨rfl, ended⟩ := Prod.mk.inj eq
          exact ⟨rfl, _, Prod.ext rfl ended, (List.cons.inj same).2⟩
        · rintro ⟨_, written, eq, same⟩
          refine ⟨.result m.reqId http events :: written, ?_, ?_⟩
          · simp only [eq]
          · rw [List.map_cons, same]
            rfl

theorem serves_iff (correct : ∀ j : Json, j.Fits → read j.render = some j)
    (msgs : List SrvMsg) (inRange : ∀ m ∈ msgs, InRange m) :
    Serves read ext msgs ↔
      ∀ m ∈ requested msgs, (ext.handleDispatch (.dispatch m)).isOk = true := by
  rw [← serve_ok_iff correct ext.handleDispatch msgs inRange]
  constructor
  · rintro ⟨written, eq, same⟩
    refine ⟨written, ?_, same⟩
    simp only [runExtension, Prod.mk.injEq, List.cons.injEq, true_and] at eq
    exact Prod.ext eq.1 eq.2
  · rintro ⟨written, eq, same⟩
    exact ⟨written, by simp only [runExtension, eq], same⟩

end Whdr.Ext
