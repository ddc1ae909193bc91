import Whdr.Ext.Kit

/-! The dispatch handlers of the github, hmac and teams extensions. -/
namespace Whdr.Ext

open Ndjson (trim)

variable (crates : Crates)

/-! ## GitHub (whdr-ext-github) -/

namespace Github

def githubSignature (secret : String) (body : List UInt8) : String :=
  "sha256=" ++ hmacSha256Hex crates secret body

def channelToken (input : String) : String :=
  let trimmed := trimMatches '-' (input.toList.map tokenChar)
  if trimmed.isEmpty then "unknown" else String.ofList trimmed

/-- `ct_eq` of two strings' bytes is their equality. -/
def signed (m : DispatchMsg) (secret : String) (body : List UInt8) : Bool :=
  (headerValue m.headers "x-hub-signature-256").getD "" == githubSignature crates secret body

def handleGithubDispatch : SrvMsg → DispatchResult
  | .shutdown => .ok (textReply 200 "shutdown ignored", [])
  | .dispatch m => do
    let body ← decodeBodyB64 crates m.bodyB64
    match m.secret with
    | none => return (textReply 401 "missing secret", [])
    | some secret =>
      if !signed crates m secret body then return (textReply 401 "invalid signature", [])
      else
        let githubEvent := (headerValue m.headers "x-github-event").getD "unknown"
        match crates.fromSlice body with
        | none => .error (.error "parse github webhook json")
        | some parsed =>
          let action := ((get parsed.json "action").bind asStr).map channelToken
          let channel := "github." ++ channelToken githubEvent
          let channel := match action with
            | some action => if action.isEmpty then channel else channel ++ "." ++ action
            | none => channel
          return (textReply 200 "ok", [⟨channel, crates.b64Encode body⟩])

end Github

/-! ## HMAC (whdr-ext-hmac) -/

namespace Hmac

inductive Encoding
  | hex
  | base64
  deriving DecidableEq, Repr

structure HmacConfig where
  header : String
  algorithm : Algorithm
  encoding : Encoding
  sigPrefix : Option String
  channelPrefix : String

def Encoding.encode (encoding : Encoding) (bytes : List UInt8) : String :=
  match encoding with
  | .hex => crates.hexEncode bytes
  | .base64 => crates.b64Encode bytes

def Encoding.decode (encoding : Encoding) (value : String) : Option (List UInt8) :=
  match encoding with
  | .hex => crates.hexDecode value
  | .base64 => crates.b64Decode value

def stripPrefix (text front : String) : Option String :=
  if front.toList.isPrefixOf text.toList then
    some (String.ofList (text.toList.drop front.toList.length))
  else none

def channelToken (input : List Char) : List Char := trimMatches '-' (input.map tokenChar)

/-- The first segment of a path is the mount, and there is an empty one before it. -/
def deriveChannel (channelPrefix path : String) : String :=
  ((path.toList.splitOn '/').drop 2).foldl (fun channel segment =>
    let token := channelToken segment
    if token.isEmpty then channel else channel ++ "." ++ String.ofList token) channelPrefix

/-- The signature in the header, without the prefix. -/
def signature (config : HmacConfig) (header : String) : Option String :=
  match config.sigPrefix with
  | some front => stripPrefix header front
  | none => some header

def provided (config : HmacConfig) (signature : String) : Option (List UInt8) :=
  config.encoding.decode crates (String.ofList (trim signature.toList))

/-- The header value a provider would send. -/
def sign (config : HmacConfig) (secret : String) (body : List UInt8) : String :=
  let mac := crates.mac config.algorithm (asBytes secret) body
  let encoded := config.encoding.encode crates mac
  match config.sigPrefix with
  | some front => front ++ encoded
  | none => encoded

def handleHmacDispatch (config : HmacConfig) : SrvMsg → DispatchResult
  | .shutdown => .ok (textReply 200 "shutdown ignored", [])
  | .dispatch m => do
    let body ← decodeBodyB64 crates m.bodyB64
    match m.secret with
    | none => return (textReply 401 "missing secret", [])
    | some secret =>
      match headerValue m.headers config.header with
      | none => return (textReply 401 "missing signature header", [])
      | some header =>
        match signature config header with
        | none => return (textReply 401 "malformed signature", [])
        | some signature =>
          match provided crates config signature with
          | none => return (textReply 401 "malformed signature", [])
          | some provided =>
            let expected := crates.mac config.algorithm (asBytes secret) body
            if provided ≠ expected then return (textReply 401 "invalid signature", [])
            else
              return (textReply 200 "ok",
                [⟨deriveChannel config.channelPrefix m.path, crates.b64Encode body⟩])

end Hmac

/-! ## Teams (whdr-ext-teams) -/

namespace Teams

/-- A byte that is not the first of its character: slicing a string there panics. -/
def isContinuation (b : UInt8) : Bool := 0x80 ≤ b && b < 0xc0

/-- The value of an ASCII digit in base 16. -/
def hexByte (b : UInt8) : Option Nat :=
  if 48 ≤ b ∧ b ≤ 57 then some (b.toNat - 48)
  else if 97 ≤ b ∧ b ≤ 102 then some (b.toNat - 87)
  else if 65 ≤ b ∧ b ≤ 70 then some (b.toNat - 55)
  else none

/-- `u8::from_str_radix` of two bytes in base 16, which allows a plus in front. -/
def fromStrRadix (x y : UInt8) : Option Nat :=
  if x = 43 then hexByte y
  else do return (← hexByte x) * 16 + (← hexByte y)

/-- The loop over the bytes of the value; `none` is a panic. The slice after a `%` ends before
the third byte after it. -/
def percentDecode : List UInt8 → Option (List Char)
  | [] => some []
  | b :: rest =>
    if b = 43 then (percentDecode rest).map (' ' :: ·)
    else if b = 37 then
      match rest with
      | x :: y :: after =>
        if after.head?.any isContinuation then none
        else
          match fromStrRadix x y with
          | some hex => (percentDecode after).map (Char.ofNat hex :: ·)
          | none => (percentDecode (x :: y :: after)).map ('%' :: ·)
      | rest => (percentDecode rest).map ('%' :: ·)
    else (percentDecode rest).map (Char.ofNat b.toNat :: ·)

/-- `pair.split_once('=')`, with an empty value if there is no `=`. -/
def splitPair (pair : List Char) : List Char × List Char :=
  (pair.takeWhile (· ≠ '='), (pair.dropWhile (· ≠ '=')).drop 1)

/-- The value of the first parameter of the name, as it is in the query. -/
def rawToken (query : Option String) : Option String :=
  query.bind fun query =>
    (((query.toList.splitOn '&').map splitPair).find? fun pair =>
      pair.1 == "validationToken".toList).map fun pair => String.ofList pair.2

/-- `validation_token`: the decoded value, if there is one; an error is a panic. -/
def validationToken (query : Option String) : Except Stop (Option String) :=
  match rawToken query with
  | none => .ok none
  | some value =>
    match percentDecode (asBytes value) with
    | none => .error .panic
    | some token => .ok (some (String.ofList token))

/-- `replace("..", ".")`. -/
def replaceDots : List Char → List Char
  | '.' :: '.' :: rest => '.' :: replaceDots rest
  | c :: rest => c :: replaceDots rest
  | [] => []

def resourceChar (c : Char) : Char :=
  if c == '/' || c == '.' || c == ':' then '.' else tokenChar c

def resourceToChannel (resource : String) : String :=
  String.ofList (replaceDots (trimMatches '.' (resource.toList.map resourceChar)))

def clientState (item : Json) : String := ((get item "clientState").bind asStr).getD ""

/-- The loop over the items; `none` is the early return at the first wrong client state. -/
def collect (secret : String) (body : List UInt8) : List Json → List Event → Option (List Event)
  | [], events => some events
  | item :: rest, events =>
    if clientState item ≠ secret then none
    else
      match (get item "resource").bind asStr with
      | some resource =>
        collect secret body rest
          (events ++ [⟨"teams." ++ resourceToChannel resource, crates.b64Encode body⟩])
      | none => collect secret body rest events

def mayValidate (m : DispatchMsg) : Bool :=
  eqIgnoreAsciiCase m.method "GET" || eqIgnoreAsciiCase m.method "POST"

def validationReply (token : String) : HttpReply :=
  ⟨200, OrdMap.empty.insert "content-type" "text/plain", token⟩

/-- What follows when there is no token to echo. -/
def notification (m : DispatchMsg) : DispatchResult := do
  let body ← decodeBodyB64 crates m.bodyB64
  match crates.fromSlice body with
  | none => .error (.error "parse teams notification json")
  | some parsed =>
    match m.secret with
    | none => return (textReply 401 "missing clientState secret", [])
    | some secret =>
      match (get parsed.json "value").bind asArray with
      | none => return (textReply 202 "accepted", [])
      | some values =>
        match collect crates secret body values [] with
        | none => return (textReply 401 "invalid clientState", [])
        | some events => return (textReply 202 "accepted", events)

def handleTeamsDispatch : SrvMsg → DispatchResult
  | .shutdown => .ok (textReply 200 "shutdown ignored", [])
  | .dispatch m =>
    if mayValidate m then
      match validationToken m.query with
      | .error stop => .error stop
      | .ok (some token) => .ok (validationReply token, [])
      | .ok none => notification crates m
    else notification crates m

end Teams

end Whdr.Ext
