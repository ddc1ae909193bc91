import Whdr.Ext.Mount
import Whdr.Server.Config

/-! What the ingest plane makes of a request, and a response of a reply (ingest.rs). -/
namespace Whdr.Ingest

open Ext (asBytes)

/-- A value of a header is any bytes the HTTP library lets through. -/
structure HttpRequest where
  method : String
  path : String
  query : Option String
  headers : List (String × List UInt8)
  body : List UInt8
  deriving DecidableEq

/-- The checks of the HTTP library: a header value as text, a status, and a header's name and
value from text. -/
structure HttpLibrary where
  toStr : List UInt8 → Option String
  isStatus : Nat → Bool
  headerName : String → Option String
  headerValue : String → Option (List UInt8)

structure Response where
  status : Nat
  headers : OrdMap String (List UInt8)
  body : String
  deriving DecidableEq

def toAsciiLowercase (s : String) : String := String.ofList (s.toList.map Char.toLower)

/-- Of a header given twice the last value stays. -/
def headerMapToBtree (http : HttpLibrary) (headers : List (String × List UInt8)) :
    OrdMap String String :=
  Serde.ofEntries (headers.filterMap fun header =>
    (http.toStr header.2).map fun value => (toAsciiLowercase header.1, value))

inductive DispatchError
  | busy
  | starting
  | timeout
  | dead
  | notFound
  deriving DecidableEq, Repr

def statusResponse (status : Nat) : Response := ⟨status, .empty, ""⟩

def errorResponse : DispatchError → Response
  | .busy => statusResponse 429
  | .starting => { statusResponse 503 with headers := OrdMap.empty.insert "retry-after" (asBytes "1") }
  | .timeout => statusResponse 504
  | .dead => statusResponse 503
  | .notFound => statusResponse 404

/-- A text comes with a content type, which the reply's own replaces. -/
def httpReplyToResponse (http : HttpLibrary) (reply : HttpReply) : Response :=
  let status := if http.isStatus reply.status then reply.status else 500
  let contentType := OrdMap.empty.insert "content-type" (asBytes "text/plain; charset=utf-8")
  let headers := reply.headers.entries.foldl (fun headers header =>
    match http.headerName header.1, http.headerValue header.2 with
    | some name, some value => headers.insert name value
    | _, _ => headers) contentType
  ⟨status, headers, reply.body⟩

/-- The message `ExtHandle::dispatch` sends, with the body in base64. -/
def dispatchMsg (http : HttpLibrary) (b64Encode : List UInt8 → String) (request : HttpRequest)
    (reqId : Uuid) (secret : Option String) : DispatchMsg :=
  ⟨reqId, request.method, request.path, request.query, headerMapToBtree http request.headers,
    b64Encode request.body, secret⟩

end Whdr.Ingest
